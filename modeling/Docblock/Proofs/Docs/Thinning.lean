import Docblock.Proofs.Docs.Heads
import Docblock.Proofs.Script.Defaults
import Docblock.Proofs.Tree.Comments

/-! Trees without some of the comments that document nothing. -/
namespace Docblock.Docs

open Docblock.Tree

variable {chosen : List Nat → Bool} {path : List Nat} {n : Nat} {t : Tree} {ts : List Tree}

/-- A comment that documents nothing. -/
def isAside : Tree → Bool
  | .node .comment _ [.text s] => !isDoc s.toList
  | _ => false

/-- A comment that documents what follows it, or marks it as private. -/
def isDocComment : Tree → Bool
  | .node .comment _ [.text s] => isDoc s.toList
  | _ => false

mutual
/-- A tree without the asides at the chosen places in its lists. A place is told by the positions
that lead to it, the innermost first. -/
def thin (chosen : List Nat → Bool) (path : List Nat) : Tree → Tree
  | .node k line fs => .node k line (thinFields chosen path 0 fs)
  | .list ts => .list (thinItems chosen path 0 ts)
  | t => t

/-- Items of a list, the first of them at a position. -/
def thinItems (chosen : List Nat → Bool) (path : List Nat) (n : Nat) : List Tree → List Tree
  | [] => []
  | t :: ts =>
    if isAside t && chosen (n :: path) then thinItems chosen path (n + 1) ts
    else thin chosen (n :: path) t :: thinItems chosen path (n + 1) ts

/-- Fields of a node, the first of them at a position. They all stay. -/
def thinFields (chosen : List Nat → Bool) (path : List Nat) (n : Nat) : List Tree → List Tree
  | [] => []
  | t :: ts => thin chosen (n :: path) t :: thinFields chosen path (n + 1) ts
end

@[simp] theorem isOf_thin (ks : List Kind) : (thin chosen path t).isOf ks = t.isOf ks := by
  cases t <;> rfl

@[simp] theorem isText_thin : (thin chosen path t).isText = t.isText := by
  cases t <;> rfl

/-- What holds of all items also when they are thinned holds of all that is left of them. -/
theorem all_thinItems {p : Tree → Bool} (hp : ∀ path t, p (thin chosen path t) = p t)
    (h : ts.all p = true) : (thinItems chosen path n ts).all p = true := by
  induction ts generalizing n with
  | nil => rfl
  | cons t ts ih =>
    rw [List.all_cons, Bool.and_eq_true] at h
    rw [thinItems]
    split
    · exact ih h.2
    · rw [List.all_cons, hp, h.1, ih h.2]
      rfl

/-! ### Shapes -/

/-- A check of nodes that fields pass also when they are thinned. -/
def Stable (chosen : List Nat → Bool) (p : Kind → Option Int → List Tree → Bool) : Prop :=
  ∀ k line fs path, p k line fs = true → p k line (thinFields chosen path 0 fs) = true

mutual
theorem everyNode_thin {p : Kind → Option Int → List Tree → Bool} (hp : Stable chosen p)
    (path : List Nat) (t : Tree) (h : t.everyNode p = true) :
    (thin chosen path t).everyNode p = true := by
  match t with
  | .node k line fs =>
    obtain ⟨hk, hfs⟩ := Bool.and_eq_true_iff.mp h
    rw [thin, everyNode, hp k line fs path hk, everyNodeIn_thinFields hp path 0 fs hfs]
    rfl
  | .list ts => exact everyNodeIn_thinItems hp path 0 ts h
  | .null | .bool _ | .int _ | .float _ | .text _ => rfl

theorem everyNodeIn_thinItems {p : Kind → Option Int → List Tree → Bool} (hp : Stable chosen p)
    (path : List Nat) (n : Nat) (ts : List Tree) (h : everyNodeIn p ts = true) :
    everyNodeIn p (thinItems chosen path n ts) = true := by
  match ts with
  | [] => rfl
  | t :: ts =>
    obtain ⟨ht, hts⟩ := Bool.and_eq_true_iff.mp h
    have hrest := everyNodeIn_thinItems hp path (n + 1) ts hts
    rw [thinItems]
    split
    · exact hrest
    · rw [everyNodeIn, everyNode_thin hp (n :: path) t ht, hrest]
      rfl

theorem everyNodeIn_thinFields {p : Kind → Option Int → List Tree → Bool} (hp : Stable chosen p)
    (path : List Nat) (n : Nat) (ts : List Tree) (h : everyNodeIn p ts = true) :
    everyNodeIn p (thinFields chosen path n ts) = true := by
  match ts with
  | [] => rfl
  | t :: ts =>
    obtain ⟨ht, hts⟩ := Bool.and_eq_true_iff.mp h
    rw [thinFields, everyNodeIn, everyNode_thin hp (n :: path) t ht,
      everyNodeIn_thinFields hp path (n + 1) ts hts]
    rfl
end

theorem classless_thin (h : t.classless = true) : (thin chosen path t).classless = true := by
  have hstable : Stable chosen fun k _ _ => k != .classDecl && k != .interfaceDecl :=
    fun _ _ _ _ hk => hk
  exact everyNode_thin hstable path t h

theorem stable_shape : Stable chosen shape := by
  intro k line fs path h
  have hkinds : ∀ ks path t, isOf ks (thin chosen path t) = isOf ks t := fun ks _ _ => isOf_thin ks
  have htexts : ∀ path t, isText (thin chosen path t) = isText t := fun _ _ => isText_thin
  cases k with
  | function =>
    simp only [shape] at h
    split at h
    · exact all_thinItems (hkinds _) h
    · cases h
  | method =>
    simp only [shape] at h
    split at h
    · rw [Bool.and_eq_true] at h
      exact Bool.and_eq_true_iff.mpr ⟨all_thinItems htexts h.1, all_thinItems (hkinds _) h.2⟩
    · cases h
  | formalParameter =>
    simp only [shape] at h
    split at h
    · rw [Bool.and_eq_true] at h
      exact Bool.and_eq_true_iff.mpr ⟨classless_thin h.1, classless_thin h.2⟩
    · cases h
  | classDecl | interfaceDecl | array =>
    simp only [shape] at h
    split at h
    · exact all_thinItems (hkinds _) h
    · cases h
  | classVariables =>
    simp only [shape] at h
    split at h
    · rw [Bool.and_eq_true] at h
      exact Bool.and_eq_true_iff.mpr ⟨all_thinItems htexts h.1, all_thinItems (hkinds _) h.2⟩
    · cases h
  | classVariable | constant | comment =>
    simp only [shape] at h
    split at h
    · rfl
    · cases h
  | _ => rfl

theorem shaped_thinItems (h : ∀ t ∈ ts, t.shaped = true) :
    ∀ t ∈ thinItems chosen path n ts, t.shaped = true :=
  everyNodeIn_iff.mp (everyNodeIn_thinItems stable_shape path n ts (everyNodeIn_iff.mpr h))

/-! ### What is kept -/

theorem isAside_of_comments (h : t.comments = 0) : isAside t = false := by
  unfold isAside
  split
  · rw [comments_comment] at h
    exact absurd h (Multiset.singleton_ne_zero _)
  · rfl

theorem commentsIn_of_node {k : Kind} {line : Option Int}
    (h : (Tree.node k line ts).comments = 0) : commentsIn ts = 0 := by
  by_cases hk : k = .comment
  · subst hk
    simp [comments, commentTexts, nodes, isOf] at h
  · rwa [comments_node hk] at h

theorem commentsIn_cons_eq_zero :
    commentsIn (t :: ts) = 0 ↔ t.comments = 0 ∧ commentsIn ts = 0 := by
  simp only [← Multiset.card_eq_zero, commentsIn_cons, Multiset.card_add, Nat.add_eq_zero_iff]

mutual
/-- Where there is no comment, nothing is left out. -/
theorem thin_quiet (path : List Nat) (t : Tree) (h : t.comments = 0) : thin chosen path t = t := by
  match t with
  | .node k line fs => rw [thin, thinFields_quiet path 0 fs (commentsIn_of_node h)]
  | .list ts => rw [thin, thinItems_quiet path 0 ts h]
  | .null | .bool _ | .int _ | .float _ | .text _ => rfl

theorem thinItems_quiet (path : List Nat) (n : Nat) (ts : List Tree) (h : commentsIn ts = 0) :
    thinItems chosen path n ts = ts := by
  match ts with
  | [] => rfl
  | t :: ts =>
    obtain ⟨ht, hts⟩ := commentsIn_cons_eq_zero.mp h
    rw [thinItems, isAside_of_comments ht, Bool.false_and, if_neg Bool.false_ne_true,
      thin_quiet (n :: path) t ht, thinItems_quiet path (n + 1) ts hts]

theorem thinFields_quiet (path : List Nat) (n : Nat) (ts : List Tree) (h : commentsIn ts = 0) :
    thinFields chosen path n ts = ts := by
  match ts with
  | [] => rfl
  | t :: ts =>
    obtain ⟨ht, hts⟩ := commentsIn_cons_eq_zero.mp h
    rw [thinFields, thin_quiet (n :: path) t ht, thinFields_quiet path (n + 1) ts hts]
end

theorem remarkOf_of_isOf (h : t.isOf [.comment] = false) : remarkOf t = .nothing :=
  remarkOf_eq (remark_of_isOf h)

theorem remarkOf_thin (h : t.shaped = true) : remarkOf (thin chosen path t) = remarkOf t := by
  cases hc : t.isOf [.comment] with
  | false => rw [remarkOf_of_isOf hc, remarkOf_of_isOf ((isOf_thin _).trans hc)]
  | true =>
    obtain ⟨line, fs, rfl⟩ := isOf_singleton hc
    obtain ⟨text, rfl⟩ := fields_of_shape (shaped_node.mp h).1
    rfl

/-- A comment that documents nothing says nothing, and so does a node of another kind. -/
theorem remarkOf_of_not_doc (h : isDocComment t = false) : remarkOf t = .nothing := by
  unfold remarkOf remark
  split
  · rename_i hr
    split at hr
    · rename_i s
      have hdoc : isDoc s.toList = false := h
      simpa [isPrivate, hdoc, eq_comm] using hr
    all_goals cases hr
    all_goals rfl
  · rfl

theorem isDocComment_of_aside (h : isAside t = true) : isDocComment t = false := by
  unfold isAside at h
  split at h
  · simpa [isDocComment] using h
  · cases h

theorem isOf_of_aside (h : isAside t = true) : t.isOf [.comment] = true := by
  unfold isAside at h
  split at h
  · rfl
  · cases h

theorem heads_aside (h : isAside t = true) : heads t = [] := by
  obtain ⟨line, fs, rfl⟩ := isOf_singleton (isOf_of_aside h)
  exact heads_other rfl

/-- The position of the body among the fields of a class or an interface. -/
def bodyField : Tree → Nat
  | .node .interfaceDecl _ _ => 2
  | _ => 4

theorem container?_thin {kind : EntryKind} {name : String}
    (h : container? t = some (kind, .text name, .list ts)) :
    container? (thin chosen path t) =
      some (kind, .text name, .list (thinItems chosen (bodyField t :: path) 0 ts)) := by
  unfold container? at h
  split at h
  all_goals cases h
  all_goals rfl

theorem container?_thin_none (ht : t.shaped = true) (h : container? t = none) :
    container? (thin chosen path t) = none := by
  cases form_of_shaped ht with
  | function | method | attributes => rfl
  | other ho => exact container?_of_other ((isOf_thin _).trans ho)
  | container hc => cases h.symm.trans hc

theorem body_thin (h : t.shaped = true) :
    body (thin chosen path t) = thinItems chosen (bodyField t :: path) 0 (body t) := by
  rcases container_or_none h with hc | ⟨kind, name, ns, hc, -, -⟩
  · rw [body_eq_nil hc, body_eq_nil (container?_thin_none h hc), thinItems]
  · rw [body_container hc, body_container (container?_thin hc)]

theorem commentsIn_texts (h : ∀ t ∈ ts, t.isText = true) : commentsIn ts = 0 := by
  induction ts with
  | nil => rfl
  | cons t ts ih =>
    obtain ⟨ht, hts⟩ := List.forall_mem_cons.mp h
    cases t with
    | text s => rw [commentsIn_cons, ih hts, comments_text, zero_add]
    | null | bool | int | float | list | node => cases ht

/-- The variables of a class all stay, with their names. -/
theorem map_thinItems_variables {α : Type} (g : String → α)
    (h : ∀ t ∈ ts, ∃ line name value, t = .node .classVariable line [.text name, value]) :
    (thinItems chosen path n ts).map (fun v => g (attributeName v)) =
      ts.map fun v => g (attributeName v) := by
  induction ts generalizing n with
  | nil => rfl
  | cons t ts ih =>
    obtain ⟨⟨line, name, value, rfl⟩, hts⟩ := List.forall_mem_cons.mp h
    have hstays : isAside (.node .classVariable line [.text name, value]) = false := rfl
    rw [thinItems, hstays, Bool.false_and, if_neg Bool.false_ne_true, List.map_cons, ih hts]
    rfl

/-- A declaration has the same heads when asides are left out of it, if there is none among its
parameters. -/
theorem heads_thin (h : t.shaped = true) (hq : commentsIn t.parameters = 0) :
    heads (thin chosen path t) = heads t := by
  cases form_of_shaped h with
  | @function line name s ps body ref hp hs =>
    have hps : thinItems chosen (1 :: path) 0 ps = ps := thinItems_quiet _ 0 ps hq
    simp only [thin, thinFields, hps]
    rw [heads, heads, callText_eq (by rw [signature, hs]), callText_eq (by rw [signature, hs])]
  | @method line name s ms ps body ref hm hp hs =>
    have hms : thinItems chosen (1 :: path) 0 ms = ms :=
      thinItems_quiet _ 0 ms (commentsIn_texts hm)
    have hps : thinItems chosen (2 :: path) 0 ps = ps := thinItems_quiet _ 0 ps hq
    simp only [thin, thinFields, hms, hps]
    rw [heads, heads, callText_eq (by rw [signature, hs]), callText_eq (by rw [signature, hs])]
  | @attributes line ms vs hm hv =>
    have hms : thinItems chosen (0 :: path) 0 ms = ms :=
      thinItems_quiet _ 0 ms (commentsIn_texts hm)
    simp only [thin, thinFields, hms]
    rw [heads, heads, map_thinItems_variables (Head.mk .attribute) hv]
  | container hc => rw [heads_container hc, heads_container (container?_thin hc)]
  | other ho => rw [heads_other ho, heads_other ((isOf_thin _).trans ho)]

/-! ### Comments that come to stand before a declaration -/

/-- Whether, once the chosen asides are left out, a node of some kind stands right before a
declaration that it did not stand before. `last` is the last node that stays, and `gap` says whether
any were left out behind it. -/
def meets (p : Tree → Bool) (chosen : List Nat → Bool) (path : List Nat) (n : Nat) (last : Tree)
    (gap : Bool) : List Tree → Bool
  | [] => false
  | t :: ts =>
    if isAside t && chosen (n :: path) then meets p chosen path (n + 1) last true ts
    else gap && p last && !(heads t).isEmpty || meets p chosen path (n + 1) t false ts

/-- If no comment comes to stand before a declaration, then what is left has what the nodes have at
their own places. Only nodes with heads count, and of the nodes before them only what they say. -/
theorem flatMap_thinItems {F : Tree → Tree → List Entry} {last kept kept' : Tree} {gap : Bool}
    (hF : ∀ last last' t, remarkOf last' = remarkOf last → F last' t = F last t)
    (hnone : ∀ last t, heads t = [] → F last t = [])
    (hs : ∀ t ∈ ts, t.shaped = true) (hq : ∀ t ∈ ts, commentsIn t.parameters = 0)
    (hm : meets isDocComment chosen path n kept gap ts = false)
    (hkept : remarkOf kept' = remarkOf kept)
    (hlast : remarkOf last = if gap then .nothing else remarkOf kept) :
    (pairs kept' (thinItems chosen path n ts)).flatMap (fun p => F p.1 p.2) =
      ((pairs last ts).zipIdx n).flatMap fun q => F q.1.1 (thin chosen (q.2 :: path) q.1.2) := by
  induction ts generalizing n last kept kept' gap with
  | nil => rfl
  | cons t ts ih =>
    obtain ⟨ht, hts⟩ := List.forall_mem_cons.mp hs
    obtain ⟨hqt, hqts⟩ := List.forall_mem_cons.mp hq
    have hheads : heads (thin chosen (n :: path) t) = heads t := heads_thin ht hqt
    rw [pairs_cons, List.zipIdx_cons, List.flatMap_cons, thinItems]
    rw [meets] at hm
    cases hdrop : isAside t && chosen (n :: path) with
    | true =>
      have haside := (Bool.and_eq_true_iff.mp hdrop).1
      rw [hdrop, if_pos rfl] at hm
      rw [if_pos rfl, hnone last _ (hheads.trans (heads_aside haside)), List.nil_append]
      exact ih hts hqts hm hkept (remarkOf_of_not_doc (isDocComment_of_aside haside))
    | false =>
      rw [hdrop, if_neg Bool.false_ne_true, Bool.or_eq_false_iff] at hm
      rw [if_neg Bool.false_ne_true, pairs_cons, List.flatMap_cons,
        ih hts hqts hm.2 (remarkOf_thin ht) rfl]
      congr 1
      cases hempty : (heads t).isEmpty with
      | true =>
        have hnil := hheads.trans (List.isEmpty_iff.mp hempty)
        rw [hnone _ _ hnil, hnone _ _ hnil]
      | false =>
        refine hF _ _ _ ?_
        rw [hkept, hlast]
        cases gap with
        | false => rfl
        | true =>
          have hdoc : isDocComment kept = false := by simpa [hempty] using hm.1
          exact remarkOf_of_not_doc hdoc

end Docblock.Docs
