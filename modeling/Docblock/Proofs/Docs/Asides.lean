import Docblock.Proofs.Docs.Options
import Docblock.Proofs.Docs.Thinning
import Docblock.Proofs.Grammar.Quiet
import Mathlib.Algebra.Order.BigOperators.Group.List
import Mathlib.Algebra.Ring.Int.Defs

/-! Comments that document nothing, and what the documentation shows of a source without them. -/
namespace Docblock.Docs

open Docblock.Tree Docblock.Filter

variable {o : Options} {level : Nat} {last last' t : Tree} {ts : List Tree} {targets : List String}
  {chosen : List Nat → Bool} {path : List Nat}

/-! ### Parameters without comments -/

/-- No parameter of a declaration, or of a member in its body, holds a comment. -/
def Unspoken (t : Tree) : Prop :=
  commentsIn t.parameters = 0 ∧ ∀ m ∈ body t, commentsIn m.parameters = 0

/-- Only declarations have parameters. -/
theorem parameters_of_nodes
    (h : ∀ n ∈ t.nodes, n.isOf declarationKinds = true → commentsIn n.parameters = 0) :
    commentsIn t.parameters = 0 := by
  cases t with
  | node k line fs =>
    cases hk : (Tree.node k line fs).isOf declarationKinds with
    | true => exact h _ List.mem_cons_self hk
    | false =>
      unfold parameters
      split <;> simp_all [isOf, declarationKinds]
  | null | bool | int | float | text | list => rfl

theorem nodes_body {m : Tree} (hm : m ∈ body t) : m.nodes ⊆ t.nodes := by
  have hlist : ∀ k line fs ns, Tree.list ns ∈ fs → m ∈ ns →
      m.nodes ⊆ (Tree.node k line fs).nodes := by
    intro k line fs ns hns hmem
    have hinner : m.nodes ⊆ (Tree.list ns).nodes := nodes_subset hmem
    exact fun n hn => List.mem_cons_of_mem _ (nodes_subset hns (hinner hn))
  unfold body at hm
  split at hm
  · rename_i hc
    unfold container? at hc
    split at hc
    all_goals cases hc
    all_goals exact hlist _ _ _ _ (by simp) hm
  · cases hm

theorem parse_unspoken {f g : Filter} {file : Option String} {text : List Char}
    (h : f.parse file text = (.ok ts, g)) : ∀ t ∈ ts, Unspoken t := by
  obtain ⟨-, -, d, -, hv⟩ := parse_ok h
  intro t ht
  have hquiet : ∀ n ∈ t.nodes, n.isOf declarationKinds = true → commentsIn n.parameters = 0 :=
    fun n hn hk => d.quiet hv (nodes_subset ht hn) hk
  exact ⟨parameters_of_nodes hquiet,
    fun m hm => parameters_of_nodes fun n hn => hquiet n (nodes_body hm hn)⟩

/-! ### Entries that stay -/

theorem heads_eq_nil_of_container (h : heads t = []) : container? t = none := by
  cases hc : container? t with
  | none => rfl
  | some c =>
    obtain ⟨kind, name, nodes⟩ := c
    rw [heads_container hc] at h
    cases h

theorem headEntries_congr (h : remarkOf last' = remarkOf last) :
    headEntries o level last' t = headEntries o level last t := by
  rw [headEntries, headEntries, h]

theorem headEntries_of_nil (h : heads t = []) : headEntries o level last t = [] := by
  rw [headEntries, h]
  rfl

theorem headEntries_heads {u : Tree} (h : heads u = heads t) :
    headEntries o level last u = headEntries o level last t := by
  rw [headEntries, headEntries, h]

theorem flatMap_zipIdx {α β : Type} (xs : List α) (n : Nat) (g : α → List β) :
    ((xs.zipIdx n).flatMap fun q => g q.1) = xs.flatMap g := by
  conv => rhs; rw [← List.zipIdx_map_fst n xs, List.flatMap_map]

/-- The position of a node among its neighbours. -/
theorem zipIdx_pairs {n : Nat} :
    ((pairs last ts).zipIdx n).map (fun q => (q.1.2, q.2)) = ts.zipIdx n := by
  induction ts generalizing last n with
  | nil => rfl
  | cons t ts ih => rw [pairs_cons, List.zipIdx_cons, List.zipIdx_cons, List.map_cons, ih]

theorem mem_zipIdx_pairs {q : (Tree × Tree) × Nat} {n : Nat} (h : q ∈ (pairs last ts).zipIdx n) :
    (q.1.2, q.2) ∈ ts.zipIdx n := by
  rw [← zipIdx_pairs]
  exact List.mem_map_of_mem h

/-- If no comment comes to stand before a member, the body has the same entries. -/
theorem bodyEntries_thin (ht : t.shaped = true) (hs : ∀ m ∈ body t, m.shaped = true)
    (hq : ∀ m ∈ body t, commentsIn m.parameters = 0)
    (hm : meets isDocComment chosen (bodyField t :: path) 0 .null false (body t) = false) :
    bodyEntries o (thin chosen path t) = bodyEntries o t := by
  have hwalk := flatMap_thinItems (F := headEntries o 1) (fun _ _ _ => headEntries_congr)
    (fun _ _ => headEntries_of_nil) hs hq hm rfl (Eq.refl (remarkOf .null))
  rw [bodyEntries, bodyEntries, body_thin ht, hwalk, ← flatMap_zipIdx (pairs .null (body t)) 0]
  congr 1
  refine List.flatMap_congr fun q hmem => headEntries_heads ?_
  have hbody := List.fst_mem_of_mem_zipIdx (mem_zipIdx_pairs hmem)
  exact heads_thin (hs _ hbody) (hq _ hbody)

theorem shaped_body (h : t.shaped = true) : ∀ m ∈ body t, m.shaped = true := by
  rcases container_or_none h with hc | ⟨kind, name, ns, hc, hs, -⟩
  · rw [body_eq_nil hc]
    exact fun m hm => nomatch hm
  · rw [body_container hc]
    exact hs

theorem ownEntries_congr (h : remarkOf last' = remarkOf last) :
    ownEntries o last' t = ownEntries o last t := by
  rw [ownEntries, ownEntries, h, headEntries_congr h]

theorem ownEntries_of_nil (h : heads t = []) : ownEntries o last t = [] := by
  rw [ownEntries, headEntries_of_nil h, bodyEntries, body_eq_nil (heads_eq_nil_of_container h)]
  simp

theorem askedEntries_congr (h : remarkOf last' = remarkOf last) :
    askedEntries o targets last' t = askedEntries o targets last t := by
  simp only [askedEntries, forcedEntry, h]

theorem askedEntries_of_nil (h : heads t = []) : askedEntries o targets last t = [] := by
  rw [askedEntries, askedClass?_none (heads_eq_nil_of_container h)]

theorem askedClass?_thin (h : t.shaped = true) :
    askedClass? targets (thin chosen path t) = askedClass? targets t := by
  rcases container_or_none h with hc | ⟨kind, name, ns, hc, -, -⟩
  · rw [askedClass?_none hc, askedClass?_none (container?_thin_none h hc)]
  · rw [askedClass?_container hc, askedClass?_container (container?_thin hc)]

/-- The entries for a node of which only a function that is asked for counts. -/
def callEntries (targets : List String) (last t : Tree) : List Entry :=
  ((askedFunction? targets t).map (forcedEntry last)).toList

theorem functionList_eq :
    functionList targets last ts =
      (pairs last ts).flatMap fun p => callEntries targets p.1 p.2 :=
  List.filterMap_eq_flatMap_toList _ _

theorem callEntries_congr (h : remarkOf last' = remarkOf last) :
    callEntries targets last' t = callEntries targets last t := by
  have hentry : forcedEntry last' = forcedEntry last := by
    funext head
    rw [forcedEntry, forcedEntry, h]
  rw [callEntries, callEntries, hentry]

theorem callEntries_of_nil (h : heads t = []) : callEntries targets last t = [] := by
  unfold callEntries askedFunction?
  split
  · cases h
  · rfl

theorem askedFunction?_thin (h : t.shaped = true) (hq : commentsIn t.parameters = 0) :
    askedFunction? targets (thin chosen path t) = askedFunction? targets t := by
  cases hk : t.isOf [.function] with
  | true =>
    obtain ⟨line, fs, rfl⟩ := isOf_singleton hk
    obtain ⟨name, ps, body, ref, rfl, -⟩ := fields_of_shape (shaped_node.mp h).1
    -- The head that is asked for is the only one of the function.
    have hhead : (heads (thin chosen path _)).head? = _ := congrArg List.head? (heads_thin h hq)
    simp only [thin, thinFields, heads, List.head?_cons] at hhead
    simp only [thin, thinFields, askedFunction?, hhead]
  | false =>
    have hnone : ∀ u : Tree, u.isOf [.function] = false → askedFunction? targets u = none := by
      intro u hu
      unfold askedFunction?
      split
      · cases hu
      · rfl
    rw [hnone _ hk, hnone _ ((isOf_thin _).trans hk)]

/-- Whether, once the chosen asides are left out of a source, a comment of some kind stands right
before a declaration that it did not stand before: at the outermost level, or in the body of a class
or an interface there. -/
def meetsIn (p : Tree → Bool) (chosen : List Nat → Bool) (ts : List Tree) : Bool :=
  meets p chosen [] 0 .null false ts ||
    ts.zipIdx.any fun q => meets p chosen [bodyField q.1, q.2] 0 .null false (body q.1)

/-- If no comment comes to stand before a declaration, nodes that each have the same entries without
the chosen asides have the same entries together. -/
theorem flatMap_thin {F : Tree → Tree → List Entry}
    (hF : ∀ last last' t, remarkOf last' = remarkOf last → F last' t = F last t)
    (hnone : ∀ last t, heads t = [] → F last t = [])
    (hs : ∀ t ∈ ts, t.shaped = true) (hq : ∀ t ∈ ts, Unspoken t)
    (hm : meets isDocComment chosen [] 0 .null false ts = false)
    (hsame : ∀ q ∈ ts.zipIdx, ∀ last, F last (thin chosen [q.2] q.1) = F last q.1) :
    (pairs .null (thinItems chosen [] 0 ts)).flatMap (fun p => F p.1 p.2) =
      (pairs .null ts).flatMap fun p => F p.1 p.2 := by
  have hwalk := flatMap_thinItems hF hnone hs (fun t ht => (hq t ht).1) hm rfl
    (Eq.refl (remarkOf .null))
  rw [hwalk, ← flatMap_zipIdx (pairs .null ts) 0]
  exact List.flatMap_congr fun q hmem => hsame _ (mem_zipIdx_pairs hmem) _

/-- If no comment comes to stand before a declaration, a directive makes the same entries. -/
theorem entryList_thin (d : Directive) (hs : ∀ t ∈ ts, t.shaped = true)
    (hq : ∀ t ∈ ts, Unspoken t) (hm : meetsIn isDocComment chosen ts = false) :
    d.entryList o targets (thinItems chosen [] 0 ts) = d.entryList o targets ts := by
  obtain ⟨houter, hinner⟩ := Bool.or_eq_false_iff.mp hm
  rw [List.any_eq_false] at hinner
  have hbody : ∀ q ∈ ts.zipIdx, bodyEntries o (thin chosen [q.2] q.1) = bodyEntries o q.1 := by
    intro q hmem
    have hq' := List.fst_mem_of_mem_zipIdx hmem
    exact bodyEntries_thin (hs _ hq') (shaped_body (hs _ hq')) (hq _ hq').2
      (Bool.eq_false_iff.mpr (hinner q hmem))
  have hheads : ∀ q ∈ ts.zipIdx, heads (thin chosen [q.2] q.1) = heads q.1 := by
    intro q hmem
    have hq' := List.fst_mem_of_mem_zipIdx hmem
    exact heads_thin (hs _ hq') (hq _ hq').1
  cases d with
  | plain => rfl
  | allOfModule =>
    refine flatMap_thin (fun _ _ _ => ownEntries_congr) (fun _ _ => ownEntries_of_nil) hs hq
      houter ?_
    intro q hmem last
    rw [ownEntries, ownEntries, headEntries_heads (hheads q hmem), hbody q hmem]
  | classes =>
    refine flatMap_thin (fun _ _ _ => askedEntries_congr) (fun _ _ => askedEntries_of_nil) hs hq
      houter ?_
    intro q hmem last
    rw [askedEntries, askedEntries, askedClass?_thin (hs _ (List.fst_mem_of_mem_zipIdx hmem)),
      hbody q hmem]
  | function =>
    rw [Directive.entryList, Directive.entryList, functionList_eq, functionList_eq]
    refine congrArg (List.take 1) ?_
    refine flatMap_thin (fun _ _ _ => callEntries_congr) (fun _ _ => callEntries_of_nil) hs hq
      houter ?_
    intro q hmem last
    have hq' := List.fst_mem_of_mem_zipIdx hmem
    rw [callEntries, callEntries, askedFunction?_thin (hs _ hq') (hq _ hq').1]

/-! ### Entries that change -/

/-- How many lines an entry has after a remark. -/
def Remark.size (o : Options) : Remark → Nat
  | .nothing => if o.undocMembers then 2 else 0
  | .isPrivate => 0
  | .text ls => ls.length + 3

/-- Lines count for entries where only what has a comment is documented, and against them where
everything is. -/
def sign (o : Options) : Int := if o.undocMembers then -1 else 1

def weight (o : Options) (r : Remark) : Int := sign o * r.size o

def lineTally (o : Options) (domain : String) (es : List Entry) : Int :=
  sign o * (entryLines domain es).length

theorem lineTally_append (domain : String) (es es' : List Entry) :
    lineTally o domain (es ++ es') = lineTally o domain es + lineTally o domain es' := by
  rw [lineTally, entryLines, List.flatMap_append, List.length_append, Int.natCast_add, Int.mul_add]
  rfl

theorem lineTally_flatMap {α : Type} (domain : String) (xs : List α) (F : α → List Entry) :
    lineTally o domain (xs.flatMap F) = (xs.map fun x => lineTally o domain (F x)).sum := by
  induction xs with
  | nil => simp [lineTally, entryLines]
  | cons x xs ih => rw [List.flatMap_cons, lineTally_append, ih, List.map_cons, List.sum_cons]

theorem lineTally_entry (domain : String) (kind : EntryKind) (name : String) (r : Remark) :
    lineTally o domain (entry o false level kind name r) = weight o r := by
  have hlength : (entryLines domain (entry o false level kind name r)).length = r.size o := by
    cases r with
    | nothing =>
      cases ho : o.undocMembers <;> simp [entry, entryLines, Entry.lines, Remark.size, ho]
    | isPrivate => rfl
    | text ls => simp [entry, entryLines, Entry.lines, Remark.size]
  rw [lineTally, weight, hlength]

theorem lineTally_headEntries (domain : String) :
    lineTally o domain (headEntries o level last t) =
      (heads t).length * weight o (remarkOf last) := by
  simp only [headEntries, lineTally_flatMap, lineTally_entry, List.map_const',
    List.sum_replicate_int]

/-- The sum of the weights of remarks over the heads that follow them. -/
def weigh (w : Remark → Int) (ps : List (Tree × Tree)) : Int :=
  (ps.map fun p => (heads p.2).length * w (remarkOf p.1)).sum

@[simp] theorem weigh_cons {w : Remark → Int} {p : Tree × Tree} {ps : List (Tree × Tree)} :
    weigh w (p :: ps) = (heads p.2).length * w (remarkOf p.1) + weigh w ps :=
  List.sum_cons

/-- A node that says what weighs more than nothing. -/
def isHeavier (w : Remark → Int) (t : Tree) : Bool := w .nothing < w (remarkOf t)

/-- A node that says what weighs less than nothing. -/
def isLighter (w : Remark → Int) (t : Tree) : Bool := w (remarkOf t) < w .nothing

/-- If only comments that weigh more than none come to stand before declarations, the weight does
not get less, and it gets more if one does. -/
theorem weigh_thinItems {w : Remark → Int} {kept kept' : Tree} {gap : Bool} {n : Nat}
    (hs : ∀ t ∈ ts, t.shaped = true) (hq : ∀ t ∈ ts, commentsIn t.parameters = 0)
    (hm : meets (isLighter w) chosen path n kept gap ts = false)
    (hkept : remarkOf kept' = remarkOf kept)
    (hlast : remarkOf last = if gap then .nothing else remarkOf kept) :
    weigh w (pairs last ts) ≤ weigh w (pairs kept' (thinItems chosen path n ts)) ∧
      (meets (isHeavier w) chosen path n kept gap ts = true →
        weigh w (pairs last ts) < weigh w (pairs kept' (thinItems chosen path n ts))) := by
  induction ts generalizing n last kept kept' gap with
  | nil => exact ⟨le_rfl, fun h => nomatch h⟩
  | cons t ts ih =>
    obtain ⟨ht, hts⟩ := List.forall_mem_cons.mp hs
    obtain ⟨hqt, hqts⟩ := List.forall_mem_cons.mp hq
    rw [thinItems, meets]
    rw [meets] at hm
    cases hdrop : isAside t && chosen (n :: path) with
    | true =>
      have haside := (Bool.and_eq_true_iff.mp hdrop).1
      have hzero : weigh w (pairs last (t :: ts)) = weigh w (pairs t ts) := by
        simp [heads_aside haside]
      rw [hdrop, if_pos rfl] at hm
      rw [hzero, if_pos rfl, if_pos rfl]
      exact ih hts hqts hm hkept (remarkOf_of_not_doc (isDocComment_of_aside haside))
    | false =>
      rw [hdrop, if_neg Bool.false_ne_true, Bool.or_eq_false_iff] at hm
      obtain ⟨hle, hlt⟩ := @ih t t (thin chosen (n :: path) t) false (n + 1) hts hqts hm.2
        (remarkOf_thin ht) rfl
      rw [if_neg Bool.false_ne_true, if_neg Bool.false_ne_true, pairs_cons, pairs_cons, weigh_cons,
        weigh_cons, heads_thin ht hqt, hkept]
      -- Before this declaration, the remark changes only if something was left out there.
      cases hnew : gap && !(heads t).isEmpty with
      | false =>
        have hsame : ((heads t).length : Int) * w (remarkOf last) =
            (heads t).length * w (remarkOf kept) := by
          cases gap with
          | false => rw [hlast]; rfl
          | true => simp_all
        have hmeets : (gap && isHeavier w kept && !(heads t).isEmpty) = false := by
          rw [Bool.and_right_comm, hnew, Bool.false_and]
        rw [hsame, hmeets, Bool.false_or]
        exact ⟨Int.add_le_add_left hle _, fun h => Int.add_lt_add_left (hlt h) _⟩
      | true =>
        obtain ⟨rfl, hheads⟩ := Bool.and_eq_true_iff.mp hnew
        have hpos : 0 < ((heads t).length : Int) := by
          simpa [List.length_pos_iff] using hheads
        rw [if_pos rfl] at hlast
        have hw : w .nothing ≤ w (remarkOf kept) := by
          simpa [hheads, isLighter] using hm.1
        rw [hlast]
        refine ⟨Int.add_le_add (Int.mul_le_mul_of_nonneg_left hw hpos.le) hle, fun h => ?_⟩
        rw [Bool.or_eq_true] at h
        obtain h | h := h
        · have hw' : w .nothing < w (remarkOf kept) := by
            simpa [hheads, isHeavier] using h
          exact Int.add_lt_add_of_lt_of_le (Int.mul_lt_mul_of_pos_left hw' hpos) hle
        · exact Int.add_lt_add_of_le_of_lt (Int.mul_le_mul_of_nonneg_left hw hpos.le) (hlt h)

/-- The lines of declarations weigh what the remarks before them weigh. -/
theorem weigh_pairs (domain : String) (ps : List (Tree × Tree)) :
    weigh (weight o) ps =
      lineTally o domain (ps.flatMap fun p => headEntries o level p.1 p.2) := by
  simp only [weigh, lineTally_flatMap, lineTally_headEntries]

theorem meets_or {p q : Tree → Bool} {n : Nat} {gap : Bool} :
    meets (fun t => p t || q t) chosen path n last gap ts =
      (meets p chosen path n last gap ts || meets q chosen path n last gap ts) := by
  induction ts generalizing n last gap with
  | nil => rfl
  | cons t ts ih =>
    rw [meets, meets, meets]
    split
    · exact ih
    · rw [ih]
      cases gap <;> cases p last <;> cases q last <;> cases (heads t).isEmpty <;> simp

theorem meets_false {n : Nat} {gap : Bool} :
    meets (fun _ => false) chosen path n last gap ts = false := by
  induction ts generalizing n last gap with
  | nil => rfl
  | cons t ts ih =>
    rw [meets, ih, ih]
    simp

theorem remarkOf_ne_nothing (h : isDocComment t = true) : remarkOf t ≠ .nothing := by
  unfold isDocComment at h
  split at h
  · rw [remarkOf, remark, if_pos h]
    split_ifs <;> simp
  · cases h

theorem isLighter_documented (members : Bool) :
    isLighter (weight ⟨members, false⟩) = fun _ => false := by
  funext t
  cases hr : remarkOf t <;> simp [isLighter, weight, sign, Remark.size, hr]
  omega

theorem isLighter_undocumented (members : Bool) :
    isLighter (weight ⟨members, true⟩) = isHeavier (weight ⟨members, false⟩) := by
  funext t
  cases hr : remarkOf t <;> simp [isLighter, isHeavier, weight, sign, Remark.size, hr]
  omega

/-- Each documenting comment makes a difference, under one of the options or the other. -/
theorem isDocComment_eq (members : Bool) :
    isDocComment = fun t =>
      isHeavier (weight ⟨members, false⟩) t || isHeavier (weight ⟨members, true⟩) t := by
  funext t
  cases hdoc : isDocComment t with
  | false => simp [isHeavier, remarkOf_of_not_doc hdoc]
  | true =>
    cases hr : remarkOf t with
    | nothing => exact absurd hr (remarkOf_ne_nothing hdoc)
    | isPrivate => simp [isHeavier, weight, sign, Remark.size, hr]
    | text ls =>
      simp [isHeavier, weight, sign, Remark.size, hr]
      omega

/-- What excludes comments that weigh more than nothing, once it excludes those that weigh less,
excludes all documenting comments: first those with a text, then those that mark private code. -/
theorem excludes_doc {P : (Tree → Bool) → Prop} (hfalse : P fun _ => false)
    (hor : ∀ p q, P p → P q → P fun t => p t || q t) (members : Bool)
    (hstep : ∀ undoc, P (isLighter (weight ⟨members, undoc⟩)) →
      P (isHeavier (weight ⟨members, undoc⟩))) : P isDocComment := by
  have htext : P (isHeavier (weight ⟨members, false⟩)) := by
    refine hstep false ?_
    rwa [isLighter_documented]
  have hprivate : P (isHeavier (weight ⟨members, true⟩)) := by
    refine hstep true ?_
    rwa [isLighter_undocumented]
  rw [isDocComment_eq members]
  exact hor _ _ htext hprivate

/-! ### What a document shows -/

/-- Declarations weigh the same with and without the chosen asides just if no comment that weighs
more than nothing comes to stand before one of them. -/
theorem meets_heavier (hs : ∀ t ∈ ts, t.shaped = true)
    (hq : ∀ t ∈ ts, commentsIn t.parameters = 0) (w : Remark → Int)
    (hm : meets (isLighter w) chosen path 0 .null false ts = false)
    (hsame : weigh w (pairs .null (thinItems chosen path 0 ts)) = weigh w (pairs .null ts)) :
    meets (isHeavier w) chosen path 0 .null false ts = false := by
  have hmore := (weigh_thinItems hs hq hm rfl (Eq.refl (remarkOf .null))).2
  rw [hsame] at hmore
  exact Bool.eq_false_iff.mpr fun h => lt_irrefl _ (hmore h)

theorem ownEntries_outer (ho : o.members = false) :
    ownEntries o last t = headEntries o 0 last t := by
  rw [ownEntries, bodyEntries_hidden ho, List.append_nil]
  split
  · rw [headEntries_isPrivate ‹_›]
  · rfl

theorem weigh_module (ho : o.members = false) (domain : String) (ts : List Tree) :
    weigh (weight o) (pairs .null ts) =
      lineTally o domain (Directive.allOfModule.entryList o [] ts) := by
  simp only [Directive.entryList, ownEntries_outer ho]
  exact weigh_pairs domain _

theorem lineTally_bodyEntries (ho : o.members = true) (domain : String) :
    lineTally o domain (bodyEntries o t) = weigh (weight o) (pairs .null (body t)) := by
  rw [bodyEntries, if_pos ho, weigh_pairs domain]

/-- A class or an interface that is asked for does not weigh less without the chosen asides, and it
weighs more if a comment that weighs more than nothing comes to stand before a member. -/
theorem lineTally_askedEntries (ho : o.members = true) (domain : String) (targets : List String)
    (last : Tree) (ht : t.shaped = true) (hq : Unspoken t)
    (hm : meets (isLighter (weight o)) chosen (bodyField t :: path) 0 .null false (body t) =
      false) :
    lineTally o domain (askedEntries o targets last t) ≤
        lineTally o domain (askedEntries o targets last (thin chosen path t)) ∧
      ((askedClass? targets t).isSome →
        meets (isHeavier (weight o)) chosen (bodyField t :: path) 0 .null false (body t) = true →
        lineTally o domain (askedEntries o targets last t) <
          lineTally o domain (askedEntries o targets last (thin chosen path t))) := by
  rw [askedEntries, askedEntries, askedClass?_thin ht]
  cases askedClass? targets t with
  | none => exact ⟨le_rfl, fun h => absurd h Bool.false_ne_true⟩
  | some h =>
    have hcons : ∀ t, lineTally o domain (forcedEntry last h :: bodyEntries o t) =
        lineTally o domain [forcedEntry last h] + weigh (weight o) (pairs .null (body t)) := by
      intro t
      rw [← List.singleton_append, lineTally_append, lineTally_bodyEntries ho]
    obtain ⟨hle, hlt⟩ :=
      weigh_thinItems (shaped_body ht) hq.2 hm rfl (Eq.refl (remarkOf .null))
    simp only [hcons, body_thin ht]
    exact ⟨Int.add_le_add_left hle _, fun _ h => Int.add_lt_add_left (hlt h) _⟩

theorem exists_askedClass (h : t.shaped = true) (hbody : body t ≠ []) :
    ∃ targets, (askedClass? targets t).isSome := by
  rcases container_or_none h with hc | ⟨kind, name, ns, hc, -, -⟩
  · exact absurd (body_eq_nil hc) hbody
  · refine ⟨[name], ?_⟩
    rw [askedClass?_container hc]
    simp

/-- If every class and interface has as many lines with the chosen asides as without them, no
comment that weighs more than nothing comes to stand before a member. -/
theorem meets_members (ho : o.members = true) (domain : String)
    (hs : ∀ t ∈ ts, t.shaped = true) (hq : ∀ t ∈ ts, Unspoken t)
    (houter : meets isDocComment chosen [] 0 .null false ts = false)
    (hm : ∀ q ∈ ts.zipIdx, meets (isLighter (weight o)) chosen [bodyField q.1, q.2] 0 .null false
      (body q.1) = false)
    (hsame : ∀ targets, lineTally o domain
        (Directive.classes.entryList o targets (thinItems chosen [] 0 ts)) =
      lineTally o domain (Directive.classes.entryList o targets ts)) :
    ∀ q ∈ ts.zipIdx, meets (isHeavier (weight o)) chosen [bodyField q.1, q.2] 0 .null false
      (body q.1) = false := by
  intro q hmem
  refine Bool.eq_false_iff.mpr fun hheavy => ?_
  have hnode := hs _ (List.fst_mem_of_mem_zipIdx hmem)
  obtain ⟨targets, htargets⟩ := exists_askedClass hnode fun hbody => by
    rw [hbody] at hheavy
    cases hheavy
  have hstep : ∀ p ∈ (pairs .null ts).zipIdx, _ := fun p hp =>
    lineTally_askedEntries ho domain targets p.1.1
      (hs _ (List.fst_mem_of_mem_zipIdx (mem_zipIdx_pairs hp)))
      (hq _ (List.fst_mem_of_mem_zipIdx (mem_zipIdx_pairs hp))) (hm _ (mem_zipIdx_pairs hp))
  have hwalk := flatMap_thinItems (F := askedEntries o targets) (fun _ _ _ => askedEntries_congr)
    (fun _ _ => askedEntries_of_nil) hs (fun t ht => (hq t ht).1) houter rfl
    (Eq.refl (remarkOf .null))
  have htally := hsame targets
  rw [Directive.entryList, Directive.entryList, hwalk, ← flatMap_zipIdx (pairs .null ts) 0,
    lineTally_flatMap, lineTally_flatMap] at htally
  rw [← zipIdx_pairs, List.mem_map] at hmem
  obtain ⟨p, hp, rfl⟩ := hmem
  refine absurd htally.symm (ne_of_lt (List.sum_lt_sum _ _ (fun p hp => (hstep p hp).1) ?_))
  exact ⟨p, hp, (hstep p hp).2 htargets hheavy⟩

theorem meetsIn_of_lineTally (domain : String) (hs : ∀ t ∈ ts, t.shaped = true)
    (hq : ∀ t ∈ ts, Unspoken t)
    (hsame : ∀ (d : Directive) o targets, lineTally o domain
        (d.entryList o targets (thinItems chosen [] 0 ts)) =
      lineTally o domain (d.entryList o targets ts)) :
    meetsIn isDocComment chosen ts = false := by
  have houter : meets isDocComment chosen [] 0 .null false ts = false := by
    refine excludes_doc (P := fun p => meets p chosen [] 0 .null false ts = false) meets_false ?_
      false ?_
    · intro p q hp hq
      rw [meets_or, hp, hq, Bool.or_false]
    · intro undoc hm
      refine meets_heavier hs (fun t ht => (hq t ht).1) _ hm ?_
      rw [weigh_module rfl domain, weigh_module rfl domain, hsame]
  have hinner : ∀ q ∈ ts.zipIdx,
      meets isDocComment chosen [bodyField q.1, q.2] 0 .null false (body q.1) = false := by
    refine excludes_doc (P := fun p => ∀ q ∈ ts.zipIdx,
      meets p chosen [bodyField q.1, q.2] 0 .null false (body q.1) = false)
      (fun _ _ => meets_false) ?_ true ?_
    · intro p q hp hq c hc
      rw [meets_or, hp c hc, hq c hc, Bool.or_false]
    · intro undoc hm
      exact meets_members rfl domain hs hq houter hm (hsame _ _)
  rw [meetsIn, houter, Bool.false_or, List.any_eq_false]
  exact fun q hmem => Bool.eq_false_iff.mp (hinner q hmem)

/-- A parsed source shows the same lines without some of the comments that document nothing, in
every document, just if no documenting comment comes to stand right before a declaration that it did
not stand before. -/
theorem parse_thinned {f g : Filter} {file : Option String} {text : List Char}
    (h : f.parse file text = (.ok ts, g)) (chosen : List Nat → Bool) :
    (∀ (r : Request) (targets : List String), ∃ lines,
      (r.directive.entries r.options targets ts).map (documentLines r) = .ok lines ∧
      (r.directive.entries r.options targets (thinItems chosen [] 0 ts)).map (documentLines r) =
        .ok lines) ↔
      meetsIn isDocComment chosen ts = false := by
  have hs := parse_shaped h
  have hq := parse_unspoken h
  have hlines : ∀ r : Request, ∀ targets us, (∀ t ∈ us, t.shaped = true) →
      (r.directive.entries r.options targets us).map (documentLines r) =
        .ok (documentLines r (r.directive.entryList r.options targets us)) := by
    intro r targets us hus
    rw [r.directive.entries_eq hus]
    rfl
  constructor
  · intro hsame
    refine meetsIn_of_lineTally "php" hs hq fun d o targets => ?_
    obtain ⟨lines, hbefore, hafter⟩ := hsame ⟨d, [], none, o, [], 0, "php"⟩ targets
    rw [hlines _ _ _ hs] at hbefore
    rw [hlines _ _ _ (shaped_thinItems hs), ← hbefore] at hafter
    -- Behind the lines of the entries there is the same in both documents.
    have hentries : entryLines "php" (d.entryList o targets (thinItems chosen [] 0 ts)) =
        entryLines "php" (d.entryList o targets ts) :=
      List.append_cancel_right (List.append_cancel_right (Except.ok.inj hafter))
    rw [lineTally, lineTally, hentries]
  · intro hm r targets
    refine ⟨_, hlines r targets ts hs, ?_⟩
    rw [hlines r targets _ (shaped_thinItems hs), entryList_thin r.directive hs hq hm]

/-- Comments that document nothing at the outermost level, in a class and in a method, none of them
between a documenting comment and a declaration. -/
def asideSource : List Char :=
  ("<?php /* a */ /** A */ class A \x7b /* b */ /** f */ function f() \x7b /* c */ \x7d " ++
    "/* d */ /** g */ function g() \x7b\x7d \x7d /* e */ function k() \x7b\x7d").toList

theorem parse_thinned_everywhere : ∃ ts g, (fresh []).parse none asideSource = (.ok ts, g) ∧
    (commentsIn ts).card = 8 ∧ (commentsIn (thinItems (fun _ => true) [] 0 ts)).card = 3 ∧
    ∀ (r : Request) (targets : List String), ∃ lines,
      (r.directive.entries r.options targets ts).map (documentLines r) = .ok lines ∧
      (r.directive.entries r.options targets (thinItems (fun _ => true) [] 0 ts)).map
        (documentLines r) = .ok lines := by
  obtain ⟨ts, g, h, hp⟩ := exists_parse_any (fresh []) none asideSource
    (p := fun ts => (commentsIn ts).card = 8 ∧
      (commentsIn (thinItems (fun _ => true) [] 0 ts)).card = 3 ∧
      meetsIn isDocComment (fun _ => true) ts = false)
    (by
      unfold asideSource
      rw [String.toList_append, String.toList_ofList, String.toList_ofList]
      decide +kernel)
  obtain ⟨hall, hleft, hm⟩ := of_decide_eq_true hp
  exact ⟨ts, g, h, hall, hleft, (parse_thinned h _).mpr hm⟩

/-- A documenting comment, a comment that documents nothing, and a function. -/
def partedSource : List Char := "<?php /** d */ /* x */ function f() \x7b\x7d".toList

/-- The request for all of a module that has a comment. -/
def partedRequest : Request :=
  ⟨.allOfModule, [], some "a.php", ⟨false, false⟩, [], 1, "php"⟩

/-- Without the second comment, the first one documents the function. -/
theorem lines_without_aside : ∃ ts g, (fresh []).parse none partedSource = (.ok ts, g) ∧
    (moduleEntries ⟨false, false⟩ ts).map (documentLines partedRequest) = .ok [""] ∧
    (moduleEntries ⟨false, false⟩ (thinItems (· == [1]) [] 0 ts)).map
        (documentLines partedRequest) =
      .ok [".. php:function:: f()", "", "   d", "", ""] := by
  obtain ⟨ts, g, h, hp⟩ := exists_parse_any (fresh []) none partedSource
    (p := fun ts =>
      ((moduleEntries ⟨false, false⟩ ts).map (documentLines partedRequest)).toOption = some [""] ∧
      ((moduleEntries ⟨false, false⟩ (thinItems (· == [1]) [] 0 ts)).map
        (documentLines partedRequest)).toOption =
          some [".. php:function:: f()", "", "   d", "", ""])
    (by unfold partedSource; rw [String.toList_ofList]; decide +kernel)
  obtain ⟨hbefore, hafter⟩ := of_decide_eq_true hp
  exact ⟨ts, g, h, ok_of_toOption hbefore, ok_of_toOption hafter⟩

end Docblock.Docs
