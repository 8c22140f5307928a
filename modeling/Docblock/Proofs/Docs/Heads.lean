import Docblock.Proofs.Docs.Agreement
import Docblock.Proofs.Docs.Placement

/-! The entries that directives make of shaped trees, as lists: what a declaration shows of itself,
what its body shows, and what the node before it says about it. -/
namespace Docblock.Docs

open Docblock.Tree

variable {o : Options} {level : Nat} {last t : Tree} {ts : List Tree} {r : Remark}
  {targets : List String}

/-- Each node with the one before it. -/
def pairs (last : Tree) (ts : List Tree) : List (Tree × Tree) := (last :: ts).zip ts

@[simp] theorem pairs_nil : pairs last [] = [] := rfl

@[simp] theorem pairs_cons : pairs last (t :: ts) = (last, t) :: pairs t ts := rfl

/-- What a node says about the one after it, if it has the form of a comment. -/
def remarkOf (t : Tree) : Remark :=
  match remark t with
  | .ok r => r
  | .error _ => .nothing

theorem remarkOf_eq (h : remark t = .ok r) : remarkOf t = r := by
  rw [remarkOf, h]

theorem remark_eq (h : t.shaped = true) : remark t = .ok (remarkOf t) := by
  obtain ⟨r, hr⟩ := remark_shaped h
  rw [hr, remarkOf_eq hr]

/-- The kind and the name of an entry. -/
structure Head where
  kind : EntryKind
  name : String
  deriving DecidableEq

/-- The signature of a function or a method. -/
def callText (t : Tree) : String :=
  match signature t with
  | .ok s => s.display
  | .error _ => ""

theorem callText_eq {s : String} (h : signature t = .ok (.text s)) : callText t = s := by
  rw [callText, h]
  rfl

/-- The heads of the entries that a declaration can have. -/
def heads : Tree → List Head
  | .node .function line fs => [⟨.function, callText (.node .function line fs)⟩]
  | .node .method line [name, .list ms, ps, nodes, ref] =>
    if ms.any restricts then []
    else [⟨.method, callText (.node .method line [name, .list ms, ps, nodes, ref])⟩]
  | .node .classVariables _ [.list ms, .list vs] =>
    if ms.any restricts then [] else vs.map fun v => ⟨.attribute, attributeName v⟩
  | t =>
    match container? t with
    | some (kind, name, _) => [⟨kind, name.display⟩]
    | none => []

/-- The nodes in the body of a class or an interface. -/
def body (t : Tree) : List Tree :=
  match container? t with
  | some (_, _, .list ns) => ns
  | _ => []

theorem heads_container {kind : EntryKind} {name nodes : Tree}
    (h : container? t = some (kind, name, nodes)) : heads t = [⟨kind, name.display⟩] := by
  unfold container? at h
  split at h
  all_goals cases h
  all_goals rfl

theorem body_container {kind : EntryKind} {name : Tree}
    (h : container? t = some (kind, name, .list ts)) : body t = ts := by
  rw [body, h]

theorem body_eq_nil (h : container? t = none) : body t = [] := by
  rw [body, h]

theorem heads_other (h : t.isOf entryKinds = false) : heads t = [] := by
  have hc := container?_of_other h
  unfold heads
  split
  · cases h
  · cases h
  · cases h
  · rw [hc]

/-- A shaped tree is a class or an interface with members, or neither. -/
theorem container_or_none (h : t.shaped = true) :
    container? t = none ∨ ∃ (kind : EntryKind) (name : String) (ns : List Tree),
      container? t = some (kind, .text name, .list ns) ∧ (∀ n ∈ ns, n.shaped = true) ∧
        ∀ n ∈ ns, n.isOf memberKinds = true := by
  cases form_of_shaped h with
  | function | method | attributes => exact Or.inl rfl
  | other ho => exact Or.inl (container?_of_other ho)
  | container hc hs hm => exact Or.inr ⟨_, _, _, hc, hs, hm⟩

/-- The entries for the heads of a declaration after another node. -/
def headEntries (o : Options) (level : Nat) (last t : Tree) : List Entry :=
  (heads t).flatMap fun h => entry o false level h.kind h.name (remarkOf last)

/-- The entries for the body of a class or an interface. -/
def bodyEntries (o : Options) (t : Tree) : List Entry :=
  if o.members then (pairs .null (body t)).flatMap fun p => headEntries o 1 p.1 p.2 else []

/-- The entries for a declaration of a module after another node. -/
def ownEntries (o : Options) (last t : Tree) : List Entry :=
  if remarkOf last = .isPrivate then [] else headEntries o 0 last t ++ bodyEntries o t

theorem headEntries_isPrivate (h : remarkOf last = .isPrivate) :
    headEntries o level last t = [] := by
  simp [headEntries, h, entry_isPrivate]

/-- What is neither a class nor an interface has entries for its heads only. -/
theorem describe_heads (ht : t.shaped = true) (hl : last.shaped = true)
    (hc : container? t = none) :
    describe o level last t = .ok (headEntries o level last t) := by
  have hr := remark_eq hl
  cases form_of_shaped ht with
  | function hp hs =>
    rw [describe_function hs hr, headEntries, heads, callText_eq (by rw [signature, hs])]
    simp
  | method hm hp hs =>
    rw [describe_method hs hr, headEntries, heads, callText_eq (by rw [signature, hs])]
    split <;> simp
  | attributes hm hv =>
    rw [describe_attributes hr hv, headEntries, heads]
    split <;> simp [List.flatMap_map]
  | container hc' => cases hc.symm.trans hc'
  | other ho =>
    rw [describe_other ho, headEntries, heads_other ho]
    rfl

/-- The entries for nodes in order, if those for each of them are known. -/
theorem describeAll_pairs {own : Tree → Tree → List Entry} (hs : ∀ t ∈ ts, t.shaped = true)
    (hl : last.shaped = true)
    (hstep : ∀ t ∈ ts, ∀ last : Tree, last.shaped = true →
      describe o level last t = .ok (own last t)) :
    describeAll o level last ts = .ok ((pairs last ts).flatMap fun p => own p.1 p.2) := by
  induction ts generalizing last with
  | nil => rw [describeAll, pairs_nil, List.flatMap_nil]
  | cons t ts ih =>
    obtain ⟨ht, hts⟩ := List.forall_mem_cons.mp hs
    obtain ⟨hstept, hsteps⟩ := List.forall_mem_cons.mp hstep
    rw [describeAll, hstept last hl, ih hts ht hsteps]
    rfl

theorem describeAll_members_eq (hs : ∀ t ∈ ts, t.shaped = true)
    (hm : ∀ t ∈ ts, t.isOf memberKinds = true) :
    describeAll o level .null ts =
      .ok ((pairs .null ts).flatMap fun p => headEntries o level p.1 p.2) :=
  describeAll_pairs hs rfl fun t ht _ hl =>
    describe_heads (hs t ht) hl (container?_of_member (hm t ht))

/-- A shaped declaration has the entries for its heads and for its body. -/
theorem describe_own (ht : t.shaped = true) (hl : last.shaped = true) :
    describe o 0 last t = .ok (ownEntries o last t) := by
  rcases container_or_none ht with hc | ⟨kind, name, ns, hc, hs, hm⟩
  · rw [describe_heads ht hl hc, ownEntries, bodyEntries, body_eq_nil hc]
    split
    · rw [headEntries_isPrivate ‹_›]
    · simp
  · rw [describe_container hc (remark_eq hl) (describeAll_members_eq hs hm), ownEntries,
      headEntries, heads_container hc, bodyEntries, body_container hc]
    simp

theorem moduleEntries_eq (hs : ∀ t ∈ ts, t.shaped = true) :
    moduleEntries o ts = .ok ((pairs .null ts).flatMap fun p => ownEntries o p.1 p.2) :=
  describeAll_pairs hs rfl fun t ht _ hl => describe_own (hs t ht) hl

/-! ### Declarations that are asked for -/

/-- The head of a class or an interface whose name is asked for. -/
def askedClass? (targets : List String) (t : Tree) : Option Head :=
  match container? t with
  | some (kind, .text name, _) => if targets.contains name then some ⟨kind, name⟩ else none
  | _ => none

theorem askedClass?_container {kind : EntryKind} {name : String} {nodes : Tree}
    (h : container? t = some (kind, .text name, nodes)) :
    askedClass? targets t = if targets.contains name then some ⟨kind, name⟩ else none := by
  rw [askedClass?, h]

theorem askedClass?_none (h : container? t = none) : askedClass? targets t = none := by
  rw [askedClass?, h]

/-- The head of a function whose name is asked for. -/
def askedFunction? (targets : List String) : Tree → Option Head
  | .node .function line (.text name :: fs) =>
    if targets.contains name then
      some ⟨.function, callText (.node .function line (.text name :: fs))⟩
    else none
  | _ => none

/-- An entry of the outermost level that is asked for, which is there whatever is said about it. -/
def forcedEntry (last : Tree) (h : Head) : Entry := ⟨0, h.kind, h.name, (remarkOf last).lines?⟩

theorem entry_force (h : Head) :
    entry o true 0 h.kind h.name (remarkOf last) = [forcedEntry last h] := by
  cases hr : remarkOf last <;> simp [entry, forcedEntry, hr, Remark.lines?]

/-- The entries for a node of which only a class or an interface that is asked for counts. -/
def askedEntries (o : Options) (targets : List String) (last t : Tree) : List Entry :=
  match askedClass? targets t with
  | some h => forcedEntry last h :: bodyEntries o t
  | none => []

theorem describeTarget_asked (ht : t.shaped = true) (hl : last.shaped = true) :
    describeTarget o targets last t = .ok (askedEntries o targets last t) := by
  rcases container_or_none ht with hc | ⟨kind, name, ns, hc, hs, hm⟩
  · rw [describeTarget_other hc, askedEntries, askedClass?_none hc]
  · rw [describeTarget_container hc, askedEntries, askedClass?_container hc]
    have hname : isTarget targets (.text name) = targets.contains name := rfl
    rw [← hname]
    cases htarget : isTarget targets (.text name) with
    | false =>
      rw [forcedEntries, htarget]
      rfl
    | true =>
      have hown : entry o true 0 kind name (remarkOf last) = [forcedEntry last ⟨kind, name⟩] :=
        entry_force ⟨kind, name⟩
      rw [forcedEntries_target htarget (remark_eq hl), Tree.display, hown, memberEntries,
        describeNodes, describeAll_members_eq hs hm, bodyEntries, body_container hc]
      cases o.members <;> rfl

theorem classEntries_eq (hs : ∀ t ∈ ts, t.shaped = true) (hl : last.shaped = true) :
    classEntries o targets last ts =
      .ok ((pairs last ts).flatMap fun p => askedEntries o targets p.1 p.2) := by
  induction ts generalizing last with
  | nil => rfl
  | cons t ts ih =>
    obtain ⟨ht, hts⟩ := List.forall_mem_cons.mp hs
    rw [classEntries, describeTarget_asked ht hl, ih hts ht]
    rfl

/-- The entries for all the functions that are asked for. -/
def functionList (targets : List String) (last : Tree) (ts : List Tree) : List Entry :=
  (pairs last ts).filterMap fun p => (askedFunction? targets p.2).map (forcedEntry p.1)

theorem functionEntries_eq (hs : ∀ t ∈ ts, t.shaped = true) (hl : last.shaped = true) :
    functionEntries o targets last ts = .ok ((functionList targets last ts).take 1) := by
  induction ts generalizing last with
  | nil => rfl
  | cons t ts ih =>
    obtain ⟨ht, hts⟩ := List.forall_mem_cons.mp hs
    have hrest := ih hts ht
    unfold functionEntries
    split
    · rename_i heq
      cases heq
    · rename_i line name fs ts' heq
      cases heq
      obtain ⟨name, ps, body, ref, hfs, -⟩ := fields_of_shape (shaped_node.mp ht).1
      cases hfs
      obtain ⟨s, hsign⟩ := signature_shaped _ ht
      rw [functionList, pairs_cons, List.filterMap_cons, askedFunction?]
      cases htarget : targets.contains name with
      | false =>
        rw [isTarget, htarget]
        exact hrest
      | true =>
        rw [isTarget, htarget, hsign, remark_eq hl, callText_eq hsign]
        exact congrArg Except.ok (entry_force ⟨.function, s⟩)
    · rename_i t' ts' hne heq
      cases heq
      have hnone : askedFunction? targets t = none := by
        unfold askedFunction?
        split
        · rename_i line name fs
          exact absurd rfl (hne line _ _)
        · rfl
      rw [hrest, functionList, functionList, pairs_cons, List.filterMap_cons, hnone]
      rfl

/-- The entries that a directive makes. -/
def Directive.entryList (d : Directive) (o : Options) (targets : List String) (ts : List Tree) :
    List Entry :=
  match d with
  | .plain => []
  | .allOfModule => (pairs .null ts).flatMap fun p => ownEntries o p.1 p.2
  | .classes => (pairs .null ts).flatMap fun p => askedEntries o targets p.1 p.2
  | .function => (functionList targets .null ts).take 1

theorem Directive.entries_eq (d : Directive) (hs : ∀ t ∈ ts, t.shaped = true) :
    d.entries o targets ts = .ok (d.entryList o targets ts) := by
  cases d with
  | plain => rfl
  | allOfModule => exact moduleEntries_eq hs
  | classes => exact classEntries_eq hs rfl
  | function => exact functionEntries_eq hs rfl

/-! ### Levels -/

theorem level_of_headEntries : ∀ e ∈ headEntries o level last t, e.level = level := by
  intro e he
  obtain ⟨h, -, hh⟩ := List.mem_flatMap.mp he
  exact (entry_mem hh).1

theorem level_of_bodyEntries : ∀ e ∈ bodyEntries o t, e.level = 1 := by
  intro e he
  rw [bodyEntries] at he
  split at he
  · obtain ⟨p, -, hp⟩ := List.mem_flatMap.mp he
    exact level_of_headEntries e hp
  · cases he

theorem level_of_functionList : ∀ e ∈ functionList targets last ts, e.level = 0 := by
  intro e he
  obtain ⟨p, -, hp⟩ := List.mem_filterMap.mp he
  obtain ⟨h, -, rfl⟩ := Option.map_eq_some_iff.mp hp
  rfl

end Docblock.Docs
