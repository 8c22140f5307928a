import Docblock.Proofs.Docs.Privacy

/-! Documenting a whole module, and documenting its classes and interfaces by their names. -/
namespace Docblock.Docs

open Docblock.Tree Docblock.Filter

variable {o : Options} {targets : List String} {last t nodes : Tree} {ts : List Tree} {r : Remark}
  {kind : EntryKind} {name : Tree}

/-- A documenting comment that does not mark what follows it as private. -/
def announces : Tree → Bool
  | .node .comment _ [.text s] => isDoc s.toList && !isPrivate s.toList
  | _ => false

/-- Whether a node after another one is no declaration but a class or an interface, and, where it
is one, has its name among the targets and is not left out of a module. -/
def sought (o : Options) (targets : List String) (last t : Tree) : Bool :=
  match container? t with
  | some (_, name, _) =>
    isTarget targets name && (announces last || o.undocMembers && !marks last)
  | none => !t.isOf [.function, .method, .classVariables]

theorem remark_announces (h : announces last = true) : ∃ ls, remark last = .ok (.text ls) := by
  unfold announces at h
  split at h
  · obtain ⟨hdoc, hprivate⟩ := Bool.and_eq_true_iff.mp h
    rw [remark, if_neg (by simpa using hprivate), if_pos hdoc]
    exact ⟨_, rfl⟩
  · cases h

theorem marks_of_remark (h : remark last = .ok .isPrivate) : marks last = true := by
  unfold remark at h
  split at h
  · split at h
    · assumption
    · split at h <;> cases h
  all_goals cases h

/-- A remark with which a declaration is shown makes the same entry for one that is asked for. -/
theorem entry_forced {name : String} (hp : r ≠ .isPrivate)
    (hn : r = .nothing → o.undocMembers = true) :
    entry o true 0 kind name r = entry o false 0 kind name r := by
  cases r with
  | nothing => simp [entry, hn rfl]
  | isPrivate => exact absurd rfl hp
  | text ls => rfl

/-- What the node before a class or an interface says about it, if that one is shown. -/
theorem remark_shown (h : (announces last || o.undocMembers && !marks last) = true)
    (hr : remark last = .ok r) : r ≠ .isPrivate ∧ (r = .nothing → o.undocMembers = true) := by
  rcases Bool.or_eq_true_iff.mp h with ha | hu
  · obtain ⟨ls, hls⟩ := remark_announces ha
    cases hls.symm.trans hr
    simp
  · obtain ⟨hundoc, hmarks⟩ := Bool.and_eq_true_iff.mp hu
    refine ⟨?_, fun _ => hundoc⟩
    rintro rfl
    rw [marks_of_remark hr] at hmarks
    cases hmarks

/-- The entries for the members of a class or an interface, if they are shown. -/
def memberEntries (o : Options) (level : Nat) (nodes : Tree) : Except AccessError (List Entry) :=
  if o.members then describeNodes o level nodes else .ok []

theorem describe_container_error {level : Nat} {e : AccessError}
    (hc : container? t = some (kind, name, nodes)) (hr : remark last = .error e) :
    describe o level last t = .error e := by
  unfold container? at hc
  split at hc
  all_goals cases hc
  all_goals
    rw [describe, hr]
    rfl

theorem describe_container_shown {level : Nat} (hc : container? t = some (kind, name, nodes))
    (hr : remark last = .ok r) (hp : r ≠ .isPrivate) :
    describe o level last t =
      (memberEntries o (level + 1) nodes).map (entry o false level kind name.display r ++ ·) := by
  unfold container? at hc
  split at hc
  all_goals cases hc
  all_goals
    rw [describe, hr, memberEntries]
    cases r with
    | isPrivate => exact absurd rfl hp
    | nothing | text ls => cases o.members <;> rfl

theorem forcedEntries_target (ht : isTarget targets name = true) (hr : remark last = .ok r) :
    forcedEntries o targets last kind name nodes =
      (memberEntries o 1 nodes).map (entry o true 0 kind name.display r ++ ·) := by
  rw [forcedEntries, if_pos ht, hr, memberEntries]
  cases o.members <;> rfl

theorem describeTarget_container (hc : container? t = some (kind, name, nodes)) :
    describeTarget o targets last t = forcedEntries o targets last kind name nodes := by
  unfold container? at hc
  split at hc
  all_goals cases hc
  all_goals rfl

theorem describeTarget_other (hc : container? t = none) :
    describeTarget o targets last t = .ok [] := by
  unfold describeTarget
  split
  all_goals first | rfl | cases hc

theorem describe_uncontained {level : Nat} (hc : container? t = none)
    (h : t.isOf [.function, .method, .classVariables] = false) :
    describe o level last t = .ok [] := by
  unfold describe
  split
  all_goals first | rfl | (cases h; done) | cases hc

/-- A node that is sought has the same entries in either way. -/
theorem describeTarget_sought (h : sought o targets last t = true) :
    describeTarget o targets last t = describe o 0 last t := by
  unfold sought at h
  split at h
  · rename_i kind name nodes hc
    obtain ⟨htarget, hshown⟩ := Bool.and_eq_true_iff.mp h
    rw [describeTarget_container hc]
    cases hr : remark last with
    | error e =>
      rw [describe_container_error hc hr, forcedEntries, if_pos htarget, hr]
      rfl
    | ok r =>
      obtain ⟨hp, hn⟩ := remark_shown hshown hr
      rw [describe_container_shown hc hr hp, forcedEntries_target htarget hr, entry_forced hp hn]
  · rename_i hc
    rw [describeTarget_other hc, describe_uncontained hc (by simpa using h)]

/-- Nodes that are all sought have the same entries in either way. -/
theorem classEntries_sought
    (h : ∀ p ∈ (last :: ts).zip ts, sought o targets p.1 p.2 = true) :
    classEntries o targets last ts = describeAll o 0 last ts := by
  induction ts generalizing last with
  | nil => rw [classEntries, describeAll]
  | cons t ts ih =>
    rw [List.zip_cons_cons, List.forall_mem_cons] at h
    rw [classEntries, describeAll, describeTarget_sought h.1, ih h.2]

/-- A module of classes and interfaces has the same documentation when all of them are asked for
by their names, if none of them is left out of it. -/
theorem classes_agree (r : Request) (targets : List String) (ts : List Tree)
    (h : ∀ p ∈ (Tree.null :: ts).zip ts, sought r.options targets p.1 p.2 = true) :
    (Directive.classes.entries r.options targets ts).map (documentLines r) =
      (Directive.allOfModule.entries r.options targets ts).map (documentLines r) := by
  rw [Directive.entries, Directive.entries, moduleEntries, classEntries_sought h]

/-- A source whose last interface has a comment that documents nothing. -/
def modelSource : List Char :=
  ("<?php /** A list. */ abstract class A \x7b /** Its size. */ function size() \x7b \x7d \x7d " ++
    "echo 1; // more\ninterface B \x7b function f(); \x7d").toList

theorem classes_agree_undocumented : ∃ ts g, (fresh []).parse none modelSource = (.ok ts, g) ∧
    ∀ r : Request, r.options.undocMembers = true →
      (∀ p ∈ (Tree.null :: ts).zip ts, sought r.options ["B", "C", "A"] p.1 p.2 = true) ∧
      (Directive.classes.entries r.options ["B", "C", "A"] ts).map (documentLines r) =
        (Directive.allOfModule.entries r.options ["B", "C", "A"] ts).map (documentLines r) := by
  obtain ⟨ts, g, hp, ha⟩ := exists_parse_any (fresh []) none modelSource
    (p := fun ts => ((Tree.null :: ts).zip ts).all fun p =>
      sought ⟨true, true⟩ ["B", "C", "A"] p.1 p.2)
    (by
      unfold modelSource
      rw [String.toList_append, String.toList_ofList, String.toList_ofList]
      decide +kernel)
  refine ⟨ts, g, hp, fun r hr => ?_⟩
  have hs : ∀ p ∈ (Tree.null :: ts).zip ts, sought r.options ["B", "C", "A"] p.1 p.2 = true := by
    intro p hm
    have hall := List.all_eq_true.mp ha p hm
    simpa [sought, hr] using hall
  exact ⟨hs, classes_agree r ["B", "C", "A"] ts hs⟩

end Docblock.Docs
