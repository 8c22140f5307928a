import Docblock.Proofs.Grammar.Making
import Docblock.Proofs.Source
import Docblock.Tree.Equality

/-! Which nodes of the trees of a source are visited: all but those in the inner lists of a list
assignment. -/
namespace Docblock

open Token Grammar

variable {f g : Filter} {file : Option String} {text : List Char} {t : Tree} {ts : List Tree}

namespace Tree

/-- The nodes in the lists among the targets of a list assignment. -/
def innerTargets : Tree → List Tree
  | .node .listAssignment _ (.list targets :: _) => nodesIn (targets.filter isList)
  | _ => []

theorem inLists_of_flat (h : t.flat = true) : t.inLists = [] := by
  cases t with
  | list items =>
    rw [flat_list] at h
    have hnone : items.filter isList = [] := by simpa using h
    rw [inLists, hnone, nodesIn]
  | null | bool | int | float | text | node => rfl

/-- In a tree that is laid out, only the inner targets of a list assignment are passed over. -/
theorem passedOver_of_laid (h : t.laid = true) : t.passedOver = t.innerTargets := by
  cases t with
  | node k line fields =>
    have hlayout := (laid_node.mp h).1
    by_cases hk : k = .listAssignment
    · subst hk
      obtain ⟨targets, value, rfl, hvalue⟩ := layout_listAssignment hlayout
      rw [passedOver, List.flatMap_cons, List.flatMap_singleton,
        inLists_of_flat (flat_of_not_list hvalue), List.append_nil]
      rfl
    · have hnone : fields.flatMap inLists = [] :=
        List.flatMap_eq_nil_iff.mpr fun t ht => inLists_of_flat (layout_flat hlayout hk t ht)
      rw [passedOver, hnone, innerTargets]
      rintro _ _ _ ⟨⟩
      exact hk rfl
  | null | bool | int | float | text | list => rfl

/-- Trees that are laid out are visited as far as their inner targets. -/
theorem nodesIn_perm_visitItems (h : ∀ t ∈ ts, t.laid = true ∧ t.isList = false) :
    (nodesIn ts).Perm (visitItems ts ++ (visitItems ts).flatMap innerTargets) := by
  have hlists : ts.filter isList = [] := by simpa using fun t ht => (h t ht).2
  have hpassed : (visitItems ts).flatMap passedOver = (visitItems ts).flatMap innerTargets := by
    refine List.flatMap_congr fun t ht => passedOver_of_laid ?_
    exact everyNodeIn_nodes ts (everyNodeIn_iff.mpr fun t ht => (h t ht).1) t
      ((visitItems_sublist ts).subset ht)
  have hnodes := nodesIn_eq_items ts
  rw [hlists, hpassed] at hnodes
  exact Multiset.coe_eq_coe.mp (by simpa [nodesIn] using hnodes)

end Tree

/-- The trees of a source are laid out, and no list is among them. -/
theorem parse_laid (h : f.parse file text = (.ok ts, g)) :
    ∀ t ∈ ts, t.laid = true ∧ t.isList = false := by
  obtain ⟨-, -, d, -, hd⟩ := parse_ok h
  exact fun t ht => ⟨(d.made hd t ht).laid, by simpa using ((d.formed hd).1 t ht).2.2.1⟩

/-- The visit of the trees of a source comes once to every node, in the order of the text, but for
the nodes in the inner lists of a list assignment, to which it does not come. So it comes to every
node if and only if there are none of these. -/
theorem parse_visits (h : f.parse file text = (.ok ts, g)) :
    (Tree.visitItems ts).Sublist (Tree.nodesIn ts) ∧
      (Tree.nodesIn ts).Perm
        (Tree.visitItems ts ++ (Tree.visitItems ts).flatMap Tree.innerTargets) ∧
      (Tree.visitItems ts = Tree.nodesIn ts ↔ ∀ t ∈ Tree.nodesIn ts, t.innerTargets = []) := by
  have hsub := Tree.visitItems_sublist ts
  have hperm := Tree.nodesIn_perm_visitItems (parse_laid h)
  refine ⟨hsub, hperm, fun heq => ?_, fun hnone => ?_⟩
  · have hlength := hperm.length_eq
    rw [heq, List.length_append, left_eq_add, List.length_eq_zero_iff] at hlength
    exact List.flatMap_eq_nil_iff.mp hlength
  · have hnil : (Tree.visitItems ts).flatMap Tree.innerTargets = [] :=
      List.flatMap_eq_nil_iff.mpr fun t ht => hnone t (hsub.subset ht)
    rw [hnil, List.append_nil] at hperm
    exact hsub.eq_of_length hperm.length_eq.symm

theorem parse_visits_targets :
    ∃ ts g, (Filter.fresh []).parse none
        "<?php list($a, list($b, list($c[f()]))) = $d;".toList = (.ok ts, g) ∧
      (Tree.nodesIn ts).Perm
        (Tree.visitItems ts ++ (Tree.visitItems ts).flatMap Tree.innerTargets) ∧
      ((Tree.visitItems ts).flatMap Tree.innerTargets).length = 4 := by
  obtain ⟨ts, g, h, hcount⟩ := exists_parse_any (Filter.fresh []) none
    "<?php list($a, list($b, list($c[f()]))) = $d;".toList
    (p := fun ts => ((Tree.visitItems ts).flatMap Tree.innerTargets).length == 4)
    (by rw [String.toList_ofList]; decide +kernel)
  exact ⟨ts, g, h, (parse_visits h).2.1, by simpa using hcount⟩

/-- A node in an inner list of a list assignment is not visited. -/
theorem not_all_visited :
    ∃ ts g, (Filter.fresh []).parse none "<?php list($a, list($b)) = $c;".toList = (.ok ts, g) ∧
      ∃ t ∈ Tree.nodesIn ts, t ∉ Tree.visitItems ts := by
  obtain ⟨ts, g, h, hany⟩ := exists_parse_any (Filter.fresh []) none
    "<?php list($a, list($b)) = $c;".toList
    (p := fun ts => (Tree.nodesIn ts).any (fun t => (t.field? "name").any (·.same (.text "$b"))) &&
      !(Tree.visitItems ts).any fun t => (t.field? "name").any (·.same (.text "$b")))
    (by rw [String.toList_ofList]; decide +kernel)
  obtain ⟨hnode, hvisit⟩ := Bool.and_eq_true_iff.mp hany
  obtain ⟨t, ht, hname⟩ := List.any_eq_true.mp hnode
  refine ⟨ts, g, h, t, ht, fun hmem => ?_⟩
  rw [List.any_eq_true.mpr ⟨t, hmem, hname⟩] at hvisit
  cases hvisit

end Docblock
