import Docblock.Proofs.Tree.Comments
import Docblock.Tree.Visit

/-! Which nodes of a tree are visited: all but those in a list inside a list. -/
namespace Docblock.Tree

variable {t u : Tree} {ts us vs : List Tree} {j : Nat}

def isList : Tree → Bool
  | .list _ => true
  | _ => false

/-- The nodes in the lists that stand in a list. -/
def inLists : Tree → List Tree
  | .list items => nodesIn (items.filter isList)
  | _ => []

/-- The nodes in a node's fields that a visit passes over. -/
def passedOver : Tree → List Tree
  | .node _ _ fields => fields.flatMap inLists
  | _ => []

theorem visitFields_cons (h : t.isList = false) :
    visitFields (t :: ts) = t.visit ++ visitFields ts := by
  cases t <;> first | rfl | cases h

mutual
/-- Visited nodes come in the order in which they stand in the tree. -/
theorem visit_sublist (t : Tree) : t.visit.Sublist t.nodes := by
  match t with
  | .node _ _ fields => exact (visitFields_sublist fields).cons_cons _
  | .null | .bool _ | .int _ | .float _ | .text _ | .list _ => exact List.nil_sublist _

theorem visitFields_sublist (ts : List Tree) : (visitFields ts).Sublist (nodesIn ts) := by
  match ts with
  | [] => exact List.nil_sublist _
  | .list items :: rest => exact (visitItems_sublist items).append (visitFields_sublist rest)
  | .node k line fields :: rest =>
    exact (visit_sublist (.node k line fields)).append (visitFields_sublist rest)
  | .null :: rest | .bool _ :: rest | .int _ :: rest | .float _ :: rest | .text _ :: rest =>
    exact visitFields_sublist rest

theorem visitItems_sublist (ts : List Tree) : (visitItems ts).Sublist (nodesIn ts) := by
  match ts with
  | [] => exact List.nil_sublist _
  | t :: rest => exact (visit_sublist t).append (visitItems_sublist rest)
end

/-- A node among some nodes and then others is where it is among the former or the latter. -/
theorem isPrefix_drop_append (hj : (us ++ vs)[j]? = some u)
    (hus : us[j]? = some u → ts <+: us.drop j)
    (hvs : ∀ i, vs[i]? = some u → ts <+: vs.drop i) : ts <+: (us ++ vs).drop j := by
  rw [List.drop_append]
  by_cases hlt : j < us.length
  · rw [List.getElem?_append_left hlt] at hj
    exact (hus hj).trans (List.prefix_append _ _)
  · have hle := Nat.not_lt.mp hlt
    rw [List.getElem?_append_right hle] at hj
    rw [List.drop_eq_nil_of_le hle, List.nil_append]
    exact hvs _ hj

mutual
/-- The nodes in a visited node are visited right behind it. -/
theorem visit_drop (j : Nat) (t : Tree) (h : t.visit[j]? = some u) :
    u.visit <+: t.visit.drop j := by
  match t, j with
  | .node k line fields, 0 =>
    cases h
    exact List.prefix_refl _
  | .node k line fields, j + 1 => exact visitFields_drop j fields h

theorem visitFields_drop (j : Nat) (ts : List Tree) (h : (visitFields ts)[j]? = some u) :
    u.visit <+: (visitFields ts).drop j := by
  match ts with
  | .list items :: rest =>
    exact isPrefix_drop_append h (visitItems_drop j items)
      fun i hi => visitFields_drop i rest hi
  | .node k line fields :: rest =>
    exact isPrefix_drop_append h (visit_drop j (.node k line fields))
      fun i hi => visitFields_drop i rest hi
  | .null :: rest | .bool _ :: rest | .int _ :: rest | .float _ :: rest | .text _ :: rest =>
    exact visitFields_drop j rest h

theorem visitItems_drop (j : Nat) (ts : List Tree) (h : (visitItems ts)[j]? = some u) :
    u.visit <+: (visitItems ts).drop j := by
  match ts with
  | t :: rest =>
    exact isPrefix_drop_append h (visit_drop j t) fun i hi => visitItems_drop i rest hi
end

mutual
/-- A node is visited once, or it is in a list inside a list. -/
theorem nodes_eq (t : Tree) (h : t.isList = false) :
    (t.nodes : Multiset Tree) = t.visit + (t.visit.flatMap passedOver : List Tree) := by
  match t with
  | .node k line fields =>
    have hfields := nodesIn_eq_fields fields
    simp only [nodes, visit, List.flatMap_cons, passedOver, ← Multiset.cons_coe,
      ← Multiset.coe_add, Multiset.cons_add, hfields]
    rw [add_assoc]
  | .null | .bool _ | .int _ | .float _ | .text _ => rfl

theorem nodesIn_eq_fields (ts : List Tree) :
    (nodesIn ts : Multiset Tree) = visitFields ts + (ts.flatMap inLists : List Tree) +
      ((visitFields ts).flatMap passedOver : List Tree) := by
  match ts with
  | [] => rfl
  | .list items :: rest =>
    have hitems := nodesIn_eq_items items
    have hrest := nodesIn_eq_fields rest
    simp only [nodesIn, nodes, visitFields, List.flatMap_cons, List.flatMap_append, inLists,
      ← Multiset.coe_add, hitems, hrest]
    ac_rfl
  | .node k line fields :: rest =>
    have hnode := nodes_eq (.node k line fields) rfl
    have hrest := nodesIn_eq_fields rest
    simp only [nodesIn, visitFields, List.flatMap_cons, List.flatMap_append, inLists,
      List.nil_append, ← Multiset.coe_add, hnode, hrest]
    ac_rfl
  | .null :: rest | .bool _ :: rest | .int _ :: rest | .float _ :: rest | .text _ :: rest =>
    exact nodesIn_eq_fields rest

theorem nodesIn_eq_items (ts : List Tree) :
    (nodesIn ts : Multiset Tree) = visitItems ts + (nodesIn (ts.filter isList) : List Tree) +
      ((visitItems ts).flatMap passedOver : List Tree) := by
  match ts with
  | [] => rfl
  | .list items :: rest =>
    have hrest := nodesIn_eq_items rest
    have hfilter : nodesIn ((Tree.list items :: rest).filter isList) =
      nodesIn items ++ nodesIn (rest.filter isList) := rfl
    have hvisit : visitItems (.list items :: rest) = visitItems rest := rfl
    rw [hfilter, hvisit]
    simp only [nodesIn, nodes, ← Multiset.coe_add, hrest]
    ac_rfl
  | .node k line fields :: rest =>
    have hnode := nodes_eq (.node k line fields) rfl
    have hrest := nodesIn_eq_items rest
    have hfilter : (Tree.node k line fields :: rest).filter isList = rest.filter isList := rfl
    rw [hfilter]
    simp only [nodesIn, visitItems, List.flatMap_append, ← Multiset.coe_add, hnode, hrest]
    ac_rfl
  | .null :: rest | .bool _ :: rest | .int _ :: rest | .float _ :: rest | .text _ :: rest =>
    exact nodesIn_eq_items rest
end

end Docblock.Tree
