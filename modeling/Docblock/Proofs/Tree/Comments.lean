import Docblock.Proofs.Tree.Shape
import Mathlib.Algebra.Order.Group.Multiset

/-! The comments of a tree, wherever they stand in it. -/
namespace Docblock.Tree

variable {t : Tree} {ts us : List Tree} {k : Kind} {line : Option Int}

mutual
/-- All the nodes of a tree: those in fields, in lists, and in lists inside lists. -/
def nodes : Tree → List Tree
  | .node k line fs => .node k line fs :: nodesIn fs
  | .list ts => nodesIn ts
  | _ => []

/-- All the nodes of some trees. -/
def nodesIn : List Tree → List Tree
  | [] => []
  | t :: ts => t.nodes ++ nodesIn ts
end

theorem mem_nodesIn {n : Tree} : n ∈ nodesIn ts ↔ ∃ t ∈ ts, n ∈ t.nodes := by
  induction ts with
  | nil => simp [nodesIn]
  | cons t ts ih => simp [nodesIn, ih]

mutual
/-- A check that every node of a tree passes is passed by every node of a node in it. -/
theorem everyNode_nodes {p : Kind → Option Int → List Tree → Bool} (t : Tree)
    (h : t.everyNode p = true) : ∀ n ∈ t.nodes, n.everyNode p = true := by
  match t with
  | .node k line fs =>
    rw [nodes, List.forall_mem_cons]
    exact ⟨h, everyNodeIn_nodes fs (Bool.and_eq_true_iff.mp h).2⟩
  | .list ts => exact everyNodeIn_nodes ts h
  | .null | .bool _ | .int _ | .float _ | .text _ => simp [nodes]

theorem everyNodeIn_nodes {p : Kind → Option Int → List Tree → Bool} (ts : List Tree)
    (h : everyNodeIn p ts = true) : ∀ n ∈ nodesIn ts, n.everyNode p = true := by
  match ts with
  | [] => simp [nodesIn]
  | t :: ts =>
    obtain ⟨ht, hts⟩ := Bool.and_eq_true_iff.mp h
    rw [nodesIn, List.forall_mem_append]
    exact ⟨everyNode_nodes t ht, everyNodeIn_nodes ts hts⟩
end

/-- The texts of the comments among some nodes, each as often as it stands there. -/
def commentTexts (ns : List Tree) : Multiset (Option Tree) :=
  ((ns.filter (isOf [.comment])).map (·.field? "text") : List (Option Tree))

/-- The texts of all the comments in a tree. -/
def comments (t : Tree) : Multiset (Option Tree) := commentTexts t.nodes

/-- The texts of all the comments in some trees. -/
def commentsIn (ts : List Tree) : Multiset (Option Tree) := commentTexts (nodesIn ts)

theorem commentTexts_append (ns ms : List Tree) :
    commentTexts (ns ++ ms) = commentTexts ns + commentTexts ms := by
  simp [commentTexts]

@[simp] theorem commentsIn_nil : commentsIn [] = 0 := rfl

@[simp] theorem commentsIn_cons : commentsIn (t :: ts) = t.comments + commentsIn ts :=
  commentTexts_append _ _

/-- A node has the comments of its fields, unless it is a comment itself. -/
@[simp] theorem comments_node (h : k ≠ .comment) :
    (Tree.node k line ts).comments = commentsIn ts := by
  simp [comments, commentsIn, commentTexts, nodes, isOf, h]

@[simp] theorem comments_comment (s : String) :
    (Tree.node .comment line [.text s]).comments = {some (.text s)} := rfl

@[simp] theorem comments_text (s : String) : (Tree.text s).comments = 0 := rfl

end Docblock.Tree
