import Docblock.Proofs.Tree.Comments

/-! The nodes of a tree that have no line. -/
namespace Docblock.Tree

variable {t : Tree} {ts us : List Tree} {k : Kind} {line : Option Int} {l : Int}

/-- A node that is no comment and has no line. -/
def lineless : Tree → Bool
  | .node k line _ => k != .comment && line.isNone
  | _ => false

/-- The number of nodes without a line in some trees. -/
def bareIn (ts : List Tree) : Nat := (nodesIn ts).countP lineless

/-- Every node of a tree that is no comment has a line, or it is the block of an arm that has. -/
inductive Lined : Tree → Prop
  | null : Lined .null
  | bool (b : Bool) : Lined (.bool b)
  | int (n : Int) : Lined (.int n)
  | float (x : Double) : Lined (.float x)
  | text (s : String) : Lined (.text s)
  | list {ts : List Tree} (h : ∀ t ∈ ts, Lined t) : Lined (.list ts)
  | comment {line : Option Int} {fs : List Tree} (h : ∀ t ∈ fs, Lined t) :
      Lined (.node .comment line fs)
  | node {k : Kind} {l : Int} {fs : List Tree} (h : ∀ t ∈ fs, Lined t) : Lined (.node k (some l) fs)
  | arm {l : Int} {e : Tree} {ss : List Tree} (he : Lined e) (h : ∀ t ∈ ss, Lined t) :
      Lined (.node .elseIf (some l) [e, .node .block none [.list ss]])

/-- Some node without a line is the block of an arm among some nodes. -/
def InArm (ns : List Tree) (n : Tree) : Prop :=
  ∃ l e ss, n = .node .block none [.list ss] ∧ .node .elseIf (some l) [e, n] ∈ ns

theorem InArm.mono {ns ms : List Tree} {n : Tree} (h : InArm ns n) (hsub : ns ⊆ ms) :
    InArm ms n := by
  obtain ⟨l, e, ss, hn, hmem⟩ := h
  exact ⟨l, e, ss, hn, hsub hmem⟩

theorem nodes_subset (ht : t ∈ ts) : t.nodes ⊆ nodesIn ts :=
  fun _ hn => mem_nodesIn.mpr ⟨t, ht, hn⟩

theorem inArm_of_fields {n : Tree}
    (h : ∀ t ∈ ts, ∀ n ∈ t.nodes, n.lineless = true → InArm t.nodes n) (hn : n ∈ nodesIn ts)
    (hl : n.lineless = true) : InArm (nodesIn ts) n := by
  obtain ⟨t, ht, hnt⟩ := mem_nodesIn.mp hn
  exact (h t ht n hnt hl).mono (nodes_subset ht)

theorem Lined.inArm (h : Lined t) : ∀ n ∈ t.nodes, n.lineless = true → InArm t.nodes n := by
  induction h with
  | null | bool | int | float | text => simp [nodes]
  | list _ ih => exact fun n hn hl => inArm_of_fields ih hn hl
  | comment _ ih | node _ ih =>
    intro n hn hl
    obtain rfl | hn := List.mem_cons.mp hn
    · simp [lineless] at hl
    · exact (inArm_of_fields ih hn hl).mono (List.subset_cons_self _ _)
  | @arm l e ss he h ihe ih =>
    intro n hn hl
    have hnodes : (Tree.node .elseIf (some l) [e, .node .block none [.list ss]]).nodes =
        .node .elseIf (some l) [e, .node .block none [.list ss]] ::
          (e.nodes ++ .node .block none [.list ss] :: nodesIn ss) := by
      simp [nodes, nodesIn]
    rw [hnodes] at hn ⊢
    simp only [List.mem_cons, List.mem_append] at hn
    obtain rfl | hn | rfl | hn := hn
    · simp [lineless] at hl
    · exact (ihe n hn hl).mono fun m hm => by simp [hm]
    · exact ⟨l, e, ss, rfl, by simp⟩
    · exact (inArm_of_fields ih hn hl).mono fun m hm => by simp [hm]

end Docblock.Tree
