import Docblock.Proofs.Grammar.Conservation

/-! The comments in the value of a derivation are those among its tokens, once and unchanged. -/
namespace Docblock

def Token.isComment (t : Token) : Bool :=
  match t.kind with
  | .comment | .docComment => true
  | _ => false

namespace Tree

/-- The texts of the comments among some nodes. -/
def texts (ns : Multiset Tree) : Multiset (Option Tree) :=
  (ns.filter fun n => n.isOf [.comment] = true).map (·.field? "text")

theorem texts_add (ns ms : Multiset Tree) : texts (ns + ms) = texts ns + texts ms := by
  simp [texts]

theorem texts_comment (s : String) :
    texts {.node .comment none [.text s]} = {some (.text s)} := rfl

theorem texts_of_forall {ns : Multiset Tree} (h : ∀ n ∈ ns, n.isOf [.comment] = false) :
    texts ns = 0 := by
  rw [texts, Multiset.filter_eq_nil.mpr fun n hn => by simp [h n hn], Multiset.map_zero]

theorem texts_markedIn (ts : List Tree) : texts (markedIn ts) = commentsIn ts := by
  have hmarked : ∀ n : Tree, (n.isOf [.comment] && n.isMarked) = n.isOf [.comment] := by
    intro n
    cases n with
    | node k line fs => by_cases hk : k = .comment <;> simp [isOf_node, isMarked, hk]
    | null | bool | int | float | text | list => rfl
  rw [texts, markedIn, Multiset.filter_coe, Multiset.map_coe]
  simp only [Bool.decide_eq_true, List.filter_filter, hmarked]
  rfl

end Tree

namespace Grammar

open Docblock.Tree

variable {file : Option String} {ss : List Symbol} {v : Nonterminal}

/-- The texts of the comments among some tokens, each as often as it stands there. -/
def spokenIn (ts : List Token) : Multiset (Option Tree) :=
  ((ts.filter Token.isComment).map fun t => some (.text t.text) : List (Option Tree))

theorem spokenIn_cons (t : Token) (ts : List Token) :
    spokenIn (t :: ts) = texts (noted t.kind t) + spokenIn ts := by
  have hnone : texts 0 = 0 := rfl
  cases h : t.kind <;> simp [spokenIn, noted, Token.isComment, h, hnone, texts_comment]

theorem spokenIn_append (ts us : List Token) :
    spokenIn (ts ++ us) = spokenIn ts + spokenIn us := by
  simp [spokenIn]

theorem ReadAs.texts_own {us : List Token} {x : v.Value} (h : ReadAs file v us x) :
    texts (v.own x) = 0 := by
  refine texts_of_forall fun n hn => ?_
  obtain hk | ⟨hk, -⟩ := h.mem_own hn
  · exact isOf_of_disjoint hk (by decide)
  · exact isOf_of_disjoint hk (by decide)

/-- The values of a forest hold the comments of its leaves. -/
theorem Forest.texts_marks {vs : Values ss} (forest : Forest ss)
    (h : forest.value file = .ok vs) : texts (marks ss vs) = spokenIn forest.yield := by
  induction forest with
  | nil => rfl
  | token t rest ih =>
    obtain ⟨ws, hr, rfl⟩ := ok_of_map h
    rw [marks, yield, spokenIn_cons, texts_add, ih hr]
  | node p hp children rest ihc ihr =>
    obtain ⟨x, xs⟩ := vs
    obtain ⟨ys, hc, ha, hr, hmarks, -⟩ := balanced_node h
    rw [marks, yield, spokenIn_append, texts_add, hmarks, texts_add,
      (readAs_node hp hc ha).texts_own, zero_add, ihc hc, ihr hr]

theorem Derivation.commentsIn_trees {x : v.Value} (d : Derivation v)
    (h : d.result file = .ok x) : commentsIn (v.trees x) = spokenIn d.yield := by
  obtain ⟨⟨x, u⟩, hvalue, rfl⟩ := ok_of_map h
  rw [← d.texts_marks hvalue, marks, marks, add_zero, texts_markedIn]

end Grammar
end Docblock
