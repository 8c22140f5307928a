import Docblock.Proofs.Grammar.Derivation
import Docblock.Proofs.Token.Modes

/-! The grammar takes tokens only in an order that goes back to every mode it has left waiting. -/
namespace Docblock

open Token Grammar

/-- How many of the modes that wait belong to what is read in a mode. -/
def Token.Mode.depth : Mode → Nat
  | .property | .quotedVar | .heredocVar => 1
  | _ => 0

namespace Config

/-- The modes in which a nonterminal can start. -/
def entries : List Config := [
  (.code, []), (.quoted, []), (.quotedVar, [.quoted]), (.heredoc, []), (.heredocVar, [.heredoc]),
  (.offset, []), (.varName, []), (.property, [.code])]

/-- The modes in which a nonterminal can end, by those in which it starts. After a variable in
interpolated text the mode of the text may still wait. -/
def exits (v : Nonterminal) : Config → Option (List Config)
  | (.code, []) =>
    match v with
    | .encapsList | .encapsVar | .encapsOffset => none
    | _ => some [(.code, [])]
  | (.quoted, []) =>
    match v with
    | .empty => some [(.quoted, [])]
    | .encapsList | .encapsVar => some [(.quoted, []), (.quotedVar, [.quoted])]
    | _ => none
  | (.quotedVar, [.quoted]) =>
    match v with
    | .encapsVar => some [(.quoted, []), (.quotedVar, [.quoted])]
    | _ => none
  | (.heredoc, []) =>
    match v with
    | .empty => some [(.heredoc, [])]
    | .encapsList | .encapsVar => some [(.heredoc, []), (.heredocVar, [.heredoc])]
    | _ => none
  | (.heredocVar, [.heredoc]) =>
    match v with
    | .encapsVar => some [(.heredoc, []), (.heredocVar, [.heredoc])]
    | _ => none
  | (.offset, []) =>
    match v with
    | .encapsOffset => some [(.offset, [])]
    | _ => none
  | (.varName, []) =>
    match v with
    | .expr | .scalar => some [(.varName, [])]
    | .baseVar | .baseWithCalls | .classConstant | .className | .commonScalar | .compoundVar
    | .functionCall | .indirectVar | .namespaceName | .referenceVar | .staticMember
    | .varClassName | .varExpr | .varWithoutObjects => some []
    | _ => none
  | (.property, [.code]) =>
    match v with
    | .objectProperty | .propertyName => some [(.code, [])]
    | .compoundVar | .indirectVar | .referenceVar | .varWithoutObjects => some []
    | _ => none
  | _ => none

/-- Whether some symbols lead from some modes into `goal` and nowhere else. -/
def leads (goal : List Config) : List Symbol → Config → Bool
  | [], c => goal.contains c
  | .t k :: ss, c =>
    match after k c with
    | none => false
    | some cs => cs.all (leads goal ss)
  | .n v :: ss, (m, ms) =>
    match exits v (m, ms.take m.depth) with
    | none => false
    | some cs => cs.all fun c => leads goal ss (c.1, c.2 ++ ms.drop m.depth)

/-- Whether a production ends in the modes that are listed for its left side. -/
def keeps (p : Production) (c : Config) : Bool :=
  match exits p.lhs c with
  | none => true
  | some cs => leads cs p.rhs c

theorem keeps_all : (productions.all fun p => entries.all (keeps p)) = true := by decide +kernel

theorem mem_entries {v : Nonterminal} {c : Config} {cs : List Config} (h : exits v c = some cs) :
    c ∈ entries := by
  unfold exits at h
  split at h
  case h_9 => cases h
  all_goals decide

theorem leads_rhs {p : Production} (hp : p ∈ productions) {c : Config} {cs : List Config}
    (h : exits p.lhs c = some cs) : leads cs p.rhs c = true := by
  have hk := List.all_eq_true.mp (List.all_eq_true.mp keeps_all p hp) c (mem_entries h)
  simpa only [keeps, h] using hk

end Config

open Docblock.Filter Config

/-- The tokens of a forest, read above some modes, need none of those, and lead where its
symbols lead. -/
theorem Grammar.Forest.reads_leads {ss : List Symbol} (forest : Forest ss) {f g : Filter}
    {base : List Mode} {goal : List Config} (hr : Reads (f.onto base) forest.yield g)
    (hl : leads goal ss f.modes = true) :
    ∃ f', Reads f forest.yield f' ∧ g = f'.onto base ∧ f'.modes ∈ goal := by
  induction forest generalizing f g base goal with
  | nil =>
    obtain ⟨f', hf', hg, hm⟩ := reads_nil hr
    refine ⟨f', hf', hg, ?_⟩
    rw [hm]
    simpa [leads] using hl
  | token t rest ih =>
    simp only [leads] at hl
    split at hl
    · cases hl
    · rename_i cs hc
      obtain ⟨f₁, hf₁, hrest, hm⟩ := reads_after hr hc
      obtain ⟨f', hf', hg⟩ := ih hrest (List.all_eq_true.mp hl _ hm)
      exact ⟨f', hf₁.trans hf', hg⟩
  | node p hp children rest ihc ihr =>
    obtain ⟨h, hchildren, hrest⟩ := reads_append hr
    simp only [leads] at hl
    split at hl
    · cases hl
    · rename_i cs hc
      -- The modes that do not belong to the production join those below while it is read.
      obtain ⟨f₀, hf, hm⟩ := f.cut_modes f.modes.1.depth
      rw [hf, onto_onto] at hchildren
      obtain ⟨f₁, hf₁, rfl, hm₁⟩ := ihc hchildren (hm ▸ leads_rhs hp hc)
      rw [← onto_onto] at hrest
      obtain ⟨f', hf', hg⟩ := ihr hrest (List.all_eq_true.mp hl _ hm₁)
      have hread := hf₁.onto (f.modes.2.drop f.modes.1.depth)
      rw [← hf] at hread
      exact ⟨f', hread.trans hf', hg⟩

end Docblock
