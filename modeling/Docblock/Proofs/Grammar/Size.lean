import Docblock.Proofs.Grammar.Derivation

/-! The number of productions in a derivation, bounded by the number of its tokens. -/
namespace Docblock.Grammar

/-- The most productions in a derivation of no token, for the nonterminals that have one. -/
def Nonterminal.emptySize : Nonterminal → Option Nat
  | .empty => some 1
  | .topStatements | .innerStatements | .moreCatches | .elseifs | .elsePart | .colonElseifs
  | .colonElse | .forExprs | .foreachTarget | .cases | .extendsClause | .implementsClause
  | .classStatements | .interfaceExtends | .methodModifiers | .isReference | .parameters
  | .dynamicProperties | .constructorArguments | .listTarget | .methodArguments | .properties
  | .dimension | .dimensions | .arrayPairs | .possibleComma | .arguments | .closureVars
  | .staticPairs | .encapsList => some 2
  | .start | .listTargets => some 3
  | _ => none

/-- The most productions in a derivation of one token; each further token brings at most twelve. -/
def Nonterminal.firstSize : Nonterminal → Nat
  | .topStatement | .useDeclaration | .constantDeclarations | .innerStatement | .declareBody
  | .elsePart | .colonElse | .whileBody | .forBody | .foreachTarget | .foreachBody | .globalVars
  | .staticVars | .extendsClause | .qualifiedName | .implementsClause | .interfaceExtends
  | .modifiers1 | .isReference | .className | .constructorArguments | .methodArguments
  | .referenceVar | .possibleComma | .closureVars | .scalar | .staticScalar => 2
  | .useDeclarations | .moreCatches | .elseifs | .colonElseifs | .cases | .classStatement
  | .interfaces | .varModifiers | .methodModifiers | .parameters | .indirectVar | .varClassName
  | .dimensions | .staticPairs1 => 3
  | .dynamicProperties | .properties | .baseVar | .varWithoutObjects | .encapsList => 4
  | .topStatements | .innerStatements | .dynamicReference | .baseWithCalls | .objectProperty => 5
  | .start | .classStatements | .classReference | .varExpr | .staticPairs => 6
  | .unsetVar | .expr | .listTarget | .issetVars => 7
  | .forExprs1 | .echoExprs | .unsetVars | .listTargets | .dimension | .arrayPairs1
  | .argument => 8
  | .forExprs | .arguments => 9
  | .arrayPairs => 11
  | _ => 1

def Symbol.emptySize : Symbol → Option Nat
  | .t _ => none
  | .n v => v.emptySize

def Symbol.firstSize : Symbol → Nat
  | .t _ => 0
  | .n v => v.firstSize

/-- The most productions above some symbols that derive no token, if they can. -/
def emptySize : List Symbol → Option Nat
  | [] => some 0
  | s :: ss => s.emptySize.bind fun n => (emptySize ss).map (n + ·)

/-- The most productions above some symbols that derive one token. The first symbol derives it,
or the others do; where both derive some, two tokens are counted as first ones. -/
def firstSize : List Symbol → Nat
  | [] => 0
  | s :: ss =>
    max (max (((emptySize ss).map (s.firstSize + ·)).getD 0)
      ((s.emptySize.map (· + firstSize ss)).getD 0)) (s.firstSize + firstSize ss - 12)

/-- Whether both bounds of a production cover those of its right side and itself. -/
def Production.fits (p : Production) : Bool :=
  (emptySize p.rhs).all (fun n => p.lhs.emptySize.any (n + 1 ≤ ·)) &&
    (p.rhs.isEmpty || firstSize p.rhs + 1 ≤ p.lhs.firstSize)

theorem fits_all : productions.all Production.fits = true := by decide +kernel

theorem fits_empty {p : Production} {n : Nat} (hp : p ∈ productions)
    (h : emptySize p.rhs = some n) : ∃ m, p.lhs.emptySize = some m ∧ n + 1 ≤ m := by
  have hf := List.all_eq_true.mp fits_all p hp
  simpa [Production.fits, h, Option.any_eq_true] using (Bool.and_eq_true_iff.mp hf).1

theorem fits_first {p : Production} (hp : p ∈ productions) (h : p.rhs ≠ []) :
    firstSize p.rhs + 1 ≤ p.lhs.firstSize := by
  have hf := List.all_eq_true.mp fits_all p hp
  simpa [Production.fits, h] using (Bool.and_eq_true_iff.mp hf).2

theorem firstSize_of_empty_tail {s : Symbol} {ss : List Symbol} {n : Nat}
    (h : emptySize ss = some n) : s.firstSize + n ≤ firstSize (s :: ss) := by
  simp only [firstSize, h, Option.map_some, Option.getD_some]
  omega

theorem firstSize_of_empty_head {s : Symbol} {n : Nat} (ss : List Symbol)
    (h : s.emptySize = some n) : n + firstSize ss ≤ firstSize (s :: ss) := by
  simp only [firstSize, h, Option.map_some, Option.getD_some]
  omega

theorem firstSize_cons (s : Symbol) (ss : List Symbol) :
    s.firstSize + firstSize ss ≤ firstSize (s :: ss) + 12 := by
  simp only [firstSize]
  omega

namespace Forest

variable {ss : List Symbol}

theorem size_of_yield_nil (forest : Forest ss) (h : forest.yield = []) :
    ∃ n, emptySize ss = some n ∧ forest.size ≤ n := by
  induction forest with
  | nil => exact ⟨0, rfl, Nat.le_refl 0⟩
  | token => cases h
  | node p hp children rest ihc ihr =>
    obtain ⟨hc, hr⟩ := List.append_eq_nil_iff.mp h
    obtain ⟨n, hn, hle⟩ := ihc hc
    obtain ⟨k, hk, hle'⟩ := ihr hr
    obtain ⟨m, hm, hnm⟩ := fits_empty hp hn
    refine ⟨m + k, by simp [emptySize, Symbol.emptySize, hm, hk], ?_⟩
    simp only [size]
    omega

theorem rhs_ne_nil {p : Production} (children : Forest p.rhs) (h : children.yield ≠ []) :
    p.rhs ≠ [] := by
  intro he
  revert children
  rw [he]
  intro children h
  cases children
  exact h rfl

/-- One token more brings at most twelve productions more. -/
theorem size_of_yield (forest : Forest ss) (h : forest.yield ≠ []) :
    forest.size + 12 ≤ 12 * forest.yield.length + firstSize ss := by
  induction forest with
  | nil => exact absurd rfl h
  | @token t ss rest ih =>
    simp only [yield, size, List.length_cons]
    by_cases hr : rest.yield = []
    · obtain ⟨n, hn, hle⟩ := rest.size_of_yield_nil hr
      have hfirst := firstSize_of_empty_tail (s := .t t.kind) hn
      simp only [Symbol.firstSize] at hfirst
      omega
    · have hrest := ih hr
      have hfirst := firstSize_cons (.t t.kind) ss
      simp only [Symbol.firstSize] at hfirst
      omega
  | @node p hp children ss rest ihc ihr =>
    simp only [yield, size, List.length_append]
    by_cases hc : children.yield = []
    · obtain ⟨n, hn, hle⟩ := children.size_of_yield_nil hc
      obtain ⟨m, hm, hnm⟩ := fits_empty hp hn
      have hrest := ihr (by simpa [yield, hc] using h)
      have hfirst := firstSize_of_empty_head (s := .n p.lhs) ss hm
      simp only [hc, List.length_nil]
      omega
    · have hchildren := ihc hc
      have hfits := fits_first hp (rhs_ne_nil children hc)
      by_cases hr : rest.yield = []
      · obtain ⟨n, hn, hle⟩ := rest.size_of_yield_nil hr
        have hfirst := firstSize_of_empty_tail (s := .n p.lhs) hn
        simp only [Symbol.firstSize] at hfirst
        omega
      · have hrest := ihr hr
        have hfirst := firstSize_cons (.n p.lhs) ss
        simp only [Symbol.firstSize] at hfirst
        omega

end Forest
end Docblock.Grammar
