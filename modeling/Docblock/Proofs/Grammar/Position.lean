import Docblock.Proofs.Grammar.Invariant

/-! The value of a derivation does not depend on where its tokens stand. -/
namespace Docblock

/-- A token at a position further on. -/
def Token.shift (k : Int) (t : Token) : Token := { t with pos := t.pos + k }

namespace Grammar

variable {file : Option String} {ss : List Symbol} {α β : Type} {k : Int}

/-- A function of the values of some symbols does not look at the positions of its tokens. -/
def Unplaced : (ss : List Symbol) → Curried ss α → Prop
  | [], _ => True
  | .t _ :: ss, f => ∀ t : Token, (∀ k, f (t.shift k) = f t) ∧ Unplaced ss (f t)
  | .n v :: ss, f => ∀ x : v.Value, Unplaced ss (f x)

/-- An action does not look at the positions of its tokens. -/
def Production.Unplaced (p : Production) : Prop :=
  ∀ file, Grammar.Unplaced p.rhs (p.action file)

theorem Unplaced.map {g : α → β} {f : Curried ss α} (h : Unplaced ss f) :
    Unplaced ss (f.map g) := by
  induction ss with
  | nil => trivial
  | cons s ss ih =>
    cases s with
    | t =>
      refine fun t => ⟨fun k => ?_, ih (h t).2⟩
      exact congrArg (Curried.map g) ((h t).1 k)
    | n => exact fun x => ih (h x)

theorem unplaced_rule {lhs : Nonterminal} {f : Curried ss lhs.Value} (h : Unplaced ss f) :
    (rule lhs ss f).Unplaced :=
  fun _ => h.map

theorem unplaced_ruleOrFault {lhs : Nonterminal} {f : Curried ss (Except Fault lhs.Value)}
    (h : Unplaced ss f) : (ruleOrFault lhs ss f).Unplaced :=
  fun _ => h

theorem unplaced_statements :
    ∀ p ∈ topRules ++ innerRules ++ statementRules ++ armRules ++ varListRules, p.Unplaced := by
  simp only [topRules, innerRules, statementRules, armRules, varListRules, jumpRules, commaRules,
    bodyRules, List.forall_mem_append, List.forall_mem_cons, List.not_mem_nil, false_imp_iff,
    implies_true, and_true]
  repeat' apply And.intro
  all_goals first | apply unplaced_rule | apply unplaced_ruleOrFault
  all_goals simp only [Unplaced, and_true]
  all_goals (repeat' first | apply And.intro | intro)
  all_goals first | rfl | trivial

theorem unplaced_declarations :
    ∀ p ∈ functionRules ++ parameterRules ++ classRules ++ memberRules, p.Unplaced := by
  simp only [functionRules, parameterRules, classRules, memberRules, nameRules, commaRules,
    List.forall_mem_append, List.forall_mem_cons, List.forall_mem_map, List.not_mem_nil,
    false_imp_iff, implies_true, and_true]
  repeat' apply And.intro
  all_goals apply unplaced_rule
  all_goals simp only [Unplaced, and_true]
  all_goals (repeat' first | apply And.intro | intro)
  all_goals first | rfl | trivial

theorem unplaced_expressions :
    ∀ p ∈ exprRules ++ operatorRules ++ arrayRules ++ argumentRules ++ classNameRules ++
      callRules ++ variableRules, p.Unplaced := by
  simp only [exprRules, operatorRules, arrayRules, argumentRules, classNameRules, callRules,
    variableRules, nameRules, commaRules, casts, inclusions, List.forall_mem_append,
    List.forall_mem_cons, List.forall_mem_map, List.not_mem_nil, false_imp_iff, implies_true,
    and_true]
  repeat' apply And.intro
  all_goals intros
  all_goals apply unplaced_rule
  all_goals simp only [Unplaced, and_true]
  all_goals (repeat' first | apply And.intro | intro)
  all_goals first | rfl | trivial

theorem unplaced_literals :
    ∀ p ∈ scalarRules ++ staticScalarRules ++ encapsRules, p.Unplaced := by
  simp only [scalarRules, staticScalarRules, encapsRules, nameRules, List.forall_mem_append,
    List.forall_mem_cons, List.not_mem_nil, false_imp_iff, implies_true, and_true]
  repeat' apply And.intro
  -- Two productions ask for the file, so they are neither of the two forms.
  all_goals first | apply unplaced_rule | apply unplaced_ruleOrFault | intro file
  all_goals simp only [Unplaced, and_true]
  all_goals (repeat' first | apply And.intro | intro)
  all_goals first | rfl | trivial

theorem unplaced_productions : ∀ p ∈ productions, p.Unplaced :=
  forall_productions unplaced_statements unplaced_declarations unplaced_expressions
    unplaced_literals

/-- Values with the tokens among them further on. -/
def shiftValues (k : Int) : (ss : List Symbol) → Values ss → Values ss
  | [], vs => vs
  | .t _ :: ss, (t, vs) => (t.shift k, shiftValues k ss vs)
  | .n _ :: ss, (x, vs) => (x, shiftValues k ss vs)

theorem Unplaced.apply_shift {f : Curried ss α} (h : Unplaced ss f) (vs : Values ss) :
    f.apply (shiftValues k ss vs) = f.apply vs := by
  induction ss with
  | nil => rfl
  | cons s ss ih =>
    obtain ⟨x, vs⟩ := vs
    cases s with
    | t =>
      have hsame : f (Token.shift k x) = f x := (h x).1 k
      simp only [shiftValues, Curried.apply, hsame]
      exact ih (h x).2 vs
    | n => exact ih (h x) vs

/-- A forest with its tokens further on. -/
def Forest.shift (k : Int) : {ss : List Symbol} → Forest ss → Forest ss
  | _, nil => nil
  | _, token t rest => token (t.shift k) (rest.shift k)
  | _, node p hp children rest => node p hp (children.shift k) (rest.shift k)

theorem Forest.yield_shift (k : Int) (forest : Forest ss) :
    (forest.shift k).yield = forest.yield.map (Token.shift k) := by
  induction forest with
  | nil => rfl
  | token t rest ih => simp only [shift, yield, ih, List.map_cons]
  | node p hp children rest ihc ihr => simp only [shift, yield, ihc, ihr, List.map_append]

/-- Further on, the values are the same but for the tokens among them. -/
theorem Forest.value_shift (k : Int) (forest : Forest ss) :
    (forest.shift k).value file = (forest.value file).map (shiftValues k ss) := by
  induction forest with
  | nil => rfl
  | token t rest ih =>
    simp only [shift, value, ih]
    cases rest.value file <;> rfl
  | node p hp children rest ihc ihr =>
    simp only [shift, value, ihc, ihr]
    cases children.value file with
    | error => rfl
    | ok vs =>
      simp only [Except.map, (unplaced_productions p hp file).apply_shift vs]
      cases (p.action file).apply vs with
      | error => rfl
      | ok x => cases rest.value file <;> rfl

/-- What a derivation evaluates to does not depend on where its tokens stand. -/
theorem Derivation.result_shift {v : Nonterminal} (k : Int) (d : Derivation v) :
    Derivation.result (d.shift k) file = d.result file := by
  rw [result, Forest.value_shift, result]
  cases d.value file <;> rfl

end Grammar
end Docblock
