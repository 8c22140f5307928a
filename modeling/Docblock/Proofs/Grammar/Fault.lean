import Docblock.Proofs.Grammar.Derivation

/-! The tokens that actions give no value for. -/
namespace Docblock.Grammar

open Token

variable {file : Option String} {ss : List Symbol} {α : Type} {f : Fault}

def fault? : Except Fault α → Option Fault
  | .error f => some f
  | .ok _ => none

/-- What keeps a token of some kind from having a value in any place: a numeral or an escape that
cannot be read, and the end of the code, which may only stand outside of statements. -/
def faultAs (t : Token) : Kind → Option Fault
  | .integer => fault? (integerValue t.text.toList)
  | .encapsed => fault? (unescape t.text)
  | .offsetNumber => if (Number.ofDigits? 10 t.text.toList).isNone then some .badNumeral else none
  | .haltCompiler => some .haltInside
  | _ => none

/-- The tokens among some values, with the kinds that they stand for. -/
def terminals : (ss : List Symbol) → Values ss → List (Kind × Token)
  | [], _ => []
  | .t k :: ss, (t, vs) => (k, t) :: terminals ss vs
  | .n _ :: ss, (_, vs) => terminals ss vs

/-- An action without a value is given a token that has none. -/
def Production.Blames (p : Production) : Prop :=
  ∀ file (vs : Values p.rhs) f, (p.action file).apply vs = .error f →
    ∃ k t, (k, t) ∈ terminals p.rhs vs ∧ faultAs t k = some f

theorem apply_map {β : Type} (g : α → β) (c : Curried ss α) (vs : Values ss) :
    (c.map g).apply vs = g (c.apply vs) := by
  induction ss with
  | nil => rfl
  | cons s ss ih => exact ih (c vs.1) vs.2

theorem blames_rule {lhs : Nonterminal} (c : Curried ss lhs.Value) :
    (rule lhs ss c).Blames := by
  intro file vs f h
  have hok : Except.ok (c.apply vs) = Except.error f := (apply_map _ c vs).symm.trans h
  cases hok

theorem fault?_error {r : Except Fault α} (h : r = .error f) : fault? r = some f := by
  rw [h, fault?]

theorem fault?_map {β : Type} {g : α → β} {r : Except Fault α} (h : r.map g = .error f) :
    fault? r = some f := by
  cases r with
  | error e =>
    cases h
    rfl
  | ok a => cases h

/-- No action fails but for the sake of one of its tokens. -/
theorem blames : ∀ p ∈ productions, p.Blames := by
  unfold productions
  simp only [topRules, innerRules, statementRules, armRules, varListRules, functionRules,
    parameterRules, classRules, memberRules, exprRules, operatorRules, arrayRules, argumentRules,
    classNameRules, callRules, variableRules, scalarRules, staticScalarRules, encapsRules,
    nameRules, commaRules, jumpRules, bodyRules, casts, inclusions, List.forall_mem_append,
    List.forall_mem_cons, List.forall_mem_map, List.not_mem_nil, false_imp_iff, implies_true,
    and_true, true_and, blames_rule]
  refine ⟨⟨⟨?_, ?_, ?_, ?_⟩, ?_⟩, ?_, ?_⟩
  · rintro file ⟨t, _⟩ f ⟨⟩
    exact ⟨.haltCompiler, t, List.mem_cons_self, rfl⟩
  · rintro file ⟨t, _⟩ f h
    exact ⟨.integer, t, List.mem_cons_self, fault?_map h⟩
  · rintro file ⟨t, _⟩ f ⟨⟩
  · rintro file ⟨t, _⟩ f ⟨⟩
  · rintro file ⟨_, t, _⟩ f h
    exact ⟨.encapsed, t, List.mem_cons_of_mem _ List.mem_cons_self, fault?_error h⟩
  · rintro file ⟨before, t, _⟩ f h
    exact ⟨.encapsed, t, List.mem_cons_self, fault?_map h⟩
  · rintro file ⟨t, _⟩ f h
    refine ⟨.offsetNumber, t, List.mem_cons_self, ?_⟩
    simp only [ruleOrFault, Curried.apply] at h
    simp only [faultAs]
    split at h <;> cases h
    simp [*]

/-- A token among the values of a forest is one of its leaves. -/
theorem Forest.terminals_value {vs : Values ss} (forest : Forest ss)
    (h : forest.value file = .ok vs) :
    ∀ k t, (k, t) ∈ terminals ss vs → t.kind = k ∧ t ∈ forest.yield := by
  induction forest with
  | nil => simp [terminals]
  | token t rest ih =>
    obtain ⟨ws, hr, rfl⟩ := ok_of_map h
    intro k u hu
    rcases List.mem_cons.mp hu with he | hu
    · cases he
      exact ⟨rfl, List.mem_cons_self⟩
    · exact ⟨(ih hr k u hu).1, List.mem_cons_of_mem _ (ih hr k u hu).2⟩
  | node p hp children rest ihc ihr =>
    simp only [value] at h
    split at h
    · cases h
    · split at h
      · cases h
      · obtain ⟨ws, hr, rfl⟩ := ok_of_map h
        exact fun k t ht => ⟨(ihr hr k t ht).1, List.mem_append_right _ (ihr hr k t ht).2⟩

/-- Where an action gives no value, one of the tokens below it is at fault. -/
theorem Forest.exists_fault {p : Production} (hp : p ∈ productions) (forest : Forest p.rhs)
    {vs : Values p.rhs} (hv : forest.value file = .ok vs)
    (ha : (p.action file).apply vs = .error f) :
    ∃ t ∈ forest.yield, faultAs t t.kind = some f := by
  obtain ⟨k, t, ht, hf⟩ := blames p hp file vs f ha
  obtain ⟨rfl, hy⟩ := forest.terminals_value hv k t ht
  exact ⟨t, hy, hf⟩

end Docblock.Grammar
