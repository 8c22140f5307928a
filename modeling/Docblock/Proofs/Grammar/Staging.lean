import Docblock.Proofs.Grammar.Making
import Docblock.Proofs.Script.Staging

/-! Every statement of a source is staged. -/
namespace Docblock.Grammar

open Docblock.Tree

/-- Further arms of a conditional. -/
def StagedArms (ts : List Tree) : Prop :=
  ∃ arms : List Arm, ts = arms.map Arm.tree ∧ ∀ a ∈ arms, a.test.plain = true ∧ Staged a.body

/-- The last arm of a conditional, or none. -/
def StagedLast (t : Tree) : Prop := ∃ last, t = lastArm last ∧ ∀ l ∈ last, Staged l.2

/-- What is done after errors of some classes. -/
def StagedCatches (ts : List Tree) : Prop :=
  ∃ catches : List Catch, ts = catches.map Catch.tree ∧
    ∀ c ∈ catches, c.var.plain = true ∧ ∀ t ∈ c.body, Staged t

/-- The values of expressions are plain, and those of statements are staged. What stands in a switch
or after a directive may be anything. -/
@[simp]
def StagedValue : (v : Nonterminal) → v.Value → Prop
  | .start, ts | .topStatements, ts | .innerStatements, ts | .classStatements, ts
  | .methodBody, ts => ∀ t ∈ ts, Staged t
  | .topStatement, t | .innerStatement, t | .statement, t | .whileBody, t | .forBody, t
  | .foreachBody, t | .functionDeclaration, t | .classDeclaration, t | .classStatement, t =>
    Staged t
  | .elseifs, ts | .colonElseifs, ts => StagedArms ts
  | .elsePart, t | .colonElse, t => StagedLast t
  | .moreCatches, ts => StagedCatches ts
  | .declareBody, _ | .switchBody, _ | .cases, _ => True
  | v, x => ∀ t ∈ v.trees x, t.plain = true

variable {line : Option Int} {t test body : Tree} {ts arms : List Tree} {k : Tree.Kind}

theorem stagedArms_nil : StagedArms [] := ⟨[], rfl, by simp⟩

theorem StagedArms.snoc (h : StagedArms ts) (ht : test.plain = true) (hb : Staged body) :
    StagedArms (ts ++ [Tree.node .elseIf line [test, body]]) := by
  obtain ⟨arms, rfl, harms⟩ := h
  refine ⟨arms ++ [⟨line, test, body⟩], by simp [Arm.tree], ?_⟩
  exact List.forall_mem_append.mpr ⟨harms, by simpa using ⟨ht, hb⟩⟩

theorem stagedLast_null : StagedLast .null := ⟨none, rfl, by simp⟩

theorem stagedLast_elseArm (h : Staged t) : StagedLast (.node .elseArm line [t]) :=
  ⟨some (line, t), rfl, by simpa using h⟩

theorem staged_ifElse (ht : test.plain = true) (hb : Staged body) (ha : StagedArms arms)
    (hl : StagedLast t) : Staged (.node .ifElse line [test, body, .list arms, t]) := by
  obtain ⟨arms, rfl, harms⟩ := ha
  obtain ⟨last, rfl, hlast⟩ := hl
  exact .ifElse ht hb (fun a ha => (harms a ha).1) (fun a ha => (harms a ha).2) hlast

theorem stagedCatches_nil : StagedCatches [] := ⟨[], rfl, by simp⟩

theorem stagedCatches_one (word : Token) (name : String) (var : Token) (h : ∀ t ∈ ts, Staged t) :
    StagedCatches [catchArm word name var ts] := by
  refine ⟨[⟨some word.line, .text name, node var.line .var [.text var.text], ts⟩], rfl, ?_⟩
  simpa using ⟨by rfl, h⟩

theorem StagedCatches.append {us : List Tree} (h : StagedCatches ts) (h' : StagedCatches us) :
    StagedCatches (ts ++ us) := by
  obtain ⟨cs, rfl, hcs⟩ := h
  obtain ⟨ds, rfl, hds⟩ := h'
  exact ⟨cs ++ ds, List.map_append.symm, List.forall_mem_append.mpr ⟨hcs, hds⟩⟩

theorem staged_tryBlock {us : List Tree} (h : ∀ t ∈ ts, Staged t) (hc : StagedCatches us) :
    Staged (.node .tryBlock line [.list ts, .list us]) := by
  obtain ⟨cs, rfl, hcs⟩ := hc
  exact .tryBlock h (fun c hc => (hcs c hc).1) fun c hc => (hcs c hc).2

theorem keeps_staged_statements :
    ∀ p ∈ topRules ++ innerRules ++ statementRules ++ armRules ++ varListRules,
      p.Keeps StagedValue := by
  simp only [topRules, innerRules, statementRules, armRules, varListRules, jumpRules, commaRules,
    bodyRules, List.forall_mem_append, List.forall_mem_cons, List.not_mem_nil, false_imp_iff,
    implies_true, and_true]
  repeat' apply And.intro
  all_goals first | apply keeps_rule | apply keeps_ruleOrFault
  all_goals simp +contextual +decide only [Ensures, StagedValue, Nonterminal.trees, node,
    plain_list, plain_text, plain_node, Staged.plain, Staged.inert, Staged.block, Staged.whileLoop,
    Staged.doWhile, Staged.forLoop, staged_ifElse, stagedArms_nil, StagedArms.snoc, stagedLast_null,
    stagedLast_elseArm, stagedCatches_nil, snoc, one, id,
    List.forall_mem_append, List.forall_mem_cons, List.not_mem_nil, false_imp_iff, implies_true,
    and_true]
  -- What is left are the rules with a block written after a colon, the loop in which the first of
  -- two names is the key, and the catches.
  · rintro _ _ _ _ v ⟨⟩
  · intro _ _ e he _ _ ss hss arms harms last hlast _ _
    exact staged_ifElse he (.block hss) harms hlast
  · intro _ _ e he _ var _ target _ _ body hbody
    split <;> exact .foreach he hbody
  · intro _ _ ss hss _ c _ name _ var _ _ cs hcs _ more hmore
    exact staged_tryBlock hss ((stagedCatches_one c name var hcs).append hmore)
  · intro more hmore c _ name _ var _ _ cs hcs _
    exact hmore.append (stagedCatches_one c name var hcs)
  · intro arms harms _ _ e he _ _ ss hss
    exact harms.snoc he (.block hss)
  · intro _ _ ss hss
    exact stagedLast_elseArm (.block hss)

theorem keeps_staged_declarations :
    ∀ p ∈ functionRules ++ parameterRules ++ classRules ++ memberRules, p.Keeps StagedValue := by
  simp only [functionRules, parameterRules, classRules, memberRules, nameRules, commaRules,
    List.forall_mem_append, List.forall_mem_cons, List.forall_mem_map, List.not_mem_nil,
    false_imp_iff, implies_true, and_true]
  repeat' apply And.intro
  all_goals apply keeps_rule
  all_goals simp +contextual +decide only [Ensures, StagedValue, Nonterminal.trees, node,
    plain_list, plain_text, plain_node, Staged.plain, Staged.inert, Staged.function,
    Staged.method, Staged.classDecl, snoc, one, formalParameter, classVariable,
    List.forall_mem_append, List.forall_mem_cons, List.not_mem_nil, false_imp_iff, implies_true,
    and_true]

theorem stagedValue_of_formed {v : Nonterminal} {x : v.Value} (h : Formed v x)
    (hv : v.isPlain = true) : StagedValue v x := by
  have hplain : ∀ t ∈ v.trees x, t.plain = true := fun t ht => (h.1 t ht).2.2.2 hv
  unfold StagedValue
  split
  all_goals first | exact hplain | cases hv

/-- Statements with a body stand only where the grammar has statements. -/
theorem keeps_staged : ∀ p ∈ productions, p.Keeps fun v x => Formed v x ∧ StagedValue v x := by
  have hexpressions : ∀ p ∈ exprRules ++ operatorRules ++ arrayRules ++ argumentRules ++
      classNameRules ++ callRules ++ variableRules, p.lhs.isPlain = true :=
    List.all_eq_true.mp rfl
  have hliterals : ∀ p ∈ scalarRules ++ staticScalarRules ++ encapsRules,
      p.lhs.isPlain = true := List.all_eq_true.mp rfl
  exact forall_productions
    (fun p hp => (keeps_formed_statements p hp).and (keeps_staged_statements p hp))
    (fun p hp => (keeps_formed_declarations p hp).and (keeps_staged_declarations p hp))
    (fun p hp => (keeps_formed_expressions p hp).and_of_imp fun _ hx =>
      stagedValue_of_formed hx (hexpressions p hp))
    (fun p hp => (keeps_formed_literals p hp).and_of_imp fun _ hx =>
      stagedValue_of_formed hx (hliterals p hp))

end Docblock.Grammar
