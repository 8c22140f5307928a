import Docblock.Proofs.Script.Expression

/-! What statements of control flow do, in a tree and in a script. -/
namespace Docblock

open Docblock.Flow Docblock.Flow.Meaning

mutual
/-- What a statement of a script does, with answers to its events and a bound on the rounds of each
loop. A statement without control flow is one event. -/
def Script.perform (answers : Nat → Bool) (rounds : Nat) : Script → Meaning Script
  | .pass _ => skip
  | .breakLoop _ => leave .byBreak
  | .continueLoop _ => leave .byContinue
  | .ifElse _ test body orElse =>
    branch answers test.verdict (Script.performAll answers rounds body)
      (Script.performAll answers rounds orElse)
  | .whileLoop _ test body =>
    loop (branch answers test.verdict (Script.performAll answers rounds body) (leave .byBreak))
      rounds
  | s => evaluate s.verdict

def Script.performAll (answers : Nat → Bool) (rounds : Nat) : List Script → Meaning Script
  | [] => skip
  | s :: ss => (s.perform answers rounds).andThen (Script.performAll answers rounds ss)
end

namespace Script

theorem perform_toStmt (answers : Nat → Bool) (rounds : Nat) (s : Script) :
    s.toStmt.perform answers rounds = s.perform answers rounds := by
  unfold Script.toStmt
  split
  · rfl
  · rename_i hs
    cases s with
    | breakLoop | continueLoop | ifElse | whileLoop | pass => exact absurd rfl hs
    | _ => rfl

theorem performAll_append (answers : Nat → Bool) (rounds : Nat) (ss us : List Script) :
    performAll answers rounds (ss ++ us) =
      (performAll answers rounds ss).andThen (performAll answers rounds us) := by
  induction ss with
  | nil => rfl
  | cons s ss ih => rw [List.cons_append, performAll, ih, performAll, andThen_assoc]

theorem perform_of_not_isControl {s : Script} (h : s.isControl = false) (answers : Nat → Bool)
    (rounds : Nat) : s.perform answers rounds = evaluate s.verdict := by
  cases s <;> first | rfl | cases h

end Script

namespace Tree

/-- The truth on which the next round of a counting loop depends. Without a test it goes on. -/
def roundVerdict : Tree → Verdict Tree
  | .list [test] => test.verdict
  | _ => .known true

mutual
/-- What a statement does, with answers to its events and a bound on the rounds of each loop. A
round that is broken off for the next one still makes the step of a counting loop and the test at
the end of a loop. -/
def perform (answers : Nat → Bool) (rounds : Nat) : Tree → Meaning Tree
  | .null => skip
  | .list ts => performAll answers rounds ts
  | .node .block _ [nodes] => nodes.perform answers rounds
  | .node .ifElse _ [test, body, .list arms, last] =>
    branch answers test.verdict (body.perform answers rounds)
      (performArms answers rounds (last.perform answers rounds) arms)
  | .node .elseArm _ [body] => body.perform answers rounds
  | .node .whileLoop _ [test, body] =>
    loop (branch answers test.verdict (body.perform answers rounds) (leave .byBreak)) rounds
  | .node .doWhile _ [body, test] =>
    loop ((body.perform answers rounds).resume.andThen
      (branch answers test.verdict skip (leave .byBreak))) rounds
  | .node .forLoop _ [start, test, count, body] =>
    (start.perform answers rounds).andThen
      (loop (branch answers test.roundVerdict
        ((body.perform answers rounds).resume.andThen (count.perform answers rounds))
        (leave .byBreak)) rounds)
  | .node .breakLoop _ [.null] => leave .byBreak
  | .node .continueLoop _ [.null] => leave .byContinue
  | e => evaluate e.verdict

def performAll (answers : Nat → Bool) (rounds : Nat) : List Tree → Meaning Tree
  | [] => skip
  | t :: ts => (t.perform answers rounds).andThen (performAll answers rounds ts)

/-- The arms of a conditional in order, and what is done if none of them is taken. -/
def performArms (answers : Nat → Bool) (rounds : Nat) (none : Meaning Tree) :
    List Tree → Meaning Tree
  | [] => none
  | .node .elseIf _ [test, body] :: arms =>
    branch answers test.verdict (body.perform answers rounds)
      (performArms answers rounds none arms)
  | _ :: arms => performArms answers rounds none arms
end

mutual
/-- Whether a round of a loop around a statement may be broken off for the next one. -/
def continues : Tree → Bool
  | .list ts => continuesIn ts
  | .node .block _ [nodes] => nodes.continues
  | .node .ifElse _ [_, body, arms, last] => body.continues || arms.continues || last.continues
  | .node .elseIf _ [_, body] => body.continues
  | .node .elseArm _ [body] => body.continues
  | .node .continueLoop _ _ => true
  | _ => false

def continuesIn : List Tree → Bool
  | [] => false
  | t :: ts => t.continues || continuesIn ts
end

/-- Whether the test of a counting loop is the text of a zero. -/
def isZeroRound : Tree → Bool
  | .list [test] => test.isZero
  | _ => false

/-- Whether a row has no expression. -/
def isEmptyList : Tree → Bool
  | .null | .list [] => true
  | _ => false

mutual
/-- Whether no round is broken off for the next one where the loop has a step or a test to make
then, and no test is the text of a zero. -/
def steady : Tree → Bool
  | .list ts => steadyAll ts
  | .node .block _ [nodes] => nodes.steady
  | .node .ifElse _ [test, body, arms, last] =>
    !test.isZero && body.steady && arms.steady && last.steady
  | .node .elseIf _ [test, body] => !test.isZero && body.steady
  | .node .elseArm _ [body] => body.steady
  | .node .whileLoop _ [test, body] => !test.isZero && body.steady
  | .node .doWhile _ [body, test] => !test.isZero && body.steady && !body.continues
  | .node .forLoop _ [_, test, count, body] =>
    !test.isZeroRound && body.steady && (count.isEmptyList || !body.continues)
  | _ => true

def steadyAll : List Tree → Bool
  | [] => true
  | t :: ts => t.steady && steadyAll ts
end

/-- An arm of a conditional with a test of its own. -/
structure Arm where
  line : Option Int
  test : Tree
  body : Tree

def Arm.tree (a : Arm) : Tree := .node .elseIf a.line [a.test, a.body]

/-- The last arm of a conditional, if it has one without a test. -/
def lastArm : Option (Option Int × Tree) → Tree
  | none => .null
  | some (line, body) => .node .elseArm line [body]

/-- Expressions in a row, or none. -/
inductive Row (P : Tree → Prop) : Tree → Prop
  | nothing : Row P .null
  | list {es : List Tree} (h : ∀ e ∈ es, P e) : Row P (.list es)

/-- One test, or none. -/
inductive Test (P : Tree → Prop) : Tree → Prop
  | nothing : Test P .null
  | single {e : Tree} (h : P e) : Test P (.list [e])

/-- Statements of expressions, blocks, conditionals, loops and the ways to leave their rounds. -/
inductive ControlFlow (P : Tree → Prop) : Tree → Prop
  | nothing : ControlFlow P .null
  | expression {e : Tree} (he : P e) : ControlFlow P e
  | block {line : Option Int} {ts : List Tree} (h : ∀ t ∈ ts, ControlFlow P t) :
      ControlFlow P (.node .block line [.list ts])
  | ifElse {line : Option Int} {test body : Tree} {arms : List Arm}
      {last : Option (Option Int × Tree)} (ht : P test) (hb : ControlFlow P body)
      (hat : ∀ a ∈ arms, P a.test) (hab : ∀ a ∈ arms, ControlFlow P a.body)
      (hl : ∀ l ∈ last, ControlFlow P l.2) :
      ControlFlow P (.node .ifElse line [test, body, .list (arms.map Arm.tree), lastArm last])
  | whileLoop {line : Option Int} {test body : Tree} (ht : P test) (hb : ControlFlow P body) :
      ControlFlow P (.node .whileLoop line [test, body])
  | doWhile {line : Option Int} {test body : Tree} (ht : P test) (hb : ControlFlow P body) :
      ControlFlow P (.node .doWhile line [body, test])
  | forLoop {line : Option Int} {start test count body : Tree} (hs : Row P start)
      (ht : Test P test) (hc : Row P count) (hb : ControlFlow P body) :
      ControlFlow P (.node .forLoop line [start, test, count, body])
  | breakLoop {line : Option Int} : ControlFlow P (.node .breakLoop line [.null])
  | continueLoop {line : Option Int} : ControlFlow P (.node .continueLoop line [.null])

variable {answers : Nat → Bool} {rounds : Nat} {t e : Tree} {ts : List Tree} {P : Tree → Prop}

theorem perform_expression (he : e.isExpression = true) :
    e.perform answers rounds = evaluate e.verdict := by
  unfold perform
  split
  all_goals first | rfl | cases he

theorem continuesIn_eq_any (ts : List Tree) : continuesIn ts = ts.any continues := by
  induction ts with
  | nil => rfl
  | cons t ts ih => rw [continuesIn, ih, List.any_cons]

theorem steadyAll_eq_all (ts : List Tree) : steadyAll ts = ts.all steady := by
  induction ts with
  | nil => rfl
  | cons t ts ih => rw [steadyAll, ih, List.all_cons]

theorem staying_performAll (h : ∀ t ∈ ts, (t.perform answers rounds).Staying) :
    (performAll answers rounds ts).Staying := by
  induction ts with
  | nil => exact staying_leave (by decide)
  | cons t ts ih =>
    obtain ⟨ht, hts⟩ := List.forall_mem_cons.mp h
    exact ht.andThen (ih hts)

theorem staying_performArms {m : Meaning Tree} {arms : List Arm} (hm : m.Staying)
    (h : ∀ a ∈ arms, (a.body.perform answers rounds).Staying) :
    (performArms answers rounds m (arms.map Arm.tree)).Staying := by
  induction arms with
  | nil => exact hm
  | cons a arms ih =>
    obtain ⟨ha, harms⟩ := List.forall_mem_cons.mp h
    exact ha.branch (ih harms)

theorem staying_expression (he : e.isExpression = true) :
    (e.perform answers rounds).Staying := by
  rw [perform_expression he]
  exact staying_evaluate _

/-- A statement that breaks off no round for the next one ends otherwise. -/
theorem staying_perform (hP : ∀ e, P e → e.isExpression = true) (h : ControlFlow P t)
    (hc : t.continues = false) : (t.perform answers rounds).Staying := by
  induction h with
  | nothing => exact staying_leave (by decide)
  | expression he => exact staying_expression (hP _ he)
  | block _ ih =>
    simp only [continues, continuesIn_eq_any, List.any_eq_false, Bool.not_eq_true] at hc
    exact staying_performAll fun t ht => ih t ht (hc t ht)
  | @ifElse line test body arms last ht hb hat hab hl ihb iha ihl =>
    simp only [continues, continuesIn_eq_any, List.any_map, Bool.or_eq_false_iff, List.any_eq_false,
      Bool.not_eq_true] at hc
    obtain ⟨⟨hcb, hca⟩, hcl⟩ := hc
    refine (ihb hcb).branch (staying_performArms ?_ fun a ha => iha a ha (hca a ha))
    cases last with
    | none => exact staying_leave (by decide)
    | some l => exact ihl l rfl hcl
  | whileLoop => exact staying_loop _ _
  | doWhile => exact staying_loop _ _
  | forLoop hs =>
    refine Staying.andThen ?_ (staying_loop _ _)
    cases hs with
    | nothing => exact staying_leave (by decide)
    | list h => exact staying_performAll fun e he => staying_expression (hP e (h e he))
  | breakLoop => exact staying_leave (by decide)
  | continueLoop => cases hc

/-- The statements of a block, or the one statement that stands for a block. -/
def statements : Tree → List Tree
  | .node .block _ [.list ts] => ts
  | t => [t]

theorem performAll_statements (t : Tree) :
    performAll answers rounds t.statements = t.perform answers rounds := by
  unfold statements
  split
  · simp only [perform]
  · simp only [performAll, andThen_skip]

theorem performAll_append (answers : Nat → Bool) (rounds : Nat) (ts us : List Tree) :
    performAll answers rounds (ts ++ us) =
      (performAll answers rounds ts).andThen (performAll answers rounds us) := by
  induction ts with
  | nil => rfl
  | cons t ts ih => rw [List.cons_append, performAll, ih, performAll, andThen_assoc]

/-- The expressions of a row. -/
def row : Tree → List Tree
  | .list es => es
  | _ => []

theorem performAll_row (h : Row P t) :
    performAll answers rounds t.row = t.perform answers rounds := by
  cases h with
  | nothing => simp only [row, performAll, perform]
  | list h => simp only [row, perform]

end Tree
end Docblock
