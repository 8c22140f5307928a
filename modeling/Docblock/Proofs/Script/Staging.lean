import Docblock.Proofs.Script.Statement
import Docblock.Proofs.Tree.Layout

/-! Statements and expressions apart: the statements that have a body stand in bodies only, and no
expression has one in it but in a closure. -/
namespace Docblock.Tree

variable {t : Tree} {ts : List Tree} {k : Kind} {line : Option Int}

/-- The kinds of statement that have bodies of which nothing comes into a script. -/
def inertKinds : List Kind := [.switch, .declare, .namespaceDecl, .interfaceDecl]

/-- What is done when an error of some class is thrown. -/
structure Catch where
  line : Option Int
  name : Tree
  var : Tree
  body : List Tree

def Catch.tree (c : Catch) : Tree := .node .catchArm c.line [c.name, c.var, .list c.body]

/-- Statements whose bodies are statements, and that have only plain trees elsewhere. -/
inductive Staged : Tree → Prop
  | plain {t : Tree} (h : t.plain = true) : Staged t
  | inert {k : Kind} {line : Option Int} {fs : List Tree} (h : k ∈ inertKinds) :
      Staged (.node k line fs)
  | block {line : Option Int} {ts : List Tree} (h : ∀ t ∈ ts, Staged t) :
      Staged (.node .block line [.list ts])
  | ifElse {line : Option Int} {test body : Tree} {arms : List Arm}
      {last : Option (Option Int × Tree)} (ht : test.plain = true) (hb : Staged body)
      (hat : ∀ a ∈ arms, a.test.plain = true) (hab : ∀ a ∈ arms, Staged a.body)
      (hl : ∀ l ∈ last, Staged l.2) :
      Staged (.node .ifElse line [test, body, .list (arms.map Arm.tree), lastArm last])
  | whileLoop {line : Option Int} {test body : Tree} (ht : test.plain = true)
      (hb : Staged body) : Staged (.node .whileLoop line [test, body])
  | doWhile {line : Option Int} {test body : Tree} (ht : test.plain = true) (hb : Staged body) :
      Staged (.node .doWhile line [body, test])
  | forLoop {line : Option Int} {start test count body : Tree} (hs : start.plain = true)
      (ht : test.plain = true) (hc : count.plain = true) (hb : Staged body) :
      Staged (.node .forLoop line [start, test, count, body])
  | foreach {line : Option Int} {e keyVar valueVar body : Tree} (he : e.plain = true)
      (hb : Staged body) : Staged (.node .foreach line [e, keyVar, valueVar, body])
  | tryBlock {line : Option Int} {ts : List Tree} {catches : List Catch}
      (h : ∀ t ∈ ts, Staged t) (hv : ∀ c ∈ catches, c.var.plain = true)
      (hc : ∀ c ∈ catches, ∀ t ∈ c.body, Staged t) :
      Staged (.node .tryBlock line [.list ts, .list (catches.map Catch.tree)])
  | function {line : Option Int} {name ref : Tree} {ps ts : List Tree}
      (hp : ∀ p ∈ ps, p.plain = true) (h : ∀ t ∈ ts, Staged t) :
      Staged (.node .function line [name, .list ps, .list ts, ref])
  | method {line : Option Int} {name modifiers ref : Tree} {ps ts : List Tree}
      (hp : ∀ p ∈ ps, p.plain = true) (h : ∀ t ∈ ts, Staged t) :
      Staged (.node .method line [name, modifiers, .list ps, .list ts, ref])
  | classDecl {line : Option Int} {name type ext imp : Tree} {ns : List Tree}
      (h : ∀ n ∈ ns, Staged n) :
      Staged (.node .classDecl line [name, type, ext, imp, .list ns])

mutual
/-- Whether a statement has an empty body where a script has one. A function or a class may be
empty, and so may the last arm of a conditional and the body of a loop with its test at the end;
a counting loop has its step in its body. -/
def hollow : Tree → Bool
  | .node .block _ [.list ts] => ts.isEmpty || hollowIn ts
  | .node .ifElse _ [_, body, .list arms, last] => body.hollow || hollowArms arms || hollowLast last
  | .node .whileLoop _ [_, body] | .node .foreach _ [_, _, _, body] => body.hollow
  | .node .doWhile _ [.node .block _ [.list ts], _] => hollowIn ts
  | .node .doWhile _ [body, _] => body.hollow
  | .node .forLoop _ [_, _, count, .node .block _ [.list ts]] =>
    ts.isEmpty && count.row.isEmpty || hollowIn ts
  | .node .forLoop _ [_, _, _, body] => body.hollow
  | .node .tryBlock _ [.list ts, .list catches] =>
    ts.isEmpty || hollowIn ts || hollowCatches catches
  | .node .function _ [_, _, .list ts, _] | .node .method _ [_, _, _, .list ts, _]
  | .node .classDecl _ [_, _, _, _, .list ts] => hollowIn ts
  | _ => false

/-- Whether a statement of some has such a body. -/
def hollowIn : List Tree → Bool
  | [] => false
  | t :: ts => t.hollow || hollowIn ts

def hollowArms : List Tree → Bool
  | [] => false
  | .node .elseIf _ [_, body] :: arms => body.hollow || hollowArms arms
  | _ :: arms => hollowArms arms

def hollowLast : Tree → Bool
  | .node .elseArm _ [.node .block _ [.list ts]] => hollowIn ts
  | .node .elseArm _ [body] => body.hollow
  | _ => false

def hollowCatches : List Tree → Bool
  | [] => false
  | .node .catchArm _ [_, _, .list ts] :: catches =>
    ts.isEmpty || hollowIn ts || hollowCatches catches
  | _ :: catches => hollowCatches catches
end

theorem hollowIn_eq_any (ts : List Tree) : hollowIn ts = ts.any hollow := by
  induction ts with
  | nil => rfl
  | cons t ts ih => rw [hollowIn, ih, List.any_cons]

/-- A statement is hollow as a body just if it is hollow: an empty block is both. -/
theorem hollow_eq_statements (t : Tree) :
    t.hollow = (t.statements.isEmpty || t.statements.any hollow) := by
  unfold statements
  split
  · rw [hollow, hollowIn_eq_any]
  · simp

theorem hollow_doWhile (body test : Tree) :
    (Tree.node .doWhile line [body, test]).hollow = body.statements.any hollow := by
  unfold statements
  split
  · rw [hollow, hollowIn_eq_any]
  · rw [hollow]
    · simp
    · assumption

theorem hollow_forLoop (start test count body : Tree) :
    (Tree.node .forLoop line [start, test, count, body]).hollow =
      ((body.statements ++ count.row).isEmpty || body.statements.any hollow) := by
  unfold statements
  split
  · rename_i ts
    rw [hollow, hollowIn_eq_any]
    cases ts <;> rfl
  · rw [hollow]
    · simp
    · assumption

theorem hollowArms_map (arms : List Arm) :
    hollowArms (arms.map Arm.tree) = arms.any (·.body.hollow) := by
  induction arms with
  | nil => rfl
  | cons a arms ih => rw [List.map_cons, Arm.tree, hollowArms, ih, List.any_cons]

theorem hollowLast_lastArm (last : Option (Option Int × Tree)) :
    hollowLast (lastArm last) = last.any fun l => l.2.statements.any hollow := by
  cases last with
  | none => rfl
  | some l =>
    rw [lastArm, Option.any_some]
    unfold statements
    split
    · rename_i heq
      rw [heq, hollowLast, hollowIn_eq_any]
    · rw [hollowLast]
      · simp
      · assumption

theorem hollowCatches_map (catches : List Catch) :
    hollowCatches (catches.map Catch.tree) =
      catches.any fun c => c.body.isEmpty || c.body.any hollow := by
  induction catches with
  | nil => rfl
  | cons c catches ih =>
    rw [List.map_cons, Catch.tree, hollowCatches, ih, hollowIn_eq_any, List.any_cons]

theorem hollow_of_not_suite (hk : k ∉ suiteKinds) : (Tree.node k line ts).hollow = false := by
  cases k with
  | block | ifElse | whileLoop | doWhile | forLoop | foreach | tryBlock | function | method
  | classDecl => exact absurd (by decide) hk
  | _ => rfl

theorem hollow_of_plain (h : t.plain = true) : t.hollow = false := by
  cases t with
  | node k line fs =>
    refine hollow_of_not_suite fun hk => ?_
    by_cases hc : k = .closure
    · subst hc
      exact absurd hk (by decide)
    · exact ((plain_node hc).mp h).1 hk
  | null | bool | int | float | text | list => rfl

theorem hollow_of_inert (h : k ∈ inertKinds) : (Tree.node k line ts).hollow = false := by
  refine hollow_of_not_suite ?_
  revert h
  cases k <;> decide

end Docblock.Tree
