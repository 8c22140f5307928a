import Docblock.Tree.Basic

/-! Scripts: the code that trees are turned into. -/
namespace Docblock

namespace Script

inductive BoolOp where
  | and | or
  deriving DecidableEq

inductive BinOp where
  | add | sub | mult | div | mod | shiftLeft | shiftRight | bitOr | bitAnd | bitXor
  deriving DecidableEq

inductive UnaryOp where
  | invert | not | plus | minus
  deriving DecidableEq

inductive CompareOp where
  | notEqual | less | lessOrEqual | equal | greater | greaterOrEqual | isIn | isNot
  deriving DecidableEq

/-- Whether a place is read or written. -/
inductive Context where
  | load | store
  deriving DecidableEq

end Script

open Script in
/-- Statements and expressions of a script, each with the line of the tree it stands for. A tree
in a field is a value that is taken over as it is. An expression may hold a statement, as the
trees allow. -/
inductive Script where
  | functionDef (line : Option Int) (name : Tree) (params : List Tree) (defaults : List Script)
      (body : List Script) (classMethod : Bool)
  | classDef (line : Option Int) (name base : Tree) (body : List Script)
  | returnNothing (line : Option Int)
  | returnValue (line : Option Int) (value : Script)
  | delete (line : Option Int) (targets : List Script)
  | assign (line : Option Int) (target value : Script)
  | print (line : Option Int) (value : Script)
  | forEach (line : Option Int) (target iter : Script) (body : List Script)
  | whileLoop (line : Option Int) (test : Script) (body : List Script)
  | ifElse (line : Option Int) (test : Script) (body orElse : List Script)
  | raise (line : Option Int) (error : Script)
  | tryExcept (line : Option Int) (body handlers : List Script)
  | globalNames (line : Option Int) (names : List Tree)
  | expr (line : Option Int) (value : Script)
  | pass (line : Option Int)
  | breakLoop (line : Option Int)
  | continueLoop (line : Option Int)
  | boolOp (line : Option Int) (op : BoolOp) (left right : Script)
  | binOp (line : Option Int) (left : Script) (op : BinOp) (right : Script)
  | unaryOp (line : Option Int) (op : UnaryOp) (operand : Script)
  | ifExp (line : Option Int) (test ifTrue ifFalse : Script)
  | dict (line : Option Int) (keys values : List Script)
  | compare (line : Option Int) (left : Script) (op : CompareOp) (right : Script)
  | call (line : Option Int) (func : Script) (args keywords : List Script)
  | num (line : Option Int) (value : Tree)
  | str (line : Option Int) (value : Tree)
  | attribute (line : Option Int) (value : Script) (attr : Tree) (ctx : Context)
  | subscript (line : Option Int) (value index : Script) (ctx : Context)
  | name (line : Option Int) (id : Tree) (ctx : Context)
  | list (line : Option Int) (items : List Script) (ctx : Context)
  | tuple (line : Option Int) (items : List Script) (ctx : Context)
  /-- A name that a loop assigns to together with another. -/
  | loopTarget (line : Option Int) (id : Tree)
  | handler (line : Option Int) (type : Tree) (var : Script) (body : List Script)
  | keyword (arg : Tree) (value : Script)

namespace Script

def isStmt : Script → Bool
  | .functionDef .. | .classDef .. | .returnNothing _ | .returnValue .. | .delete .. | .assign ..
  | .print .. | .forEach .. | .whileLoop .. | .ifElse .. | .raise .. | .tryExcept ..
  | .globalNames .. | .expr .. | .pass _ | .breakLoop _ | .continueLoop _ => true
  | _ => false

def line : Script → Option Int
  | .functionDef l .. | .classDef l .. | .returnNothing l | .returnValue l _ | .delete l _
  | .assign l .. | .print l _ | .forEach l .. | .whileLoop l .. | .ifElse l .. | .raise l _
  | .tryExcept l .. | .globalNames l _ | .expr l _ | .pass l | .breakLoop l | .continueLoop l
  | .boolOp l .. | .binOp l .. | .unaryOp l .. | .ifExp l .. | .dict l .. | .compare l ..
  | .call l .. | .num l _ | .str l _ | .attribute l .. | .subscript l .. | .name l ..
  | .list l .. | .tuple l .. | .loopTarget l _ | .handler l .. => l
  | .keyword .. => none

/-- A statement; an expression stands as a statement of its own. -/
def toStmt (s : Script) : Script := if s.isStmt then s else .expr s.line s

/-- A place to be written. Other code stays as it is. -/
def store : Script → Script
  | .attribute l v a _ => .attribute l v a .store
  | .subscript l v i _ => .subscript l v i .store
  | .name l id _ => .name l id .store
  | .list l xs _ => .list l xs .store
  | .tuple l xs _ => .tuple l xs .store
  | s => s

/-- Reads a name. -/
def load (line : Option Int) (id : String) : Script := .name line (.text id) .load

/-- Calls a function by its name. -/
def callNamed (line : Option Int) (id : String) (args : List Script) : Script :=
  .call line (load line id) args []

/-- Statements, or one that does nothing. -/
def orPass (line : Option Int) (body : List Script) : List Script :=
  if body.isEmpty then [.pass line] else body

end Script
end Docblock
