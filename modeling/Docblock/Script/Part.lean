import Docblock.Script.Basic
import Docblock.Tree.Outline
import Docblock.Tree.Visit

/-! Trees on the way to scripts: every part of a tree with what it is turned into. Joined text is a
pattern with places for the parts that are not text. -/
namespace Docblock.Conversion

/-- What a script cannot say. -/
inductive Unsupported where
  | breakLevel
  | continueLevel
  | unaryOperator (op : String)
  | binaryOperator (op : String)
  | severalTests
  | severalAssignments
  deriving DecidableEq

def Unsupported.message : Unsupported → String
  | .breakLevel => "level on break not supported"
  | .continueLevel => "level on continue not supported"
  | .unaryOperator op => "unknown unary operator: '" ++ op ++ "'"
  | .binaryOperator op => "unknown binary operator: '" ++ op ++ "'"
  | .severalTests => "only a single test is supported in for-loops"
  | .severalAssignments => "only one class-level assignment supported per line"

/-- Why a tree has no script. -/
inductive Error where
  | unsupported (u : Unsupported)
  | access (e : Tree.AccessError)
  /-- An operator has no first sign. -/
  | emptyOperator
  deriving DecidableEq

/-- A tree, the script it is turned into, and its fields or items as parts. -/
inductive Part where
  | mk (tree : Tree) (script : Except Error Script) (parts : List Part)

namespace Part

def tree : Part → Tree
  | ⟨t, _, _⟩ => t

def script : Part → Except Error Script
  | ⟨_, s, _⟩ => s

def parts : Part → List Part
  | ⟨_, _, ps⟩ => ps

/-- The script for a tree that has no other: a call that holds its text. -/
def fallback (line : Option Int) (t : Tree) : Script :=
  Script.callNamed line "XXX" [.str line (.text t.display)]

def ofText (s : String) : Part := ⟨.text s, .ok (.str (some 0) (.text s)), []⟩

def ofInt (n : Int) : Part := ⟨.int n, .ok (.num (some 0) (.int n)), []⟩

def ofList (ps : List Part) : Part :=
  ⟨.list (ps.map tree), .ok (fallback (some 0) (.list (ps.map tree))), ps⟩

/-- A field by its name. -/
def field (p : Part) (name : String) : Except Error Part :=
  match p.tree with
  | .node kind _ _ =>
    match (kind.fields.zip p.parts).lookup name with
    | some q => .ok q
    | none => .error (.access .missingField)
  | _ => .error (.access .missingField)

def isNull (p : Part) : Bool :=
  match p.tree with
  | .null => true
  | _ => false

def hasKind (p : Part) (kind : Tree.Kind) : Bool :=
  match p.tree with
  | .node k _ _ => k == kind
  | _ => false

/-- The items of a list, or the characters of a text. -/
def items (p : Part) : Except Error (List Part) :=
  match p.tree with
  | .list _ => .ok p.parts
  | .text s => .ok (s.toList.map fun c => ofText (String.singleton c))
  | _ => .error (.access .wrongForm)

/-- The scripts of all items, the first that has none stopping. -/
def scripts (p : Part) : Except Error (List Script) := do (← p.items).mapM script

/-- The items as statements. -/
def statements (p : Part) : Except Error (List Script) := do return (← p.scripts).map Script.toStmt

/-- The statements of a block, or the one statement that stands for a block. -/
def deblock (p : Part) : Part :=
  match p.tree, p.parts with
  | .node .block _ _, [nodes] => nodes
  | _, _ => ofList [p]

/-- The body of a loop or of an arm. -/
def body (p : Part) : Except Error (List Script) := p.deblock.statements

/-- The value, or no items if it counts as not set. -/
def orNothing (p : Part) : Part := if p.tree.truthy then p else ofList []

def isNumber : Tree → Bool
  | .bool _ | .int _ | .float _ => true
  | _ => false

/-- One after the other: lists or texts. Numbers have a sum, which has no items whatever it is. -/
def append (p q : Part) : Except Error Part :=
  match p.tree, q.tree with
  | .list _, .list _ => .ok (ofList (p.parts ++ q.parts))
  | .text s, .text t => .ok (ofText (s ++ t))
  | t, u => if isNumber t && isNumber u then .ok (ofInt 0) else .error (.access .wrongForm)

end Part

/-- A text or list without its first character or item. -/
def tail : Tree → Except Error Tree
  | .text s => .ok (.text (String.ofList (s.toList.drop 1)))
  | .list ts => .ok (.list (ts.drop 1))
  | _ => .error (.access .wrongForm)

/-- A text or list without its last character or item. -/
def front : Tree → Except Error Tree
  | .text s => .ok (.text (String.ofList s.toList.dropLast))
  | .list ts => .ok (.list ts.dropLast)
  | _ => .error (.access .wrongForm)

/-- The first character or item of a text or list. -/
def first : Tree → Except Error Tree
  | .text s =>
    match s.toList with
    | c :: _ => .ok (.text (String.singleton c))
    | [] => .error .emptyOperator
  | .list (t :: _) => .ok t
  | .list [] => .error .emptyOperator
  | _ => .error (.access .wrongForm)

/-- The number of characters or items of a text or list. -/
def size : Tree → Except Error Nat
  | .text s => .ok s.length
  | .list ts => .ok ts.length
  | _ => .error (.access .wrongForm)

/-- A percent sign of the text is written twice. -/
def literal (s : String) : String :=
  String.ofList (s.toList.flatMap fun c => if c = '%' then ['%', '%'] else [c])

/-- A pattern and the parts for its places, with one more text or part after them. -/
def extend (p : String × List Part) (right : Part) : String × List Part :=
  match right.tree with
  | .text s => (p.1 ++ literal s, p.2)
  | _ => (p.1 ++ "%s", p.2 ++ [right])

/-- The pattern of two joined parts; a join on the left is part of the pattern. -/
def format : Part → Part → String × List Part
  | ⟨.node .binaryOp _ (.text "." :: _), _, [_, left, right]⟩, last =>
    extend (format left right) last
  | ⟨.text s, _, _⟩, last => extend (literal s, []) last
  | left, last => extend ("%s", [left]) last

/-- A pattern without places, filled in. -/
def plainText : List Char → List Char
  | '%' :: '%' :: cs => '%' :: plainText cs
  | c :: cs => c :: plainText cs
  | [] => []

end Docblock.Conversion
