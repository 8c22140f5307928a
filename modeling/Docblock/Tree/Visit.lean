import Docblock.Tree.Basic

/-! Taking trees apart: values whose form is not known, and all nodes in the order of their text. -/
namespace Docblock.Tree

inductive AccessError where
  /-- A value has no field of the name asked for. -/
  | missingField
  /-- A value of another form is needed. -/
  | wrongForm
  deriving DecidableEq

/-- A field by its name. -/
def get (t : Tree) (name : String) : Except AccessError Tree :=
  match t.field? name with
  | some u => .ok u
  | none => .error .missingField

/-- The items of a list, or the characters of a text. -/
def items : Tree → Except AccessError (List Tree)
  | .list ts => .ok ts
  | .text s => .ok (s.toList.map fun c => .text (String.singleton c))
  | _ => .error .wrongForm

/-- Whether the characters stand somewhere in a text. -/
def occurs (word : List Char) : List Char → Bool
  | [] => word.isEmpty
  | c :: cs => word.isPrefixOf (c :: cs) || occurs word cs

/-- Whether a word is in a list, or stands in a text. -/
def includes (word : String) : Tree → Except AccessError Bool
  | .list ts => .ok (ts.any fun t => match t with
    | .text s => s == word
    | _ => false)
  | .text s => .ok (occurs word.toList s.toList)
  | _ => .error .wrongForm

mutual
/-- A node, then the nodes below it. Below are the nodes that are a field or stand directly in a
list that is a field; a list in a list is not searched. -/
def visit : Tree → List Tree
  | .node kind line fields => .node kind line fields :: visitFields fields
  | _ => []

def visitFields : List Tree → List Tree
  | [] => []
  | .list items :: rest => visitItems items ++ visitFields rest
  | t :: rest => t.visit ++ visitFields rest

def visitItems : List Tree → List Tree
  | [] => []
  | t :: rest => t.visit ++ visitItems rest
end

end Docblock.Tree
