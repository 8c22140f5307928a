import Docblock.Tree.Kind
import Docblock.Number.Double

/-! Trees of source code: nodes with a line and fields, and the plain values in their fields. -/
namespace Docblock

inductive Tree where
  | null
  | bool (b : Bool)
  | int (n : Int)
  | float (x : Double)
  | text (s : String)
  | list (items : List Tree)
  | node (kind : Tree.Kind) (line : Option Int) (fields : List Tree)

namespace Tree

instance : Inhabited Tree := ⟨.null⟩

/-- A node is given a wrong number of fields. -/
structure ArityError where
  kind : Kind
  deriving DecidableEq

def ArityError.message (e : ArityError) : String :=
  e.kind.name ++ " takes " ++ toString e.kind.fields.length ++ " arguments"

/-- A node of a kind with all its fields. -/
def make (kind : Kind) (line : Option Int) (fields : List Tree) : Except ArityError Tree :=
  if fields.length = kind.fields.length then .ok (.node kind line fields) else .error ⟨kind⟩

def isNode : Tree → Bool
  | .node _ _ _ => true
  | _ => false

def line? : Tree → Option Int
  | .node _ line _ => line
  | _ => none

/-- The value of a named field. -/
def field? (t : Tree) (name : String) : Option Tree :=
  match t with
  | .node kind _ fields => (kind.fields.zip fields).lookup name
  | _ => none

/-- Whether a value counts as set: nodes do, and all values but null, false, zero and nothing. -/
def truthy : Tree → Bool
  | .null => false
  | .bool b => b
  | .int n => n != 0
  | .float x => x.isNonzero
  | .text s => !s.isEmpty
  | .list items => !items.isEmpty
  | .node _ _ _ => true

end Tree
end Docblock
