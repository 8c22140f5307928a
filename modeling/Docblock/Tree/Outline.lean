import Docblock.Tree.Basic
import Docblock.Number.Shortest
import Docblock.Text.Quoted

/-! Trees as text, and their outline: records with named fields. -/
namespace Docblock

namespace Tree

/-- Texts with a comma and a space between them. -/
def commaSeparated (ss : List String) : String := ", ".intercalate ss

mutual
/-- Nodes as calls with their fields, lists in brackets, text in quotes. -/
def render : Tree → String
  | .null => "None"
  | .bool b => if b then "True" else "False"
  | .int n => toString n
  | .float x => x.text
  | .text s => Text.quote s
  | .list items => "[" ++ commaSeparated (renderAll items) ++ "]"
  | .node kind _ fields => kind.name ++ "(" ++ commaSeparated (renderAll fields) ++ ")"

def renderAll : List Tree → List String
  | [] => []
  | t :: ts => t.render :: renderAll ts
end

/-- As `render`, but a text by itself stands without quotes. -/
def display : Tree → String
  | .text s => s
  | t => t.render

end Tree

inductive Outline where
  /-- A value other than a list or a node. -/
  | plain (t : Tree)
  | list (items : List Outline)
  /-- A node left in a list inside a list, as text. -/
  | rendered (text : String)
  /-- A node by its kind and fields; the line is there if lines are asked for. -/
  | record (kind : Tree.Kind) (line : Option (Option Int)) (fields : List (String × Outline))

namespace Tree

mutual
/-- A value in which nodes stay as they are. -/
def raw : Tree → Outline
  | .list items => .list (rawAll items)
  | .node kind line fields => .rendered (render (.node kind line fields))
  | t => .plain t

def rawAll : List Tree → List Outline
  | [] => []
  | t :: ts => t.raw :: rawAll ts
end

mutual
/-- Nodes that are a field or stand directly in a list become records. -/
def outline (lines : Bool) : Tree → Outline
  | .node kind line fields =>
    .record kind (if lines then some line else none)
      (kind.fields.zip (outlineFields lines fields))
  | t => t.raw

def outlineFields (lines : Bool) : List Tree → List Outline
  | [] => []
  | .list items :: rest => .list (outlineItems lines items) :: outlineFields lines rest
  | t :: rest => t.outline lines :: outlineFields lines rest

def outlineItems (lines : Bool) : List Tree → List Outline
  | [] => []
  | t :: rest => t.outline lines :: outlineItems lines rest
end

end Tree
end Docblock
