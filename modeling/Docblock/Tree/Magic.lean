import Docblock.Tree.Outline

/-! Constants that name the place in which they stand. -/
namespace Docblock.Tree

/-- The names of the latest declarations on the way through a tree, null before the first. -/
structure Place where
  namespaceName : Tree := .null
  className : Tree := .null
  functionName : Tree := .null
  methodName : Tree := .null

namespace Place

/-- A name after the namespace, if there is one. -/
def qualify (p : Place) (name : Tree) : Tree :=
  if p.namespaceName.truthy then .text (p.namespaceName.display ++ "\\" ++ name.display) else name

/-- A method name after its class, if there is one. -/
def inClass (p : Place) (name : Tree) : Tree :=
  if p.className.truthy then .text (p.className.display ++ "::" ++ name.display) else name

/-- The value in a place of a constant that names one. -/
def value? (p : Place) : Tree → Option Tree
  | .text "__NAMESPACE__" => some p.namespaceName
  | .text "__CLASS__" => some (p.qualify p.className)
  | .text "__FUNCTION__" => some (p.qualify p.functionName)
  | .text "__METHOD__" => some (p.qualify (p.inClass p.methodName))
  | _ => none

/-- The fields of a constant that names a place, with its value there. -/
def fields? (p : Place) (kind : Kind) (fields : List Tree) : Option (List Tree) :=
  match kind, fields with
  | .magicConstant, [name, _] => (p.value? name).map ([name, ·])
  | _, _ => none

/-- The place after the start of a node. -/
def enter (p : Place) (kind : Kind) (fields : List Tree) : Place :=
  match kind, fields with
  | .namespaceDecl, name :: _ => { p with namespaceName := name }
  | .classDecl, name :: _ => { p with className := name }
  | .function, name :: _ => { p with functionName := name }
  | .method, name :: _ => { p with methodName := name }
  | _, _ => p

end Place

mutual
/-- Gives the constants below a node the values of their places, and the place at its end. -/
def resolve (p : Place) : Tree → Tree × Place
  | .node kind line fields =>
    match p.fields? kind fields with
    | some fields' => (.node kind line fields', p)
    | none =>
      let (fields', p') := resolveFields (p.enter kind fields) fields
      (.node kind line fields', p')
  | t => (t, p)

def resolveFields (p : Place) : List Tree → List Tree × Place
  | [] => ([], p)
  | .list items :: rest =>
    let (items', p') := resolveItems p items
    let (rest', p'') := resolveFields p' rest
    (.list items' :: rest', p'')
  | t :: rest =>
    let (t', p') := resolve p t
    let (rest', p'') := resolveFields p' rest
    (t' :: rest', p'')

def resolveItems (p : Place) : List Tree → List Tree × Place
  | [] => ([], p)
  | t :: rest =>
    let (t', p') := resolve p t
    let (rest', p'') := resolveItems p' rest
    (t' :: rest', p'')
end

/-- The trees of one source with their constants resolved, from the first to the last. -/
def resolveAll (ts : List Tree) : List Tree := (resolveItems {} ts).1

end Docblock.Tree
