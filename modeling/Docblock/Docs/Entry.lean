import Docblock.Docs.Comment
import Docblock.Docs.Signature

/-! Entries of documentation, and the entries for the declarations of a source. -/
namespace Docblock.Docs

open Docblock.Tree (AccessError)

inductive EntryKind where
  | function | classType | interfaceType | method | attribute
  deriving DecidableEq

def EntryKind.name : EntryKind → String
  | .function => "function"
  | .classType => "class"
  | .interfaceType => "interface"
  | .method => "method"
  | .attribute => "attr"

/-- A header with a name, and the lines of the comment before the declaration, if it has one. -/
structure Entry where
  level : Nat
  kind : EntryKind
  name : String
  text : Option (List String)
  deriving DecidableEq

/-- A line at a level of indentation; an empty line has none. -/
def indented (level : Nat) (line : String) : String :=
  if line.isEmpty then "" else String.ofList (List.replicate (3 * level) ' ') ++ line

def Entry.header (e : Entry) (domain : String) : String :=
  indented e.level (".. " ++ domain ++ ":" ++ e.kind.name ++ ":: " ++ e.name)

def Entry.lines (e : Entry) (domain : String) : List String :=
  [e.header domain, ""] ++
    match e.text with
    | none => []
    | some ls => ls.map (indented (e.level + 1)) ++ [""]

/-- What the node before a declaration says about it. -/
inductive Remark where
  | nothing
  | isPrivate
  | text (lines : List String)
  deriving DecidableEq

def remark : Tree → Except AccessError Remark
  | .node .comment _ [.text s] =>
    if isPrivate s.toList then .ok .isPrivate
    else if isDoc s.toList then .ok (.text ((commentLines s.toList).map String.ofList))
    else .ok .nothing
  | .node .comment _ [.list _] => .ok .nothing
  | .node .comment _ _ => .error .wrongForm
  | _ => .ok .nothing

/-- Which declarations are shown: members of classes, and those without documentation. -/
structure Options where
  members : Bool
  undocMembers : Bool
  deriving DecidableEq

/-- The entry for a declaration, or none. A forced one is there also without documentation and
for private code, which shows only its header. -/
def entry (o : Options) (force : Bool) (level : Nat) (kind : EntryKind) (name : String) :
    Remark → List Entry
  | .isPrivate => if force then [⟨level, kind, name, none⟩] else []
  | .nothing => if o.undocMembers || force then [⟨level, kind, name, none⟩] else []
  | .text lines => [⟨level, kind, name, some lines⟩]

/-- Whether modifiers keep a member out of the documentation. -/
def isHidden (modifiers : Tree) : Except AccessError Bool := do
  if ← modifiers.includes "protected" then return true else modifiers.includes "private"

/-- The entries for the attributes of one declaration. -/
def attributes (o : Options) (level : Nat) (last : Tree) (nodes : Tree) :
    Except AccessError (List Entry) := do
  let es ← (← nodes.items).mapM fun v => do
    let name ← v.get "name"
    return entry o false level .attribute name.display (← remark last)
  return es.flatten

mutual
/-- The entries for one declaration that follows another node. -/
def describe (o : Options) (level : Nat) (last : Tree) : Tree → Except AccessError (List Entry)
  | .node .function line fields => do
    let name ← signature (.node .function line fields)
    return entry o false level .function name.display (← remark last)
  | .node .classDecl _ [name, _, _, _, nodes] => do
    match ← remark last with
    | .isPrivate => return []
    | r =>
      let members ← if o.members then describeNodes o (level + 1) nodes else pure []
      return entry o false level .classType name.display r ++ members
  | .node .interfaceDecl _ [name, _, nodes] => do
    match ← remark last with
    | .isPrivate => return []
    | r =>
      let members ← if o.members then describeNodes o (level + 1) nodes else pure []
      return entry o false level .interfaceType name.display r ++ members
  | .node .method line [name, modifiers, params, nodes, isRef] => do
    if ← isHidden modifiers then return []
    else
      let name ← signature (.node .method line [name, modifiers, params, nodes, isRef])
      return entry o false level .method name.display (← remark last)
  | .node .classVariables _ [modifiers, nodes] => do
    if ← isHidden modifiers then return [] else attributes o level last nodes
  | _ => .ok []

/-- The entries for the declarations among the nodes of a body. -/
def describeNodes (o : Options) (level : Nat) : Tree → Except AccessError (List Entry)
  | .list ts => describeAll o level .null ts
  | .text _ => .ok []
  | _ => .error .wrongForm

/-- The entries for declarations in order, the first of them after another node. -/
def describeAll (o : Options) (level : Nat) (last : Tree) :
    List Tree → Except AccessError (List Entry)
  | [] => .ok []
  | t :: ts => do
    let es ← describe o level last t
    return es ++ (← describeAll o level t ts)
end

/-- The entries for a module: all its declarations. -/
def moduleEntries (o : Options) (ts : List Tree) : Except AccessError (List Entry) :=
  describeAll o 0 .null ts

def isTarget (targets : List String) : Tree → Bool
  | .text s => targets.contains s
  | _ => false

/-- The entries for a class or interface, if it is asked for by its name. -/
def forcedEntries (o : Options) (targets : List String) (last : Tree) (kind : EntryKind)
    (name nodes : Tree) : Except AccessError (List Entry) := do
  if isTarget targets name then
    let r ← remark last
    let members ← if o.members then describeNodes o 1 nodes else pure []
    return entry o true 0 kind name.display r ++ members
  else return []

/-- The entries for one node, of which only classes and interfaces are looked at. -/
def describeTarget (o : Options) (targets : List String) (last : Tree) :
    Tree → Except AccessError (List Entry)
  | .node .classDecl _ [name, _, _, _, nodes] => forcedEntries o targets last .classType name nodes
  | .node .interfaceDecl _ [name, _, nodes] =>
    forcedEntries o targets last .interfaceType name nodes
  | _ => .ok []

/-- The entries for the classes and interfaces that are asked for by their names. -/
def classEntries (o : Options) (targets : List String) (last : Tree) :
    List Tree → Except AccessError (List Entry)
  | [] => .ok []
  | t :: ts => do
    let es ← describeTarget o targets last t
    return es ++ (← classEntries o targets t ts)

/-- The entry for the first function that is asked for by its name. -/
def functionEntries (o : Options) (targets : List String) (last : Tree) :
    List Tree → Except AccessError (List Entry)
  | [] => .ok []
  | .node .function line (name :: fields) :: ts => do
    if isTarget targets name then
      let s ← signature (.node .function line (name :: fields))
      return entry o true 0 .function s.display (← remark last)
    else functionEntries o targets (.node .function line (name :: fields)) ts
  | t :: ts => functionEntries o targets t ts

end Docblock.Docs
