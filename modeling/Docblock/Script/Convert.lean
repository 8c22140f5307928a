import Docblock.Script.Part
import Docblock.Tree.Equality

/-! The script for each kind of node, from the scripts of its parts. -/
namespace Docblock.Conversion

/-- The script of a tree whose parts are known. -/
abbrev Result := Except Error Script

def unsupported (u : Unsupported) : Result := .error (.unsupported u)

/-- The number one without a line, which a loop or block without a test has as its test. -/
def always : Script := .num (some 0) (.int 1)

/-- Statements in one. -/
def block (line : Option Int) (body : List Script) : Script := .ifElse line always body []

/-- A value that can be looked up in a table of operators: no list and no node. -/
def key : Tree → Except Error (Option String)
  | .list _ | .node _ _ _ => .error (.access .wrongForm)
  | .text s => .ok (some s)
  | _ => .ok none

def unaryOps : List (String × Script.UnaryOp) :=
  [("~", .invert), ("!", .not), ("+", .plus), ("-", .minus)]

def boolOps : List (String × Script.BoolOp) := [
  ("&&", .and), ("||", .or), ("and", .and), ("or", .or)]

def compareOps : List (String × Script.CompareOp) := [
  ("!=", .notEqual), ("!==", .notEqual), ("<>", .notEqual), ("<", .less), ("<=", .lessOrEqual),
  ("==", .equal), ("===", .equal), (">", .greater), (">=", .greaterOrEqual)]

def binaryOps : List (String × Script.BinOp) := [
  ("+", .add), ("-", .sub), ("*", .mult), ("/", .div), ("%", .mod), ("<<", .shiftLeft),
  (">>", .shiftRight), ("|", .bitOr), ("&", .bitAnd), ("^", .bitXor)]

/-- The casts that a script names otherwise. -/
def castNames : List (String × String) :=
  [("double", "float"), ("string", "str"), ("array", "list")]

/-- A list, or a table if the first element has a key. -/
def array (line : Option Int) (nodes : Part) : Result := do
  if !nodes.tree.truthy then return .list line [] .load
  match nodes.tree, nodes.parts with
  | .text _, _ => throw (.access .missingField)
  | .list _, head :: _ =>
    if (← head.field "key").isNull then
      let values ← nodes.parts.mapM fun p => do (← p.field "value").script
      return .list line values .load
    else
      let pairs ← nodes.parts.mapM fun p => do
        let k ← (← p.field "key").script
        let v ← (← p.field "value").script
        return (k, v)
      return .dict line (pairs.map (·.1)) (pairs.map (·.2))
  | _, _ => throw (.access .wrongForm)

/-- Whether one place is set. -/
def isSet (line : Option Int) (p : Part) : Result := do
  match p.tree, p.parts with
  | .node .arrayOffset _ _, [node, index] =>
    let i ← index.script
    let v ← node.script
    return .compare line i .isIn v
  | .node .objectProperty _ _, [node, name] =>
    let v ← node.script
    let n ← name.script
    return Script.callNamed line "hasattr" [v, n]
  | .node .var _ [name], _ =>
    return .compare line (.str line (← tail name)) .isIn (Script.callNamed line "vars" [])
  | _, _ => return .compare line (← p.script) .isNot (Script.load line "None")

def unary (line : Option Int) (op : Tree) (expr : Result) : Result := do
  match (← key op).bind (unaryOps.lookup ·) with
  | none => unsupported (.unaryOperator op.display)
  | some o => return .unaryOp line o (← expr)

/-- Two operands; a join of text becomes a pattern that is filled in. -/
def binary (line : Option Int) (op : Tree) (left right : Part) : Result := do
  if op.same (.text ".") then
    let (pattern, places) := format left right
    if places.isEmpty then
      return .str line (.text (String.ofList (plainText pattern.toList)))
    else
      let values ← places.mapM Part.script
      return .binOp line (.str line (.text pattern)) .mod (.tuple line values .load)
  else
    let name ← key op
    match name.bind (boolOps.lookup ·) with
    | some o =>
      let l ← left.script
      let r ← right.script
      return .boolOp line o l r
    | none =>
      match name.bind (compareOps.lookup ·) with
      | some o =>
        let l ← left.script
        let r ← right.script
        return .compare line l o r
      | none =>
        match name.bind (binaryOps.lookup ·) with
        | none => unsupported (.binaryOperator op.display)
        | some o =>
          let l ← left.script
          let r ← right.script
          return .binOp line l o r

/-- An assignment. A write to no index is an append, and one to a computed property a call. -/
def assignment (line : Option Int) (target : Part) (value : Result) : Result := do
  match target.tree, target.parts with
  | .node .arrayOffset _ [_, .null], [node, _] =>
    let v ← node.script
    return .call line (.attribute line v (.text "append") .load) [← value] []
  | .node .objectProperty _ [_, .node .binaryOp _ _], [node, name] =>
    let v ← node.script
    let n ← name.script
    return .expr line (Script.callNamed line "setattr" [v, n, ← value])
  | _, _ =>
    let t ← target.script
    return .assign line t.store (← value)

/-- Arguments by place and by name: an assignment to a name is an argument of that name. -/
def arguments (params : Part) : Except Error (List Script × List Script) := do
  let args ← (← params.items).mapM fun p => do
    match ← (← p.field "node").script with
    | .assign _ (.name _ id _) value => return (none, some (Script.keyword id value))
    | .assign .. => throw (.access .missingField)
    | s => return (some s, none)
  return (args.filterMap (·.1), args.filterMap (·.2))

/-- The name of a parameter without its sign, and its default value. -/
def parameter (p : Part) : Except Error (Tree × Option Script) := do
  let name ← tail (← p.field "name").tree
  let value ← p.field "default"
  if value.isNull then return (name, none) else return (name, some (← value.script))

/-- The names of parameters and the default values that there are. -/
def parameters (params : Part) : Except Error (List Tree × List Script) := do
  let ps ← (← params.items).mapM parameter
  return (ps.map (·.1), ps.filterMap (·.2))

def function (line : Option Int) (name : Tree) (first : List Tree) (params nodes : Part)
    (classMethod : Bool) : Result := do
  let (names, defaults) ← parameters params
  let body ← nodes.statements
  return .functionDef line name (first ++ names) defaults (Script.orPass line body) classMethod

/-- A constructor has one name in scripts, whichever name it has in its class. -/
def renameConstructor (className : Tree) : Script → Script
  | .functionDef l name ps ds body c =>
    if name.same className || name.same (.text "__construct") then
      .functionDef l (.text "__init__") ps ds body c
    else .functionDef l name ps ds body c
  | s => s

def constant (line : Option Int) : Tree → Result
  | .text s =>
    match s.map Char.toLower with
    | "true" => .ok (Script.load line "True")
    | "false" => .ok (Script.load line "False")
    | "null" => .ok (Script.load line "None")
    | _ => .ok (Script.load line s)
  | _ => .error (.access .missingField)

def readVar (line : Option Int) (name : Tree) : Result := do
  match ← tail name with
  | .text "this" => return Script.load line "self"
  | id => return .name line id .load

/-- One assignment in a class. -/
def member (line : Option Int) (nodes : Part) : Result := do
  if (← size nodes.tree) ≠ 1 then unsupported .severalAssignments
  else
    match ← nodes.items with
    | p :: _ =>
      let name := (← p.field "name").tree
      let initial ← p.field "initial"
      let target ← if p.hasKind .classConstant then constant line name else readVar line name
      let value ← if initial.isNull then .ok (Script.load line "None") else initial.script
      return .assign line target.store value
    | [] => unsupported .severalAssignments

/-- The arms of a conditional, the last one first. -/
def arms (line : Option Int) (orElse : List Script) : List Part → Except Error (List Script)
  | [] => .ok orElse
  | p :: ps => do
    let test ← (← p.field "expr").script
    let body ← (← p.field "node").body
    arms line [.ifElse line test body orElse] ps

def ifElse (line : Option Int) (expr node elseifs last : Part) : Result := do
  let orElse ← if last.tree.truthy then (← last.field "node").body else .ok []
  let orElse ← arms line orElse (← elseifs.items).reverse
  let test ← expr.script
  return .ifElse line test (← node.body) orElse

/-- A loop with a start, one test or none, and a step becomes a block around a simple loop. -/
def forLoop (line : Option Int) (start test count node : Part) : Result := do
  let single ← if test.isNull then pure true else pure ((← size test.tree) == 1)
  if !single then unsupported .severalTests
  else
    let inner ← node.deblock.append count.orNothing
    let start := start.orNothing
    match start.tree with
    | .list _ =>
      let before ← start.scripts
      let condition ← if test.isNull then .ok always else
        match ← test.items with
        | t :: _ => t.script
        | [] => .ok always
      let body ← inner.statements
      return block line (before.map Script.toStmt ++ [.whileLoop line condition body])
    | _ => throw (.access .wrongForm)

def foreach (line : Option Int) (expr keyVar valueVar node : Part) : Result := do
  let target ← if keyVar.isNull then
      pure <| Script.name line (← tail (← valueVar.field "name").tree) .store
    else
      let k ← tail (← keyVar.field "name").tree
      let v ← tail (← valueVar.field "name").tree
      pure <| .tuple line [.loopTarget line k, .loopTarget line v] .store
  let iter ← expr.script
  return .forEach line target iter (← node.body)

/-- A loop with its test at the end breaks off there. -/
def doWhile (line : Option Int) (node expr : Part) : Result := do
  match node.deblock.tree with
  | .list _ =>
    let body ← node.deblock.statements
    let test ← expr.script
    return .whileLoop line always
      (body ++ [.ifElse line (.unaryOp line .not test) [.breakLoop line] []])
  | _ => throw (.access .wrongForm)

def tryExcept (line : Option Int) (nodes catches : Part) : Result := do
  let body ← nodes.statements
  let handlers ← (← catches.items).mapM fun c => do
    let type := (← c.field "class_").tree
    let var ← (← c.field "var").script
    return Script.handler line type var.store (← (← c.field "nodes").statements)
  return .tryExcept line body handlers

def call (line : Option Int) (name params : Part) : Result := do
  let func ← match name.tree with
    | .text s => .ok (Script.load line s)
    | _ => pure <| .subscript line (Script.callNamed line "vars" []) (← name.script) .load
  let (args, keywords) ← arguments params
  return .call line func args keywords

def inclusion (line : Option Int) (func : String) (expr once : Part) : Result := do
  let flag := Script.load line (if once.tree.truthy then "True" else "False")
  return Script.callNamed line func [← expr.script, flag]

def cast (line : Option Int) (type expr : Part) : Result := do
  let id := match (← key type.tree).bind (castNames.lookup ·) with
    | some s => Tree.text s
    | none => type.tree
  return .call line (.name line id .load) [← expr.script] []

/-- A property whose name is computed is asked for by a call. -/
def property (line : Option Int) (node name : Part) : Result := do
  if name.hasKind .var || name.hasKind .binaryOp then
    let v ← node.script
    return Script.callNamed line "getattr" [v, ← name.script]
  else return .attribute line (← node.script) name.tree .load

/-- The script of a node, by its kind, from its parts. -/
def convertNode (t : Tree) (kind : Tree.Kind) (line : Option Int) (parts : List Part) : Result :=
  match kind, parts with
  | .array, [nodes] => array line nodes
  | .inlineHtml, [data] => .ok (Script.callNamed line "inline_html" [.str line data.tree])
  | .echo, [nodes] => do return Script.callNamed line "echo" (← nodes.scripts)
  | .print, [node] => do return .print line (← node.script)
  | .exit, [expr] => do
    let args ← if expr.isNull then pure [] else pure [← expr.script]
    return .raise line (Script.callNamed line "Exit" args)
  | .returnValue, [node] =>
    if node.isNull then .ok (.returnNothing line) else do return .returnValue line (← node.script)
  | .breakLoop, [node] => if node.isNull then .ok (.breakLoop line) else unsupported .breakLevel
  | .continueLoop, [node] =>
    if node.isNull then .ok (.continueLoop line) else unsupported .continueLevel
  | .silence, [expr] => expr.script
  | .block, [nodes] => do return block line (← nodes.statements)
  | .unset, [nodes] => do return .delete line (← nodes.scripts)
  | .isSet, [nodes] => do
    if (← size nodes.tree) = 1 then
      match ← nodes.items with
      | p :: _ => isSet line p
      | [] => return Part.fallback line t
    else return Part.fallback line t
  | .empty, [expr] => do
    let set ← isSet line expr
    return .unaryOp line .not (.boolOp line .and set (← expr.script))
  | .assignment, [target, expr, _] => assignment line target expr.script
  | .listAssignment, [nodes, expr] => do
    let targets ← nodes.scripts
    return .assign line (.tuple line (targets.map Script.store) .store) (← expr.script)
  | .assignOp, [op, left, right] => do
    let op ← front op.tree
    assignment line left (binary line op left right)
  | .preIncDec, [op, expr] | .postIncDec, [op, expr] => do
    let op ← first op.tree
    assignment line expr (binary line op expr (Part.ofInt 1))
  | .arrayOffset, [node, expr] => do
    let v ← node.script
    return .subscript line v (← expr.script) .load
  | .objectProperty, [node, name] => property line node name
  | .constant, [name] => constant line name.tree
  | .var, [name] => readVar line name.tree
  | .globalVars, [nodes] => do
    return .globalNames line (← (← nodes.items).mapM fun p => do tail (← p.field "name").tree)
  | .includeFile, [expr, once] => inclusion line "include" expr once
  | .requireFile, [expr, once] => inclusion line "require" expr once
  | .unaryOp, [op, expr] => unary line op.tree expr.script
  | .binaryOp, [op, left, right] => binary line op.tree left right
  | .ternaryOp, [expr, yes, no] => do
    let c ← expr.script
    let a ← yes.script
    return .ifExp line c a (← no.script)
  | .cast, [type, expr] => cast line type expr
  | .ifElse, [expr, node, elseifs, last] => ifElse line expr node elseifs last
  | .forLoop, [start, test, count, node] => forLoop line start test count node
  | .foreach, [expr, keyVar, valueVar, node] => foreach line expr keyVar valueVar node
  | .whileLoop, [expr, node] => do
    let test ← expr.script
    return .whileLoop line test (← node.body)
  | .doWhile, [node, expr] => doWhile line node expr
  | .tryBlock, [nodes, catches] => tryExcept line nodes catches
  | .throwError, [node] => do return .raise line (← node.script)
  | .function, [name, params, nodes, _] => function line name.tree [] params nodes false
  | .method, [name, modifiers, params, nodes, _] => do
    let isStatic ← (modifiers.tree.includes "static").mapError .access
    function line name.tree [.text (if isStatic then "cls" else "self")] params nodes isStatic
  | .classDecl, [name, _, ext, _, nodes] => do
    let base := if ext.tree.truthy then ext.tree else .text "object"
    let body ← nodes.statements
    let body := body.map (renameConstructor name.tree)
    return .classDef line name.tree base (Script.orPass line body)
  | .classConstants, [nodes] => member line nodes
  | .classVariables, [_, nodes] => member line nodes
  | .functionCall, [name, params] => call line name params
  | .newObject, [name, params] => call line name params
  | .methodCall, [node, name, params] => do
    let (args, keywords) ← arguments params
    return .call line (.attribute line (← node.script) name.tree .load) args keywords
  | .staticMethodCall, [cls, name, params] => do
    let id := if cls.tree.same (.text "self") then .text "cls" else cls.tree
    let (args, keywords) ← arguments params
    return .call line (.attribute line (.name line id .load) name.tree .load) args keywords
  | .staticProperty, [node, name] => do
    let attr ← match name.tree with
      | .node .var _ [n] => tail n
      | t => .ok t
    return .attribute line (.name line node.tree .load) attr .load
  | _, _ => .ok (Part.fallback line t)

mutual
/-- A tree with the scripts of all its parts. -/
def part : Tree → Part
  | .null => ⟨.null, .ok (.pass (some 0)), []⟩
  | .text s => Part.ofText s
  | .list ts => Part.ofList (partAll ts)
  | .node kind line fields =>
    let ps := partAll fields
    ⟨.node kind line fields, convertNode (.node kind line fields) kind line ps, ps⟩
  | t => ⟨t, .ok (.num (some 0) t), []⟩

def partAll : List Tree → List Part
  | [] => []
  | t :: ts => part t :: partAll ts
end

/-- The script of a tree. -/
def convert (t : Tree) : Except Error Script := (part t).script

/-- The pattern for two joined trees, with the trees for its places. -/
def formatTrees (left right : Tree) : String × List Tree :=
  let r := format (part left) (part right)
  (r.1, r.2.map Part.tree)

end Docblock.Conversion
