import Docblock.Grammar.Declaration

/-! Expressions and variables. -/
namespace Docblock.Grammar

/-- The operators with an expression on both sides. -/
def binaryOperators : List Token.Kind := [
  .booleanAnd, .booleanOr, .logicalAnd, .logicalOr, .logicalXor, .bitAnd, .bitOr, .bitXor, .concat,
  .plus, .minus, .mul, .div, .shiftLeft, .shiftRight, .mod, .isIdentical, .isNotIdentical, .isEqual,
  .isNotEqual, .isSmaller, .isSmallerOrEqual, .isGreater, .isGreaterOrEqual, .kwInstanceof]

/-- The operators before an expression. -/
def unaryOperators : List Token.Kind := [.plus, .minus, .bitNot, .booleanNot]

/-- The assignments that compute with the old value. -/
def assignOperators : List Token.Kind := [
  .plusEqual, .minusEqual, .mulEqual, .divEqual, .concatEqual, .modEqual, .andEqual, .orEqual,
  .xorEqual, .shiftLeftEqual, .shiftRightEqual]

/-- The casts with the name of their type. -/
def casts : List (Token.Kind × String) := [
  (.intCast, "int"), (.doubleCast, "double"), (.stringCast, "string"), (.arrayCast, "array"),
  (.objectCast, "object"), (.boolCast, "bool"), (.unsetCast, "unset")]

/-- A word before an expression, and whether it reads its file once. -/
def inclusions : List (Token.Kind × Tree.Kind × Bool) := [
  (.kwInclude, .includeFile, false), (.kwIncludeOnce, .includeFile, true),
  (.kwRequire, .requireFile, false), (.kwRequireOnce, .requireFile, true)]

def operatorRules : List Production :=
  assignOperators.map (fun op =>
    rule .expr [.n .varExpr, .t op, .n .expr] fun v o e =>
      node o.line .assignOp [.text o.text, v, e]) ++
  binaryOperators.map (fun op =>
    rule .expr [.n .expr, .t op, .n .expr] fun l o r =>
      node o.line .binaryOp [.text (lower o.text), l, r]) ++
  unaryOperators.map (fun op =>
    rule .expr [.t op, .n .expr] fun o e => node o.line .unaryOp [.text o.text, e]) ++ [
  rule .expr [.n .expr, .t .question, .n .expr, .t .colon, .n .expr] fun c q a _ b =>
    node q.line .ternaryOp [c, a, b],
  rule .expr [.t .inc, .n .varExpr] fun o v => node o.line .preIncDec [.text o.text, v],
  rule .expr [.t .dec, .n .varExpr] fun o v => node o.line .preIncDec [.text o.text, v],
  rule .expr [.n .varExpr, .t .inc] fun v o => node o.line .postIncDec [.text o.text, v],
  rule .expr [.n .varExpr, .t .dec] fun v o => node o.line .postIncDec [.text o.text, v]] ++
  casts.map (fun c =>
    rule .expr [.t c.1, .n .expr] fun o e => node o.line .cast [.text c.2, e]) ++
  inclusions.map fun i =>
    rule .expr [.t i.1, .n .expr] fun w e => node w.line i.2.1 [e, .bool i.2.2]

def exprRules : List Production := [
  rule .expr [.n .varExpr] fun v => v,
  rule .expr [.n .varExpr, .t .equals, .n .expr] fun v o e =>
    node o.line .assignment [v, e, .bool false],
  rule .expr [.n .varExpr, .t .equals, .t .bitAnd, .n .expr] fun v o _ e =>
    node o.line .assignment [v, e, .bool true],
  rule .expr [.t .kwNew, .n .classReference, .n .constructorArguments] fun w c args =>
    node w.line .newObject [c, .list args],
  rule .expr [.t .kwClone, .n .expr] fun w e => node w.line .cloneObject [e],
  rule .expr [.t .kwList, .t .leftParen, .n .listTargets, .t .rightParen, .t .equals, .n .expr]
    fun w _ vs _ _ e => node w.line .listAssignment [.list vs, e],
  rule .expr [.n .scalar] fun s => s,
  rule .expr [.t .kwArray, .t .leftParen, .n .arrayPairs, .t .rightParen] fun w _ ps _ =>
    node w.line .array [.list ps],
  rule .expr [.t .kwFunction, .n .isReference, .t .leftParen, .n .parameters, .t .rightParen,
      .n .closureVars, .t .leftBrace, .n .innerStatements, .t .rightBrace]
    fun w ref _ ps _ vs _ ss _ => node w.line .closure [.list ps, .list vs, .list ss, .bool ref],
  rule .expr [.t .kwIsset, .t .leftParen, .n .issetVars, .t .rightParen] fun w _ vs _ =>
    node w.line .isSet [.list vs],
  rule .expr [.t .kwEmpty, .t .leftParen, .n .expr, .t .rightParen] fun w _ e _ =>
    node w.line .empty [e],
  rule .expr [.t .kwEval, .t .leftParen, .n .expr, .t .rightParen] fun w _ e _ =>
    node w.line .eval [e],
  rule .expr [.t .kwExit] fun w => node w.line .exit [.null],
  rule .expr [.t .kwExit, .t .leftParen, .t .rightParen] fun w _ _ => node w.line .exit [.null],
  rule .expr [.t .kwExit, .t .leftParen, .n .expr, .t .rightParen] fun w _ e _ =>
    node w.line .exit [e],
  rule .expr [.t .kwPrint, .n .expr] fun w e => node w.line .print [e],
  rule .expr [.t .silence, .n .expr] fun w e => node w.line .silence [e],
  rule .expr [.t .leftParen, .n .expr, .t .rightParen] fun _ e _ => e] ++
  commaRules .issetVars .varExpr snoc one ++
  commaRules .listTargets .listTarget snoc one ++ [
  rule .listTarget [.n .varExpr] fun v => v,
  rule .listTarget [.n .empty] fun _ => .null,
  rule .listTarget [.t .kwList, .t .leftParen, .n .listTargets, .t .rightParen] fun _ _ vs _ =>
    .list vs]

/-- An element of an array, with its key or null. -/
def arrayElement (line : Int) (key value : Tree) (ref : Bool) : Tree :=
  node line .arrayElement [key, value, .bool ref]

def arrayRules : List Production := [
  rule .arrayPairs [.n .empty] fun _ => [],
  rule .arrayPairs [.n .arrayPairs1, .n .possibleComma] fun ps _ => ps,
  rule .arrayPairs1 [.n .arrayPairs1, .t .comma, .t .bitAnd, .n .varExpr] fun ps c _ v =>
    snoc ps (arrayElement c.line .null v true),
  rule .arrayPairs1 [.n .arrayPairs1, .t .comma, .n .expr] fun ps c e =>
    snoc ps (arrayElement c.line .null e false),
  rule .arrayPairs1 [.t .bitAnd, .n .varExpr] fun a v => [arrayElement a.line .null v true],
  rule .arrayPairs1 [.n .expr] fun e => [arrayElement 0 .null e false],
  rule .arrayPairs1 [.n .arrayPairs1, .t .comma, .n .expr, .t .doubleArrow, .t .bitAnd,
      .n .varExpr] fun ps c k _ _ v => snoc ps (arrayElement c.line k v true),
  rule .arrayPairs1 [.n .arrayPairs1, .t .comma, .n .expr, .t .doubleArrow, .n .expr]
    fun ps c k _ e => snoc ps (arrayElement c.line k e false),
  rule .arrayPairs1 [.n .expr, .t .doubleArrow, .t .bitAnd, .n .varExpr] fun k a _ v =>
    [arrayElement a.line k v true],
  rule .arrayPairs1 [.n .expr, .t .doubleArrow, .n .expr] fun k a e =>
    [arrayElement a.line k e false],
  rule .possibleComma [.n .empty] fun _ => (),
  rule .possibleComma [.t .comma] fun _ => ()]

/-- A variable that a closure takes from around it. -/
def lexicalVar (line : Int) (v : Token) (ref : Bool) : Tree :=
  node line .lexicalVar [.text v.text, .bool ref]

def argumentRules : List Production :=
  commaRules .arguments .argument snoc one ++ [
  rule .arguments [.n .empty] fun _ => [],
  rule .argument [.n .expr] fun e => node 0 .parameter [e, .bool false],
  rule .argument [.t .bitAnd, .n .varExpr] fun a v => node a.line .parameter [v, .bool true],
  rule .constructorArguments [.t .leftParen, .n .arguments, .t .rightParen] fun _ args _ => args,
  rule .constructorArguments [.n .empty] fun _ => [],
  rule .closureVars [.t .kwUse, .t .leftParen, .n .closureVars1, .t .rightParen] fun _ _ vs _ =>
    vs,
  rule .closureVars [.n .empty] fun _ => [],
  rule .closureVars1 [.n .closureVars1, .t .comma, .t .bitAnd, .t .var] fun vs c _ v =>
    snoc vs (lexicalVar c.line v true),
  rule .closureVars1 [.n .closureVars1, .t .comma, .t .var] fun vs c v =>
    snoc vs (lexicalVar c.line v false),
  rule .closureVars1 [.t .bitAnd, .t .var] fun a v => [lexicalVar a.line v true],
  rule .closureVars1 [.t .var] fun v => [lexicalVar v.line v false]]

/-- A tree with indices after it, from the first to the last. -/
def indexed (t : Tree) (ds : List Dimension) : Tree :=
  ds.foldl (fun t d => node d.line d.kind [t, d.value]) t

/-- A property of a tree with the indices after it, read or called. -/
def access (line : Int) (t : Tree) (a : Access) : Tree :=
  let base := match a.arguments with
    | some args => node line .methodCall [t, a.property.name, .list args]
    | none => node line .objectProperty [t, a.property.name]
  indexed base a.property.dimensions

def classNameRules : List Production := [
  rule .classReference [.n .className] fun name => .text name,
  rule .classReference [.n .dynamicReference] fun t => t] ++
  nameRules .className (fun _ name => name) ++ [
  rule .className [.t .kwStatic] fun w => lower w.text,
  rule .dynamicReference [.n .baseVar, .t .objectOperator, .n .objectProperty,
      .n .dynamicProperties] fun t o p ps =>
    (p :: ps).foldl (fun t p => access o.line t ⟨p, none⟩) t,
  rule .dynamicReference [.n .baseVar] fun t => t,
  rule .dynamicProperties [.n .dynamicProperties, .n .dynamicProperty] fun ps p => snoc ps p,
  rule .dynamicProperties [.n .empty] fun _ => [],
  rule .dynamicProperty [.t .objectOperator, .n .objectProperty] fun _ p => p]

def callRules : List Production := [
  rule .functionCall [.n .namespaceName, .t .leftParen, .n .arguments, .t .rightParen]
    fun name p args _ => node p.line .functionCall [.text name, .list args],
  rule .functionCall [.t .backslash, .n .namespaceName, .t .leftParen, .n .arguments,
      .t .rightParen] fun b name _ args _ =>
    node b.line .functionCall [.text (b.text ++ name), .list args],
  rule .functionCall [.t .kwNamespace, .t .backslash, .n .namespaceName, .t .leftParen,
      .n .arguments, .t .rightParen] fun w b name _ args _ =>
    node w.line .functionCall [.text (w.text ++ b.text ++ name), .list args],
  rule .functionCall [.n .className, .t .doubleColon, .t .ident, .t .leftParen, .n .arguments,
      .t .rightParen] fun c d name _ args _ =>
    node d.line .staticMethodCall [.text c, .text name.text, .list args],
  rule .functionCall [.n .className, .t .doubleColon, .n .varWithoutObjects, .t .leftParen,
      .n .arguments, .t .rightParen] fun c d v _ args _ =>
    node d.line .staticMethodCall [.text c, v, .list args],
  rule .functionCall [.n .varClassName, .t .doubleColon, .t .ident, .t .leftParen, .n .arguments,
      .t .rightParen] fun c d name _ args _ =>
    node d.line .staticMethodCall [c, .text name.text, .list args],
  rule .functionCall [.n .varClassName, .t .doubleColon, .n .varWithoutObjects, .t .leftParen,
      .n .arguments, .t .rightParen] fun c d v _ args _ =>
    node d.line .staticMethodCall [c, v, .list args],
  rule .functionCall [.n .varWithoutObjects, .t .leftParen, .n .arguments, .t .rightParen]
    fun v p args _ => node p.line .functionCall [v, .list args],
  rule .methodArguments [.t .leftParen, .n .arguments, .t .rightParen] fun _ args _ => some args,
  rule .methodArguments [.n .empty] fun _ => none]

def variableRules : List Production := [
  rule .varExpr [.n .baseWithCalls, .t .objectOperator, .n .objectProperty, .n .methodArguments,
      .n .properties] fun t o p args more =>
    (⟨p, args⟩ :: more).foldl (access o.line) t,
  rule .varExpr [.n .baseWithCalls] fun t => t,
  rule .baseWithCalls [.n .baseVar] fun t => t,
  rule .baseWithCalls [.n .functionCall] fun t => t,
  rule .properties [.n .properties, .n .property] fun ps p => snoc ps p,
  rule .properties [.n .empty] fun _ => [],
  rule .property [.t .objectOperator, .n .objectProperty, .n .methodArguments] fun _ p args =>
    ⟨p, args⟩,
  rule .baseVar [.n .indirectVar] fun t => t,
  rule .baseVar [.n .staticMember] fun t => t,
  rule .indirectVar [.t .dollar, .n .indirectVar] fun d t => node d.line .var [t],
  rule .indirectVar [.n .referenceVar] fun t => t,
  rule .staticMember [.n .className, .t .doubleColon, .n .varWithoutObjects] fun c d v =>
    node d.line .staticProperty [.text c, v],
  rule .staticMember [.n .varClassName, .t .doubleColon, .n .varWithoutObjects] fun c d v =>
    node d.line .staticProperty [c, v],
  rule .varClassName [.n .referenceVar] fun t => t,
  rule .referenceVar [.n .referenceVar, .t .leftBracket, .n .dimension, .t .rightBracket]
    fun t b e _ => node b.line .arrayOffset [t, e],
  rule .referenceVar [.n .referenceVar, .t .leftBrace, .n .expr, .t .rightBrace] fun t b e _ =>
    node b.line .stringOffset [t, e],
  rule .referenceVar [.n .compoundVar] fun t => t,
  rule .compoundVar [.t .var] fun v => node v.line .var [.text v.text],
  rule .compoundVar [.t .dollar, .t .leftBrace, .n .expr, .t .rightBrace] fun d _ e _ =>
    node d.line .var [e],
  rule .dimension [.n .expr] fun e => e,
  rule .dimension [.n .empty] fun _ => .null,
  rule .objectProperty [.n .propertyName, .n .dimensions] fun name ds => ⟨name, ds⟩,
  rule .objectProperty [.n .varWithoutObjects] fun v => ⟨v, []⟩,
  rule .dimensions [.n .empty] fun _ => [],
  rule .dimensions [.n .dimensions, .t .leftBracket, .n .dimension, .t .rightBracket]
    fun ds b e _ => snoc ds ⟨.arrayOffset, e, b.line⟩,
  rule .dimensions [.n .dimensions, .t .leftBrace, .n .expr, .t .rightBrace] fun ds b e _ =>
    snoc ds ⟨.stringOffset, e, b.line⟩,
  rule .propertyName [.t .ident] fun name => .text name.text,
  rule .propertyName [.t .leftBrace, .n .expr, .t .rightBrace] fun _ e _ => e,
  rule .varWithoutObjects [.n .indirectVar] fun t => t]

end Docblock.Grammar
