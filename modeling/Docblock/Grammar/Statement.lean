import Docblock.Grammar.Production

/-! Statements. -/
namespace Docblock.Grammar

/-- The parts that a loop may have: a statement, or statements between a colon and a word. -/
def bodyRules (lhs : Nonterminal) (value : Tree → lhs.Value) (stop : Token.Kind) :
    List Production := [
  rule lhs [.n .statement] fun s => value s,
  rule lhs [.t .colon, .n .innerStatements, .t stop, .t .semi] fun c ss _ _ =>
    value (node c.line .block [.list ss])]

def catchArm (word : Token) (name : String) (var : Token) (ss : List Tree) : Tree :=
  node word.line .catchArm [.text name, node var.line .var [.text var.text], .list ss]

def topRules : List Production := [
  rule .start [.n .topStatements] fun ss => ss,
  rule .topStatements [.n .topStatements, .n .topStatement] fun ss s => snoc ss s,
  rule .topStatements [.n .empty] fun _ => [],
  rule .topStatement [.n .statement] fun s => s,
  rule .topStatement [.n .comment] fun c => c,
  rule .topStatement [.n .functionDeclaration] fun d => d,
  rule .topStatement [.n .classDeclaration] fun d => d,
  rule .topStatement [.t .haltCompiler, .t .leftParen, .t .rightParen, .t .semi]
    fun _ _ _ _ => .null,
  rule .topStatement [.t .kwNamespace, .n .namespaceName, .t .semi] fun w name _ =>
    node w.line .namespaceDecl [.text name, .list []],
  rule .topStatement [.t .kwNamespace, .t .leftBrace, .n .topStatements, .t .rightBrace]
    fun w _ ss _ => node w.line .namespaceDecl [.null, .list ss],
  rule .topStatement
    [.t .kwNamespace, .n .namespaceName, .t .leftBrace, .n .topStatements, .t .rightBrace]
    fun w name _ ss _ => node w.line .namespaceDecl [.text name, .list ss],
  rule .topStatement [.t .kwConst, .n .constantDeclarations, .t .semi] fun w ds _ =>
    node w.line .constantDeclarations [.list ds],
  rule .topStatement [.t .kwUse, .n .useDeclarations, .t .semi] fun w ds _ =>
    node w.line .useDeclarations [.list ds]] ++
  commaRules .useDeclarations .useDeclaration snoc one ++ [
  rule .useDeclaration [.n .namespaceName] fun name =>
    node 0 .useDeclaration [.text name, .null],
  rule .useDeclaration [.t .backslash, .n .namespaceName] fun b name =>
    node b.line .useDeclaration [.text (b.text ++ name), .null],
  rule .useDeclaration [.n .namespaceName, .t .kwAs, .t .ident] fun name w a =>
    node w.line .useDeclaration [.text name, .text a.text],
  rule .useDeclaration [.t .backslash, .n .namespaceName, .t .kwAs, .t .ident] fun b name _ a =>
    node b.line .useDeclaration [.text (b.text ++ name), .text a.text]] ++
  commaRules .constantDeclarations .constantDeclaration snoc one ++ [
  rule .constantDeclaration [.t .ident, .t .equals, .n .staticScalar] fun name _ v =>
    node name.line .constantDeclaration [.text name.text, v]]

def innerRules : List Production := [
  rule .innerStatements [.n .innerStatements, .n .innerStatement] fun ss s => snoc ss s,
  rule .innerStatements [.n .empty] fun _ => [],
  rule .innerStatement [.n .statement] fun s => s,
  rule .innerStatement [.n .comment] fun c => c,
  rule .innerStatement [.n .functionDeclaration] fun d => d,
  rule .innerStatement [.n .classDeclaration] fun d => d,
  ruleOrFault .innerStatement [.t .haltCompiler, .t .leftParen, .t .rightParen, .t .semi]
    fun _ _ _ _ => .error .haltInside]

/-- A word, an optional expression and a semicolon. -/
def jumpRules (word : Token.Kind) (kind : Tree.Kind) : List Production := [
  rule .statement [.t word, .t .semi] fun w _ => node w.line kind [.null],
  rule .statement [.t word, .n .expr, .t .semi] fun w e _ => node w.line kind [e]]

def statementRules : List Production := [
  rule .statement [.t .leftBrace, .n .innerStatements, .t .rightBrace] fun b ss _ =>
    node b.line .block [.list ss],
  rule .statement [.t .kwIf, .t .leftParen, .n .expr, .t .rightParen, .n .statement,
      .n .elseifs, .n .elsePart] fun w _ e _ s arms last =>
    node w.line .ifElse [e, s, .list arms, last],
  rule .statement [.t .kwIf, .t .leftParen, .n .expr, .t .rightParen, .t .colon,
      .n .innerStatements, .n .colonElseifs, .n .colonElse, .t .kwEndif, .t .semi]
    fun w _ e _ c ss arms last _ _ =>
    node w.line .ifElse [e, node c.line .block [.list ss], .list arms, last],
  rule .statement [.t .kwWhile, .t .leftParen, .n .expr, .t .rightParen, .n .whileBody]
    fun w _ e _ s => node w.line .whileLoop [e, s],
  rule .statement [.t .kwDo, .n .statement, .t .kwWhile, .t .leftParen, .n .expr, .t .rightParen,
      .t .semi] fun w s _ _ e _ _ => node w.line .doWhile [s, e],
  rule .statement [.t .kwFor, .t .leftParen, .n .forExprs, .t .semi, .n .forExprs, .t .semi,
      .n .forExprs, .t .rightParen, .n .forBody] fun w _ start _ test _ count _ s =>
    node w.line .forLoop [start, test, count, s],
  rule .statement [.t .kwForeach, .t .leftParen, .n .expr, .t .kwAs, .n .foreachVar,
      .n .foreachTarget, .t .rightParen, .n .foreachBody] fun w _ e _ var target _ s =>
    match target with
    | .null => node w.line .foreach [e, .null, var, s]
    | target => node w.line .foreach [e, var, target, s],
  rule .statement [.t .kwSwitch, .t .leftParen, .n .expr, .t .rightParen, .n .switchBody]
    fun w _ e _ arms => node w.line .switch [e, .list arms]] ++
  jumpRules .kwBreak .breakLoop ++ jumpRules .kwContinue .continueLoop ++
  jumpRules .kwReturn .returnValue ++ [
  rule .statement [.t .kwGlobal, .n .globalVars, .t .semi] fun w vs _ =>
    node w.line .globalVars [.list vs],
  rule .statement [.t .kwStatic, .n .staticVars, .t .semi] fun w vs _ =>
    node w.line .staticVars [.list vs],
  rule .statement [.t .kwEcho, .n .echoExprs, .t .semi] fun w es _ =>
    node w.line .echo [.list es],
  rule .statement [.t .inlineHtml] fun h => node h.line .inlineHtml [.text h.text],
  rule .statement [.n .expr, .t .semi] fun e _ => e,
  rule .statement [.t .kwUnset, .t .leftParen, .n .unsetVars, .t .rightParen, .t .semi]
    fun w _ vs _ _ => node w.line .unset [.list vs],
  rule .statement [.t .semi] fun _ => .null,
  rule .statement [.t .kwTry, .t .leftBrace, .n .innerStatements, .t .rightBrace, .t .kwCatch,
      .t .leftParen, .n .qualifiedName, .t .var, .t .rightParen, .t .leftBrace,
      .n .innerStatements, .t .rightBrace, .n .moreCatches]
    fun w _ ss _ c _ name var _ _ cs _ more =>
    node w.line .tryBlock [.list ss, .list (catchArm c name var cs :: more)],
  rule .moreCatches [.n .moreCatches, .t .kwCatch, .t .leftParen, .n .qualifiedName, .t .var,
      .t .rightParen, .t .leftBrace, .n .innerStatements, .t .rightBrace]
    fun more c _ name var _ _ cs _ => snoc more (catchArm c name var cs),
  rule .moreCatches [.n .empty] fun _ => [],
  rule .statement [.t .kwThrow, .n .expr, .t .semi] fun w e _ => node w.line .throwError [e],
  rule .statement [.t .kwDeclare, .t .leftParen, .n .directives, .t .rightParen, .n .declareBody]
    fun w _ ds _ s => node w.line .declare [.list ds, s],
  rule .directives [.t .ident, .t .equals, .n .staticScalar] fun name _ v =>
    [node name.line .directive [.text name.text, v]],
  rule .directives [.n .directives, .t .comma, .t .ident, .t .equals, .n .staticScalar]
    fun ds c name _ v => snoc ds (node c.line .directive [.text name.text, v])]

def armRules : List Production :=
  bodyRules .declareBody id .kwEnddeclare ++ [
  rule .elseifs [.n .empty] fun _ => [],
  rule .elseifs [.n .elseifs, .t .kwElseif, .t .leftParen, .n .expr, .t .rightParen, .n .statement]
    fun arms w _ e _ s => snoc arms (node w.line .elseIf [e, s]),
  rule .elsePart [.n .empty] fun _ => .null,
  rule .elsePart [.t .kwElse, .n .statement] fun w s => node w.line .elseArm [s],
  rule .colonElseifs [.n .empty] fun _ => [],
  rule .colonElseifs [.n .colonElseifs, .t .kwElseif, .t .leftParen, .n .expr, .t .rightParen,
      .t .colon, .n .innerStatements] fun arms w _ e _ _ ss =>
    snoc arms (node w.line .elseIf [e, .node .block none [.list ss]]),
  rule .colonElse [.n .empty] fun _ => .null,
  rule .colonElse [.t .kwElse, .t .colon, .n .innerStatements] fun w c ss =>
    node w.line .elseArm [node c.line .block [.list ss]]] ++
  bodyRules .whileBody id .kwEndwhile ++ [
  rule .forExprs [.n .empty] fun _ => .null,
  rule .forExprs [.n .forExprs1] fun es => .list es] ++
  commaRules .forExprs1 .expr snoc one ++
  bodyRules .forBody id .kwEndfor ++ [
  rule .foreachVar [.t .var] fun v => node v.line .foreachVar [.text v.text, .bool false],
  rule .foreachVar [.t .bitAnd, .t .var] fun a v =>
    node a.line .foreachVar [.text v.text, .bool true],
  rule .foreachTarget [.n .empty] fun _ => .null,
  rule .foreachTarget [.t .doubleArrow, .n .foreachVar] fun _ v => v] ++
  bodyRules .foreachBody id .kwEndforeach ++ [
  rule .switchBody [.t .leftBrace, .n .cases, .t .rightBrace] fun _ cs _ => cs,
  rule .switchBody [.t .leftBrace, .t .semi, .n .cases, .t .rightBrace] fun _ _ cs _ => cs,
  rule .switchBody [.t .colon, .n .cases, .t .kwEndswitch, .t .semi] fun _ cs _ _ => cs,
  rule .switchBody [.t .colon, .t .semi, .n .cases, .t .kwEndswitch, .t .semi]
    fun _ _ cs _ _ => cs,
  rule .cases [.n .empty] fun _ => [],
  rule .cases [.n .cases, .t .kwCase, .n .expr, .n .caseSeparator, .n .innerStatements]
    fun cs w e _ ss => snoc cs (node w.line .caseArm [e, .list ss]),
  rule .cases [.n .cases, .t .kwDefault, .n .caseSeparator, .n .innerStatements]
    fun cs w _ ss => snoc cs (node w.line .defaultArm [.list ss]),
  rule .caseSeparator [.t .colon] fun _ => (),
  rule .caseSeparator [.t .semi] fun _ => ()]

def varListRules : List Production :=
  commaRules .globalVars .globalVar snoc one ++ [
  rule .globalVar [.t .var] fun v => node v.line .var [.text v.text],
  rule .globalVar [.t .dollar, .n .varExpr] fun d v => node d.line .var [v],
  rule .globalVar [.t .dollar, .t .leftBrace, .n .expr, .t .rightBrace] fun d _ e _ =>
    node d.line .var [e]] ++
  commaRules .staticVars .staticVar snoc one ++ [
  rule .staticVar [.t .var, .t .equals, .n .staticScalar] fun v _ e =>
    node v.line .staticVar [.text v.text, e],
  rule .staticVar [.t .var] fun v => node v.line .staticVar [.text v.text, .null]] ++
  commaRules .echoExprs .expr snoc one ++ commaRules .unsetVars .unsetVar snoc one ++ [
  rule .unsetVar [.n .varExpr] fun v => v]

end Docblock.Grammar
