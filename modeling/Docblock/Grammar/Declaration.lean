import Docblock.Grammar.Production

/-! Functions, classes and interfaces. -/
namespace Docblock.Grammar

def functionRules : List Production := [
  rule .functionDeclaration [.t .kwFunction, .n .isReference, .t .ident, .t .leftParen,
      .n .parameters, .t .rightParen, .t .leftBrace, .n .innerStatements, .t .rightBrace]
    fun w ref name _ ps _ _ ss _ =>
    node w.line .function [.text name.text, .list ps, .list ss, .bool ref],
  rule .isReference [.t .bitAnd] fun _ => true,
  rule .isReference [.n .empty] fun _ => false] ++
  commaRules .parameters .parameter snoc one ++ [
  rule .parameters [.n .empty] fun _ => []]

/-- A parameter with its name, default value, whether it is a reference, and its type. -/
def formalParameter (line : Int) (name : Token) (value : Tree) (ref : Bool) (type : Tree) : Tree :=
  node line .formalParameter [.text name.text, value, .bool ref, type]

/-- Each form of parameter comes without and with a default value. -/
def parameterRules : List Production := [
  rule .parameter [.t .var] fun v => formalParameter v.line v .null false .null,
  rule .parameter [.n .className, .t .var] fun c v => formalParameter 0 v .null false (.text c),
  rule .parameter [.t .kwArray, .t .var] fun a v =>
    formalParameter a.line v .null false (.text a.text),
  rule .parameter [.t .bitAnd, .t .var] fun r v => formalParameter r.line v .null true .null,
  rule .parameter [.n .className, .t .bitAnd, .t .var] fun c _ v =>
    formalParameter 0 v .null true (.text c),
  rule .parameter [.t .kwArray, .t .bitAnd, .t .var] fun a _ v =>
    formalParameter a.line v .null true (.text a.text),
  rule .parameter [.t .var, .t .equals, .n .staticScalar] fun v _ d =>
    formalParameter v.line v d false .null,
  rule .parameter [.n .className, .t .var, .t .equals, .n .staticScalar] fun c v _ d =>
    formalParameter 0 v d false (.text c),
  rule .parameter [.t .kwArray, .t .var, .t .equals, .n .staticScalar] fun a v _ d =>
    formalParameter a.line v d false (.text a.text),
  rule .parameter [.t .bitAnd, .t .var, .t .equals, .n .staticScalar] fun r v _ d =>
    formalParameter r.line v d true .null,
  rule .parameter [.n .className, .t .bitAnd, .t .var, .t .equals, .n .staticScalar]
    fun c _ v _ d => formalParameter 0 v d true (.text c),
  rule .parameter [.t .kwArray, .t .bitAnd, .t .var, .t .equals, .n .staticScalar]
    fun a _ v _ d => formalParameter a.line v d true (.text a.text)]

/-- A name in a namespace: as it is, after a backslash, or after the word and a backslash. -/
def nameRules (lhs : Nonterminal) (value : Int → String → lhs.Value) : List Production := [
  rule lhs [.n .namespaceName] fun name => value 0 name,
  rule lhs [.t .backslash, .n .namespaceName] fun b name => value b.line (b.text ++ name),
  rule lhs [.t .kwNamespace, .t .backslash, .n .namespaceName] fun w b name =>
    value w.line (w.text ++ b.text ++ name)]

def classRules : List Production := [
  rule .classDeclaration [.n .classType, .t .ident, .n .extendsClause, .n .implementsClause,
      .t .leftBrace, .n .classStatements, .t .rightBrace] fun type name ext imp _ ss _ =>
    node name.line .classDecl [.text name.text, type, ext, .list imp, .list ss],
  rule .classDeclaration [.t .kwInterface, .t .ident, .n .interfaceExtends, .t .leftBrace,
      .n .classStatements, .t .rightBrace] fun w name ext _ ss _ =>
    node w.line .interfaceDecl [.text name.text, ext, .list ss],
  rule .classType [.t .kwClass] fun _ => .null,
  rule .classType [.t .kwAbstract, .t .kwClass] fun w _ => .text (lower w.text),
  rule .classType [.t .kwFinal, .t .kwClass] fun w _ => .text (lower w.text),
  rule .extendsClause [.n .empty] fun _ => .null,
  rule .extendsClause [.t .kwExtends, .n .qualifiedName] fun _ name => .text name] ++
  nameRules .qualifiedName (fun _ name => name) ++ [
  rule .implementsClause [.t .kwImplements, .n .interfaces] fun _ names => names,
  rule .implementsClause [.n .empty] fun _ => []] ++
  commaRules .interfaces .qualifiedName (fun names name => snoc names (.text name))
    (fun name => [.text name]) ++ [
  rule .interfaceExtends [.t .kwExtends, .n .interfaces] fun _ names => .list names,
  rule .interfaceExtends [.n .empty] fun _ => .null]

/-- A variable of a class, with its initial value or null. -/
def classVariable (line : Int) (name : Token) (value : Tree) : Tree :=
  node line .classVariable [.text name.text, value]

def memberRules : List Production := [
  rule .classStatements [.n .classStatements, .n .classStatement] fun ss s => snoc ss s,
  rule .classStatements [.n .empty] fun _ => [],
  rule .classStatement [.n .methodModifiers, .t .kwFunction, .n .isReference, .t .ident,
      .t .leftParen, .n .parameters, .t .rightParen, .n .methodBody]
    fun ms w ref name _ ps _ ss =>
    node w.line .method [.text name.text, .list ms, .list ps, .list ss, .bool ref],
  rule .classStatement [.n .comment] fun c => c,
  rule .classStatement [.n .varModifiers, .n .classVars, .t .semi] fun ms vs s =>
    node s.line .classVariables [.list ms, .list vs],
  rule .classStatement [.n .classConstants, .t .semi] fun cs s =>
    node s.line .classConstants [.list cs],
  rule .classVars [.n .classVars, .t .comma, .t .var, .t .equals, .n .staticScalar]
    fun vs c v _ e => snoc vs (classVariable c.line v e),
  rule .classVars [.t .var, .t .equals, .n .staticScalar] fun v _ e => [classVariable v.line v e],
  rule .classVars [.n .classVars, .t .comma, .t .var] fun vs c v =>
    snoc vs (classVariable c.line v .null),
  rule .classVars [.t .var] fun v => [classVariable v.line v .null],
  rule .classConstants [.n .classConstants, .t .comma, .t .ident, .t .equals, .n .staticScalar]
    fun cs c name _ e => snoc cs (node c.line .classConstant [.text name.text, e]),
  rule .classConstants [.t .kwConst, .t .ident, .t .equals, .n .staticScalar] fun w name _ e =>
    [node w.line .classConstant [.text name.text, e]],
  rule .varModifiers [.n .modifiers1] fun ms => ms,
  rule .varModifiers [.t .kwVar] fun _ => [],
  rule .methodModifiers [.n .modifiers1] fun ms => ms,
  rule .methodModifiers [.n .empty] fun _ => [],
  rule .methodBody [.t .leftBrace, .n .innerStatements, .t .rightBrace] fun _ ss _ => ss,
  rule .methodBody [.t .semi] fun _ => [],
  rule .modifiers1 [.n .modifiers1, .n .modifier] fun ms m => snoc ms (.text m),
  rule .modifiers1 [.n .modifier] fun m => [.text m]] ++
  [.kwPublic, .kwProtected, .kwPrivate, .kwStatic, .kwAbstract, .kwFinal].map fun word =>
    rule .modifier [.t word] fun w => lower w.text

end Docblock.Grammar
