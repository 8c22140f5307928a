import Docblock.Token.Basic
import Docblock.Tree.Basic

/-! The symbols of the grammar and the values that they stand for. -/
namespace Docblock.Grammar

inductive Nonterminal where
  -- Statements.
  | start | topStatements | topStatement | useDeclarations | useDeclaration
  | constantDeclarations | constantDeclaration | innerStatements | innerStatement | statement
  | moreCatches | directives | declareBody | elseifs | elsePart | colonElseifs | colonElse
  | whileBody | forExprs | forExprs1 | forBody | foreachVar | foreachTarget | foreachBody
  | switchBody | cases | caseSeparator | globalVars | globalVar | staticVars | staticVar
  | echoExprs | unsetVars | unsetVar
  -- Declarations.
  | functionDeclaration | classDeclaration | classType | extendsClause | qualifiedName
  | implementsClause | classStatements | classStatement | classVars | classConstants | interfaces
  | interfaceExtends | varModifiers | methodModifiers | methodBody | modifiers1 | modifier
  | isReference | parameters | parameter
  -- Expressions.
  | expr | classReference | className | dynamicReference | dynamicProperties | dynamicProperty
  | constructorArguments | listTargets | listTarget | varExpr | baseWithCalls | functionCall
  | methodArguments | properties | property | baseVar | indirectVar | staticMember | varClassName
  | referenceVar | compoundVar | dimension | objectProperty | dimensions | propertyName
  | varWithoutObjects | arrayPairs | arrayPairs1 | possibleComma | arguments | argument
  | closureVars | closureVars1 | issetVars
  -- Literals and interpolated text.
  | scalar | classConstant | commonScalar | staticScalar | staticPairs | staticPairs1
  | namespaceName | encapsList | encapsVar | encapsOffset | comment | empty
  deriving DecidableEq

/-- A token of some kind, or a nonterminal. -/
inductive Symbol where
  | t (kind : Token.Kind)
  | n (v : Nonterminal)
  deriving DecidableEq

/-- An index written after a property: the kind of its node, its value and its line. -/
structure Dimension where
  kind : Tree.Kind
  value : Tree
  line : Int

/-- A property with the indices written after it. -/
structure Property where
  name : Tree
  dimensions : List Dimension

/-- A property, and the arguments if it is called as a method. -/
structure Access where
  property : Property
  arguments : Option (List Tree)

/-- The values of a nonterminal: a tree unless stated. -/
@[reducible]
def Nonterminal.Value : Nonterminal → Type
  | .start | .topStatements | .useDeclarations | .constantDeclarations | .innerStatements
  | .moreCatches | .directives | .elseifs | .colonElseifs | .forExprs1 | .switchBody | .cases
  | .globalVars | .staticVars | .echoExprs | .unsetVars | .implementsClause | .classStatements
  | .classVars | .classConstants | .interfaces | .varModifiers | .methodModifiers | .methodBody
  | .modifiers1 | .parameters | .constructorArguments | .listTargets | .arrayPairs | .arrayPairs1
  | .arguments | .closureVars | .closureVars1 | .issetVars | .staticPairs | .staticPairs1 =>
    List Tree
  | .qualifiedName | .className | .namespaceName | .modifier => String
  | .isReference => Bool
  | .empty | .possibleComma | .caseSeparator => Unit
  | .dynamicProperty | .objectProperty => Property
  | .dynamicProperties => List Property
  | .dimensions => List Dimension
  | .methodArguments => Option (List Tree)
  | .property => Access
  | .properties => List Access
  | _ => Tree

/-- The values of a symbol; for a token, the token. -/
@[reducible]
def Symbol.Value : Symbol → Type
  | .t _ => Token
  | .n v => v.Value

end Docblock.Grammar
