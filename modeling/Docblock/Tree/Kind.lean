/-! The kinds of node in a tree, with the names of their fields. -/
namespace Docblock.Tree

inductive Kind where
  | inlineHtml | block | assignment | listAssignment | newObject | cloneObject | breakLoop
  | continueLoop | returnValue | globalVars | staticVars | echo | print | unset | tryBlock
  | catchArm | throwError | declare | directive | function | method | closure | classDecl
  | classConstants | classConstant | classVariables | classVariable | interfaceDecl | assignOp
  | binaryOp | unaryOp | ternaryOp | preIncDec | postIncDec | cast | isSet | empty | eval
  | includeFile | requireFile | exit | silence | magicConstant | constant | var | staticVar
  | lexicalVar | formalParameter | parameter | functionCall | array | arrayElement | arrayOffset
  | stringOffset | objectProperty | staticProperty | methodCall | staticMethodCall | ifElse
  | elseIf | elseArm | whileLoop | doWhile | forLoop | foreach | foreachVar | switch | caseArm
  | defaultArm | namespaceDecl | useDeclarations | useDeclaration | constantDeclarations
  | constantDeclaration | comment
  deriving DecidableEq

namespace Kind

/-- Every kind, in the order of declaration. -/
def all : List Kind := [
  .inlineHtml, .block, .assignment, .listAssignment, .newObject, .cloneObject, .breakLoop,
  .continueLoop, .returnValue, .globalVars, .staticVars, .echo, .print, .unset, .tryBlock,
  .catchArm, .throwError, .declare, .directive, .function, .method, .closure, .classDecl,
  .classConstants, .classConstant, .classVariables, .classVariable, .interfaceDecl, .assignOp,
  .binaryOp, .unaryOp, .ternaryOp, .preIncDec, .postIncDec, .cast, .isSet, .empty, .eval,
  .includeFile, .requireFile, .exit, .silence, .magicConstant, .constant, .var, .staticVar,
  .lexicalVar, .formalParameter, .parameter, .functionCall, .array, .arrayElement, .arrayOffset,
  .stringOffset, .objectProperty, .staticProperty, .methodCall, .staticMethodCall, .ifElse,
  .elseIf, .elseArm, .whileLoop, .doWhile, .forLoop, .foreach, .foreachVar, .switch, .caseArm,
  .defaultArm, .namespaceDecl, .useDeclarations, .useDeclaration, .constantDeclarations,
  .constantDeclaration, .comment]

def name : Kind → String
  | .inlineHtml => "InlineHTML"
  | .block => "Block"
  | .assignment => "Assignment"
  | .listAssignment => "ListAssignment"
  | .newObject => "New"
  | .cloneObject => "Clone"
  | .breakLoop => "Break"
  | .continueLoop => "Continue"
  | .returnValue => "Return"
  | .globalVars => "Global"
  | .staticVars => "Static"
  | .echo => "Echo"
  | .print => "Print"
  | .unset => "Unset"
  | .tryBlock => "Try"
  | .catchArm => "Catch"
  | .throwError => "Throw"
  | .declare => "Declare"
  | .directive => "Directive"
  | .function => "Function"
  | .method => "Method"
  | .closure => "Closure"
  | .classDecl => "Class"
  | .classConstants => "ClassConstants"
  | .classConstant => "ClassConstant"
  | .classVariables => "ClassVariables"
  | .classVariable => "ClassVariable"
  | .interfaceDecl => "Interface"
  | .assignOp => "AssignOp"
  | .binaryOp => "BinaryOp"
  | .unaryOp => "UnaryOp"
  | .ternaryOp => "TernaryOp"
  | .preIncDec => "PreIncDecOp"
  | .postIncDec => "PostIncDecOp"
  | .cast => "Cast"
  | .isSet => "IsSet"
  | .empty => "Empty"
  | .eval => "Eval"
  | .includeFile => "Include"
  | .requireFile => "Require"
  | .exit => "Exit"
  | .silence => "Silence"
  | .magicConstant => "MagicConstant"
  | .constant => "Constant"
  | .var => "Variable"
  | .staticVar => "StaticVariable"
  | .lexicalVar => "LexicalVariable"
  | .formalParameter => "FormalParameter"
  | .parameter => "Parameter"
  | .functionCall => "FunctionCall"
  | .array => "Array"
  | .arrayElement => "ArrayElement"
  | .arrayOffset => "ArrayOffset"
  | .stringOffset => "StringOffset"
  | .objectProperty => "ObjectProperty"
  | .staticProperty => "StaticProperty"
  | .methodCall => "MethodCall"
  | .staticMethodCall => "StaticMethodCall"
  | .ifElse => "If"
  | .elseIf => "ElseIf"
  | .elseArm => "Else"
  | .whileLoop => "While"
  | .doWhile => "DoWhile"
  | .forLoop => "For"
  | .foreach => "Foreach"
  | .foreachVar => "ForeachVariable"
  | .switch => "Switch"
  | .caseArm => "Case"
  | .defaultArm => "Default"
  | .namespaceDecl => "Namespace"
  | .useDeclarations => "UseDeclarations"
  | .useDeclaration => "UseDeclaration"
  | .constantDeclarations => "ConstantDeclarations"
  | .constantDeclaration => "ConstantDeclaration"
  | .comment => "Comment"

/-- The names of the fields, in order. -/
def fields : Kind → List String
  | .inlineHtml => ["data"]
  | .block | .globalVars | .staticVars | .echo | .unset | .classConstants | .isSet | .array
  | .defaultArm | .useDeclarations | .constantDeclarations => ["nodes"]
  | .assignment => ["node", "expr", "is_ref"]
  | .listAssignment => ["nodes", "expr"]
  | .newObject | .functionCall => ["name", "params"]
  | .cloneObject | .breakLoop | .continueLoop | .returnValue | .print | .throwError | .elseArm =>
    ["node"]
  | .tryBlock => ["nodes", "catches"]
  | .catchArm => ["class_", "var", "nodes"]
  | .declare => ["directives", "node"]
  | .directive => ["name", "node"]
  | .function => ["name", "params", "nodes", "is_ref"]
  | .method => ["name", "modifiers", "params", "nodes", "is_ref"]
  | .closure => ["params", "vars", "nodes", "is_ref"]
  | .classDecl => ["name", "type", "extends", "implements", "nodes"]
  | .classConstant | .classVariable | .staticVar | .constantDeclaration => ["name", "initial"]
  | .classVariables => ["modifiers", "nodes"]
  | .interfaceDecl => ["name", "extends", "nodes"]
  | .assignOp | .binaryOp => ["op", "left", "right"]
  | .unaryOp | .preIncDec | .postIncDec => ["op", "expr"]
  | .ternaryOp => ["expr", "iftrue", "iffalse"]
  | .cast => ["type", "expr"]
  | .empty | .eval | .exit | .silence => ["expr"]
  | .includeFile | .requireFile => ["expr", "once"]
  | .magicConstant => ["name", "value"]
  | .constant | .var => ["name"]
  | .lexicalVar | .foreachVar => ["name", "is_ref"]
  | .formalParameter => ["name", "default", "is_ref", "type"]
  | .parameter => ["node", "is_ref"]
  | .arrayElement => ["key", "value", "is_ref"]
  | .arrayOffset | .stringOffset | .doWhile => ["node", "expr"]
  | .objectProperty | .staticProperty => ["node", "name"]
  | .methodCall => ["node", "name", "params"]
  | .staticMethodCall => ["class_", "name", "params"]
  | .ifElse => ["expr", "node", "elseifs", "else_"]
  | .elseIf | .whileLoop => ["expr", "node"]
  | .forLoop => ["start", "test", "count", "node"]
  | .foreach => ["expr", "keyvar", "valvar", "node"]
  | .switch | .caseArm => ["expr", "nodes"]
  | .namespaceDecl => ["name", "nodes"]
  | .useDeclaration => ["name", "alias"]
  | .comment => ["text"]

def ofName? (s : String) : Option Kind := all.find? fun k => k.name == s

end Kind
end Docblock.Tree
