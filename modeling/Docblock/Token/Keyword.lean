import Docblock.Token.Kind

/-! Reserved words. -/
namespace Docblock.Token

/-- The kinds whose name is the reserved word itself. -/
def reserved : List Kind := [
  .kwArray, .kwAs, .kwBreak, .kwCase, .kwClass, .kwConst, .kwContinue, .kwDeclare, .kwDefault,
  .kwDo, .kwEcho, .kwElse, .kwElseif, .kwEmpty, .kwEnddeclare, .kwEndfor, .kwEndforeach, .kwEndif,
  .kwEndswitch, .kwEndwhile, .kwEval, .kwExit, .kwExtends, .kwFor, .kwForeach, .kwFunction,
  .kwGlobal, .kwIf, .kwInclude, .kwIncludeOnce, .kwInstanceof, .kwIsset, .kwList, .kwNew, .kwPrint,
  .kwRequire, .kwRequireOnce, .kwReturn, .kwStatic, .kwSwitch, .kwUnset, .kwUse, .kwVar, .kwWhile,
  .kwFinal, .kwInterface, .kwImplements, .kwPublic, .kwPrivate, .kwProtected, .kwAbstract,
  .kwClone, .kwTry, .kwCatch, .kwThrow, .kwNamespace]

/-- Every reserved word in upper case with its kind. -/
def keywords : List (String × Kind) :=
  reserved.map (fun k => (k.name, k)) ++ [
    ("__DIR__", .magicDir), ("__FILE__", .magicFile), ("__LINE__", .magicLine),
    ("__FUNCTION__", .magicFunction), ("__CLASS__", .magicClass), ("__METHOD__", .magicMethod),
    ("__NAMESPACE__", .magicNamespace), ("AND", .logicalAnd), ("OR", .logicalOr),
    ("XOR", .logicalXor), ("DIE", .kwExit), ("__HALT_COMPILER", .haltCompiler)]

/-- Upper case of a character as far as it is ASCII; every other character stays, and no
character that stays spells a reserved word. -/
def upper (c : Char) : List Char :=
  match c.toNat with
  | 0xdf => ['S', 'S']
  | 0x131 => ['I']
  | 0x17f => ['S']
  | 0xfb00 => ['F', 'F']
  | 0xfb01 => ['F', 'I']
  | 0xfb02 => ['F', 'L']
  | 0xfb03 => ['F', 'F', 'I']
  | 0xfb04 => ['F', 'F', 'L']
  | 0xfb05 => ['S', 'T']
  | 0xfb06 => ['S', 'T']
  | _ => [c.toUpper]

/-- The kind of a name: a reserved word in any case, or an identifier. -/
def kindOfName (cs : List Char) : Kind :=
  (keywords.lookup (String.ofList (cs.flatMap upper))).getD .ident

end Docblock.Token
