import Docblock.Grammar.Expression
import Docblock.Number.Decimal
import Docblock.Text.Escape
import Docblock.Text.Part

/-! Literals, constants and interpolated text. -/
namespace Docblock.Grammar

/-- The number of a hexadecimal numeral without its mark. -/
def hexValue (cs : List Char) : Nat :=
  cs.foldl (fun n c => 16 * n + (Text.hexDigit? c).getD 0) 0

/-- An integer: hexadecimal after `0x`, octal after another zero, else decimal. -/
def integerValue : List Char → Except Fault Int
  | '0' :: 'x' :: cs => .ok (hexValue cs)
  | '0' :: cs =>
    match Number.ofDigits? 8 ('0' :: cs) with
    | some n => .ok n
    | none => .error .badNumeral
  | cs =>
    match Number.ofDigits? 10 cs with
    | some n => .ok n
    | none => .error .badNumeral

/-- Every pair of a backslash and `c` becomes `c`, from the left. -/
def dropEscapes (c : Char) : List Char → List Char
  | '\\' :: d :: cs => if d = c then c :: dropEscapes c cs else '\\' :: dropEscapes c (d :: cs)
  | d :: cs => d :: dropEscapes c cs
  | [] => []

/-- The text between single quotes: escapes of the quote go first, then those of a backslash. -/
def singleQuotedValue (s : String) : String :=
  let inner := (s.toList.drop 1).dropLast
  String.ofList (dropEscapes '\\' (dropEscapes '\'' inner))

/-- The text that an interpolated part stands for. -/
def unescape (s : String) : Except Fault Tree :=
  match Text.unescape s.toList with
  | .ok cs => .ok (.text (String.ofList cs))
  | .error .notAscii => .error .notAscii
  | .error .badHex => .error .badEscape

/-- A part is added to an interpolated text; an empty text before it is dropped. -/
def interpolate (line : Int) (before part : Tree) : Tree :=
  match before with
  | .text "" => part
  | before => node line .binaryOp [.text ".", before, part]

/-- A constant that names its place: its word in upper case, with a value if known here. -/
def magic (line : Int) (name : String) (value : Tree) : Tree :=
  node line .magicConstant [.text name, value]

def optionalText : Option String → Tree
  | none => .null
  | some s => .text s

def directory (file : Option String) : Option String :=
  file.map fun s => String.ofList (Text.folder s.toList)

def scalarRules : List Production := [
  rule .scalar [.n .classConstant] fun t => t,
  rule .scalar [.n .commonScalar] fun t => t,
  rule .scalar [.t .quote, .n .encapsList, .t .quote] fun _ t _ => t,
  rule .scalar [.t .startHeredoc, .n .encapsList, .t .endHeredoc] fun _ t _ => t,
  rule .scalar [.t .varName] fun v => node v.line .var [.text ("$" ++ v.text)]] ++
  nameRules .scalar (fun line name => node line .constant [.text name]) ++ [
  rule .classConstant [.n .className, .t .doubleColon, .t .ident] fun c d name =>
    node d.line .staticProperty [.text c, .text name.text],
  rule .classConstant [.n .varClassName, .t .doubleColon, .t .ident] fun c d name =>
    node d.line .staticProperty [c, .text name.text],
  ruleOrFault .commonScalar [.t .integer] fun v =>
    (integerValue v.text.toList).map Tree.int,
  rule .commonScalar [.t .double] fun v => .float (Number.double false v.text.toList),
  rule .commonScalar [.t .singleQuoted] fun v => .text (singleQuotedValue v.text),
  rule .commonScalar [.t .magicLine] fun v => magic v.line "__LINE__" (.int v.line),
  ⟨.commonScalar, [.t .magicFile], fun file v =>
    .ok (magic v.line "__FILE__" (optionalText file))⟩,
  ⟨.commonScalar, [.t .magicDir], fun file v =>
    .ok (magic v.line "__DIR__" (optionalText (directory file)))⟩,
  rule .commonScalar [.t .magicClass] fun v => magic v.line "__CLASS__" .null,
  rule .commonScalar [.t .magicMethod] fun v => magic v.line "__METHOD__" .null,
  rule .commonScalar [.t .magicFunction] fun v => magic v.line "__FUNCTION__" .null,
  rule .commonScalar [.t .magicNamespace] fun v => magic v.line "__NAMESPACE__" .null]

def staticScalarRules : List Production := [
  rule .staticScalar [.n .commonScalar] fun t => t,
  rule .staticScalar [.t .quote, .t .quote] fun _ _ => .text "",
  ruleOrFault .staticScalar [.t .quote, .t .encapsed, .t .quote] fun _ s _ => unescape s.text] ++
  nameRules .staticScalar (fun line name => node line .constant [.text name]) ++ [
  rule .staticScalar [.t .plus, .n .staticScalar] fun o e =>
    node o.line .unaryOp [.text o.text, e],
  rule .staticScalar [.t .minus, .n .staticScalar] fun o e =>
    node o.line .unaryOp [.text o.text, e],
  rule .staticScalar [.t .kwArray, .t .leftParen, .n .staticPairs, .t .rightParen]
    fun w _ ps _ => node w.line .array [.list ps],
  rule .staticPairs [.n .empty] fun _ => [],
  rule .staticPairs [.n .staticPairs1, .n .possibleComma] fun ps _ => ps,
  rule .staticPairs1 [.n .staticPairs1, .t .comma, .n .staticScalar] fun ps c e =>
    snoc ps (arrayElement c.line .null e false),
  rule .staticPairs1 [.n .staticScalar] fun e => [arrayElement 0 .null e false],
  rule .staticPairs1 [.n .staticPairs1, .t .comma, .n .staticScalar, .t .doubleArrow,
      .n .staticScalar] fun ps c k _ e => snoc ps (arrayElement c.line k e false),
  rule .staticPairs1 [.n .staticScalar, .t .doubleArrow, .n .staticScalar] fun k a e =>
    [arrayElement a.line k e false],
  rule .namespaceName [.n .namespaceName, .t .backslash, .t .ident] fun name b s =>
    name ++ b.text ++ s.text,
  rule .namespaceName [.t .ident] fun s => s.text]

def encapsRules : List Production := [
  rule .encapsList [.n .encapsList, .n .encapsVar] fun before t => interpolate 0 before t,
  rule .encapsList [.n .empty] fun _ => .text "",
  ruleOrFault .encapsList [.n .encapsList, .t .encapsed] fun before s =>
    (unescape s.text).map (interpolate s.line before),
  rule .encapsVar [.t .var] fun v => node v.line .var [.text v.text],
  rule .encapsVar [.t .var, .t .leftBracket, .n .encapsOffset, .t .rightBracket] fun v b e _ =>
    node b.line .arrayOffset [node v.line .var [.text v.text], e],
  rule .encapsVar [.t .var, .t .objectOperator, .t .ident] fun v o name =>
    node o.line .objectProperty [node v.line .var [.text v.text], .text name.text],
  rule .encapsVar [.t .dollarCurly, .n .expr, .t .rightBrace] fun _ e _ => e,
  rule .encapsVar [.t .dollarCurly, .t .varName, .t .leftBracket, .n .expr, .t .rightBracket,
      .t .rightBrace] fun _ v b e _ _ =>
    node b.line .arrayOffset [node v.line .var [.text ("$" ++ v.text)], e],
  rule .encapsVar [.t .curlyOpen, .n .varExpr, .t .rightBrace] fun _ v _ => v,
  rule .encapsOffset [.t .ident] fun s => .text s.text,
  ruleOrFault .encapsOffset [.t .offsetNumber] fun v =>
    match Number.ofDigits? 10 v.text.toList with
    | some n => .ok (.int n)
    | none => .error .badNumeral,
  rule .encapsOffset [.t .var] fun v => node v.line .var [.text v.text],
  rule .comment [.t .comment] fun c => .node .comment none [.text c.text],
  rule .comment [.t .docComment] fun c => .node .comment none [.text c.text],
  rule .empty [] ()]

end Docblock.Grammar
