import Docblock.Token.Basic
import Docblock.Token.Keyword
import Docblock.Token.Pattern

/-! The rules of each mode, in the order in which they are tried. -/
namespace Docblock.Token

/-- What a token does to the mode. -/
inductive Effect where
  | stay
  /-- Leaves the mode waiting and reads in another. -/
  | push (mode : Mode)
  /-- Goes back to the mode that waits. -/
  | pop
  /-- Goes back by two modes. -/
  | popTwice
  /-- Reads in another mode, with no return to this one. -/
  | enter (mode : Mode)
  /-- Pushes a mode if a name follows. -/
  | pushAtName (mode : Mode)
  /-- Pushes the first mode if a name follows, else the second. -/
  | pushByName (named other : Mode)
  /-- Enters the first mode if a name follows, else the second. -/
  | enterByName (named other : Mode)
  /-- Notes the label and pushes the mode of heredoc text. -/
  | openHeredoc
  /-- If the token is the label, forgets it and goes back; else the token is text. -/
  | closeHeredoc
  deriving DecidableEq

/-- A rule for a class of tokens. -/
structure Rule where
  /-- The kind of the token, by its text. -/
  kind : List Char → Kind
  pattern : Pattern
  effect : Effect := .stay
  /-- Whether the token has to follow a line feed. -/
  afterBreak : Bool := false
  /-- Whether the line feeds in the token are counted. -/
  countsLines : Bool := false

namespace Rule

open Pattern

def plain (kind : Kind) (pattern : Pattern) : Rule := { kind := fun _ => kind, pattern }

def withEffect (kind : Kind) (pattern : Pattern) (effect : Effect) : Rule :=
  { kind := fun _ => kind, pattern, effect }

def counting (r : Rule) : Rule := { r with countsLines := true }

/-- A rule for a fixed text. -/
def fixed (kind : Kind) (s : String) : Rule := plain kind (exactly s)

/-- The length of the rule's match after the character `behind`. -/
def length? (r : Rule) (behind : Option Char) (cs : List Char) : Option Nat :=
  if r.afterBreak && behind != some '\n' then none else r.pattern cs

/-- The words of each cast. -/
def castWords : List (Kind × List String) := [
  (.doubleCast, ["real", "double", "float"]), (.boolCast, ["bool", "boolean"]),
  (.intCast, ["int", "integer"]), (.objectCast, ["object"]), (.stringCast, ["string"]),
  (.arrayCast, ["array"]), (.unsetCast, ["unset"])]

def casts : List Rule := castWords.map fun (kind, words) => plain kind (Pattern.cast words)

/-- The rules that need more than one fixed text: they come first in code. -/
def codeClasses : List Rule := [
  counting (plain .whitespace whitespace),
  withEffect .objectOperator (exactly "->") (.pushAtName .property),
  withEffect .leftBracket (exactly "[") (.push .code),
  withEffect .rightBracket (exactly "]") .pop,
  withEffect .leftBrace (exactly "\x7b") (.push .code),
  withEffect .rightBrace (exactly "\x7d") .pop,
  counting (plain .docComment docComment),
  counting (plain .comment comment),
  counting (withEffect .closeTag closeTag (.enter .html)),
  { kind := kindOfName, pattern := identifier },
  plain .var variableName,
  plain .double double,
  plain .integer integer,
  counting (plain .singleQuoted singleQuoted),
  withEffect .quote (exactly "\"") (.push .quoted),
  counting (withEffect .startHeredoc startHeredoc .openHeredoc)] ++
  casts ++ [
  plain .isNotEqual (orElse (exactlyNotBefore "!=" (· == '=')) (exactly "<>")),
  plain .concat (exactlyNotBefore "." fun c => Text.isDigit c || c == '=')]

/-- Operators and marks: a longer one stands before its own start. -/
def codeSigns : List Rule := [
  fixed .booleanOr "||", fixed .inc "++", fixed .isIdentical "===", fixed .isNotIdentical "!==",
  fixed .mulEqual "*=", fixed .plusEqual "+=", fixed .shiftLeftEqual "<<=",
  fixed .shiftRightEqual ">>=", fixed .orEqual "|=", fixed .xorEqual "^=", fixed .concatEqual ".=",
  fixed .plus "+", fixed .mul "*", fixed .bitOr "|", fixed .bitXor "^", fixed .shiftLeft "<<",
  fixed .shiftRight ">>", fixed .booleanAnd "&&", fixed .isSmallerOrEqual "<=",
  fixed .isGreaterOrEqual ">=", fixed .isEqual "==", fixed .divEqual "/=", fixed .modEqual "%=",
  fixed .minusEqual "-=", fixed .andEqual "&=", fixed .dec "--", fixed .doubleArrow "=>",
  fixed .doubleColon "::", fixed .leftParen "(", fixed .rightParen ")", fixed .dollar "$",
  fixed .question "?", fixed .backslash "\\", fixed .minus "-", fixed .div "/", fixed .mod "%",
  fixed .bitAnd "&", fixed .bitNot "~", fixed .booleanNot "!", fixed .isSmaller "<",
  fixed .isGreater ">", fixed .equals "=", fixed .comma ",", fixed .colon ":", fixed .semi ";",
  fixed .silence "@"]

/-- An opening tag with an equals sign writes what follows. -/
def tagKind (cs : List Char) : Kind := if cs.contains '=' then .openTagWithEcho else .openTag

/-- A brace before a dollar sign, inside interpolated text. -/
def curlyOpen : Pattern := exactlyBefore "\x7b" (· == '$')

end Rule

open Rule Pattern in
/-- The rules of a mode; the first that matches is taken. -/
def Mode.rules : Mode → List Rule
  | .html => [
      { kind := tagKind, pattern := openTag, effect := .enter .code, countsLines := true },
      counting (plain .inlineHtml inlineHtml)]
  | .code => codeClasses ++ codeSigns
  | .quoted => [
      withEffect .quote (exactly "\"") .pop,
      counting (plain .encapsed quotedText),
      withEffect .var variableName (.push .quotedVar),
      withEffect .curlyOpen Rule.curlyOpen (.push .code),
      withEffect .dollarCurly (exactly "$\x7b") (.pushByName .varName .code)]
  | .quotedVar => [
      plain .var variableName,
      withEffect .quote (exactly "\"") .popTwice,
      withEffect .leftBracket (exactly "[") (.enter .offset),
      withEffect .objectOperator (exactlyBefore "->" Char.isAlpha) (.enter .property),
      counting (withEffect .encapsed quotedText .pop),
      withEffect .curlyOpen Rule.curlyOpen (.enter .code),
      withEffect .dollarCurly (exactly "$\x7b") (.enterByName .varName .code)]
  | .varName => [
      withEffect .leftBracket (exactly "[") (.push .code),
      withEffect .rightBrace (exactly "\x7d") .pop,
      plain .varName identifier]
  | .offset => [
      withEffect .rightBracket (exactly "]") .pop,
      plain .var variableName,
      plain .ident identifier,
      plain .offsetNumber digits]
  | .property => [withEffect .ident identifier .pop]
  | .heredoc => [
      withEffect .curlyOpen Rule.curlyOpen (.push .code),
      withEffect .dollarCurly (exactly "$\x7b") (.pushByName .varName .code),
      { kind := fun _ => .endHeredoc, pattern := identifier, effect := .closeHeredoc,
        afterBreak := true },
      counting (plain .encapsed heredocText),
      withEffect .var variableName (.push .heredocVar)]
  | .heredocVar => [
      plain .var variableName,
      withEffect .leftBracket (exactly "[") (.enter .offset),
      withEffect .objectOperator (exactlyBefore "->" Char.isAlpha) (.enter .property),
      withEffect .curlyOpen Rule.curlyOpen (.enter .code),
      withEffect .dollarCurly (exactly "$\x7b") (.enterByName .varName .code),
      counting (withEffect .encapsed heredocText .pop)]

end Docblock.Token
