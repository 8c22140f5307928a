import Docblock.Text.Word

/-! Recognisers for the classes of token: each gives the length of its match at the start of a
text, which is never zero. -/
namespace Docblock.Token

open Text

/-- The length of the match at the start of a text. -/
abbrev Pattern := List Char → Option Nat

namespace Pattern

/-- The length of the longest start of a text in a class of characters. -/
def run (p : Char → Bool) (cs : List Char) : Nat := (cs.takeWhile p).length

def startsWith (p : Char → Bool) : List Char → Bool
  | [] => false
  | c :: _ => p c

/-- A fixed text. -/
def exactly (s : String) : Pattern := fun cs =>
  if s.toList.isPrefixOf cs then some s.length else none

/-- A fixed text that no character of a class follows. -/
def exactlyNotBefore (s : String) (p : Char → Bool) : Pattern := fun cs =>
  if s.toList.isPrefixOf cs && !startsWith p (cs.drop s.length) then some s.length else none

/-- A fixed text that some character of a class follows. -/
def exactlyBefore (s : String) (p : Char → Bool) : Pattern := fun cs =>
  if s.toList.isPrefixOf cs && startsWith p (cs.drop s.length) then some s.length else none

/-- The first of two patterns that matches. -/
def orElse (p q : Pattern) : Pattern := fun cs => p cs <|> q cs

/-- One character of a class or more. -/
def some1 (p : Char → Bool) : Pattern := fun cs =>
  match run p cs with
  | 0 => none
  | n + 1 => some (n + 1)

def isSpace (c : Char) : Bool := c == ' ' || c == '\t' || c == '\r' || c == '\n'

def whitespace : Pattern := some1 isSpace

/-- A letter or underscore, then letters, numbers and underscores. -/
def identifier : Pattern
  | [] => none
  | c :: cs => if isNameStart c then some (1 + run isWord cs) else none

/-- A dollar sign and a name. -/
def variableName : Pattern
  | '$' :: cs => (identifier cs).map (1 + ·)
  | _ => none

def digits : Pattern := some1 isDigit

/-- The mark of an exponent, an optional sign and digits. -/
def exponent : Pattern
  | e :: s :: cs =>
    if e == 'e' || e == 'E' then
      if s == '+' || s == '-' then (digits cs).map (2 + ·) else (digits (s :: cs)).map (1 + ·)
    else none
  | _ => none

/-- Digits with a point before, among or after them and perhaps an exponent, or digits with an
exponent. -/
def double : Pattern := fun cs =>
  let whole := run isDigit cs
  match cs.drop whole with
  | '.' :: rest =>
    let fraction := run isDigit rest
    if whole + fraction = 0 then none
    else some (whole + 1 + fraction + (exponent (rest.drop fraction)).getD 0)
  | rest => if whole = 0 then none else (exponent rest).map (whole + ·)

def isHexDigit (c : Char) : Bool :=
  c.isDigit || ('a' ≤ c && c ≤ 'f') || ('A' ≤ c && c ≤ 'F')

def hexadecimal : Pattern
  | '0' :: 'x' :: cs => (some1 isHexDigit cs).map (2 + ·)
  | _ => none

def integer : Pattern := orElse hexadecimal digits

/-- The number of characters up to the end of a quoted text, its quote included. -/
def closingQuote : Pattern
  | [] => none
  | '\'' :: _ => some 1
  | '\\' :: _ :: cs => (closingQuote cs).map (2 + ·)
  | ['\\'] => none
  | _ :: cs => (closingQuote cs).map (1 + ·)

/-- A text between single quotes, in which a backslash keeps the next character from ending it. -/
def singleQuoted : Pattern
  | '\'' :: cs => (closingQuote cs).map (1 + ·)
  | _ => none

/-- The number of characters up to the end of a bracketed comment, its end included. -/
def closingComment : Pattern
  | [] => none
  | '*' :: '/' :: _ => some 2
  | _ :: cs => (closingComment cs).map (1 + ·)

/-- A comment that starts with two stars. Its end is looked for after both. -/
def docComment : Pattern
  | '/' :: '*' :: '*' :: cs => (closingComment cs).map (3 + ·)
  | _ => none

def blockComment : Pattern
  | '/' :: '*' :: cs => (closingComment cs).map (2 + ·)
  | _ => none

/-- The rest of a line comment: up to and with the line feed, or up to a closing tag. -/
def lineRest : List Char → Nat
  | [] => 0
  | '\n' :: _ => 1
  | '?' :: '>' :: _ => 0
  | '%' :: '>' :: _ => 0
  | _ :: cs => 1 + lineRest cs

def lineComment : Pattern
  | '/' :: '/' :: cs => some (2 + lineRest cs)
  | '#' :: cs => some (1 + lineRest cs)
  | _ => none

def comment : Pattern := orElse blockComment lineComment

def isTagMark (c : Char) : Bool := c == '?' || c == '%'

/-- What may follow the two characters of an opening tag: an equals sign, or a word and at most
one white space. -/
def tagWord : List Char → Nat
  | '=' :: _ => 1
  | 'p' :: 'h' :: 'p' :: cs => if startsWith isSpace cs then 4 else 3
  | _ => 0

def openTag : Pattern
  | '<' :: c :: cs => if isTagMark c then some (2 + tagWord cs) else none
  | _ => none

/-- One line break after a closing tag belongs to it. -/
def lineEnd : List Char → Nat
  | '\r' :: '\n' :: _ => 2
  | '\r' :: _ => 1
  | '\n' :: _ => 1
  | _ => 0

def closeTag : Pattern
  | c :: '>' :: cs => if isTagMark c then some (2 + lineEnd cs) else none
  | _ => none

/-- The number of characters before the next opening tag. -/
def htmlRun : List Char → Nat
  | [] => 0
  | '<' :: cs => if startsWith isTagMark cs then 0 else 1 + htmlRun cs
  | _ :: cs => 1 + htmlRun cs

/-- A number of characters, of which there must be one. -/
def nonzero (n : Nat) : Option Nat := if n = 0 then none else some n

def inlineHtml : Pattern := fun cs => nonzero (htmlRun cs)

/-- After a dollar sign: the start of a name or a brace makes it a variable. -/
def isVarStart (c : Char) : Bool := isNameStart c || c == '{'

/-- The length of the literal text at the start of a text between double quotes. -/
def quotedRun : List Char → Nat
  | [] => 0
  | '"' :: _ => 0
  | ['\\'] => 0
  | '\\' :: _ :: cs => 2 + quotedRun cs
  | '$' :: cs => if startsWith isVarStart cs then 0 else 1 + quotedRun cs
  | '{' :: cs => if startsWith (· == '$') cs then 0 else 1 + quotedRun cs
  | _ :: cs => 1 + quotedRun cs

def quotedText : Pattern := fun cs => nonzero (quotedRun cs)

/-- The length of the literal text at the start of a heredoc line, without its line feed. -/
def heredocRun : List Char → Nat
  | [] => 0
  | '\n' :: _ => 0
  | ['\\'] => 0
  | '\\' :: '\n' :: _ => 0
  | '\\' :: _ :: cs => 2 + heredocRun cs
  | '$' :: cs => if startsWith isVarStart cs then 0 else 1 + heredocRun cs
  | '{' :: cs => if startsWith (· == '$') cs then 0 else 1 + heredocRun cs
  | _ :: cs => 1 + heredocRun cs

/-- Literal text up to and with the end of its line, or a line feed, perhaps after a backslash. -/
def heredocText : Pattern := fun cs =>
  match heredocRun cs with
  | 0 =>
    match cs with
    | '\n' :: _ => some 1
    | '\\' :: '\n' :: _ => some 2
    | _ => none
  | n + 1 => some (if startsWith (· == '\n') (cs.drop (n + 1)) then n + 2 else n + 1)

def isTab (c : Char) : Bool := c == ' ' || c == '\t'

/-- The label of a heredoc opening, after its three marks and blanks, and the length of it all. -/
def heredocLabel? : List Char → Option (List Char × Nat)
  | '<' :: '<' :: '<' :: cs =>
    let gap := run isTab cs
    match identifier (cs.drop gap) with
    | none => none
    | some n =>
      match cs.drop (gap + n) with
      | '\n' :: _ => some ((cs.drop gap).take n, 3 + gap + n + 1)
      | _ => none
  | _ => none

def startHeredoc : Pattern := fun cs => (heredocLabel? cs).map (·.2)

/-- One of some words in any case between parentheses, with blanks around it. -/
def cast (words : List String) : Pattern
  | '(' :: cs =>
    let before := run isTab cs
    let word := (cs.drop before).takeWhile Char.isAlpha
    let after := run isTab (cs.drop (before + word.length))
    match cs.drop (before + word.length + after) with
    | ')' :: _ =>
      if words.contains (String.ofList (word.map Char.toLower)) then
        some (1 + before + word.length + after + 1)
      else none
    | _ => none
  | _ => none

end Pattern
end Docblock.Token
