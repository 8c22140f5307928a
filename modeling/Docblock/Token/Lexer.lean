import Docblock.Token.Rule

/-! The lexer: its place in a text, its line, its mode and the modes that wait. -/
namespace Docblock

open Token

/-- What a call for a token gives, with the reader after it. -/
inductive Scan (Reader : Type) where
  | token (t : Token) (next : Reader)
  | finished (next : Reader)
  | failed (e : LexError) (next : Reader)

/-- A place in a text and the way in which the text is read on. -/
structure Lexer where
  /-- The text, once one is given. -/
  text : Option (List Char)
  /-- What is left of the text after `pos`, or all of it while `pos` is negative. -/
  rest : List Char
  /-- The character before `rest`. -/
  behind : Option Char
  pos : Int
  line : Int
  mode : Mode
  /-- The modes that wait, the latest first. -/
  stack : List Mode
  /-- The label of the latest heredoc text. -/
  label : Option (List Char)

namespace Lexer

/-- A lexer before its first text. -/
def initial : Lexer where
  text := none
  rest := []
  behind := none
  pos := 0
  line := 1
  mode := .html
  stack := []
  label := none

/-- Starts on a text; line, mode and label stay. -/
def input (l : Lexer) (cs : List Char) : Lexer :=
  { l with text := some cs, rest := cs, behind := none, pos := 0 }

/-- Moves to a position of the text. -/
def seek (l : Lexer) (pos : Int) : Lexer :=
  let cs := l.text.getD []
  { l with
    pos := pos
    rest := cs.drop pos.toNat
    behind := if pos.toNat = 0 then none else cs[pos.toNat - 1]? }

/-- The character of a text at a position, where a negative position counts from the end. -/
def charAt? (cs : List Char) (pos : Int) : Option Char :=
  if pos < 0 then
    if pos + cs.length < 0 then none else cs[(pos + cs.length).toNat]?
  else cs[pos.toNat]?

/-- The character at the position of the lexer, if it is given a text. -/
def peek (l : Lexer) : Except LexError (Option Char) :=
  match l.text with
  | none => .error .noText
  | some cs => .ok (charAt? cs l.pos)

/-- Past the first `n` characters of the rest; the lines that end among them count if the rule for
them says so. -/
def advance (l : Lexer) (r : Rule) (n : Nat) : Lexer :=
  let passed := l.rest.take n
  { l with
    rest := l.rest.drop n
    behind := passed.getLast?.or l.behind
    pos := max l.pos 0 + n
    line := l.line + (if r.countsLines then passed.count '\n' else 0 : Nat) }

def push (l : Lexer) (m : Mode) : Lexer := { l with mode := m, stack := l.mode :: l.stack }

def enter (l : Lexer) (m : Mode) : Lexer := { l with mode := m }

/-- Back to the latest mode that waits. -/
def pop? (l : Lexer) : Option Lexer :=
  match l.stack with
  | [] => none
  | m :: ms => some { l with mode := m, stack := ms }

def atName (l : Lexer) : Bool := Pattern.startsWith Text.isNameStart l.rest

/-- The token after a pop, if a mode waits. -/
def popThen (l : Lexer) (t : Token) : Scan Lexer :=
  match l.pop? with
  | none => .failed .noMode l
  | some next => .token t next

/-- The effect of a token on the lexer that has moved past it. -/
def apply (l : Lexer) (t : Token) : Effect → Scan Lexer
  | .stay => .token t l
  | .push m => .token t (l.push m)
  | .pop => l.popThen t
  | .popTwice =>
    match l.pop? with
    | none => .failed .noMode l
    | some next => next.popThen t
  | .enter m => .token t (l.enter m)
  | .pushAtName m => .token t (if l.atName then l.push m else l)
  | .pushByName m m' => .token t (l.push (if l.atName then m else m'))
  | .enterByName m m' => .token t (l.enter (if l.atName then m else m'))
  | .openHeredoc =>
    .token t { l.push .heredoc with label := (Pattern.heredocLabel? t.text.toList).map (·.1) }
  | .closeHeredoc =>
    match l.label with
    | none => .failed .noLabel l
    | some label =>
      if t.text.toList = label then { l with label := none }.popThen t
      else .token { t with kind := .encapsed } l

/-- The first rule that matches, with the length of its match. -/
def firstMatch (rules : List Rule) (behind : Option Char) (cs : List Char) :
    Option (Rule × Nat) :=
  rules.findSome? fun r => (r.length? behind cs).map (r, ·)

/-- The token at the start of a rest that is not empty. `left` is what an error reports. -/
def scan (l : Lexer) (left : List Char) : Scan Lexer :=
  match firstMatch l.mode.rules l.behind l.rest with
  | none => .failed (.illegal l.line (String.ofList left)) l
  | some (r, n) =>
    let cs := l.rest.take n
    (l.advance r n).apply ⟨r.kind cs, String.ofList cs, l.line, l.pos⟩ r.effect

/-- The next token. At the end the position moves on by one at every call. -/
def next (l : Lexer) : Scan Lexer :=
  match l.text with
  | none => if l.pos < 0 then .failed .noText l else .failed .noInput { l with pos := l.pos + 1 }
  | some cs =>
    if l.pos < 0 then
      if l.pos + cs.length < 0 then .failed .outOfRange l
      else l.scan (cs.drop (l.pos + cs.length).toNat)
    else
      match l.rest with
      | [] => .finished { l with pos := l.pos + 1 }
      | _ :: _ => l.scan l.rest

end Lexer
end Docblock
