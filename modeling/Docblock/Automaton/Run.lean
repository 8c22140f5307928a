import Docblock.Automaton.Table
import Docblock.Token.Stream

/-! The automaton at work: tokens are shifted and productions reduced until a source is read. -/
namespace Docblock

open Token Grammar

/-- Why a source cannot be read. -/
inductive ParseError where
  /-- No token can be read. -/
  | lexical (e : LexError)
  /-- No source goes on with this token. -/
  | unexpected (t : Token)
  /-- The text ends before the source does. -/
  | unexpectedEnd
  | fault (f : Fault)
  /-- The automaton does not fit the productions. -/
  | broken

namespace Automaton

inductive Action where
  | shift (state : Nat)
  | reduce (production : Nat)
  | accept
  | reject
  deriving DecidableEq

/-- The state that an edge leads to. -/
def target? (state : Nat) (s : Symbol) : Option Nat :=
  (paged? rows state).bind fun r =>
    r.edges.findSome? fun g => (paged? edgeGroups g).bind (·.lookup s)

def reduction? (state : Nat) (ahead : Option Token.Kind) : Option Nat :=
  (paged? rows state).bind (·.reduction? ahead)

/-- Shifting against reducing, by the precedences. -/
def settle (target production : Nat) (k : Token.Kind) : Action :=
  match productions[production]? with
  | none => .reject
  | some p =>
    match choose p k with
    | .shift => .shift target
    | .reduce => .reduce production
    | .neither => .reject

/-- What to do in a state before a token. -/
def actionAt (state : Nat) (k : Token.Kind) : Action :=
  match target? state (.t k), reduction? state (some k) with
  | some q, some p => settle q p k
  | some q, none => .shift q
  | none, some p => .reduce p
  | none, none => .reject

/-- What to do in a state at the end. -/
def actionAtEnd (state : Nat) : Action :=
  if state = accepting then .accept
  else
    match reduction? state none with
    | some p => .reduce p
    | none => .reject

/-- A symbol that has been read, with its value and the state after it. -/
structure Frame where
  state : Nat
  symbol : Symbol
  value : symbol.Value

/-- The state after all that has been read, the latest first. -/
def stateOf : List Frame → Nat
  | [] => 0
  | f :: _ => f.state

/-- Takes the values of some symbols off the stack; the last symbol is on top. -/
def take : (ss : List Symbol) → List Frame → Option (Values ss × List Frame)
  | [], stack => some ((), stack)
  | s :: ss, stack =>
    match take ss stack with
    | none => none
    | some (_, []) => none
    | some (vs, f :: below) =>
      if h : f.symbol = s then some ((h ▸ f.value, vs), below) else none

/-- Replaces the right side of a production on top of the stack by its left side. -/
def reduce (file : Option String) (production : Nat) (stack : List Frame) :
    Except ParseError (List Frame) :=
  match productions[production]? with
  | none => .error .broken
  | some p =>
    match take p.rhs stack with
    | none => .error .broken
    | some (vs, below) =>
      match (p.action file).apply vs with
      | .error f => .error (.fault f)
      | .ok v =>
        match target? (stateOf below) (.n p.lhs) with
        | none => .error .broken
        | some q => .ok (⟨q, .n p.lhs, v⟩ :: below)

/-- The value of a whole source, alone on the stack. -/
def result : List Frame → Except ParseError (List Tree)
  | [⟨_, .n .start, ts⟩] => .ok ts
  | _ => .error .broken

/-- Reads on for at most `fuel` steps; also gives the reader after the last token that was asked
for. A token is asked for before every step. -/
def run {Reader : Type} (file : Option String) :
    Nat → List Frame → Stream Reader → Except ParseError (List Tree) × Reader
  | 0, _, stream => (.error .broken, stream.final)
  | _ + 1, _, .failed e r => (.error (.lexical e), r)
  | fuel + 1, stack, .finished r =>
    match actionAtEnd (stateOf stack) with
    | .accept => (result stack, r)
    | .reject => (.error .unexpectedEnd, r)
    | .shift _ => (.error .broken, r)
    | .reduce p =>
      match reduce file p stack with
      | .error e => (.error e, r)
      | .ok stack' => run file fuel stack' (.finished r)
  | fuel + 1, stack, .cons t r rest =>
    match actionAt (stateOf stack) t.kind with
    | .accept => (.error .broken, r)
    | .reject => (.error (.unexpected t), r)
    | .shift q => run file fuel (⟨q, .t t.kind, t⟩ :: stack) rest
    | .reduce p =>
      match reduce file p stack with
      | .error e => (.error e, r)
      | .ok stack' => run file fuel stack' (.cons t r rest)

/-- More steps than the reading of that many tokens takes. -/
def enough (tokens : Nat) : Nat := 1000 * (tokens + 1)

end Automaton

/-- The trees of a token stream, and the reader after the last token asked for. -/
def Stream.parse {Reader : Type} (file : Option String) (s : Stream Reader) :
    Except ParseError (List Tree) × Reader :=
  Automaton.run file (Automaton.enough s.tokens.length) [] s

end Docblock
