import Docblock.Token.Stream

/-! Several lexers that are copies of one another and share the modes that wait. -/
namespace Docblock.Token

/-- Lexers by number, the one in use, and the modes that wait for all of them. -/
structure Session where
  lexers : List Filter
  current : Nat
  stack : List Mode

namespace Session

inductive Command where
  | input (text : List Char)
  | token
  /-- Like `token`, but the end is told apart. -/
  | advance
  /-- All tokens up to the end. -/
  | all
  | peek
  | setLine (line : Int)
  | setPos (pos : Int)
  /-- Copies the lexer in use and uses the copy. -/
  | clone
  | use (number : Nat)

inductive Reply where
  | nothing
  | token (t : Token)
  | stop
  | tokens (ts : List Token)
  | char (c : Option Char)
  | error (e : LexError)

def initial : Session := ⟨[.initial], 0, []⟩

/-- The lexer in use, with the modes that wait. -/
def lexer (s : Session) : Filter :=
  let f := s.lexers.getD s.current .initial
  { f with lexer := { f.lexer with stack := s.stack } }

/-- Puts the lexer in use back; its waiting modes are those of every lexer. -/
def update (s : Session) (f : Filter) : Session :=
  { s with lexers := s.lexers.set s.current f, stack := f.lexer.stack }

/-- One call for a token; `atEnd` is the reply at the end. -/
def call (s : Session) (atEnd : Reply) : Reply × Session :=
  match s.lexer.next with
  | .token t f => (.token t, s.update f)
  | .finished f => (atEnd, s.update f)
  | .failed e f => (.error e, s.update f)

def step (s : Session) : Command → Reply × Session
  | .input cs => (.nothing, s.update (s.lexer.input cs))
  | .token => s.call .nothing
  | .advance => s.call .stop
  | .all =>
    let stream := s.lexer.stream
    let reply := match stream.error? with
      | some e => Reply.error e
      | none => .tokens stream.tokens
    (reply, s.update stream.final)
  | .peek =>
    match s.lexer.lexer.peek with
    | .ok c => (.char c, s)
    | .error e => (.error e, s)
  | .setLine line => (.nothing, s.update { s.lexer with lexer.line := line })
  | .setPos pos => (.nothing, s.update { s.lexer with lexer := s.lexer.lexer.seek pos })
  | .clone =>
    (.nothing, { s with
      lexers := s.lexers ++ [{ s.lexer with last := none }]
      current := s.lexers.length })
  | .use n => (.nothing, { s with current := n })

/-- The replies to a sequence of commands, each with the session after it. -/
def run (s : Session) : List Command → List (Reply × Session)
  | [] => []
  | c :: cs => s.step c :: (s.step c).2.run cs

end Session
end Docblock.Token
