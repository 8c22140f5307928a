import Docblock.Token.Lexer

/-! All the tokens of a text, and the tokens that the grammar sees. -/
namespace Docblock

open Token

/-- The tokens that a reader gives until it ends, each with the reader after it. -/
inductive Stream (Reader : Type) where
  | finished (final : Reader)
  | failed (e : LexError) (final : Reader)
  | cons (t : Token) (after : Reader) (rest : Stream Reader)

namespace Stream

variable {Reader : Type}

def tokens : Stream Reader → List Token
  | .finished _ | .failed _ _ => []
  | .cons t _ rest => t :: rest.tokens

/-- The tokens, each with the reader after it. -/
def steps : Stream Reader → List (Token × Reader)
  | .finished _ | .failed _ _ => []
  | .cons t after rest => (t, after) :: rest.steps

def error? : Stream Reader → Option LexError
  | .finished _ => none
  | .failed e _ => some e
  | .cons _ _ rest => rest.error?

/-- The reader after the last call. -/
def final : Stream Reader → Reader
  | .finished r | .failed _ r => r
  | .cons _ _ rest => rest.final

/-- The first `fuel` calls for a token. -/
def ofCalls (next : Reader → Scan Reader) : Nat → Reader → Stream Reader
  | 0, r => .finished r
  | fuel + 1, r =>
    match next r with
    | .finished r => .finished r
    | .failed e r => .failed e r
    | .token t r => .cons t r (ofCalls next fuel r)

end Stream

/-- The tokens of the rest. Every token takes a character, so there are no more of them. -/
def Lexer.stream (l : Lexer) : Stream Lexer := .ofCalls Lexer.next (l.rest.length + 1) l

/-- A lexer that leaves out white space and tags and knows the kind of its last token. -/
structure Filter where
  lexer : Lexer
  last : Option Kind

namespace Filter

/-- After these a closing tag ends no statement. -/
def endsStatement (last : Option Kind) : Bool :=
  match last with
  | some .openTag | some .semi | some .colon | some .leftBrace | some .rightBrace => true
  | _ => false

/-- What becomes of a token: it is left out and leaves a memory, or it is handed on under some
kind, and that kind is the memory. -/
inductive Fate where
  | dropped (last : Option Kind)
  | emitted (kind : Kind)

/-- The fate of a token by its kind and the memory. White space and plain tags are left out, a tag
that writes becomes the word for it, and a closing tag becomes a semicolon where the statement
before it is open. -/
def fate (last : Option Kind) : Kind → Fate
  | .whitespace => .dropped last
  | .openTag => .dropped (some .openTag)
  | .openTagWithEcho => .emitted .kwEcho
  | .closeTag => if endsStatement last then .dropped last else .emitted .semi
  | k => .emitted k

/-- A call for a token, with at most `fuel` calls of the lexer: up to a token that is handed on. -/
def nextFor : Nat → Filter → Scan Filter
  | 0, f => .finished f
  | fuel + 1, f =>
    match f.lexer.next with
    | .finished l => .finished ⟨l, none⟩
    | .failed e l => .failed e ⟨l, f.last⟩
    | .token t l =>
      match fate f.last t.kind with
      | .dropped last => nextFor fuel ⟨l, last⟩
      | .emitted k => .token { t with kind := k } ⟨l, some k⟩

/-- The next token that the grammar sees. -/
def next (f : Filter) : Scan Filter := nextFor (f.lexer.rest.length + 1) f

/-- The tokens of the rest that the grammar sees. -/
def stream (f : Filter) : Stream Filter := .ofCalls Filter.next (f.lexer.rest.length + 1) f

def initial : Filter := ⟨.initial, none⟩

def input (f : Filter) (cs : List Char) : Filter := { f with lexer := f.lexer.input cs }

end Filter
end Docblock
