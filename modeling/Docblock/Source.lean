import Docblock.Automaton.Run

/-! Sources read into trees. -/
namespace Docblock

open Token

/-- Reads a text on from the state of a filter; `file` is the name of the file it is from. -/
def Filter.parse (f : Filter) (file : Option String) (text : List Char) :
    Except ParseError (List Tree) × Filter :=
  (f.input text).stream.parse file

/-- A fresh filter that shares the modes that wait. -/
def Filter.fresh (stack : List Mode) : Filter := ⟨{ Lexer.initial with stack := stack }, none⟩

/-- Reads a text by itself, with the modes that earlier readings left waiting. Also gives the
modes that wait after it. -/
def parseWith (stack : List Mode) (text : String) : Except ParseError (List Tree) × List Mode :=
  let (result, f) := (Filter.fresh stack).parse none text.toList
  (result, f.lexer.stack)

/-- Reads texts one after another; each finds the modes that the ones before it left waiting. -/
def parseInTurn (stack : List Mode) :
    List String → List (Except ParseError (List Tree) × List Mode)
  | [] => []
  | text :: texts =>
    let step := parseWith stack text
    step :: parseInTurn step.2 texts

end Docblock
