import Docblock.Source
import Docblock.Text.Quoted

/-! A prompt that reads sources line by line and shows what they parse to. -/
namespace Docblock

open Token

/-- The state between two lines: the lexer, and the lines that are not yet a whole source. -/
structure Prompt where
  filter : Filter
  pending : String

namespace Prompt

inductive Event where
  | prompt (text : String)
  | message (text : String)
  | item (t : Tree)

def initial : Prompt := ⟨.initial, ""⟩

/-- The text before a line: blank where a source goes on, else the mode that the lexer is in. -/
def label (p : Prompt) : String :=
  if p.pending.isEmpty then
    (if p.filter.lexer.mode = .html then "html" else p.filter.lexer.mode.name) ++ "> "
  else "     "

def syntaxLine (message : String) (line : Int) (text : String) : String :=
  message ++ " (line " ++ toString line ++ ") near " ++ Text.quote text

/-- The message for a syntax error with a line. -/
def report? : ParseError → Option String
  | .lexical (.illegal line text) => some (syntaxLine "illegal character" line text)
  | .unexpected t => some (syntaxLine "invalid syntax" t.line t.text)
  | _ => none

/-- Takes one line in. A source that ends too early is kept and read again with the next line,
from its beginning, in the mode that the lexer is then in. Errors of other kinds end the prompt. -/
def enter (p : Prompt) (line : String) : List Event × Except ParseError Prompt :=
  let text := p.pending ++ line
  if text.isEmpty then ([], .ok p)
  else
    let text := text ++ "\n"
    let f := { p.filter with lexer := { p.filter.lexer with line := 1 } }
    match f.parse none text.toList with
    | (.ok ts, f) => (ts.map .item, .ok ⟨f, ""⟩)
    | (.error .unexpectedEnd, f) => ([], .ok ⟨f, text⟩)
    | (.error e, f) =>
      match report? e with
      | some m => ([.message m], .ok ⟨f, ""⟩)
      | none => ([], .error e)

/-- All that is shown for some lines, up to the prompt that meets their end or to an error. -/
def session (p : Prompt) : List String → List Event × Option ParseError
  | [] => ([.prompt p.label], none)
  | line :: lines =>
    match p.enter line with
    | (shown, .error e) => (.prompt p.label :: shown, some e)
    | (shown, .ok q) =>
      let (events, e) := q.session lines
      (.prompt p.label :: shown ++ events, e)

end Prompt
end Docblock
