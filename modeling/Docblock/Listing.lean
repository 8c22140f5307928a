import Docblock.Token.Stream
import Docblock.Text.Quoted

/-! A listing of the tokens of a text, one line each. -/
namespace Docblock

/-- Kind, quoted text, line and position of a token. -/
def Token.listing (t : Token) : String :=
  "(" ++ t.kind.name ++ "," ++ Text.quote t.text ++ "," ++ toString t.line ++ "," ++
    toString t.pos ++ ")"

/-- The lines for the tokens of a text, and the error that ends them. -/
def listing (text : String) : List String × Option Token.LexError :=
  let stream := (Lexer.initial.input text.toList).stream
  (stream.tokens.map Token.listing, stream.error?)

/-- The text of the standard input. -/
partial def readAll (input : IO.FS.Stream) (text : String) : IO String := do
  let line ← input.getLine
  if line.isEmpty then return text else readAll input (text ++ line)

/-- Shows the listing of the standard input; fails where the text does. -/
def showListing : IO UInt32 := do
  let (lines, error) := listing (← readAll (← IO.getStdin) "")
  lines.forM IO.println
  return if error.isSome then 1 else 0

end Docblock
