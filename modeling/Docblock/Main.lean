import Docblock.Listing
import Docblock.Prompt
import Docblock.Tree.Outline

/-! The command line: a listing of tokens, or a prompt. -/
namespace Docblock.Prompt

def Event.put : Event → IO Unit
  | .prompt text => IO.print text
  | .message text => IO.println text
  | .item t => IO.println t.display

/-- Takes in the lines of the standard input until it ends or the prompt does. -/
partial def loop (input : IO.FS.Stream) (p : Prompt) : IO UInt32 := do
  (Event.prompt p.label).put
  (← IO.getStdout).flush
  let line ← input.getLine
  if line.isEmpty then return 0
  let (events, next) := p.enter (String.ofList (line.toList.filter (· != '\n')))
  events.forM Event.put
  match next with
  | .ok p => p.loop input
  | .error _ => return 1

end Docblock.Prompt

def main (args : List String) : IO UInt32 := do
  match args with
  | ["tokens"] => Docblock.showListing
  | _ => Docblock.Prompt.initial.loop (← IO.getStdin)
