import Docblock.Docs.Directive

/-! Directives and changes of files, one after another. -/
namespace Docblock.Docs

inductive Command where
  | write (path : String) (bytes : List UInt8) (time : Int)
  | touch (path : String) (time : Int)
  | remove (path : String)
  /-- The kept files. -/
  | cache
  | dropCache (name : String)
  | sameTime (a b : String)
  | run (r : Request)

inductive Reply where
  | nothing
  | failed (e : FileError)
  | files (names : List (String × Int))
  | answer (b : Bool)
  | report (r : Report)

namespace World

def initial : World := ⟨.initial, []⟩

/-- Puts changed files in place. -/
def change (w : World) : Except FileError Files → Reply × World
  | .ok files => (.nothing, { w with files := files })
  | .error e => (.failed e, w)

def sourcePath (path : String) : String := "src/" ++ path

def step (w : World) : Command → Reply × World
  | .write path bytes time => w.change (w.files.write (sourcePath path) ⟨time, .bytes bytes⟩)
  | .touch path time => w.change (w.files.touch (sourcePath path) time)
  | .remove path => w.change (w.files.remove (sourcePath path))
  | .cache => (.files (w.files.listFolder "cache"), w)
  | .dropCache name => w.change (w.files.remove ("cache/" ++ name))
  | .sameTime a b => (.answer (w.files.sameTime a b), w)
  | .run r =>
    let (report, w) := w.run r
    (.report report, w)

def steps (w : World) : List Command → List Reply
  | [] => []
  | c :: cs =>
    let (reply, w) := w.step c
    reply :: w.steps cs

end World
end Docblock.Docs
