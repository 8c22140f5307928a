import Docblock.Text.Part
import Docblock.Tree.Basic

/-! Files with their times of change, in folders below one working folder. -/
namespace Docblock.Docs

/-- A file holds bytes, or trees that were kept for later. -/
inductive Content where
  | bytes (bs : List UInt8)
  | trees (ts : List Tree)

structure File where
  time : Int
  content : Content

/-- The names that lead from the working folder to a place below it. -/
abbrev Names := List String

structure Files where
  folders : List Names
  files : List (Names × File)

inductive FileError where
  | notFound
  | notFolder
  | isFolder
  | alreadyThere
  deriving DecidableEq

/-- A place: outside the working folder, of which nothing is known, or in it. -/
inductive Place where
  | outside
  | inside (names : Names)
  deriving DecidableEq

namespace Files

/-- The working folder with a folder for sources and one for kept trees. -/
def initial : Files := ⟨[[], ["src"], ["cache"]], []⟩

def isFolder (f : Files) : Place → Bool
  | .outside => true
  | .inside names => f.folders.contains names

def file? (f : Files) : Place → Option File
  | .outside => none
  | .inside names => f.files.lookup names

def parent : Place → Place
  | .outside => .outside
  | .inside [] => .outside
  | .inside names => .inside names.dropLast

def child (p : Place) (name : String) : Option Place :=
  match p with
  | .outside => none
  | .inside names => some (.inside (names ++ [name]))

/-- Why one cannot go on from a place that is no folder. -/
def blocked (f : Files) (p : Place) : FileError :=
  if (f.file? p).isSome then .notFolder else .notFound

/-- Follows the parts of a path. Every place on the way has to be a folder. -/
def walk (f : Files) (p : Place) : List String → Except FileError Place
  | [] => .ok p
  | part :: parts =>
    if !f.isFolder p then .error (f.blocked p)
    else if part = "" ∨ part = "." then f.walk p parts
    else if part = ".." then f.walk (parent p) parts
    else
      match child p part with
      | some q => f.walk q parts
      | none => .error .notFound

/-- The parts of a path between its slashes. -/
def splitPath : List Char → List Char → List String
  | part, [] => [String.ofList part.reverse]
  | part, c :: cs =>
    if c = '/' then String.ofList part.reverse :: splitPath [] cs else splitPath (c :: part) cs

/-- Where a path starts: an absolute one outside the working folder. -/
def start (path : String) : Place :=
  match path.toList with
  | '/' :: _ => .outside
  | _ => .inside []

/-- The place that a path leads to, whether something is there or not. -/
def resolve (f : Files) (path : String) : Except FileError Place :=
  f.walk (start path) (splitPath [] path.toList)

def isThere (f : Files) (p : Place) : Bool := f.isFolder p || (f.file? p).isSome

/-- Whether a path leads to a file or a folder. -/
def pathExists (f : Files) (path : String) : Bool :=
  match f.resolve path with
  | .ok p => f.isThere p
  | .error _ => false

/-- Puts a file where it belongs, in place of an earlier one. -/
def put (f : Files) (p : Place) (file : File) : Except FileError Files :=
  if f.isFolder p then .error .isFolder
  else
    match p with
    | .outside => .error .isFolder
    | .inside names =>
      .ok { f with files := (names, file) :: f.files.filter (fun e => e.1 ≠ names) }

/-- Follows the parts of a path and makes the folders that are missing on the way. -/
def makeFolders (f : Files) (p : Place) : List String → Except FileError (Place × Files)
  | [] => .ok (p, f)
  | part :: parts =>
    if part = "" ∨ part = "." then f.makeFolders p parts
    else if part = ".." then f.makeFolders (parent p) parts
    else
      match child p part with
      | none => .error .notFound
      | some q =>
        if (f.file? q).isSome then
          .error (if parts.all (fun s => s = "" ∨ s = ".") then .alreadyThere else .notFolder)
        else if f.isFolder q then f.makeFolders q parts
        else
          match q with
          | .outside => .error .notFound
          | .inside names => { f with folders := names :: f.folders }.makeFolders q parts

/-- Writes a file and makes the folders that its path needs. -/
def write (f : Files) (path : String) (file : File) : Except FileError Files := do
  let parts := splitPath [] path.toList
  let (folder, f) ← f.makeFolders (start path) parts.dropLast
  f.put (← f.walk folder (parts.drop (parts.length - 1))) file

/-- The file or folder that a path leads to. -/
def find (f : Files) (path : String) : Except FileError Place := do
  let p ← f.resolve path
  if f.isThere p then return p else throw .notFound

/-- Sets the time of change. A folder keeps none. -/
def touch (f : Files) (path : String) (time : Int) : Except FileError Files := do
  let p ← f.find path
  match f.file? p with
  | some file => f.put p { file with time := time }
  | none => return f

def remove (f : Files) (path : String) : Except FileError Files := do
  match ← f.find path with
  | .outside => throw .isFolder
  | .inside names =>
    if f.folders.contains names then throw .isFolder
    else return { f with files := f.files.filter (fun e => e.1 ≠ names) }

/-- Whether two paths lead to files of one time, or to one place. -/
def sameTime (f : Files) (a b : String) : Bool :=
  match f.find a, f.find b with
  | .ok p, .ok q =>
    match f.file? p, f.file? q with
    | some x, some y => x.time == y.time
    | _, _ => p == q
  | _, _ => false

/-- Whether one name stands before another, by their characters. -/
def nameLe (a b : String × Int) : Bool := !(b.1 < a.1)

/-- The names and times of the files right in a folder, sorted by name. -/
def listFolder (f : Files) (folder : String) : List (String × Int) :=
  let names := f.files.filterMap fun e => match e.1 with
    | [d, name] => if d = folder then some (name, e.2.time) else none
    | _ => none
  names.mergeSort nameLe

end Files
end Docblock.Docs
