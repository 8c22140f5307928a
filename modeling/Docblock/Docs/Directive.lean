import Docblock.Docs.Entry
import Docblock.Docs.Files
import Docblock.Source
import Docblock.Text.Utf8

/-! Directives that document a source file, with parsed sources kept beside the documents. -/
namespace Docblock.Docs

open Token

/-- The name of a file, with another extension if one is given. -/
def baseName (path : String) (ext : Option String) : String :=
  let name := Text.lastPart path.toList
  match ext with
  | none => String.ofList name
  | some e =>
    if e.isEmpty then String.ofList name
    else String.ofList (Text.withoutExtension name ++ '.' :: e.toList)

/-- Why a directive ends without a result. -/
inductive Failure where
  | noTarget
  | file (e : FileError)
  | notUtf8
  /-- What was kept for a source is no tree. -/
  | corrupt
  | parse (e : ParseError)
  | tree (e : Tree.AccessError)

/-- The files, and the modes that earlier readings left waiting. -/
structure World where
  files : Files
  stack : List Mode

/-- The characters of a file. -/
def File.text (file : File) : Except Failure (List Char) :=
  match file.content with
  | .trees _ => .error .notUtf8
  | .bytes bs =>
    match Text.decodeUtf8 bs with
    | some cs => .ok cs
    | none => .error .notUtf8

/-- The path of the file that keeps the trees of a source. -/
def keptPath (path : String) : String := "cache/" ++ baseName path (some "parse")

/-- The trees that are kept in a file. -/
def World.kept (w : World) (path : String) : Except Failure (List Tree) := do
  let p ← (w.files.find path).mapError .file
  match w.files.file? p with
  | some ⟨_, .trees ts⟩ => return ts
  | _ => throw .corrupt

/-- A file, and its characters. -/
def World.source (w : World) (path : String) : Except Failure (File × List Char) := do
  let p ← (w.files.find path).mapError .file
  match w.files.file? p with
  | none => throw (.file .isFolder)
  | some file => return (file, ← file.text)

/-- The trees of a source: those kept under its name if they have its time, else those it
parses to, which are then kept with its time. -/
def World.parse (w : World) (path : String) : Except Failure (List Tree) × World :=
  if w.files.sameTime path (keptPath path) then (w.kept (keptPath path), w)
  else
    match w.source path with
    | .error e => (.error e, w)
    | .ok (file, text) =>
      let (result, f) := (Filter.fresh w.stack).parse none text
      let w := { w with stack := f.lexer.stack }
      match result with
      | .error e => (.error (.parse e), w)
      | .ok ts =>
        match w.files.write (keptPath path) ⟨file.time, .trees ts⟩ with
        | .error e => (.error (.file e), w)
        | .ok files => (.ok ts, { w with files := files })

inductive Directive where
  | plain | allOfModule | classes | function
  deriving DecidableEq

namespace Directive

def name : Directive → String
  | .plain => "phpautodoc"
  | .allOfModule => "phpautomodule"
  | .classes => "phpautoclass"
  | .function => "phpautofunction"

/-- The directives that documents may use. -/
def available : List Directive := [.allOfModule, .classes, .function]

/-- The number of arguments that are needed. -/
def arguments : Directive → Nat
  | .plain | .allOfModule => 0
  | .classes | .function => 1

def hasContent : Directive → Bool
  | .plain | .allOfModule => false
  | .classes | .function => true

def optionNames : Directive → List String
  | .function => ["filename"]
  | _ => ["filename", "members", "undoc-members"]

/-- The entries that a directive makes of the trees of a source. -/
def entries (d : Directive) (o : Options) (targets : List String) (ts : List Tree) :
    Except Tree.AccessError (List Entry) :=
  match d with
  | .plain => .ok []
  | .allOfModule => moduleEntries o ts
  | .classes => classEntries o targets .null ts
  | .function => functionEntries o targets .null ts

end Directive

/-- A directive as a document uses it. -/
structure Request where
  directive : Directive
  args : List String
  filename : Option String
  options : Options
  content : List String
  line : Int
  domain : String

inductive Warning where
  | noFilename (d : Directive)
  | noSource (d : Directive) (filename : String)
  | badSource (path message : String)
  deriving DecidableEq

def Warning.message : Warning → String
  | .noFilename d => d.name ++ " requires :filename: option"
  | .noSource d filename => d.name ++ " cannot read source code: " ++ filename
  | .badSource path message => "phpautodoc parse error [" ++ path ++ "]: " ++ message

/-- The message of a syntax error, with its line if it has one. Other errors have none. -/
def syntaxMessage? : ParseError → Option String
  | .lexical (.illegal line _) => some ("illegal character (line " ++ toString line ++ ")")
  | .unexpected t => some ("invalid syntax (line " ++ toString t.line ++ ")")
  | .unexpectedEnd => some "unexpected EOF while parsing"
  | _ => none

/-- What a directive leaves: lines for the document, the files it depends on, a warning with its
line, or a failure. -/
structure Report where
  lines : Option (List String) := none
  sources : List String := []
  warning : Option (Warning × Int) := none
  failure : Option Failure := none

/-- The names that are asked for, between commas. -/
def targetsOf (arg : String) : List String :=
  (Text.splitCommas arg.toList).map fun cs => String.ofList (Text.strip cs)

/-- The lines of a document: those of the entries, then the content of the directive. -/
def documentLines (r : Request) (es : List Entry) : List String :=
  es.flatMap (Entry.lines · r.domain) ++
    (if r.content.isEmpty then [] else r.content.map (indented 1) ++ [""]) ++ [""]

/-- Documents one source file. -/
def World.document (w : World) (r : Request) (targets : List String) (filename : String) :
    Report × World :=
  let path := String.ofList (Text.join "src".toList filename.toList)
  if !w.files.pathExists path then
    ({ warning := some (.noSource r.directive filename, r.line) }, w)
  else
    match w.parse path with
    | (.error (.parse e), w) =>
      match syntaxMessage? e with
      | some m => ({ warning := some (.badSource path m, r.line) }, w)
      | none => ({ failure := some (.parse e) }, w)
    | (.error e, w) => ({ failure := some e }, w)
    | (.ok ts, w) =>
      match r.directive.entries r.options targets ts with
      | .error e => ({ failure := some (.tree e) }, w)
      | .ok es => ({ lines := some (documentLines r es), sources := [path] }, w)

/-- Runs a directive. -/
def World.run (w : World) (r : Request) : Report × World :=
  let targets := if r.directive.arguments = 0 then some [] else r.args.head?.map targetsOf
  match targets, r.filename with
  | none, _ => ({ failure := some .noTarget }, w)
  | some _, none => ({ warning := some (.noFilename r.directive, r.line) }, w)
  | some targets, some filename => w.document r targets filename

end Docblock.Docs
