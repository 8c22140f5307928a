import Docblock.Install.Options

/-! The steps of an installation. -/
namespace Docblock.Install

/-- What is there of the packaging library: a fitting one, another one, or none. -/
inductive Packaging where
  | fitting | other | missing
  deriving DecidableEq

structure Release where
  version : String
  parsed : List String
  location : String
  deriving DecidableEq

/-- What the installer finds around it. -/
structure Host where
  executable : String
  eggs : String
  library : String
  packaging : Packaging
  path : List String
  entries : List String
  findLinks : Option String
  releases : List Release
  /-- What the command that fetches the package returns. -/
  exit : Int

inductive Event where
  | openUrl (url : String)
  | useSetuptools (folder : String)
  | reload
  | addEntry (path : String)
  | find (name : String)
  | index (searchPath : List String)
  | addFindLinks (links : List String)
  | obtain (name : String)
  | call (command : List String) (path : String)
  | require (requirement : String)
  | main (args : List String)
  | removeFolder (path : String)
  deriving DecidableEq

def setupUrl : String := "http://python-distribute.org/distribute_setup.py"

def testReleasesUrl : String := "http://downloads.buildout.org/"

def package : String := "zc.buildout"

/-- The steps that load the packaging library. -/
def loading (h : Host) : List Event :=
  let entries := (h.path.filter fun p => !h.entries.contains p).map Event.addEntry
  match h.packaging with
  | .fitting => []
  | .other => [.openUrl setupUrl, .useSetuptools h.eggs, .reload] ++ entries
  | .missing => [.openUrl setupUrl, .useSetuptools h.eggs] ++ entries

/-- Where to look for releases, if not only in the index. The host comes first. -/
def links? (h : Host) (s : Settings) : Option String :=
  let links := match h.findLinks with
    | some l => some l
    | none =>
      match s.findLinks with
      | some l =>
        if l.isEmpty then (if s.testReleases then some testReleasesUrl else none) else some l
      | none => if s.testReleases then some testReleasesUrl else none
  links.filter fun l => !l.isEmpty

/-- A final release: of the parts that open with a star there are only final ones. -/
def Release.isFinal (r : Release) : Bool :=
  r.parsed.all fun part => part.toList.head? != some '*' || part == "*final-" || part == "*final"

/-- The order of versions: part by part, a beginning before what goes on from it. -/
def before : List String → List String → Bool
  | [], [] => false
  | [], _ :: _ => true
  | _ :: _, [] => false
  | a :: as, b :: bs => if a = b then before as bs else decide (a < b)

/-- The better of two releases, the later one if they are alike: by version, then by place. -/
def better (best : Option Release) (r : Release) : Option Release :=
  match best with
  | none => some r
  | some b =>
    if before r.parsed b.parsed then some b
    else if before b.parsed r.parsed then some r
    else if r.location < b.location then some b
    else some r

def newest? (rs : List Release) : Option Release := (rs.filter Release.isFinal).foldl better none

/-- The steps that look for the newest final release, and its version. -/
def search (h : Host) (links : Option String) : List Event × Option String :=
  ([.index [h.library]] ++ (links.toList.map fun l => .addFindLinks [l]) ++ [.obtain package],
    (newest? h.releases).map Release.version)

def command (h : Host) (links : Option String) (requirement : String) : List String :=
  [h.executable, "-c", "from setuptools.command.easy_install import main; main()", "-mZqNxd",
    h.eggs] ++ (match links with
      | some l => ["-f", l]
      | none => []) ++ [requirement]

/-- The arguments for the installed program: a configuration file first, and a task if there are
only settings. -/
def mainArgs (s : Settings) (args : List String) : List String :=
  let args := if args.all (fun a => a.toList.contains '=') then args ++ ["bootstrap"] else args
  match s.configFile with
  | some c => ["-c", c] ++ args
  | none => args

/-- All the steps, and whether the last one succeeds. -/
def plan (h : Host) (s : Settings) (args : List String) : List Event × Bool :=
  let links := links? h s
  let (searching, version) := match s.version with
    | some v => ([], some v)
    | none => if s.testReleases then ([], none) else search h links
  let requirement := match version with
    | some v => if v.isEmpty then package else package ++ "==" ++ v
    | none => package
  let fetching := loading h ++ [.find "distribute"] ++ searching ++
    [.call (command h links requirement) h.library]
  if h.exit = 0 then
    (fetching ++ [.addEntry h.eggs, .require requirement, .main (mainArgs s args),
      .removeFolder h.eggs], true)
  else (fetching, false)

/-- Why an installation ends early. -/
inductive Failure where
  | stopped (s : Stop)
  | failedCommand
  deriving DecidableEq

def run (h : Host) (argv : List String) : List Event × Option Failure :=
  match Settings.read {} argv with
  | .error s => ([], some (.stopped s))
  | .ok (s, args) =>
    match plan h s args with
    | (events, true) => (events, none)
    | (events, false) => (events, some .failedCommand)

end Docblock.Install
