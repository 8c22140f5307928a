/-! The options of the installer. -/
namespace Docblock.Install

inductive Flag where
  | help | version | testReleases | configFile | findLinks
  deriving DecidableEq

namespace Flag

def all : List Flag := [.help, .version, .testReleases, .configFile, .findLinks]

def short : Flag → Char
  | .help => 'h'
  | .version => 'v'
  | .testReleases => 't'
  | .configFile => 'c'
  | .findLinks => 'f'

def long : Flag → String
  | .help => "--help"
  | .version => "--version"
  | .testReleases => "--accept-buildout-test-releases"
  | .configFile => "--config-file"
  | .findLinks => "--find-links"

def takesValue : Flag → Bool
  | .help | .testReleases => false
  | .version | .configFile | .findLinks => true

end Flag

structure Settings where
  version : Option String := none
  testReleases : Bool := false
  configFile : Option String := none
  findLinks : Option String := none
  deriving DecidableEq

/-- Why the options end the run. -/
inductive Stop where
  | help
  | noSuchOption (option : String)
  | ambiguous (option : String) (candidates : List String)
  | needsValue (option : String)
  | takesNoValue (option : String)
  deriving DecidableEq

/-- What is said about options that cannot be used. -/
def Stop.message? : Stop → Option String
  | .help => none
  | .noSuchOption o => some ("no such option: " ++ o)
  | .ambiguous o os => some ("ambiguous option: " ++ o ++ " (" ++ ", ".intercalate os ++ "?)")
  | .needsValue o => some (o ++ " option requires 1 argument")
  | .takesNoValue o => some (o ++ " option does not take a value")

/-- The last line of the complaint of a program about its options. -/
def Stop.complaint? (s : Stop) (program : String) : Option String :=
  s.message?.map fun m => program ++ ": error: " ++ m

namespace Settings

def withValue (s : Settings) (value : String) : Flag → Settings
  | .version => { s with version := some value }
  | .configFile => { s with configFile := some value }
  | .findLinks => { s with findLinks := some value }
  | .help | .testReleases => s

/-- Sets a flag that has no value. -/
def mark (s : Settings) : Flag → Except Stop Settings
  | .help => .error .help
  | .testReleases => .ok { s with testReleases := true }
  | .version | .configFile | .findLinks => .ok s

/-- The flag of a long option, which may be cut short as long as one flag alone fits. -/
def longFlag (option : String) : Except Stop Flag :=
  match Flag.all.find? (fun f => f.long == option) with
  | some f => .ok f
  | none =>
    match Flag.all.filter (fun f => option.toList.isPrefixOf f.long.toList) with
    | [f] => .ok f
    | [] => .error (.noSuchOption option)
    | fs => .error (.ambiguous option ((fs.map Flag.long).mergeSort fun a b => !(b < a)))

/-- The settings after one argument, and the flag that still needs a value, as it was written. -/
abbrev Partly := Settings × Option (Flag × String)

/-- A long option. A value may follow behind an equals sign. -/
def long (s : Settings) (arg : List Char) : Except Stop Partly := do
  let option := arg.takeWhile (· != '=')
  let f ← longFlag (String.ofList option)
  match arg.drop option.length with
  | [] => if f.takesValue then return (s, some (f, f.long)) else return (← s.mark f, none)
  | _ :: value =>
    if f.takesValue then return (s.withValue (String.ofList value) f, none)
    else throw (.takesNoValue f.long)

/-- Joined short options. The rest behind one that takes a value is its value. -/
def short (s : Settings) : List Char → Except Stop Partly
  | [] => .ok (s, none)
  | c :: cs => do
    match Flag.all.find? (fun f => f.short == c) with
    | none => throw (.noSuchOption (String.ofList ['-', c]))
    | some f =>
      if f.takesValue then
        if cs.isEmpty then return (s, some (f, String.ofList ['-', c]))
        else return (s.withValue (String.ofList cs) f, none)
      else (← s.mark f).short cs

/-- One argument that opens with a dash and holds more. -/
def option (s : Settings) (arg : String) : Except Stop Partly :=
  match arg.toList with
  | '-' :: '-' :: _ => s.long arg.toList
  | cs => s.short (cs.drop 1)

def isOption (arg : String) : Bool :=
  match arg.toList with
  | '-' :: _ :: _ => true
  | _ => false

/-- Reads options and arguments, which may be mixed; two dashes end the options. -/
def read (s : Settings) : List String → Except Stop (Settings × List String)
  | [] => .ok (s, [])
  | arg :: rest => do
    if arg = "--" then return (s, rest)
    else if isOption arg then
      match ← s.option arg with
      | (s, none) => s.read rest
      | (s, some (f, written)) =>
        match rest with
        | [] => throw (.needsValue written)
        | value :: rest => (s.withValue value f).read rest
    else
      let (s, args) ← s.read rest
      return (s, arg :: args)

end Settings
end Docblock.Install
