import Docblock.Text.Character

/-! Parts of a text: without the white space around it, its lines, what stands between its commas,
and the folder, the last part and the extension of a path. -/
namespace Docblock.Text

def stripLeft (cs : List Char) : List Char := cs.dropWhile isBlank

def stripRight (cs : List Char) : List Char := (cs.reverse.dropWhile isBlank).reverse

/-- The text without the white space around it. -/
def strip (cs : List Char) : List Char := stripRight (stripLeft cs)

/-- The lines of a text that goes on from a line holding `line` so far, reversed. -/
def splitLinesFrom (line : List Char) : List Char → List (List Char)
  | [] => if line.isEmpty then [] else [line.reverse]
  | '\r' :: '\n' :: rest => line.reverse :: splitLinesFrom [] rest
  | c :: rest =>
    if isBreak c then line.reverse :: splitLinesFrom [] rest else splitLinesFrom (c :: line) rest

/-- The lines of a text without their breaks. A return and a line feed together are one break,
and a break at the end starts no further line. -/
def splitLines (cs : List Char) : List (List Char) := splitLinesFrom [] cs

/-- The parts of a text between commas, after a part that holds `part` so far, reversed. -/
def splitCommasFrom (part : List Char) : List Char → List (List Char)
  | [] => [part.reverse]
  | c :: rest =>
    if c = ',' then part.reverse :: splitCommasFrom [] rest else splitCommasFrom (c :: part) rest

def splitCommas (cs : List Char) : List (List Char) := splitCommasFrom [] cs

/-- The part after the last slash. -/
def lastPart (path : List Char) : List Char := (path.reverse.takeWhile (· != '/')).reverse

/-- The part up to the last slash, without slashes at its end unless it has nothing else. -/
def folder (path : List Char) : List Char :=
  let head := (path.reverse.dropWhile (· != '/'))
  let bare := head.dropWhile (· == '/')
  if bare.isEmpty then head.reverse else bare.reverse

/-- A name without its extension: what stands before its last dot, if the name has more than
dots before it. -/
def withoutExtension (name : List Char) : List Char :=
  let ext := name.reverse.takeWhile (· != '.')
  match name.reverse.drop ext.length with
  | [] => name
  | _ :: before => if before.all (· == '.') then name else before.reverse

/-- A path under a folder; an absolute path stands alone. -/
def join (base path : List Char) : List Char :=
  match path with
  | '/' :: _ => path
  | _ => if base.isEmpty || base.getLast? == some '/' then base ++ path else base ++ '/' :: path

end Docblock.Text
