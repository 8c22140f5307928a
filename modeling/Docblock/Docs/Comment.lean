import Docblock.Text.Part

/-! Comments that document what follows them. -/
namespace Docblock.Docs

/-- A documenting comment opens with two stars. -/
def isDoc (text : List Char) : Bool := ['/', '*', '*'].isPrefixOf text

/-- Whether a text opens with the mark of private code. White space divides its two words. -/
def opensPrivate (text : List Char) : Bool :=
  let mark := "@access".toList
  let rest := text.drop mark.length
  mark.isPrefixOf text && rest.head?.any Text.isBlank &&
    "private".toList.isPrefixOf (Text.stripLeft rest)

/-- Whether the mark of private code stands anywhere in a text. -/
def marksPrivate : List Char → Bool
  | [] => false
  | c :: cs => opensPrivate (c :: cs) || marksPrivate cs

/-- A documenting comment that marks what follows it as private. -/
def isPrivate (text : List Char) : Bool := isDoc text && marksPrivate text

/-- The rest behind one more of a character, if it stands next. -/
def skip (c : Char) : List Char → List Char
  | [] => []
  | d :: cs => if c = d then cs else d :: cs

/-- The rest of a line behind white space, a slash or none, a star or two, and a space or none.
Only the star is needed. -/
def afterStars? (line : List Char) : Option (List Char) :=
  match skip '/' (Text.stripLeft line) with
  | '*' :: rest => some (skip ' ' (skip '*' rest))
  | _ => none

/-- What stands before the first end of a comment. -/
def beforeEnd? : List Char → Option (List Char)
  | [] => none
  | '*' :: '/' :: _ => some []
  | c :: cs => (beforeEnd? cs).map (c :: ·)

/-- A line without the end of the comment, what follows it, and the white space before it. -/
def withoutEnd (line : List Char) : List Char :=
  match beforeEnd? line with
  | some head => Text.stripRight head
  | none => line

/-- The text of a line of a comment; a line without a star has none. -/
def lineText? (line : List Char) : Option (List Char) :=
  match afterStars? line with
  | none => none
  | some _ =>
    let bare := withoutEnd line
    some ((afterStars? bare).getD bare)

/-- The lines of text that a comment holds, without empty ones at either end. -/
def commentLines (text : List Char) : List (List Char) :=
  Text.splitLines (Text.strip (['\n'].intercalate ((Text.splitLines text).filterMap lineText?)))

end Docblock.Docs
