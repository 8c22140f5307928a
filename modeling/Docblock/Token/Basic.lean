import Docblock.Token.Kind

/-! Tokens, the modes in which text is read, and the ways in which reading fails. -/
namespace Docblock

/-- A token with its text, and the line and the position at which it starts. -/
structure Token where
  kind : Token.Kind
  text : String
  line : Int
  pos : Int
  deriving DecidableEq

namespace Token

/-- What kind of text is being read: plain text, code, or a part of interpolated text. -/
inductive Mode where
  | html | code | quoted | quotedVar | varName | offset | property | heredoc | heredocVar
  deriving DecidableEq

/-- The name of a mode in listings. -/
def Mode.name : Mode → String
  | .html => "INITIAL"
  | .code => "php"
  | .quoted => "quoted"
  | .quotedVar => "quotedvar"
  | .varName => "varname"
  | .offset => "offset"
  | .property => "property"
  | .heredoc => "heredoc"
  | .heredocVar => "heredocvar"

/-- Why no token can be read. -/
inductive LexError where
  /-- No rule of the mode applies; `text` is what is left to read. -/
  | illegal (line : Int) (text : String)
  /-- A mode is left while no mode is waiting. -/
  | noMode
  /-- A heredoc text ends and its label is not known. -/
  | noLabel
  /-- A position before the start of the text. -/
  | outOfRange
  /-- A position before the start where no text was given. -/
  | noText
  /-- Nothing was given to read. -/
  | noInput
  deriving DecidableEq

end Token
end Docblock
