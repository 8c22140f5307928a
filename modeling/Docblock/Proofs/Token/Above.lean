import Docblock.Proofs.Labels

/-! Filters that differ in the modes that wait below and in what they remember from before a text,
and yet read the text alike. -/
namespace Docblock

open Token

/-- What two calls give: the same, unless the first misses a mode. The readers after them are
related. -/
inductive Scan.Alike {Reader : Type} (R : Reader → Reader → Prop) :
    Scan Reader → Scan Reader → Prop
  | token {t : Token} {r r' : Reader} (h : R r r') : Alike R (.token t r) (.token t r')
  | finished {r r' : Reader} (h : R r r') : Alike R (.finished r) (.finished r')
  | failed {e : LexError} {r r' : Reader} (h : R r r') : Alike R (.failed e r) (.failed e r')
  | missing {r : Reader} {s : Scan Reader} : Alike R (.failed .noMode r) s

/-- Streams that give the same tokens and come to the same end, unless the first of them misses a
mode. The readers that go with them are related. -/
inductive Stream.Alike {Reader : Type} (R : Reader → Reader → Prop) :
    Stream Reader → Stream Reader → Prop
  | finished {r r' : Reader} (h : R r r') : Alike R (.finished r) (.finished r')
  | failed {e : LexError} {r r' : Reader} (h : R r r') : Alike R (.failed e r) (.failed e r')
  | cons {t : Token} {r r' : Reader} {s s' : Stream Reader} (h : R r r') (hs : Alike R s s') :
      Alike R (.cons t r s) (.cons t r' s')
  | missing {r : Reader} {s' : Stream Reader} : Alike R (.failed .noMode r) s'

namespace Lexer

variable {l l' : Lexer} {t : Token} {base : List Mode} {cs : List Char}

end Lexer

namespace Filter

variable {f g : Filter} {base : List Mode} {cs : List Char}

end Filter

end Docblock
