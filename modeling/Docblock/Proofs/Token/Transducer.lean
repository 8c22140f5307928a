import Docblock.Proofs.Token.Filter
import Docblock.Token.Session

/-! A filter hands on what a machine with one memory makes of the tokens of its lexer. -/
namespace Docblock

open Token

namespace Token.Session

variable {s s' : Session} {f : Filter} {ts us : List Token} {e e' : Option LexError}

/-- The calls for a token up to the first that gives none: the tokens, the error of the last call
if it fails, and the session after it. -/
inductive Calls : Session → List Token → Option LexError → Session → Prop
  | finished {s s' : Session} (h : s.step .token = (.nothing, s')) : Calls s [] none s'
  | failed {s s' : Session} {e : LexError} (h : s.step .token = (.error e, s')) :
      Calls s [] (some e) s'
  | token {s s' s'' : Session} {t : Token} {ts : List Token} {e : Option LexError}
      (h : s.step .token = (.token t, s')) (hc : Calls s' ts e s'') : Calls s (t :: ts) e s''

end Token.Session
end Docblock
