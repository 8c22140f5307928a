import Docblock.Prompt
import Docblock.Proofs.Automaton.Ending
import Docblock.Proofs.History
import Docblock.Proofs.Token.Above

/-! Sources that are entered at the prompt line by line. A source that is not yet complete is read
again from its beginning, with what the reading before has left of the lexer. -/
namespace Docblock

open Token

namespace Automaton

open Grammar

variable {Reader : Type} {R : Reader → Reader → Prop} {file : Option String}
  {s s' : Stream Reader} {stack : List Frame} {fuel fuel' : Nat}

end Automaton

namespace Filter

variable {f g h : Filter} {base : List Mode} {file : Option String} {text : List Char}

/-- Whether two filters stand alike before a text: in one mode, with one label if heredoc text is
open, and at the end of a statement or not. The modes that wait may be others. -/
def Alike (f g : Filter) : Prop :=
  f.lexer.mode = g.lexer.mode ∧
    (f.lexer.mode = .heredoc → f.lexer.label = g.lexer.label) ∧
    (f.lexer.mode = .html ∨ endsStatement f.last = endsStatement g.last)

instance (f g : Filter) : Decidable (f.Alike g) := inferInstanceAs (Decidable (_ ∧ _ ∧ _))

theorem Alike.refl (f : Filter) : f.Alike f := ⟨rfl, fun _ => rfl, Or.inr rfl⟩

theorem Alike.symm (ha : f.Alike g) : g.Alike f :=
  ⟨ha.1.symm, fun hm => (ha.2.1 (ha.1.trans hm)).symm, ha.2.2.imp (ha.1.symm.trans ·) Eq.symm⟩

theorem Alike.trans (ha : f.Alike g) (hb : g.Alike h) : f.Alike h := by
  refine ⟨ha.1.trans hb.1, fun hm => (ha.2.1 hm).trans (hb.2.1 (ha.1.symm.trans hm)), ?_⟩
  obtain hm | he := ha.2.2
  · exact Or.inl hm
  · exact hb.2.2.imp ha.1.trans he.trans

/-- Whether a mode waits where the mode of the lexer rests on one. -/
def Based (f : Filter) : Prop := f.lexer.stack = [] → none ∈ f.lexer.mode.bases

end Filter

namespace Lexer

variable {l : Lexer} {c : Char} {cs text : List Char}

end Lexer

namespace Prompt

/-- The same is shown, and nothing more is read or the prompts stand alike. -/
inductive Same :
    List Event × Except ParseError Prompt → List Event × Except ParseError Prompt → Prop
  | error {shown : List Event} {e : ParseError} : Same (shown, .error e) (shown, .error e)
  | ok {shown : List Event} {q q' : Prompt} (hp : q.pending = q'.pending)
      (hf : q.filter.Alike q'.filter) : Same (shown, .ok q) (shown, .ok q')

variable {p q : Prompt} {lines : List String} {line last : String}

theorem Same.refl (r : List Event × Except ParseError Prompt) : Same r r := by
  obtain ⟨shown, e | q⟩ := r
  · exact .error
  · exact .ok rfl (.refl q.filter)

theorem Same.shown {r r' : List Event × Except ParseError Prompt} (h : Same r r') :
    r.1 = r'.1 := by
  cases h <;> rfl

end Prompt
end Docblock
