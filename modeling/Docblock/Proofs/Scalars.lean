import Docblock.Proofs.Automaton.Literals
import Docblock.Proofs.Token.Name

/-! Sources of one statement, which is a literal of one token. -/
namespace Docblock

open Token Grammar Automaton.Fragment

/-- The source of a statement that is a literal. -/
def literalSource (cs : List Char) : List Char := "<?php ".toList ++ (cs ++ [';'])

/-- The tokens of such a source, if the literal is one token of some kind. -/
def literalWords (k : Kind) (cs : List Char) : List (Kind × String) :=
  [(.openTag, "<?php "), (k, String.ofList cs), (.semi, ";")]

variable {cs text : List Char} {k : Kind} {file : Option String} {x : Except Fault Tree}
  {t s : Token}

namespace Lexer

/-- The text is read as these tokens, up to its end. -/
def ReadAs (text : List Char) (ws : List (Kind × String)) : Prop :=
  (initial.input text).stream.tokens.map Token.word = ws ∧
    (initial.input text).stream.error? = none

/-- In code, before a semicolon, the text is one token of some kind that changes no mode. -/
def Single (k : Kind) (cs : List Char) : Prop :=
  ∃ r, firstMatch Mode.code.rules (some ' ') (cs ++ [';']) = some (r, cs.length) ∧
    r.kind cs = k ∧ r.effect = .stay

theorem View.calls_literal (h : Single k cs) :
    ∃ v : View, Calls (ofText (literalSource cs)) (literalWords k cs) v ∧ v.rest = [] := by
  obtain ⟨r, hm, rfl, he⟩ := h
  have hnext : next ⟨.code, [], none, some ' ', cs ++ [';']⟩ = some ((r.kind cs, String.ofList cs),
      ⟨.code, [], none, cs.getLast?.or (some ' '), [';']⟩) := by
    refine next_taken cs hm ?_
    rw [he]
    rfl
  exact ⟨_, .token (next_openTag _) (.token hnext (.token next_semi (.refl _))), rfl⟩

end Lexer

/-- A literal makes a statement. -/
theorem gives_literal (h : Automaton.literals.Gives file .commonScalar [t] x)
    (hs : s.kind = .semi) : Automaton.literals.Gives file .topStatements [t, s] (x.map ([·])) := by
  have hscalar : Automaton.literals.Gives file .scalar [t] x := by
    have hd := h.lift (v := .scalar) 321 (by decide) rfl
    cases x <;> exact hd
  exact gives_source (gives_expression (gives_scalar hscalar) hs)

/-- A literal of one token is read as that token, and into its value. -/
theorem parse_literal (h : Lexer.Single k cs) (hk : k ∉ Lexer.View.blanks ++ Lexer.View.tags)
    (hx : ∀ t, t.word = (k, String.ofList cs) →
      Automaton.literals.Gives file .commonScalar [t] x) :
    Lexer.ReadAs (literalSource cs) (literalWords k cs) ∧
      ((Filter.fresh []).parse file (literalSource cs)).1 = outcome (x.map ([·])) := by
  obtain ⟨v, hcalls, hv⟩ := Lexer.View.calls_literal h
  refine ⟨hcalls.stream (Lexer.inside_input _ _) hv, ?_⟩
  obtain ⟨hblank, htag⟩ := not_or.mp (mt List.mem_append.mpr hk)
  have htags : ∀ w ∈ literalWords k cs, w.1 ∉ Lexer.View.tags := by
    simp only [literalWords, List.forall_mem_cons]
    exact ⟨by decide, htag, by decide, by simp⟩
  have hwords : (literalWords k cs).filter (·.1 ∉ Lexer.View.blanks) =
      [(k, String.ofList cs), (.semi, ";")] := by
    simpa [literalWords, Lexer.View.blanks] using hblank
  have hreads := hcalls.reads htags
  rw [hwords] at hreads
  obtain ⟨ts, hts, hparse⟩ := parse_view hreads hv
  simp only [List.map_eq_cons_iff, List.map_eq_nil_iff] at hts
  obtain ⟨t, -, rfl, ht, s, -, rfl, hs, rfl⟩ := hts
  exact hparse file _ (gives_literal (hx t ht) (congrArg Prod.fst hs))

end Docblock
