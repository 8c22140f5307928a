import Docblock.Proofs.Source
import Mathlib.Data.List.Forall2

/-! What the modes that earlier readings left waiting can change in a later one. -/
namespace Docblock

open Token Grammar Docblock.Filter

variable {f g : Filter} {file : Option String} {text : List Char} {ts : List Tree}
  {stack : List Mode}

theorem error?_of_parse {e : LexError} (h : (f.parse file text).1 = .error (.lexical e)) :
    (f.input text).stream.error? = some e := by
  obtain ⟨l, he, hl⟩ | ⟨t, -, he⟩ | he | ⟨fault, he, -⟩ := Automaton.parse_error (Prod.ext h rfl)
  · cases he
    exact hl
  all_goals cases he

/-- Modes that wait below change what a text is read into only where a mode is missing. -/
theorem parse_onto (f : Filter) (file : Option String) (text : List Char) (base : List Mode)
    (h : (f.parse file text).1 ≠ .error (.lexical .noMode)) :
    ((f.onto base).parse file text).1 = (f.parse file text).1 := by
  have hinput : (f.onto base).input text = (f.input text).onto base := rfl
  simp only [Filter.parse, Stream.parse, hinput] at h ⊢
  obtain ⟨htokens, herror⟩ | ⟨herror, hprefix⟩ := stream_onto (f.input text) base
  · rw [htokens]
    exact Automaton.run_congr file _ [] htokens herror
  · refine Automaton.run_prefix hprefix herror ?_ h (parse_ne_broken f file text)
    have hlength := hprefix.length_le
    simp only [Automaton.enough]
    omega

/-- A source that can be read above some modes misses none of them, and leaves them waiting. -/
theorem parse_ok_above (h : (fresh stack).parse file text = (.ok ts, g)) :
    ((fresh []).input text).stream.error? = none ∧ g.lexer.stack = stack := by
  obtain ⟨he, rfl, d, hd, -⟩ := parse_ok h
  obtain ⟨g, l, hr, hn, hfinal⟩ := stream_reads he
  have hread : Reads (((fresh []).input text).onto stack) d.yield g := hd ▸ hr
  have hstart : Config.leads [(.code, [])] [.n .start] ((fresh []).input text).modes = true := rfl
  obtain ⟨f', hf', rfl, hm⟩ := d.reads_leads hread hstart
  obtain ⟨m, hm', rfl⟩ := Lexer.next_onto_finished hn
  have hstack : m.stack = [] := by
    rw [Lexer.next_finished hm']
    exact congrArg Prod.snd (List.mem_singleton.mp hm)
  constructor
  · rw [(reads_stream hf').2.1, stream_eq, hm']
    rfl
  · rw [hfinal]
    simp [Lexer.onto, hstack]

/-- A source that can be read above some modes is read into the same trees above none. -/
theorem parse_ok_alone (h : (fresh stack).parse file text = (.ok ts, g)) :
    ((fresh []).parse file text).1 = .ok ts := by
  have hmode : ((fresh []).parse file text).1 ≠ .error (.lexical .noMode) := by
    intro hmissing
    cases (parse_ok_above h).1.symm.trans (error?_of_parse hmissing)
  have halone : ((fresh stack).parse file text).1 = ((fresh []).parse file text).1 :=
    parse_onto (fresh []) file text stack hmode
  rw [← halone, h]

/-- What a text is read into above some modes is what it is read into above none, but for a text
that misses a mode. Such a text is not read above any modes, for one reason or another. -/
theorem parseWith_alone (stack : List Mode) (text : String) :
    (parseWith stack text).1 = (parseWith [] text).1 ∨
      (parseWith [] text).1 = .error (.lexical .noMode) ∧
        ∃ e, (parseWith stack text).1 = .error e := by
  by_cases h : (parseWith [] text).1 = .error (.lexical .noMode)
  · cases hs : (parseWith stack text).1 with
    | error e => exact Or.inr ⟨h, e, rfl⟩
    | ok ts =>
      obtain ⟨herror, -⟩ := parse_ok_above (Prod.ext hs rfl)
      cases herror.symm.trans (error?_of_parse h)
  · exact Or.inl (parse_onto (fresh []) none text.toList stack h)

/-- A text that can be read by itself leaves nothing behind. -/
theorem parseWith_leaves {text : String} (h : (parseWith [] text).1.toBool = true) :
    (parseWith [] text).2 = [] := by
  obtain ⟨ts, g, hp⟩ := exists_parse_ok (fresh []) none text.toList h
  have hs : (parseWith [] text).2 = g.lexer.stack := by simp [parseWith, hp]
  rw [hs, (parse_ok_above hp).2]

/-- Texts that are read in turn give what each gives by itself, but for a text that misses a mode
by itself: that one gives an error again, not always the same. While every text can be read, none
of this shows, and the first that cannot be read gives its own error. -/
theorem parseInTurn_alone (stack : List Mode) (texts : List String) :
    List.Forall₂ (fun text step => step.1 = (parseWith [] text).1 ∨
        (parseWith [] text).1 = .error (.lexical .noMode) ∧ ∃ e, step.1 = .error e)
      texts (parseInTurn stack texts) ∧
    ((∀ text ∈ texts.dropLast, (parseWith [] text).1.toBool = true) →
      parseInTurn [] texts = texts.map (parseWith [])) := by
  constructor
  · induction texts generalizing stack with
    | nil => exact .nil
    | cons text texts ih => exact .cons (parseWith_alone stack text) (ih _)
  · intro hok
    induction texts with
    | nil => rfl
    | cons text texts ih =>
      cases texts with
      | nil => rfl
      | cons next texts =>
        rw [List.dropLast_cons_cons, List.forall_mem_cons] at hok
        rw [parseInTurn, parseWith_leaves hok.1, ih hok.2]
        rfl

/-- The reason for which the lexer stopped a reading. -/
def lexical? : Except ParseError (List Tree) → Option LexError
  | .error (.lexical e) => some e
  | _ => none

/-- A brace that closes nothing closes the one that an earlier text left open. -/
theorem parseInTurn_remembers :
    ¬ ∀ texts, (parseInTurn [] texts).map Prod.fst =
      texts.map fun text => (parseWith [] text).1 := by
  intro h
  have hlex := congrArg (List.map lexical?) (h ["<?php function f() \x7b", "<?php \x7d"])
  revert hlex
  decide

end Docblock
