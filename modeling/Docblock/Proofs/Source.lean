import Docblock.Proofs.Automaton.Progress
import Docblock.Proofs.Grammar.Balance
import Docblock.Source

/-! What a source that can be read says about its text, and about the modes around it. -/
namespace Docblock

open Token Grammar Docblock.Filter

variable {f g : Filter} {file : Option String} {text : List Char} {ts : List Tree}

/-- A lexer that meets no error reads the whole text. -/
theorem Lexer.spelled_stream {l : Lexer} (h : (l.input text).stream.error? = none) :
    spelled (l.input text).stream.tokens = text := by
  obtain ⟨n, -, hc⟩ := calls_stream (l.input text)
  obtain ⟨-, -, rest, hcut, hend, -⟩ := calls_placed hc (placed_input l text)
  rw [hend h, List.append_nil] at hcut
  exact hcut

theorem parse_ok (h : f.parse file text = (.ok ts, g)) :
    (f.input text).stream.error? = none ∧ g = (f.input text).stream.final ∧
      ∃ d : Derivation .start, d.yield = (f.input text).stream.tokens ∧ d.result file = .ok ts :=
  Automaton.run_ok .nil h

theorem exists_parse_ok (f : Filter) (file : Option String) (text : List Char)
    (h : (f.parse file text).1.toBool = true) :
    ∃ ts g, f.parse file text = (.ok ts, g) := by
  cases hp : f.parse file text with
  | mk result g =>
    cases result with
    | error e => simp [hp, Except.toBool] at h
    | ok ts => exact ⟨ts, g, rfl⟩

theorem exists_parse_any (f : Filter) (file : Option String) (text : List Char)
    {p : List Tree → Bool} (h : (f.parse file text).1.toOption.any p = true) :
    ∃ ts g, f.parse file text = (.ok ts, g) ∧ p ts = true := by
  cases hp : f.parse file text with
  | mk result g =>
    rw [hp] at h
    cases result with
    | error e => cases h
    | ok ts => exact ⟨ts, g, rfl, h⟩

/-- The symbols of a production are on the stack whenever it is reduced, and a state waits for the
symbol that takes their place: no reading of a source comes to an end because one does not. -/
theorem parse_ne_broken (f : Filter) (file : Option String) (text : List Char) :
    (f.parse file text).1 ≠ .error .broken := by
  intro h
  obtain ⟨l, he, -⟩ | ⟨t, -, he⟩ | he | ⟨fault, he, -⟩ := Automaton.parse_error (Prod.ext h rfl)
  all_goals cases he

/-- The trees of a source are the value of a derivation whose leaves are the tokens of all of its
text, without those that the filter leaves out. -/
theorem parse_derives (h : f.parse file text = (.ok ts, g)) :
    Lexer.spelled (f.input text).lexer.stream.tokens = text ∧
      ∃ d : Derivation .start, d.yield = (f.input text).stream.tokens ∧ d.result file = .ok ts := by
  obtain ⟨he, -, hd⟩ := parse_ok h
  rw [(stream_lexer _).2] at he
  exact ⟨Lexer.spelled_stream he, hd⟩

theorem parse_derives_property :
    ∃ ts g, (fresh []).parse none "a<?= $x->y[1] ?>b".toList = (.ok ts, g) ∧
      Lexer.spelled ((fresh []).input "a<?= $x->y[1] ?>b".toList).lexer.stream.tokens =
        "a<?= $x->y[1] ?>b".toList ∧
      ∃ d : Derivation .start,
        d.yield = ((fresh []).input "a<?= $x->y[1] ?>b".toList).stream.tokens ∧
          d.result none = .ok ts := by
  obtain ⟨ts, g, h⟩ :=
    exists_parse_ok (fresh []) none "a<?= $x->y[1] ?>b".toList
    (by rw [String.toList_ofList]; decide +kernel)
  exact ⟨ts, g, h, parse_derives h⟩

/-- A source that can be read leaves the modes that waited before it as they were, ends in plain
text or in code, and is read into the same trees when no mode waits. -/
theorem parse_restores {stack : List Mode} (h : (fresh stack).parse file text = (.ok ts, g)) :
    g.lexer.stack = stack ∧ (g.lexer.mode = .html ∨ g.lexer.mode = .code) ∧
      ((fresh []).parse file text).1 = .ok ts := by
  obtain ⟨he, rfl, d, hd, -⟩ := parse_ok h
  obtain ⟨g, l, hr, hn, hfinal⟩ := stream_reads he
  have hread : Reads (((fresh []).input text).onto stack) d.yield g := hd ▸ hr
  have hstart : Config.leads [(.code, [])] [.n .start] ((fresh []).input text).modes = true := rfl
  obtain ⟨f', hf', rfl, hm⟩ := d.reads_leads hread hstart
  obtain ⟨m, hm', rfl⟩ := Lexer.next_onto_finished hn
  have hmodes : f'.modes = (.code, []) := List.mem_singleton.mp hm
  have hstack : m.stack = [] := by
    rw [Lexer.next_finished hm']
    exact congrArg Prod.snd hmodes
  have hmode : m.mode.settled = .code := by
    rw [Lexer.next_finished hm']
    exact congrArg Prod.fst hmodes
  rw [hfinal]
  refine ⟨by simp [Lexer.onto, hstack], ?_, ?_⟩
  · change m.mode = .html ∨ m.mode = .code
    cases hmm : m.mode <;> simp_all [Mode.settled]
  · obtain ⟨htokens, herror, -⟩ := reads_stream hf'
    have hend : f'.stream = .finished ⟨m, none⟩ := by rw [stream_eq, hm']
    rw [hend] at htokens herror
    have hsame : ((fresh []).input text).stream.tokens =
        ((fresh stack).input text).stream.tokens := by
      rw [htokens, ← hd]
      simp [Stream.tokens]
    have hrun := Automaton.run_congr file
      (Automaton.enough ((fresh stack).input text).stream.tokens.length) [] hsame
      (herror.trans he.symm)
    simp only [Filter.parse, Stream.parse] at h ⊢
    rw [hsame, hrun, h]

theorem parse_restores_interpolation :
    ∃ ts g, (fresh [.quoted, .code]).parse none
        "<?php function f() \x7b return \"a$b[0] $\x7bc\x7d\"; \x7d".toList = (.ok ts, g) ∧
      g.lexer.stack = [.quoted, .code] ∧ (g.lexer.mode = .html ∨ g.lexer.mode = .code) ∧
      ((fresh []).parse none
        "<?php function f() \x7b return \"a$b[0] $\x7bc\x7d\"; \x7d".toList).1 = .ok ts := by
  obtain ⟨ts, g, h⟩ := exists_parse_ok (fresh [.quoted, .code]) none
    "<?php function f() \x7b return \"a$b[0] $\x7bc\x7d\"; \x7d".toList
    (by rw [String.toList_ofList]; decide +kernel)
  exact ⟨ts, g, h, parse_restores h⟩

end Docblock
