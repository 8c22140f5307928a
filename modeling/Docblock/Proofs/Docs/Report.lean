import Docblock.Proofs.Automaton.Progress
import Docblock.Proofs.Docs.Session
import Docblock.Proofs.Docs.Total

/-! What a directive leaves of a source that can be opened, after any commands before it. -/
namespace Docblock.Docs

open Token Grammar

variable {w : World} {path : String} {text : List Char}

/-- The errors of a source that are no syntax errors: a mode is left while none waits, a heredoc
ends without its label, or a token has no value. -/
def Escapes (s : Stream Filter) (e : ParseError) : Prop :=
  (∃ l, (l = .noMode ∨ l = .noLabel) ∧ e = .lexical l ∧ s.error? = some l) ∨
    ∃ fault, e = .fault fault ∧ ∃ t ∈ s.tokens, faultAs t t.kind = some fault

theorem syntaxMessage?_of_escapes {s : Stream Filter} {e : ParseError} (h : Escapes s e) :
    syntaxMessage? e = none := by
  obtain ⟨l, hl, rfl, -⟩ | ⟨fault, rfl, -⟩ := h
  · rcases hl with rfl | rfl <;> rfl
  · rfl

/-- A source that cannot be read has a syntax error, or else one of the errors that escape. -/
theorem parse_error_cases {f : Filter} {file : Option String} {e : ParseError}
    (h : (f.parse file text).1 = .error e) :
    (∃ m, syntaxMessage? e = some m) ∨ Escapes (f.input text).stream e := by
  obtain ⟨l, rfl, hl⟩ | ⟨t, -, rfl⟩ | rfl | ⟨fault, rfl, ht⟩ :=
    Automaton.parse_error (Prod.ext h rfl)
  · obtain ⟨n, -, hc⟩ := Lexer.calls_stream (f.input text).lexer
    have herr : (f.input text).lexer.stream.error? = some l :=
      (Filter.stream_lexer _).2 ▸ hl
    rw [herr] at hc
    obtain ⟨line, left, rfl⟩ | hl' := Lexer.calls_failed hc (Lexer.placed_input f.lexer text)
    · exact Or.inl ⟨_, rfl⟩
    · exact Or.inr (Or.inl ⟨l, hl', rfl, hl⟩)
  · exact Or.inl ⟨_, rfl⟩
  · exact Or.inl ⟨_, rfl⟩
  · exact Or.inr (Or.inr ⟨fault, rfl, ht⟩)

theorem World.pathExists_of_source {file : File} (h : w.source path = .ok (file, text)) :
    w.files.pathExists path = true := by
  obtain ⟨p, hp, -⟩ := ok_of_bind h
  cases hfind : w.files.find path with
  | error e =>
    rw [hfind] at hp
    cases hp
  | ok q =>
    obtain ⟨hresolve, hthere⟩ := Files.find_ok hfind
    rw [Files.pathExists, hresolve]
    exact hthere

theorem World.run_eq_document {r : Request} {filename : String}
    (ha : r.directive.arguments ≤ r.args.length) (hf : r.filename = some filename) :
    ∃ targets, w.run r = w.document r targets filename := by
  simp only [World.run, hf]
  split
  · rename_i hnone
    split at hnone
    · cases hnone
    · rename_i hzero
      cases hargs : r.args with
      | nil =>
        rw [hargs, List.length_nil] at ha
        exact absurd (Nat.le_zero.mp ha) hzero
      | cons a as => simp [hargs] at hnone
  · rename_i heq
    cases heq
  · rename_i heq
    cases heq
    exact ⟨_, rfl⟩

/-- What a directive leaves of the text of a source. -/
inductive Outcome (w : World) (r : Request) (path : String) (text : List Char) : Prop
  /-- Lines for the document, from the trees that were kept or that the text is read into. -/
  | lines (ls : List String) (h : w.files.sameTime path (keptPath path) = true ∨
        ∃ ts, ((Filter.fresh w.stack).parse none text).1 = .ok ts)
      (hr : (w.run r).1 = { lines := some ls, sources := [path] })
  /-- One warning, of a syntax error in the text. -/
  | warning (e : ParseError) (m : String) (h : w.files.sameTime path (keptPath path) = false)
      (he : ((Filter.fresh w.stack).parse none text).1 = .error e)
      (hesc : ¬ Escapes ((Filter.fresh w.stack).input text).stream e)
      (hm : syntaxMessage? e = some m)
      (hr : (w.run r).1 = { warning := some (.badSource path m, r.line) })
  /-- No result, for one of the errors that escape. -/
  | failure (e : ParseError) (h : w.files.sameTime path (keptPath path) = false)
      (he : ((Filter.fresh w.stack).parse none text).1 = .error e)
      (hesc : Escapes ((Filter.fresh w.stack).input text).stream e)
      (hr : (w.run r).1 = { failure := some (.parse e) })

/-- A directive with its arguments and the name of a source that can be opened fails only for one
of the errors that escape; it makes lines for the document or gives one warning else. -/
theorem run_outcome {r : Request} {filename : String} {file : File} (hw : Reached w)
    (ha : r.directive.arguments ≤ r.args.length) (hf : r.filename = some filename)
    (hp : path = String.ofList (Text.join "src".toList filename.toList))
    (hs : w.source path = .ok (file, text)) : Outcome w r path text := by
  subst hp
  obtain ⟨targets, hrun⟩ := World.run_eq_document (w := w) ha hf
  have hdoc := congrArg Prod.fst hrun
  simp only [World.document, World.pathExists_of_source hs] at hdoc
  have hparses := World.parse_parses hw.tidy
    (String.ofList (Text.join "src".toList filename.toList))
  generalize w.parse _ = res at hparses hdoc
  cases hparses with
  | kept ht hk hts =>
    obtain ⟨es, hes⟩ := entries_shaped r.directive r.options targets hts
    exact .lines (documentLines r es) (Or.inl ht) (by simpa [hes] using hdoc)
  | unopened ht he => cases hs.symm.trans he
  | @unread _ _ e g ht hs' hp =>
    cases hs.symm.trans hs'
    have he : ((Filter.fresh w.stack).parse none text).1 = .error e := by rw [hp]
    rcases parse_error_cases he with ⟨m, hm⟩ | hesc
    · refine .warning e m ht he (fun hesc => ?_) hm (by simpa [hm] using hdoc)
      rw [syntaxMessage?_of_escapes hesc] at hm
      cases hm
    · exact .failure e ht he hesc (by simpa [syntaxMessage?_of_escapes hesc] using hdoc)
  | @read _ _ ts g _ ht hs' hp =>
    cases hs.symm.trans hs'
    obtain ⟨es, hes⟩ := entries_shaped r.directive r.options targets (parse_shaped hp)
    exact .lines (documentLines r es) (Or.inr ⟨ts, by rw [hp]⟩) (by simpa [hes] using hdoc)

theorem World.exists_source_ok (h : (w.source path).toBool = true) :
    ∃ file text, w.source path = .ok (file, text) := by
  cases hs : w.source path with
  | error e => simp [hs, Except.toBool] at h
  | ok result => exact ⟨result.1, result.2, rfl⟩

/-- A directive for all of a module. -/
def moduleRequest (filename : String) : Request :=
  ⟨.allOfModule, [], some filename, ⟨true, true⟩, [], 1, "php"⟩

/-- A world with a source of the same name as one that has left a mode waiting. -/
def afterUnclosed : World :=
  let w := (World.initial.step (.write "a.php" "<?php \x7b".toUTF8.toList 1000)).2
  let w := (w.step (.run (moduleRequest "a.php"))).2
  (w.step (.write "b/a.php" "<?php class A \x7b \x7d".toUTF8.toList 1000)).2

theorem run_outcome_class :
    ∃ (file : File) (text : List Char), Reached afterUnclosed ∧
      afterUnclosed.source "src/b/a.php" = .ok (file, text) ∧
      Outcome afterUnclosed (moduleRequest "b/a.php") "src/b/a.php" text := by
  have hw : Reached afterUnclosed := by
    refine .step (.step (.step .initial ?_) trivial) ?_ <;>
      simp [Command.InSources, Files.splitPath]
  obtain ⟨file, text, hs⟩ := World.exists_source_ok
    (by decide +kernel : (afterUnclosed.source "src/b/a.php").toBool = true)
  exact ⟨file, text, hw, hs, run_outcome hw (by decide) rfl rfl hs⟩

/-- The error that escapes from a directive. -/
def Report.escaped? (r : Report) : Option (LexError ⊕ Fault) :=
  match r.failure with
  | some (.parse (.lexical l)) => some (.inl l)
  | some (.parse (.fault fault)) => some (.inr fault)
  | _ => none

/-- Every error that can escape does. -/
theorem run_escapes :
    (["<?php ]", "<?php <<<A\n\x7b$x[<<<B\nB\n]\x7d\nA\n;", "<?php 08;", "<?php \"\\xzz\";",
      "<?php \"é\";", "<?php \x7b __halt_compiler(); \x7d"].map fun text =>
        ((World.initial.step (.write "a.php" text.toUTF8.toList 1000)).2.run
          (moduleRequest "a.php")).1.escaped?) =
      [some (.inl .noMode), some (.inl .noLabel), some (.inr .badNumeral), some (.inr .badEscape),
        some (.inr .notAscii), some (.inr .haltInside)] := by
  decide +kernel

end Docblock.Docs
