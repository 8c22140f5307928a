import Docblock.Proofs.Automaton.Append

/-! Reductions before one and the same token come to an end, and so does every run. -/
namespace Docblock.Automaton

open Token Grammar

variable {Reader : Type} {file : Option String} {stack stack' : List Frame}
  {s s' u u' : Stream Reader} {read : List Token} {k n m : Nat}

/-- Reductions one after the other before the rest of a stream, which they leave as it is. -/
inductive Reductions (file : Option String) (u : Stream Reader) :
    Nat → List Frame → List Frame → Prop
  | refl {stack : List Frame} : Reductions file u 0 stack stack
  | step {n p : Nat} {stack stack' stack'' : List Frame} (h : Reductions file u n stack stack')
      (ha : actionBefore (stateOf stack') u = .reduce p) (hr : reduce file p stack' = .ok stack'') :
      Reductions file u (n + 1) stack stack''

/-- Whether the token that the rest of a stream starts with is shifted. -/
def Shifts (stack : List Frame) (u : Stream Reader) : Prop :=
  ∃ t r rest q, u = .cons t r rest ∧ actionAt (stateOf stack) t.kind = .shift q

/-- Reductions read nothing, and each of them adds one production. -/
theorem reductions_built (h : Reductions file u n stack stack') (hb : Built file 0 stack read m) :
    Built file 0 stack' read (m + n) := by
  induction h with
  | refl => exact hb
  | step _ _ hr ih => exact reduce_built (ih hb) hr

/-- Steps are reductions until a token is shifted. -/
theorem reductions_of_steps (h : Steps file n stack u stack' u') :
    ∃ m stack'', Reductions file u m stack stack'' ∧
      (stack'' = stack' ∧ u' = u ∨ Shifts stack'' u) := by
  induction h with
  | refl => exact ⟨0, _, .refl, Or.inl ⟨rfl, rfl⟩⟩
  | step _ hs ih =>
    obtain ⟨m, stack'', hm, ⟨rfl, rfl⟩ | hshift⟩ := ih
    · cases hs with
      | shift h => exact ⟨m, _, hm, Or.inr ⟨_, _, _, _, rfl, h⟩⟩
      | reduce h hr => exact ⟨m + 1, _, hm.step h hr, Or.inl ⟨rfl, rfl⟩⟩
    · exact ⟨m, stack'', hm, Or.inr hshift⟩

/-- From a stack that steps have built, further steps lead to an end. -/
theorem exists_stop (fuel : Nat) (hb : Built file 0 stack read m)
    (hf : 22 * (read ++ u.tokens).length + 9 < read.length + m + fuel) :
    ∃ n stack' u' out, Steps file n stack u stack' u' ∧ Stop file stack' u' out := by
  induction fuel generalizing stack read m u with
  | zero =>
    obtain ⟨j, -, -, hle⟩ := built_bound hb
    rw [List.length_append] at hf
    omega
  | succ fuel ih =>
    obtain ⟨stack', u', hs, -⟩ | hstop := run_succ file 0 stack u
    · obtain ⟨read', m', hb', hread, -, -, hcount⟩ := step_built hs hb
      obtain ⟨n, stack'', u'', out, hsteps, hstop⟩ := ih hb' (by rw [hread]; omega)
      exact ⟨1 + n, stack'', u'', out, (Steps.refl.step hs).trans hsteps, hstop⟩
    · exact ⟨0, stack, u, _, .refl, hstop⟩

theorem run_stop {out : Except ParseError (List Tree) × Reader} (fuel : Nat)
    (h : Stop file stack u out) : run file (fuel + 1) stack u = out := by
  cases h with
  | lexical => rfl
  | accept h | early h | reject h => simp only [run, h]
  | unreduced h hr =>
    cases u with
    | failed => cases h
    | finished r =>
      rw [actionBefore] at h
      simp only [run, h, hr, asked]
    | cons t r rest =>
      rw [actionBefore] at h
      simp only [run, h, hr, asked]

/-- A run that started with an empty stack ends with a result or an error of its own. -/
theorem stop_ne_broken {out : Except ParseError (List Tree) × Reader}
    (hb : Built file 0 stack read m) (h : Stop file stack u out) : out.1 ≠ .error .broken := by
  cases h with
  | accept ha =>
    obtain ⟨ts, hts⟩ := result_built_ok hb ha
    rw [hts]
    intro he
    cases he
  | unreduced ha hr =>
    obtain ⟨f, rfl, -⟩ := reduce_built_error hb ha hr
    intro he
    cases he
  | lexical | early | reject =>
    intro he
    cases he

/-- The steps from any stack on are bounded by the tokens read and the tokens left. -/
theorem steps_le (h : Steps file n stack u stack' u') (hb : Built file 0 stack read m) :
    n ≤ 22 * (read.length + u.tokens.length) + 9 := by
  obtain ⟨read', m', hb', hread, hcount⟩ := steps_built h hb
  obtain ⟨j, -, -, hle⟩ := built_bound hb'
  have hlen := congrArg List.length hread
  simp only [List.length_append] at hlen
  omega

/-- Reductions never go on forever. From a stack that a run can reach by reading `s` up to `s'`,
and before any rest of a stream: there are only so many reductions in a row; they lead to a stack
on which the next token is shifted or the run ends; and the run from there on comes to an end,
whatever number of steps beyond those it is given. -/
theorem reductions_end (h : Steps file k [] s stack s') (u : Stream Reader) :
    (∀ n stack', Reductions file u n stack stack' →
      n + 21 * s'.tokens.length ≤ 21 * s.tokens.length + 9) ∧
    (∃ n stack', Reductions file u n stack stack' ∧
      (Shifts stack' u ∨ ∃ out, Stop file stack' u out)) ∧
    ∃ n stack' u' out, Steps file n stack u stack' u' ∧ Stop file stack' u' out ∧
      out.1 ≠ .error .broken ∧
      n + 22 * s'.tokens.length ≤ 22 * (s.tokens.length + u.tokens.length) + 9 ∧
      (∀ fuel, n < fuel → run file fuel stack u = out) ∧ (stack = [] → u.parse file = out) := by
  obtain ⟨read, m, hb, hread, -⟩ := steps_built h .nil
  have hlen := congrArg List.length hread
  simp only [List.length_append, List.length_nil] at hlen
  obtain ⟨n, stack', u', out, hsteps, hstop⟩ :=
    exists_stop (u := u) (22 * (read ++ u.tokens).length + 10) hb (by omega)
  have hrun : ∀ fuel, n < fuel → run file fuel stack u = out := by
    intro fuel hfuel
    obtain ⟨rest, rfl⟩ := Nat.exists_eq_add_of_lt hfuel
    rw [Nat.add_assoc, run_steps (rest + 1) hsteps, run_stop rest hstop]
  refine ⟨?_, ?_, n, stack', u', out, hsteps, hstop, ?_, ?_, hrun, ?_⟩
  · intro n stack' hn
    obtain ⟨j, -, -, hle⟩ := built_bound (reductions_built hn hb)
    omega
  · obtain ⟨m, stack'', hm, ⟨rfl, rfl⟩ | hshift⟩ := reductions_of_steps hsteps
    · exact ⟨m, stack'', hm, Or.inr ⟨out, hstop⟩⟩
    · exact ⟨m, stack'', hm, Or.inl hshift⟩
  · obtain ⟨read', m', hb', -⟩ := steps_built hsteps hb
    exact stop_ne_broken hb' hstop
  · have hle := steps_le hsteps hb
    omega
  · rintro rfl
    have hle := steps_bound hsteps
    exact hrun _ (by omega)

/-- The tokens of a list with gaps in it, then those of the next source. -/
theorem reductions_end_list :
    ∃ k stack g, Steps none k [] (streamOf "<?php list(, $a) = 1;") stack (.finished g) ∧
      (∀ n stack', Reductions none (streamOf "<?php f();") n stack stack' → n ≤ 177) ∧
      ∃ n out, ∀ fuel, n < fuel → run none fuel stack (streamOf "<?php f();") = out := by
  obtain ⟨ts, g, h⟩ := exists_parse_ok (Filter.fresh []) none "<?php list(, $a) = 1;".toList
    (by rw [String.toList_ofList]; decide +kernel)
  obtain ⟨k, stack, hsteps, -, -⟩ := steps_of_run (s := streamOf "<?php list(, $a) = 1;") h
  have hlen : (streamOf "<?php list(, $a) = 1;").tokens.length = 8 := by
    rw [streamOf, String.toList_ofList]
    decide +kernel
  obtain ⟨hbound, -, n, -, -, out, -, -, -, -, hrun, -⟩ :=
    reductions_end hsteps (streamOf "<?php f();")
  refine ⟨k, stack, g, hsteps, fun n stack' hn => ?_, n, out, hrun⟩
  have hle := hbound n stack' hn
  rw [hlen] at hle
  exact hle

end Docblock.Automaton
