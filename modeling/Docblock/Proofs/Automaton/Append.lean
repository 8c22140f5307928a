import Docblock.Proofs.Automaton.Numbers
import Docblock.Proofs.Automaton.Progress
import Docblock.Proofs.Source

/-! Sources one after another: the statements of the second follow those of the first. -/
namespace Docblock

open Token Grammar

variable {Reader : Type}

/-- The tokens of one stream, and those of another where it finishes. -/
def Stream.append : Stream Reader → Stream Reader → Stream Reader
  | .finished _, u => u
  | .failed e r, _ => .failed e r
  | .cons t r rest, u => .cons t r (rest.append u)

theorem Stream.tokens_append {s : Stream Reader} (u : Stream Reader) (h : s.error? = none) :
    (s.append u).tokens = s.tokens ++ u.tokens := by
  induction s with
  | finished => rfl
  | failed => cases h
  | cons t r rest ih => rw [append, tokens, tokens, ih h, List.cons_append]

namespace Automaton

variable {file : Option String} {stack stack' below : List Frame} {s s' u : Stream Reader}
  {read : List Token} {ts us : List Tree} {n m k p q : Nat}

/-- A number of steps, one after another. -/
inductive Steps (file : Option String) :
    Nat → List Frame → Stream Reader → List Frame → Stream Reader → Prop
  | refl {stack : List Frame} {s : Stream Reader} : Steps file 0 stack s stack s
  | step {n : Nat} {stack stack' stack'' : List Frame} {s s' s'' : Stream Reader}
      (h : Steps file n stack s stack' s') (hs : Step file stack' s' stack'' s'') :
      Steps file (n + 1) stack s stack'' s''

theorem Steps.trans {stack'' : List Frame} {s'' : Stream Reader}
    (h : Steps file n stack s stack' s') (h' : Steps file m stack' s' stack'' s'') :
    Steps file (n + m) stack s stack'' s'' := by
  induction h' with
  | refl => exact h
  | step _ hs ih => exact .step (ih h) hs

theorem run_step (fuel : Nat) (h : Step file stack s stack' s') :
    run file (fuel + 1) stack s = run file fuel stack' s' := by
  cases h with
  | shift h => simp only [run, h]
  | reduce h hr =>
    cases s with
    | failed => cases h
    | finished r =>
      rw [actionBefore] at h
      simp only [run, h, hr]
    | cons t r rest =>
      rw [actionBefore] at h
      simp only [run, h, hr]

theorem run_steps (fuel : Nat) (h : Steps file n stack s stack' s') :
    run file (n + fuel) stack s = run file fuel stack' s' := by
  induction h generalizing fuel with
  | refl => rw [Nat.zero_add]
  | step _ hs ih => rw [Nat.add_right_comm, Nat.add_assoc, ih, run_step fuel hs]

/-- A run that accepts takes steps to a stack that is accepted. -/
theorem steps_of_run {fuel : Nat} {r : Reader} (h : run file fuel stack s = (.ok ts, r)) :
    ∃ n stack', Steps file n stack s stack' (.finished r) ∧
      actionAtEnd (stateOf stack') = .accept ∧ result stack' = .ok ts := by
  induction fuel generalizing stack s with
  | zero => cases s <;> cases h
  | succ fuel ih =>
    obtain ⟨stack', s', hs, he⟩ | hstop := run_succ file fuel stack s
    · obtain ⟨n, stack'', hn, ha, hr⟩ := ih (he ▸ h)
      exact ⟨_, stack'', (Steps.refl.step hs).trans hn, ha, hr⟩
    · rw [h] at hstop
      generalize hres : ((Except.ok ts : Except ParseError (List Tree)), r) = res at hstop
      cases hstop with
      | accept ha =>
        obtain ⟨hr, rfl⟩ := Prod.mk.inj hres
        exact ⟨0, stack, .refl, ha, hr.symm⟩
      | lexical | early | reject | unreduced => cases hres

theorem steps_built (h : Steps file k stack s stack' s') (hb : Built file 0 stack read n) :
    ∃ read' n', Built file 0 stack' read' n' ∧ read' ++ s'.tokens = read ++ s.tokens ∧
      read'.length + n' = read.length + n + k := by
  induction h with
  | refl => exact ⟨read, n, hb, rfl, rfl⟩
  | step _ hs ih =>
    obtain ⟨read', n', hb', hread, hcount⟩ := ih hb
    obtain ⟨read'', n'', hb'', hread', -, -, hcount'⟩ := step_built hs hb'
    exact ⟨read'', n'', hb'', hread'.trans hread, by omega⟩

/-- From the start on, the steps of a source are fewer than it is given. -/
theorem steps_bound (h : Steps file k [] s stack' s') : k + 2 ≤ enough s.tokens.length := by
  obtain ⟨read, n, hb, hread, hcount⟩ := steps_built h .nil
  obtain ⟨j, -, -, hle⟩ := built_bound hb
  have hlen := congrArg List.length hread
  simp only [List.length_append, List.length_nil] at hlen hcount
  rw [enough]
  omega

/-- The statements that have been read, at the bottom of the stack. -/
def gathered (ts : List Tree) : Frame := ⟨gathering, .n .topStatements, ts⟩

/-- A production that fails a check that all but the first `d` pass is one of those. -/
theorem lt_of_dropped (check : Production → Bool) {d : Nat} {pr : Production}
    (hc : (productions.drop d).all check = true) (hp : productions[p]? = some pr)
    (hf : check pr = false) : p < d := by
  apply Nat.lt_of_not_le
  intro hle
  have hm : pr ∈ productions.drop d :=
    List.mem_of_getElem? (i := p - d) (by rw [List.getElem?_drop, Nat.add_sub_cancel' hle, hp])
  have ht := List.all_eq_true.mp hc pr hm
  rw [hf] at ht
  cases ht

/-- Only the first production makes a source. -/
theorem production_of_start {pr : Production} (hp : productions[p]? = some pr)
    (hl : pr.lhs = .start) : pr = rule .start [.n .topStatements] fun ss => ss := by
  have hrest : ((productions.drop 1).all fun pr => pr.lhs != .start) = true := by decide +kernel
  have hlt := lt_of_dropped _ hrest hp (by simp [hl])
  obtain rfl : p = 0 := by omega
  exact (Option.some.inj hp).symm

/-- Statements are the first part only of a source, and of statements with one more. -/
theorem production_of_statements {pr : Production} {ss : List Symbol}
    (hp : productions[p]? = some pr) (hr : pr.rhs = .n .topStatements :: ss) :
    pr = rule .start [.n .topStatements] (fun ss => ss) ∨
      pr = rule .topStatements [.n .topStatements, .n .topStatement] snoc := by
  have hrest : ((productions.drop 2).all fun pr =>
      pr.rhs.head? != some (.n .topStatements)) = true := by decide +kernel
  have hlt := lt_of_dropped _ hrest hp (by simp [hr])
  obtain rfl | rfl : p = 0 ∨ p = 1 := by omega
  · exact Or.inl (Option.some.inj hp).symm
  · exact Or.inr (Option.some.inj hp).symm

theorem target?_start : target? 0 (.n .start) = some accepting := rfl

theorem target?_statements : target? 0 (.n .topStatements) = some gathering := rfl

/-- The last frame that is taken off has the first symbol. -/
theorem take_cons {sym : Symbol} {ss : List Symbol} {x : sym.Value} {vs : Values ss}
    (h : take (sym :: ss) stack = some ((x, vs), below)) :
    ∃ f, take ss stack = some (vs, f :: below) ∧ ∃ hs : f.symbol = sym, hs ▸ f.value = x := by
  simp only [take] at h
  split at h
  · cases h
  · cases h
  · rename_i ws f below' ht
    split at h
    · rename_i hs
      cases h
      exact ⟨f, ht, hs, rfl⟩
    · cases h

theorem symbolInto_gathering : symbolInto gathering = some (.n .topStatements) := rfl

theorem originOf_gathering : originOf gathering = some (.few [0]) := by
  have hgroup : paged? entrances gathering = some 0 := rfl
  rw [originOf, hgroup]
  rfl

/-- Statements that have been read stand alone. -/
theorem built_gathering (hb : Built file 0 stack read n) (h : stateOf stack = gathering) :
    ∃ ts, stack = [gathered ts] := by
  obtain ⟨ts, hstack⟩ := built_alone hb (h ▸ symbolInto_gathering) (h ▸ originOf_gathering)
  rw [h] at hstack
  exact ⟨ts, hstack⟩

/-- A source is accepted from its statements alone. -/
theorem step_accepting (hb : Built file 0 stack read n) (h : Step file stack s stack' s')
    (ha : stateOf stack' = accepting) :
    ∃ ts, stack = [gathered ts] ∧ stack' = [⟨accepting, .n .start, ts⟩] := by
  cases h with
  | shift h =>
    obtain rfl : _ = accepting := ha
    obtain ⟨hinto, -⟩ := origin_of_target? (target?_of_shift h)
    cases symbolInto_accepting.symm.trans hinto
  | reduce h hr =>
    obtain ⟨pr, vs, below, v, q, hp, ht, hv, hq, rfl⟩ := reduce_ok hr
    obtain rfl : q = accepting := ha
    obtain ⟨hinto, hfrom⟩ := origin_of_target? hq
    rw [symbolInto_accepting] at hinto
    simp only [originOf_accepting, List.mem_singleton] at hfrom
    obtain ⟨-, read', n', -, hb', -⟩ := take_built hb ht
    obtain rfl := built_first hb' hfrom
    obtain rfl := production_of_start hp (Symbol.n.inj (Option.some.inj hinto)).symm
    obtain ⟨ts, ⟨⟩⟩ := vs
    cases hv
    obtain ⟨f, htop, hs, hf⟩ := take_cons ht
    cases htop
    cases hb with
    | push f tree hb he hval =>
      obtain ⟨state, symbol, value⟩ := f
      cases hs
      cases hf
      cases target?_statements.symm.trans he
      exact ⟨value, rfl, rfl⟩

theorem actionAtEnd_gathering : actionAtEnd gathering = .reduce Reduction.start := by decide

/-- A source is read by the steps that leave its statements alone on the stack at its end. -/
theorem parse_ok_iff {r : Reader} : s.parse file = (.ok ts, r) ↔
    ∃ n, Steps file n [] s [gathered ts] (.finished r) := by
  constructor
  · intro h
    obtain ⟨n, stack', hn, ha, hr⟩ := steps_of_run h
    have hstate := accepting_of_action ha
    cases hn with
    | refl => cases hstate
    | step hn hs =>
      obtain ⟨read, m, hb, -⟩ := steps_built hn .nil
      obtain ⟨us, rfl, rfl⟩ := step_accepting hb hs hstate
      cases hs with
      | reduce =>
        cases hr
        exact ⟨_, hn⟩
  · rintro ⟨n, hn⟩
    obtain ⟨fuel, hfuel⟩ := Nat.exists_eq_add_of_le (steps_bound hn)
    have hend : Step file [gathered ts] (.finished r) [⟨accepting, .n .start, ts⟩] (.finished r) :=
      .reduce actionAtEnd_gathering rfl
    rw [Stream.parse, hfuel, Nat.add_assoc, Nat.add_comm 2 fuel, run_steps _ hn, run_step _ hend]
    rfl

/-- What the first token of a source can be, as the bits of a number. -/
def starters : Nat := ((paged? rows 0).bind fun r => r.reductions.head?).elim 0 (·.2)

/-- Whether a state that reduces at the end does so before every token of a set, which is given as
the bits of a number. -/
def Row.endsAlike (tokens : Nat) (r : Row) : Bool := r.reductions.all fun e =>
  !e.2.testBit (bitOf none) || r.reductions.length == 1 && e.2 &&& tokens == tokens &&
    r.edges.all fun g => (groupAt g).all fun e => match e.1 with
      | .t k => !tokens.testBit (bitOf (some k))
      | .n _ => true

theorem reduce_alike {tokens : Nat} {row : Row} {k : Kind} (hrow : paged? rows q = some row)
    (halike : row.endsAlike tokens = true) (hk : tokens.testBit (bitOf (some k)) = true)
    (h : actionAtEnd q = .reduce p) : actionAt q k = .reduce p := by
  have hred : reduction? q none = some p := by
    simp only [actionAtEnd] at h
    split at h
    · cases h
    · split at h
      · cases h
        assumption
      · cases h
  obtain ⟨row', hrow', hp⟩ := Option.bind_eq_some_iff.mp hred
  cases hrow.symm.trans hrow'
  obtain ⟨e, he, rfl⟩ := Option.map_eq_some_iff.mp hp
  have hbit := List.find?_some he
  have hfit := List.all_eq_true.mp halike e (List.mem_of_find?_eq_some he)
  simp only [hbit, Bool.not_true, Bool.false_or, Bool.and_eq_true, beq_iff_eq] at hfit
  obtain ⟨⟨hone, hmask⟩, hedges⟩ := hfit
  have htarget : target? q (.t k) = none := by
    refine Option.eq_none_iff_forall_ne_some.mpr fun x hx => ?_
    obtain ⟨row', g, es, hrow', hg, hes, hmem⟩ := target?_eq_some hx
    cases hrow.symm.trans hrow'
    have hedge := List.all_eq_true.mp (List.all_eq_true.mp hedges g hg) (.t k, x)
      (by simpa [groupAt, hes] using hmem)
    simp [hk] at hedge
  have hreduction : reduction? q (some k) = some e.1 := by
    obtain ⟨e', he'⟩ := List.length_eq_one_iff.mp hone
    have hmem := List.mem_of_find?_eq_some he
    rw [he', List.mem_singleton] at hmem
    subst hmem
    have hahead : e.2.testBit (bitOf (some k)) = true := by
      rw [← hmask, Nat.testBit_and, Bool.and_eq_true] at hk
      exact hk.1
    simp [reduction?, hrow, Row.reduction?, he', hahead]
  simp only [actionAt, htarget, hreduction]

theorem row_of_action (h : actionAtEnd q = .reduce p) : ∃ row, paged? rows q = some row := by
  obtain ⟨ahead, hred⟩ := reduction?_of_action (s := Stream.finished ()) h
  obtain ⟨row, hrow, -⟩ := Option.bind_eq_some_iff.mp hred
  exact ⟨row, hrow⟩

/-- The state that gathers statements shifts the tokens that can start a source. -/
theorem rows_endAlike :
    pagedAll (fun q r => q == gathering || r.endsAlike starters) rows = true := by
  decide

/-- Nothing is shifted in the first state. -/
theorem target?_first (k : Kind) : target? 0 (.t k) = none := rfl

theorem reduction?_first (ahead : Option Kind) :
    reduction? 0 ahead = if starters.testBit (bitOf ahead) then some Reduction.empty else none := by
  change ((List.find? _ [(Reduction.empty, starters)]).map _) = _
  rw [List.find?_singleton]
  split <;> rfl

theorem starters_of_action {k : Kind} (h : actionAt 0 k ≠ .reject) :
    starters.testBit (bitOf (some k)) = true := by
  cases hbit : starters.testBit (bitOf (some k)) with
  | true => rfl
  | false =>
    refine absurd ?_ h
    simp only [actionAt, target?_first, reduction?_first, hbit]
    rfl

/-- Before what can start a source, a state reduces what it reduces at the end. -/
theorem reduce_before (hu : actionBefore 0 u ≠ .reject) (hq : q ≠ gathering)
    (h : actionAtEnd q = .reduce p) : actionBefore q u = .reduce p := by
  cases u with
  | failed => exact absurd rfl hu
  | finished => exact h
  | cons t r rest =>
    obtain ⟨row, hrow⟩ := row_of_action h
    have halike := pagedAll_get rows_endAlike hrow
    rw [beq_eq_false_iff_ne.mpr hq, Bool.false_or] at halike
    exact reduce_alike hrow halike (starters_of_action hu) h

theorem not_step_accepting (h : stateOf stack = accepting) : ¬ Step file stack s stack' s' := by
  have htarget : ∀ sym, target? accepting sym = none := fun _ => rfl
  have hreduction : ∀ ahead, reduction? accepting ahead = none := fun _ => rfl
  intro hs
  cases hs with
  | shift hs =>
    rw [h] at hs
    cases (htarget _).symm.trans (target?_of_shift hs)
  | reduce hs hr =>
    rw [h] at hs
    obtain ⟨ahead, ha⟩ := reduction?_of_action hs
    cases (hreduction ahead).symm.trans ha

/-- A step is the same when a source follows, unless it is the step that accepts. -/
theorem step_append (hu : actionBefore 0 u ≠ .reject) (hb : Built file 0 stack read n)
    (h : Step file stack s stack' s') (ha : stateOf stack' ≠ accepting) :
    Step file stack (s.append u) stack' (s'.append u) := by
  cases h with
  | shift h => exact .shift h
  | reduce h hr =>
    refine .reduce ?_ hr
    cases s with
    | failed => cases h
    | cons t r rest => exact h
    | finished r =>
      refine reduce_before hu (fun hq => ha ?_) h
      rw [actionBefore, hq, actionAtEnd_gathering] at h
      cases h
      obtain ⟨ts, rfl⟩ := built_gathering hb hq
      cases hr
      rfl

/-- The steps of a source are the same up to its last one when a source follows. -/
theorem steps_append (hu : actionBefore 0 u ≠ .reject) (h : Steps file k [] s stack' s')
    (ha : stateOf stack' ≠ accepting) :
    Steps file k [] (s.append u) stack' (s'.append u) := by
  generalize hstack : ([] : List Frame) = stack at h
  induction h with
  | refl => exact .refl
  | step hn hs ih =>
    subst hstack
    obtain ⟨read, n, hb, -⟩ := steps_built hn .nil
    exact .step (ih (fun hq => not_step_accepting hq hs) rfl) (step_append hu hb hs ha)

/-- Statements that are gathered in a state. -/
def gatheredIn (q : Nat) (ts : List Tree) : Frame := ⟨q, .n .topStatements, ts⟩

/-- A state that gathers statements above a stack as they are gathered at the bottom. -/
structure Ground (q : Nat) (base : List Frame) : Prop where
  enters : target? (stateOf base) (.n .topStatements) = some q
  leads : ∀ {s : Symbol} {x : Nat}, target? gathering s = some x → target? q s = some x
  shifts : ∀ {k : Kind} {x : Nat}, actionAt gathering k = .shift x → actionAt q k = .shift x

theorem ground_gathering : Ground gathering [] := ⟨rfl, fun h => h, fun h => h⟩

theorem stateOf_append (up : List Frame) (ts us : List Tree) :
    stateOf (up ++ [gathered ts]) = stateOf (up ++ [gathered us]) := by
  cases up <;> rfl

theorem gathered_alone {up : List Frame} (h : [gathered ts] = up ++ [gathered us]) :
    up = [] ∧ us = ts := by
  obtain ⟨rfl, hus⟩ := List.append_eq_singleton_iff.mp h.symm |>.resolve_right (by simp)
  cases hus
  exact ⟨rfl, rfl⟩

theorem Ground.target? {up base : List Frame} {sym : Symbol} {x : Nat} (hg : Ground q base)
    (h : target? (stateOf (up ++ [gathered ts])) sym = some x) :
    Automaton.target? (stateOf (up ++ gatheredIn q us :: base)) sym = some x := by
  cases up with
  | nil => exact hg.leads h
  | cons f up => exact h

/-- What is taken off above a frame at the bottom does not depend on that frame, or on what may
stand below it. -/
theorem take_append {ss : List Symbol} {vs : Values ss} {up : List Frame} {f : Frame} (g : Frame)
    (base : List Frame) (h : take ss (up ++ [f]) = some (vs, below)) :
    below = [] ∨
      ∃ rest, below = rest ++ [f] ∧ take ss (up ++ g :: base) = some (vs, rest ++ g :: base) := by
  induction ss generalizing below with
  | nil =>
    cases h
    exact Or.inr ⟨up, rfl, rfl⟩
  | cons sym ss ih =>
    obtain ⟨x, vs⟩ := vs
    obtain ⟨top, ht, rfl, rfl⟩ := take_cons h
    obtain hnil | ⟨rest, hrest, hg⟩ := ih ht
    · cases hnil
    · cases rest with
      | nil =>
        cases hrest
        exact Or.inl rfl
      | cons f' rest =>
        cases hrest
        exact Or.inr ⟨rest, rfl, by simp [take, hg]⟩

/-- What stands on the stack before the statements of a source. -/
def blank : Frame := ⟨State.blank, .n .empty, ()⟩

theorem reduction?_blank {ahead : Option Kind} (h : reduction? State.blank ahead = some p) :
    p = Reduction.statementsNone := by
  obtain ⟨e, he, rfl⟩ := Option.map_eq_some_iff.mp h
  have hm := List.mem_of_find?_eq_some he
  simp only [List.mem_singleton] at hm
  rw [hm]

/-- How the stack of a source by itself corresponds to its stack behind another source: at first
there are the statements of the other, and then its own statements follow them. -/
inductive Follows (us : List Tree) : List Frame → List Frame → Prop
  | first : Follows us [] [gathered us]
  | blank : Follows us [blank] [gathered us]
  | above (up : List Frame) (ts : List Tree) :
      Follows us (up ++ [gathered ts]) (up ++ [gathered (us ++ ts)])

/-- Where the frame at the bottom is taken off, it has the first symbol. -/
theorem take_bottom {sym : Symbol} {ss : List Symbol} {x : sym.Value} {vs : Values ss}
    {up : List Frame} {f : Frame} (g : Frame) (base : List Frame)
    (h : take (sym :: ss) (up ++ [f]) = some ((x, vs), [])) :
    (∃ hs : f.symbol = sym, hs ▸ f.value = x) ∧
      take ss (up ++ g :: base) = some (vs, g :: base) := by
  obtain ⟨top, ht, hs, hx⟩ := take_cons h
  obtain hnil | ⟨rest, hrest, hg⟩ := take_append g base ht
  · cases hnil
  · obtain ⟨rfl, hf⟩ := List.append_eq_singleton_iff.mp hrest.symm |>.resolve_right (by simp)
    cases hf
    exact ⟨⟨hs, hx⟩, hg⟩

/-- A reduction above statements is made alike above more of them, and on other ground. It takes
the statements too where one more is added to them. -/
theorem reduce_above {up base : List Frame} (hg : Ground q base) (us : List Tree)
    (hr : reduce file p (up ++ [gathered ts]) = .ok stack') (ha : stateOf stack' ≠ accepting) :
    ∃ up' ts', stack' = up' ++ [gathered ts'] ∧
      reduce file p (up ++ gatheredIn q (us ++ ts) :: base) =
        .ok (up' ++ gatheredIn q (us ++ ts') :: base) := by
  obtain ⟨pr, vs, below, v, x, hp, ht, hv, hx, rfl⟩ := reduce_ok hr
  obtain rfl | ⟨rest, rfl, hlonger⟩ := take_append (gatheredIn q (us ++ ts)) base ht
  · obtain ⟨lhs, rhs, action⟩ := pr
    cases rhs with
    | nil => simp [take] at ht
    | cons sym ss =>
      obtain ⟨ws, vs⟩ := vs
      obtain ⟨⟨hs, hw⟩, hlonger⟩ := take_bottom (gatheredIn q (us ++ ts)) base ht
      cases hs
      cases hw
      obtain hpr | hpr := production_of_statements hp rfl
      · cases hpr
        cases target?_start.symm.trans hx
        exact absurd rfl ha
      · cases hpr
        cases target?_statements.symm.trans hx
        obtain ⟨t, ⟨⟩⟩ := vs
        cases hv
        refine ⟨[], snoc ts t, rfl, ?_⟩
        have htake : take [.n .topStatements, .n .topStatement]
            (up ++ gatheredIn q (us ++ ts) :: base) = some ((us ++ ts, t, ()), base) := by
          rw [take, hlonger]
          rfl
        have hadd : productions[p]? = some (rule .topStatements
            [.n .topStatements, .n .topStatement] snoc) := hp
        rw [snoc, ← List.append_assoc]
        simp only [reduce, hadd, rule, htake, hg.enters]
        rfl
  · refine ⟨⟨x, .n pr.lhs, v⟩ :: rest, ts, rfl, ?_⟩
    have htarget : target? (stateOf (rest ++ gatheredIn q (us ++ ts) :: base)) (.n pr.lhs) =
      some x := hg.target? hx
    simp [reduce, hp, hlonger, hv, htarget]

/-- The first step of a source reads nothing. -/
theorem step_first (h : Step file [] s stack' s') :
    stack' = [blank] ∧ s' = s ∧ actionBefore 0 s = .reduce Reduction.empty := by
  cases h with
  | shift h => cases target?_of_shift h
  | reduce h hr =>
    obtain ⟨ahead, hred⟩ := reduction?_of_action h
    rw [stateOf, reduction?_first] at hred
    split at hred <;> cases hred
    have hblank : reduce file Reduction.empty [] = .ok [blank] := rfl
    cases hblank.symm.trans hr
    exact ⟨rfl, rfl, h⟩

/-- The second step of a source makes no statements of it. -/
theorem step_blank (h : Step file [blank] s stack' s') :
    stack' = [gathered []] ∧ s' = s ∧
    actionBefore State.blank s = .reduce Reduction.statementsNone := by
  cases h with
  | shift h => cases target?_of_shift h
  | reduce h hr =>
    obtain ⟨ahead, hred⟩ := reduction?_of_action h
    cases reduction?_blank hred
    have hnone : reduce file Reduction.statementsNone [blank] = .ok [gathered []] := rfl
    cases hnone.symm.trans hr
    exact ⟨rfl, rfl, h⟩

theorem follows_step {longer : List Frame} (hf : Follows us stack longer)
    (h : Step file stack s stack' s') (ha : stateOf stack' ≠ accepting) :
    ∃ k longer', Follows us stack' longer' ∧ Steps file k longer s longer' s' := by
  cases hf with
  | first =>
    obtain ⟨rfl, rfl, -⟩ := step_first h
    exact ⟨0, _, .blank, .refl⟩
  | blank =>
    obtain ⟨rfl, rfl, -⟩ := step_blank h
    have hfollows : Follows us ([] ++ [gathered []]) ([] ++ [gathered (us ++ [])]) :=
      .above [] []
    rw [List.append_nil] at hfollows
    exact ⟨0, _, hfollows, .refl⟩
  | above up ts =>
    cases h with
    | shift h =>
      rw [stateOf_append up ts (us ++ ts)] at h
      exact ⟨1, _, .above (_ :: up) ts, .step .refl (.shift h)⟩
    | reduce h hr =>
      rw [stateOf_append up ts (us ++ ts)] at h
      obtain ⟨up', ts', rfl, hr'⟩ := reduce_above ground_gathering us hr ha
      exact ⟨1, _, .above up' ts', .step .refl (.reduce h hr')⟩

/-- The steps of a source by itself lead to the corresponding stack behind another source. -/
theorem follows_steps (us : List Tree) (h : Steps file n [] s stack' s')
    (ha : stateOf stack' ≠ accepting) :
    ∃ k longer, Follows us stack' longer ∧ Steps file k [gathered us] s longer s' := by
  generalize hstack : ([] : List Frame) = stack at h
  induction h with
  | refl =>
    subst hstack
    exact ⟨0, _, .first, .refl⟩
  | step hn hs ih =>
    obtain ⟨k, longer, hf, hk⟩ := ih (fun hq => not_step_accepting hq hs) hstack
    obtain ⟨j, longer', hf', hj⟩ := follows_step hf hs ha
    exact ⟨k + j, longer', hf', hk.trans hj⟩

theorem actionBefore_of_parse {r : Reader} (h : s.parse file = (.ok ts, r)) :
    actionBefore 0 s ≠ .reject := by
  intro hr
  rw [Stream.parse, enough, Nat.mul_succ] at h
  cases s with
  | failed => cases h
  | finished => cases hr
  | cons t r rest =>
    rw [actionBefore] at hr
    simp [run, stateOf, hr] at h

/-- Two sources one after the other are a source, and its trees are those of the one and then
those of the other. -/
theorem parse_append {s₁ s₂ : Stream Reader} {ts₁ ts₂ : List Tree} {r₁ r₂ : Reader}
    (h₁ : s₁.parse file = (.ok ts₁, r₁)) (h₂ : s₂.parse file = (.ok ts₂, r₂)) :
    (s₁.append s₂).tokens = s₁.tokens ++ s₂.tokens ∧
      (s₁.append s₂).parse file = (.ok (ts₁ ++ ts₂), r₂) := by
  obtain ⟨n₁, hn₁⟩ := parse_ok_iff.mp h₁
  obtain ⟨n₂, hn₂⟩ := parse_ok_iff.mp h₂
  have halone : gathering ≠ accepting := by decide
  have hfirst := steps_append (actionBefore_of_parse h₂) hn₁ halone
  obtain ⟨k, longer, hf, hk⟩ := follows_steps ts₁ hn₂ halone
  refine ⟨Stream.tokens_append s₂ (run_ok .nil h₁).1, parse_ok_iff.mpr ⟨n₁ + k, ?_⟩⟩
  generalize hstack : [gathered ts₂] = stack at hf
  cases hf with
  | first => cases hstack
  | blank => cases hstack
  | above up ts =>
    obtain ⟨rfl, hts⟩ := List.append_eq_singleton_iff.mp hstack.symm |>.resolve_right (by simp)
    cases hts
    exact hfirst.trans hk

/-- The tokens of a text that is read by itself. -/
def streamOf (text : String) : Stream Filter := ((Filter.fresh []).input text.toList).stream

/-- Where the first source ends, another catch or another arm could follow. -/
theorem parse_append_arms :
    ∃ ts₁ ts₂ g₁ g₂,
      (streamOf "<?php if ($a) b(); elseif ($c) try \x7b \x7d catch (E $e) \x7b \x7d").parse none =
        (.ok ts₁, g₁) ∧
      (streamOf "<?php while ($a) \x7b \x7d /** d */ class A \x7b \x7d").parse none =
        (.ok ts₂, g₂) ∧
      ((streamOf "<?php if ($a) b(); elseif ($c) try \x7b \x7d catch (E $e) \x7b \x7d").append
        (streamOf "<?php while ($a) \x7b \x7d /** d */ class A \x7b \x7d")).parse none =
          (.ok (ts₁ ++ ts₂), g₂) := by
  obtain ⟨ts₁, g₁, h₁⟩ := exists_parse_ok (Filter.fresh []) none
    "<?php if ($a) b(); elseif ($c) try \x7b \x7d catch (E $e) \x7b \x7d".toList
    (by rw [String.toList_ofList]; decide +kernel)
  obtain ⟨ts₂, g₂, h₂⟩ := exists_parse_ok (Filter.fresh []) none
    "<?php while ($a) \x7b \x7d /** d */ class A \x7b \x7d".toList
    (by rw [String.toList_ofList]; decide +kernel)
  exact ⟨ts₁, ts₂, g₁, g₂, h₁, h₂, (parse_append h₁ h₂).2⟩

end Automaton
end Docblock
