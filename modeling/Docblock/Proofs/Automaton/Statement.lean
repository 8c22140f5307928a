import Docblock.Proofs.Automaton.Graft

/-! A statement by itself, and what stands between its first and its last token. -/
namespace Docblock.Automaton

open Token Grammar

variable {file : Option String} {p q q' : Nat} {up : List Frame} {ts : List Token}
  {us us' : List Tree} {t : Tree} {k k' : Kind} {v : Nonterminal}

/-- A reduction that takes the statements that have been gathered gathers one more, or accepts. -/
theorem gathered_digs {c : Config} (h : Digs file 0 up [gathered us] ts p c) :
    stateOf c.frames = accepting ∨ ∃ t, c.frames = [gathered (us ++ [t])] := by
  obtain ⟨hmid, htaken, hp, hs, ht, hv, hq⟩ := h
  rename_i taken below q pr vs v
  obtain ⟨rfl, rfl⟩ | ⟨rfl, rfl⟩ := List.append_eq_singleton_iff.mp hmid.symm
  · exact absurd rfl htaken
  obtain hpr | hpr := production_of_statements hp hs
  · subst hpr
    cases target?_start.symm.trans hq
    exact Or.inl rfl
  · subst hpr
    cases target?_statements.symm.trans hq
    obtain ⟨ws, t, ⟨⟩⟩ := vs
    obtain ⟨f, htake, hsymbol, hvalue⟩ := take_cons ht
    obtain ⟨fs, hstack, -, -⟩ := take_split htake
    obtain ⟨-, rfl⟩ := List.append_inj' hstack rfl |>.imp_right List.cons.inj |>.imp_right And.left
    cases hvalue
    cases hv
    exact Or.inr ⟨t, rfl⟩

theorem gathered_move {c : Config} (h : Move file 0 ⟨up ++ [gathered us], ts⟩ c) :
    stateOf c.frames = accepting ∨
      ∃ up' us', c.frames = up' ++ [gathered us'] ∧ us.length ≤ us'.length := by
  obtain ⟨up', -, hframes⟩ | ⟨p, hdigs⟩ := h.rise
  · exact Or.inr ⟨up', us, hframes, Nat.le_refl _⟩
  · refine (gathered_digs hdigs).imp_right ?_
    rintro ⟨t, hframes⟩
    exact ⟨[], us ++ [t], hframes, by simp⟩

theorem not_move_accepting {c c' : Config} (h : stateOf c.frames = accepting) :
    ¬ Move file 0 c c' :=
  fun hm => not_step_accepting h hm.step

/-- Statements that have been gathered stay so. -/
theorem gathered_moves {c : Config} (h : Moves file 0 ⟨[gathered us], ts⟩ c) :
    stateOf c.frames = accepting ∨
      ∃ up' us', c.frames = up' ++ [gathered us'] ∧ us.length ≤ us'.length := by
  induction h with
  | refl => exact Or.inr ⟨[], us, rfl, Nat.le_refl _⟩
  | @tail c₁ c₂ _ hm ih =>
    obtain haccept | ⟨up', us', hframes, hle⟩ := ih
    · exact absurd hm (not_move_accepting haccept)
    · obtain ⟨frames, tokens⟩ := c₁
      cases hframes
      obtain haccept | ⟨up'', us'', hframes, hle'⟩ := gathered_move hm
      · exact Or.inl haccept
      · exact Or.inr ⟨up'', us'', hframes, Nat.le_trans hle hle'⟩

theorem moves_nil {b : Nat} {ts' : List Token} (h : Moves file b ⟨[], ts⟩ ⟨[], ts'⟩) :
    ts = ts' := by
  obtain heq | ⟨c, -, hm⟩ := h.cases_tail
  · cases heq
    rfl
  · exact absurd rfl hm.frames_ne_nil

/-- Where no further statement is gathered, nothing is left to read. -/
theorem gathered_last (h : Moves file 0 ⟨[gathered us], ts⟩ ⟨[gathered us'], []⟩)
    (hlen : us'.length = us.length) : ts = [] ∧ us' = us := by
  have habove : Moves file 0 ⟨[] ++ [gathered us], ts⟩ ⟨[gathered us'], []⟩ := h
  obtain ⟨up', hup, hframes⟩ | ⟨up', ts', p, c', -, hdigs, hrest⟩ := Moves.rise habove
  · obtain ⟨rfl, rfl⟩ := gathered_alone hframes
    exact ⟨moves_nil hup, rfl⟩
  · obtain haccept | ⟨t, hframes⟩ := gathered_digs hdigs
    · obtain heq | ⟨d, hm, -⟩ := hrest.cases_head
      · subst heq
        cases haccept
      · exact absurd hm (not_move_accepting haccept)
    · obtain ⟨frames, tokens⟩ := c'
      cases hframes
      obtain haccept | ⟨up'', us'', hframes, hle⟩ := gathered_moves hrest
      · cases haccept
      · obtain ⟨-, rfl⟩ := gathered_alone hframes
        rw [List.length_append, hlen] at hle
        exact absurd hle (by simp)

theorem statement_states : reducesOnly State.statement Reduction.topStatement [] = true ∧
    reducesOnly State.topStatement Reduction.statementsMore [] = true ∧
    actionAtEnd State.statement = .reduce Reduction.topStatement ∧
    actionAtEnd State.topStatement = .reduce Reduction.statementsMore ∧
    target? gathering (.n .statement) = some State.statement ∧
    target? gathering (.n .topStatement) = some State.topStatement := by
  decide

theorem production_topStatement :
    productions[Reduction.topStatement]? = some (rule .topStatement [.n .statement] fun s => s) ∧
    productions[Reduction.statementsMore]? = some
      (rule .topStatements [.n .topStatements, .n .topStatement] snoc) :=
  ⟨rfl, rfl⟩

/-- A statement behind which nothing is left is gathered. -/
theorem statement_moves (file : Option String) (us : List Tree) (t : Tree) :
    Moves file 0 ⟨[⟨State.statement, .n .statement, t⟩, gathered us], []⟩
      ⟨[gathered (us ++ [t])], []⟩ := by
  obtain ⟨-, -, hstatement, htop, -, htarget⟩ := statement_states
  obtain ⟨hp, hp'⟩ := production_topStatement
  have hfirst : Move file 0 ⟨[⟨State.statement, .n .statement, t⟩, gathered us], []⟩
      ⟨[⟨State.topStatement, .n .topStatement, t⟩, gathered us], []⟩ :=
    .reduce_rule hp hstatement rfl rfl htarget
  have hsecond : Move file 0 ⟨[⟨State.topStatement, .n .topStatement, t⟩, gathered us], []⟩
      ⟨[gathered (us ++ [t])], []⟩ := .reduce_rule hp' htop rfl rfl rfl
  exact .tail (.single hfirst) hsecond

/-- Behind a statement that is the only one, nothing is left. -/
theorem statement_last {t' : Tree}
    (h : Moves file 0 ⟨[⟨State.statement, .n .statement, t⟩, gathered []], ts⟩
      ⟨[gathered [t']], []⟩) :
    ts = [] ∧ t' = t := by
  obtain ⟨hstatement, htop, -, -, -, htarget⟩ := statement_states
  obtain ⟨hp, hp'⟩ := production_topStatement
  obtain heq | ⟨c₁, hm, h⟩ := h.cases_head
  · cases heq
  obtain ⟨vs, below, v, q, -, ht, hv, hq, rfl⟩ := hm.reduces hstatement (by simp) hp
  cases ht
  cases hv
  cases htarget.symm.trans hq
  obtain heq | ⟨c₂, hm, h⟩ := h.cases_head
  · cases heq
  obtain ⟨vs, below, v, q, -, ht, hv, hq, rfl⟩ := hm.reduces htop (by simp) hp'
  cases ht
  cases hv
  cases target?_statements.symm.trans hq
  obtain ⟨rfl, ht'⟩ := gathered_last h rfl
  exact ⟨rfl, List.singleton_inj.mp ht'⟩

theorem exists_parsed_one {ts : List Token}
    (h : (parsed file ts).toOption.any (·.length == 1) = true) :
    ∃ t, parsed file ts = .ok [t] := by
  cases hp : parsed file ts with
  | error e => simp [hp, Except.toOption] at h
  | ok trees =>
    simp only [hp, Except.toOption, Option.any_some, beq_iff_eq] at h
    obtain ⟨t, rfl⟩ := List.length_eq_one_iff.mp h
    exact ⟨t, rfl⟩

/-- Before what starts a source, there are no statements yet. -/
theorem start_moves (hfirst : actionOn 0 (ahead ts) = .reduce Reduction.empty)
    (hblank : actionOn State.blank (ahead ts) = .reduce Reduction.statementsNone) :
    Moves file 0 ⟨[], ts⟩ ⟨[gathered []], ts⟩ := by
  have hempty : Move file 0 ⟨[], ts⟩ ⟨[blank], ts⟩ :=
    .reduce_rule production_empty hfirst rfl rfl rfl
  have hnone : Move file 0 ⟨[blank], ts⟩ ⟨[gathered []], ts⟩ := by
    have hp : productions[Reduction.statementsNone]? =
        some (rule .topStatements [.n .empty] fun _ => []) := rfl
    exact .reduce_rule hp hblank rfl rfl rfl
  exact .tail (.single hempty) hnone

/-- A kind of statement: a first token, something, and a last token. The states are those behind
the first token and behind what follows it. -/
structure Enclosure where
  first : Kind
  inside : Nonterminal
  last : Kind
  rule : Nat
  atFirst : Nat
  atInside : Nat

namespace Enclosure

/-- Only the production of the statement takes its first token off. -/
def fits (e : Enclosure) : Bool :=
  actionAt 0 e.first == .reduce Reduction.empty &&
    actionAt State.blank e.first == .reduce Reduction.statementsNone &&
    actionAt gathering e.first == .shift e.atFirst &&
    onlyTakes 0 [(e.atFirst, .t e.first), (gathering, .n .topStatements)] [(e.rule, 1)] &&
    target? e.atFirst (.n e.inside) == some e.atInside

/-- What stands inside a statement by itself is read above the state behind the first token. -/
theorem moves {e : Enclosure} (he : e.fits = true) {f : Token → e.inside.Value → Token → Tree}
    (hp : productions[e.rule]? = some (Grammar.rule .statement
      [.t e.first, .n e.inside, .t e.last] f))
    {w s : Token} {xs : List Token} (hw : w.kind = e.first)
    (h : parsed file (w :: (xs ++ [s])) = .ok [t]) :
    ∃ x, t = f w x s ∧ s.kind = e.last ∧
      Moves file e.atFirst ⟨[], xs ++ [s]⟩ ⟨[⟨e.atInside, .n e.inside, x⟩], [s]⟩ := by
  simp only [fits, Bool.and_eq_true, beq_iff_eq, and_assoc] at he
  obtain ⟨hfirst, hblank, hshift, honly, hinside⟩ := he
  have hopen : Moves file 0 ⟨[], w :: (xs ++ [s])⟩
      ⟨[] ++ [⟨e.atFirst, .t e.first, w⟩, gathered []], xs ++ [s]⟩ := by
    refine .tail (start_moves ?_ ?_) (.shift_kind hw hshift)
    · exact (congrArg (actionAt 0) hw).trans hfirst
    · exact (congrArg (actionAt State.blank) hw).trans hblank
  have hrest := Moves.resume hopen (parsed_ok_iff.mp h) (by simp)
  obtain ⟨up', -, hframes⟩ | ⟨up', ts', p, c', hup, hdigs, hrest⟩ := Moves.rise hrest
  · exact absurd (congrArg List.length hframes) (by simp)
  obtain ⟨n, pr, vs, v, q, hfound, hp', hsymbols, htake, hv, hq, rfl⟩ := hdigs.among rfl honly
  obtain ⟨rfl, rfl⟩ := Prod.mk.inj (List.mem_singleton.mp hfound)
  cases hp.symm.trans hp'
  -- The two frames above the first token are those of the other two symbols.
  obtain ⟨q₁, z, _, rfl, hsymbols'⟩ := frames_cons hsymbols
  obtain ⟨q₂, x, _, rfl, hnil⟩ := frames_cons hsymbols'
  cases List.map_eq_nil_iff.mp hnil
  obtain ⟨hlast, hinner, -⟩ := Moves.linked hup trivial
  cases hinside.symm.trans hinner
  cases statement_states.2.2.2.2.1.symm.trans hq
  obtain ⟨rfl, rfl⟩ := statement_last hrest
  obtain ⟨s', hs', hz, hmoves, -⟩ := Moves.shifted hup rfl
  cases hz
  obtain ⟨read, hread, -⟩ := Moves.reads hmoves
  obtain ⟨rfl, hs⟩ := List.append_inj' hread rfl
  cases List.singleton_inj.mp hs
  have htaken : take [.t e.first, .n e.inside, .t e.last] [⟨q₁, .t e.last, s⟩,
      ⟨e.atInside, .n e.inside, x⟩, ⟨e.atFirst, .t e.first, w⟩] = some ((w, x, s, ()), []) := by
    simp [take]
  cases htake.symm.trans htaken
  cases hv
  exact ⟨x, rfl, hs', hmoves⟩

end Enclosure
end Docblock.Automaton
