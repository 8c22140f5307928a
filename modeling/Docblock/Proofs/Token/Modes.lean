import Docblock.Proofs.Token.Frame

/-! The modes before and after a token: which are left waiting, and which are gone back to. -/
namespace Docblock

open Token

/-- Plain text counts as code: only tags, which leave no mode waiting, lead between the two. -/
def Token.Mode.settled : Mode → Mode
  | .html => .code
  | m => m

/-- What holds of identifiers and of all reserved words holds of the kind of every name. -/
theorem Token.kindOfName_forall {P : Kind → Prop} (hi : P .ident) (hk : ∀ p ∈ keywords, P p.2)
    (cs : List Char) : P (kindOfName cs) := by
  simp only [kindOfName]
  cases hl : keywords.lookup (String.ofList (cs.flatMap upper)) with
  | none => exact hi
  | some k =>
    obtain ⟨l₁, l₂, he, -⟩ := List.lookup_eq_some_iff.mp hl
    exact hk _ (he ▸ List.mem_append_right l₁ List.mem_cons_self)

/-- A mode with the modes that wait for it to end. -/
abbrev Config := Mode × List Mode

namespace Config

def settled (c : Config) : Config := (c.1.settled, c.2)

/-- Back to the latest mode that waits. -/
def pop : List Mode → Option (List Config)
  | [] => none
  | m :: ms => some [(m, ms)]

/-- What an effect can do to the modes, if enough of them wait. `k` is the kind of the token. -/
def outcomes (k : Kind) : Effect → Config → Option (List Config)
  | .stay, c => some [c]
  | .push m, c => some [(m, c.1 :: c.2)]
  | .pop, c => pop c.2
  | .popTwice, c => pop (c.2.drop 1)
  | .enter m, c => some [(m, c.2)]
  | .pushAtName m, c => some [c, (m, c.1 :: c.2)]
  | .pushByName m m', c => some [(m, c.1 :: c.2), (m', c.1 :: c.2)]
  | .enterByName m m', c => some [(m, c.2), (m', c.2)]
  | .openHeredoc, c => some [(.heredoc, c.1 :: c.2)]
  | .closeHeredoc, c => if k = .encapsed then some [c] else pop c.2

/-- The modes after a token of some kind, if enough of them wait; none if the mode has no such
token. -/
def after (k : Kind) : Config → Option (List Config)
  | (.html, _) => some []
  | (.code, ms) =>
    match k with
    | .objectOperator => some [(.code, ms), (.property, .code :: ms)]
    | .leftBracket | .leftBrace => some [(.code, .code :: ms)]
    | .rightBracket | .rightBrace => (pop ms).map (·.map settled)
    | .quote => some [(.quoted, .code :: ms)]
    | .startHeredoc => some [(.heredoc, .code :: ms)]
    | _ => some [(.code, ms)]
  | (.quoted, ms) =>
    match k with
    | .quote => (pop ms).map (·.map settled)
    | .encapsed => some [(.quoted, ms)]
    | .var => some [(.quotedVar, .quoted :: ms)]
    | .curlyOpen => some [(.code, .quoted :: ms)]
    | .dollarCurly => some [(.varName, .quoted :: ms), (.code, .quoted :: ms)]
    | _ => some []
  | (.quotedVar, ms) =>
    match k with
    | .var => some [(.quotedVar, ms)]
    | .quote => (pop (ms.drop 1)).map (·.map settled)
    | .leftBracket => some [(.offset, ms)]
    | .objectOperator => some [(.property, ms)]
    | .encapsed => (pop ms).map (·.map settled)
    | .curlyOpen => some [(.code, ms)]
    | .dollarCurly => some [(.varName, ms), (.code, ms)]
    | _ => some []
  | (.varName, ms) =>
    match k with
    | .leftBracket => some [(.code, .varName :: ms)]
    | .rightBrace => (pop ms).map (·.map settled)
    | .varName => some [(.varName, ms)]
    | _ => some []
  | (.offset, ms) =>
    match k with
    | .rightBracket => (pop ms).map (·.map settled)
    | .var | .ident | .offsetNumber => some [(.offset, ms)]
    | _ => some []
  | (.property, ms) =>
    match k with
    | .ident => (pop ms).map (·.map settled)
    | _ => some []
  | (.heredoc, ms) =>
    match k with
    | .curlyOpen => some [(.code, .heredoc :: ms)]
    | .dollarCurly => some [(.varName, .heredoc :: ms), (.code, .heredoc :: ms)]
    | .endHeredoc => (pop ms).map (·.map settled)
    | .encapsed => some [(.heredoc, ms)]
    | .var => some [(.heredocVar, .heredoc :: ms)]
    | _ => some []
  | (.heredocVar, ms) =>
    match k with
    | .var => some [(.heredocVar, ms)]
    | .leftBracket => some [(.offset, ms)]
    | .objectOperator => some [(.property, ms)]
    | .curlyOpen => some [(.code, ms)]
    | .dollarCurly => some [(.varName, ms), (.code, ms)]
    | .encapsed => (pop ms).map (·.map settled)
    | _ => some []

/-- The kinds of the tokens that change the modes in code, the closing tag apart. -/
def switching : List Kind := [
  .objectOperator, .leftBracket, .rightBracket, .leftBrace, .rightBrace, .quote, .startHeredoc]

theorem after_code {k : Kind} (h : k ∉ switching) (ms : List Mode) :
    after k (.code, ms) = some [(.code, ms)] := by
  simp only [after]
  split <;> first | rfl | exact absurd (by decide) h

theorem kindOfName_plain (cs : List Char) : kindOfName cs ∉ switching :=
  kindOfName_forall (P := (· ∉ switching)) (by decide) (by decide) cs

/-- The effect of a rule is what is listed for the kinds of its tokens. -/
def Agrees (m : Mode) (r : Rule) : Prop :=
  ∀ cs ms, (outcomes (r.kind cs) r.effect (m, ms)).map (·.map settled) =
    after (r.kind cs) (m.settled, ms)

theorem agrees_code : ∀ r ∈ Mode.code.rules, Agrees .code r := by
  have hplain : ∀ {k : Kind} {p : Pattern}, k ∉ switching → Agrees .code (Rule.plain k p) :=
    fun h _ ms => (after_code h ms).symm
  have hsigns : ∀ r ∈ Rule.codeSigns, Agrees .code r := by
    simp only [Rule.codeSigns, Rule.fixed, List.forall_mem_cons]
    repeat' apply And.intro
    all_goals first | exact hplain (by decide) | simp
  have hclasses : ∀ r ∈ Rule.codeClasses, Agrees .code r := by
    simp only [Rule.codeClasses, Rule.casts, Rule.castWords, List.forall_mem_append,
      List.forall_mem_map, List.forall_mem_cons]
    repeat' apply And.intro
    all_goals first
      | exact hplain (by decide)
      | exact fun _ _ => rfl
      | exact fun cs ms => (after_code (kindOfName_plain cs) ms).symm
      | simp
  intro r hr
  exact (List.mem_append.mp hr).elim (hclasses r) (hsigns r)

theorem agrees_rules (m : Mode) : ∀ r ∈ m.rules, Agrees m r := by
  cases m with
  | html =>
    simp only [Mode.rules, List.forall_mem_cons]
    refine ⟨?_, fun _ _ => rfl, by simp⟩
    intro cs ms
    simp only [Rule.tagKind]
    split <;> rfl
  | code => exact agrees_code
  | quoted =>
    simp only [Mode.rules, List.forall_mem_cons]
    exact ⟨fun _ _ => rfl, fun _ _ => rfl, fun _ _ => rfl, fun _ _ => rfl, fun _ _ => rfl, by simp⟩
  | quotedVar =>
    simp only [Mode.rules, List.forall_mem_cons]
    exact ⟨fun _ _ => rfl, fun _ _ => rfl, fun _ _ => rfl, fun _ _ => rfl, fun _ _ => rfl,
      fun _ _ => rfl, fun _ _ => rfl, by simp⟩
  | varName =>
    simp only [Mode.rules, List.forall_mem_cons]
    exact ⟨fun _ _ => rfl, fun _ _ => rfl, fun _ _ => rfl, by simp⟩
  | offset =>
    simp only [Mode.rules, List.forall_mem_cons]
    exact ⟨fun _ _ => rfl, fun _ _ => rfl, fun _ _ => rfl, fun _ _ => rfl, by simp⟩
  | property =>
    simp only [Mode.rules, List.forall_mem_cons]
    exact ⟨fun _ _ => rfl, by simp⟩
  | heredoc =>
    simp only [Mode.rules, List.forall_mem_cons]
    exact ⟨fun _ _ => rfl, fun _ _ => rfl, fun _ _ => rfl, fun _ _ => rfl, fun _ _ => rfl, by simp⟩
  | heredocVar =>
    simp only [Mode.rules, List.forall_mem_cons]
    exact ⟨fun _ _ => rfl, fun _ _ => rfl, fun _ _ => rfl, fun _ _ => rfl, fun _ _ => rfl,
      fun _ _ => rfl, by simp⟩

/-- Only one rule asks for the label of a heredoc text. -/
theorem closeHeredoc_rules {m : Mode} {r : Rule} (hr : r ∈ m.rules)
    (he : r.effect = .closeHeredoc) : m = .heredoc ∧ ∀ cs, r.kind cs = .endHeredoc := by
  have hother : m ≠ .heredoc → ∀ r ∈ m.rules, r.effect ≠ .closeHeredoc := by
    cases m <;> decide
  by_cases hm : m = .heredoc
  · subst hm
    refine ⟨rfl, ?_⟩
    simp only [Mode.rules, List.mem_cons, List.not_mem_nil, or_false] at hr
    rcases hr with rfl | rfl | rfl | rfl | rfl
    · cases he
    · cases he
    · exact fun _ => rfl
    · cases he
    · cases he
  · exact absurd he (hother hm r hr)

end Config

variable {base : List Mode} {t u : Token} {cs : List Config}

namespace Lexer

variable {l l' : Lexer}

/-- The modes of a lexer. -/
def modes (l : Lexer) : Config := (l.mode, l.stack)

theorem popThen_pop (h : (l.onto base).popThen u = .token t l')
    (hc : Config.pop l.stack = some cs) : ∃ m, l.popThen u = .token t m ∧ m.modes ∈ cs := by
  cases hs : l.stack with
  | nil => simp [Config.pop, hs] at hc
  | cons a as =>
    obtain ⟨-, rfl⟩ := popThen_token h
    refine ⟨{ l with mode := a, stack := as }, by simp [popThen, pop?, hs], ?_⟩
    simp only [Config.pop, hs, Option.some.injEq] at hc
    simp [← hc, modes]

/-- A token keeps its kind, unless it turns out not to be the label of its text. -/
theorem apply_kind {ef : Effect} (h : l.apply u ef = .token t l') :
    t = u ∨ ef = .closeHeredoc ∧ t.kind = .encapsed := by
  cases ef with
  | stay | push | enter | openHeredoc | pushAtName | pushByName | enterByName =>
    cases h
    exact Or.inl rfl
  | pop => exact Or.inl (popThen_token h).2
  | popTwice =>
    simp only [apply] at h
    split at h
    · cases h
    · exact Or.inl (popThen_token h).2
  | closeHeredoc =>
    simp only [apply] at h
    split at h
    · cases h
    · split at h
      · exact Or.inl (popThen_token h).2
      · cases h
        exact Or.inr ⟨rfl, rfl⟩

/-- If enough modes wait, an effect does to them one of the things that are listed for it. -/
theorem apply_outcomes {ef : Effect} (hu : ef = .closeHeredoc → u.kind ≠ .encapsed)
    (h : (l.onto base).apply u ef = .token t l')
    (hc : Config.outcomes t.kind ef l.modes = some cs) :
    ∃ m, l.apply u ef = .token t m ∧ m.modes ∈ cs := by
  cases ef with
  | stay | push | enter | openHeredoc =>
    cases h
    cases hc
    exact ⟨_, rfl, List.mem_singleton.mpr rfl⟩
  | pushAtName | pushByName =>
    cases h
    cases hc
    refine ⟨_, rfl, ?_⟩
    cases l.atName <;> simp [modes, push]
  | enterByName =>
    cases h
    cases hc
    refine ⟨_, rfl, ?_⟩
    cases l.atName <;> simp [modes, enter]
  | pop => exact popThen_pop h hc
  | popTwice =>
    cases hs : l.stack with
    | nil => simp [Config.outcomes, Config.pop, modes, hs] at hc
    | cons a as =>
      have hq : (l.onto base).pop? = some ({ l with mode := a, stack := as }.onto base) := by
        simp [pop?, onto, hs]
      have hp : l.pop? = some { l with mode := a, stack := as } := by simp [pop?, hs]
      simp only [apply, hq] at h
      simp only [apply, hp]
      exact popThen_pop h (by simpa [Config.outcomes, modes, hs] using hc)
  | closeHeredoc =>
    have hl : (l.onto base).label = l.label := rfl
    simp only [apply, hl] at h ⊢
    split at h
    · cases h
    · split at h
      · rename_i ht
        rw [(popThen_token h).2] at hc
        simp only [Config.outcomes, if_neg (hu rfl)] at hc
        simp only [if_pos ht]
        exact popThen_pop (l := { l with label := none }) h hc
      · rename_i ht
        cases h
        cases hc
        simp only [if_neg ht]
        exact ⟨l, rfl, List.mem_singleton.mpr rfl⟩

/-- If enough modes wait for a token of its kind, a token is read without those below. -/
theorem next_after (h : (l.onto base).next = .token t l')
    (hc : Config.after t.kind l.modes.settled = some cs) :
    ∃ m, l.next = .token t m ∧ l' = m.onto base ∧ m.modes.settled ∈ cs := by
  obtain ⟨r, hr, n, hn⟩ | ⟨s, hne, hs⟩ := uniform_next l
  · rw [hn] at h
    have hu : r.effect = .closeHeredoc → (l.spelling r n).kind ≠ .encapsed := by
      intro he
      simp [spelling, (Config.closeHeredoc_rules hr he).2]
    have hagree : (Config.outcomes t.kind r.effect l.modes).map (·.map Config.settled) =
        Config.after t.kind l.modes.settled := by
      obtain rfl | ⟨he, hk⟩ := apply_kind h
      · exact Config.agrees_rules l.mode r hr (l.rest.take n) l.stack
      · rw [he, hk, modes, (Config.closeHeredoc_rules hr he).1]
        rfl
    rw [hc] at hagree
    obtain ⟨cs', ho, rfl⟩ := Option.map_eq_some_iff.mp hagree
    obtain ⟨m, hm, hmem⟩ := apply_outcomes hu h ho
    have hnil := hn []
    rw [onto_nil, onto_nil, hm] at hnil
    refine ⟨m, hnil, ?_, List.mem_map_of_mem hmem⟩
    rw [apply_onto (by simp [hm]), hm] at h
    cases h
    rfl
  · rw [hs] at h
    cases s with
    | token t' m => exact absurd rfl (hne t' m)
    | finished | failed => cases h

end Lexer

namespace Filter

variable {f g : Filter} {ts : List Token} {last last' : Option Kind} {k k' : Kind}

def modes (f : Filter) : Config := f.lexer.modes.settled

/-- All but the latest `n` modes that wait can be taken to lie below. -/
theorem cut_modes (f : Filter) (n : Nat) :
    ∃ f₀ : Filter, f = f₀.onto (f.modes.2.drop n) ∧ f₀.modes = (f.modes.1, f.modes.2.take n) := by
  refine ⟨⟨{ f.lexer with stack := f.lexer.stack.take n }, f.last⟩, ?_, rfl⟩
  simp [onto, Lexer.onto, modes, Lexer.modes, Config.settled]

/-- Tokens that are left out change no mode. -/
theorem after_dropped (h : fate last k = .dropped last') (c : Config) :
    ∃ cs, Config.after k c = some cs ∧ ∀ c' ∈ cs, c' = c := by
  obtain ⟨m, ms⟩ := c
  obtain ⟨rfl, -⟩ | rfl | ⟨rfl, -⟩ := fate_dropped h
  all_goals cases m <;> simp [Config.after]

/-- A token that is handed on does to the modes what is listed for its new kind. -/
theorem after_emitted (h : fate last k = .emitted k') (c : Config) :
    Config.after k c = Config.after k' c := by
  obtain ⟨m, ms⟩ := c
  obtain rfl | ⟨rfl, rfl⟩ | ⟨rfl, rfl⟩ := fate_emitted h
  · rfl
  all_goals cases m <;> rfl

/-- Calls that hand nothing on need no mode below, and change none. -/
theorem reads_nil (h : Reads (f.onto base) [] g) :
    ∃ f', Reads f [] f' ∧ g = f'.onto base ∧ f'.modes = f.modes := by
  generalize hf : f.onto base = f₀ at h
  generalize hts : ([] : List Token) = ts at h
  induction h generalizing f with
  | refl => exact ⟨f, .refl f, hf.symm, rfl⟩
  | @skip f₀ g u l last ts h hp _ ih =>
    subst hf hts
    obtain ⟨cs, hc, hkeep⟩ := after_dropped hp f.modes
    obtain ⟨m, hn, rfl, hm⟩ := Lexer.next_after h hc
    obtain ⟨f', hr, hg, hmodes⟩ := ih (f := ⟨m, last⟩) rfl rfl
    exact ⟨f', .skip hn hp hr, hg, hmodes.trans (hkeep _ hm)⟩
  | hand => cases hts

/-- If enough modes wait for a token of its kind, a token is handed on without those below. -/
theorem reads_after (h : Reads (f.onto base) (t :: ts) g)
    (hc : Config.after t.kind f.modes = some cs) :
    ∃ f', Reads f [t] f' ∧ Reads (f'.onto base) ts g ∧ f'.modes ∈ cs := by
  generalize hf : f.onto base = f₀ at h
  generalize hts : t :: ts = us at h
  induction h generalizing f with
  | refl => cases hts
  | @skip f₀ g u l last us h hp hr ih =>
    subst hf hts
    obtain ⟨cs', hc', hkeep⟩ := after_dropped hp f.modes
    obtain ⟨m, hn, rfl, hm⟩ := Lexer.next_after h hc'
    have hmodes : modes ⟨m, last⟩ = f.modes := hkeep _ hm
    obtain ⟨f', hr', hrest⟩ := ih (f := ⟨m, last⟩) (hmodes ▸ hc) rfl rfl
    exact ⟨f', .skip hn hp hr', hrest⟩
  | @hand f₀ g u l k us h hp hr ih =>
    subst hf
    cases hts
    rw [← after_emitted hp] at hc
    obtain ⟨m, hn, rfl, hm⟩ := Lexer.next_after h hc
    exact ⟨⟨m, some k⟩, .hand hn hp (.refl _), hr, hm⟩

end Filter
end Docblock
