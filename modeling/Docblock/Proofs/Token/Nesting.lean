import Docblock.Proofs.Token.Lexing

/-! Which modes wait below which, and the one place where none is left to go back to. -/
namespace Docblock

open Token

namespace Token

/-- What may wait right below a mode; `none` stands for nothing. -/
def Mode.bases : Mode → List (Option Mode)
  | .html | .code => [none, some .code, some .quoted, some .varName, some .heredoc]
  | .quoted | .heredoc => [some .code]
  | .quotedVar => [some .quoted]
  | .heredocVar => [some .heredoc]
  | .varName | .offset => [some .quoted, some .heredoc]
  | .property => [some .code, some .quoted, some .heredoc]

/-- A mode and those that wait for it, each on what may wait right below it. -/
def Mode.Nested : Mode → List Mode → Prop
  | m, [] => none ∈ m.bases
  | m, b :: bs => some b ∈ m.bases ∧ Nested b bs

/-- Whether an effect in a mode leaves nested modes nested. It may find nothing to go back to only
where the mode may have nothing below it, and plain text is never left that way. -/
def Effect.nests (m : Mode) : Effect → Bool
  | .stay => true
  | .push a | .pushAtName a => a.bases.contains (some m)
  | .pushByName a b => a.bases.contains (some m) && b.bases.contains (some m)
  | .enter a => m.bases.all a.bases.contains
  | .enterByName a b => m.bases.all a.bases.contains && m.bases.all b.bases.contains
  | .pop => m != .html
  | .popTwice => m.bases.all (·.any fun b => !b.bases.contains none)
  | .openHeredoc => Mode.heredoc.bases.contains (some m)
  | .closeHeredoc => !m.bases.contains none

theorem Mode.nests_rules (m : Mode) : ∀ r ∈ m.rules, r.effect.nests m = true := by
  cases m <;> decide

/-- Where a mode may have nothing below it. -/
theorem Mode.none_mem_bases {m : Mode} (h : none ∈ m.bases) : m = .html ∨ m = .code := by
  cases m <;> revert h <;> decide

/-- Code may rest on whatever any mode does. -/
theorem Mode.mem_bases_code (m : Mode) : ∀ b ∈ m.bases, b ∈ Mode.code.bases := by
  cases m <;> decide

/-- A mode that goes in the place of another rests on whatever that one did. -/
theorem Mode.Nested.replace {m a : Mode} {ms : List Mode} (h : m.Nested ms)
    (ha : m.bases.all a.bases.contains = true) : a.Nested ms := by
  have hsub : ∀ b ∈ m.bases, b ∈ a.bases := by simpa using ha
  cases ms with
  | nil => exact hsub _ h
  | cons b bs => exact ⟨hsub _ h.1, h.2⟩

theorem Mode.Nested.push {m a : Mode} {ms : List Mode} (h : m.Nested ms)
    (ha : a.bases.contains (some m) = true) : a.Nested (m :: ms) :=
  ⟨by simpa using ha, h⟩

theorem Mode.Nested.head? {m : Mode} {ms : List Mode} (h : m.Nested ms) : ms.head? ∈ m.bases := by
  cases ms with
  | nil => exact h
  | cons b bs => exact h.1

/-- What waits below one of the modes is nested too. -/
theorem Mode.Nested.below {m b : Mode} {above below : List Mode}
    (h : m.Nested (above ++ b :: below)) : b.Nested below := by
  induction above generalizing m with
  | nil => exact h.2
  | cons a above ih => exact ih h.2

/-- Only these modes are ever left waiting. -/
theorem Mode.Nested.entry {m b : Mode} {ms : List Mode} (h : m.Nested ms) (hb : b ∈ ms) :
    b = .code ∨ b = .quoted ∨ b = .varName ∨ b = .heredoc := by
  induction ms generalizing m with
  | nil => cases hb
  | cons a as ih =>
    obtain rfl | hb := List.mem_cons.mp hb
    · simpa [bases] using m.mem_bases_code _ h.1
    · exact ih h.2 hb

end Token

namespace Lexer

variable {l l' : Lexer} {t : Token} {ef : Effect} {cs : List Char}

/-- The modes of the lexer are nested. -/
def Nested (l : Lexer) : Prop := l.mode.Nested l.stack

theorem nested_popThen (h : l.Nested) (t : Token) : (l.popThen t).reader.Nested := by
  cases hs : l.stack with
  | nil => simpa [popThen, pop?, hs, Scan.reader] using h
  | cons b bs =>
    rw [Nested, hs] at h
    simpa [popThen, pop?, hs, Scan.reader, Nested] using h.2

/-- An effect that fits its mode keeps the modes nested, also where it fails. -/
theorem nested_apply (h : l.Nested) (hk : ef.nests l.mode = true) (t : Token) :
    (l.apply t ef).reader.Nested := by
  cases ef with
  | stay => exact h
  | push a => exact h.push hk
  | pop => exact nested_popThen h t
  | enter a => exact h.replace hk
  | pushAtName a =>
    simp only [apply, Scan.reader]
    split
    · exact h.push hk
    · exact h
  | pushByName a b =>
    obtain ⟨ha, hb⟩ := Bool.and_eq_true_iff.mp hk
    simp only [apply, Scan.reader]
    split
    · exact h.push ha
    · exact h.push hb
  | enterByName a b =>
    obtain ⟨ha, hb⟩ := Bool.and_eq_true_iff.mp hk
    simp only [apply, Scan.reader]
    split
    · exact h.replace ha
    · exact h.replace hb
  | openHeredoc => exact h.push hk
  | popTwice =>
    cases hs : l.stack with
    | nil => simpa [apply, pop?, hs, Scan.reader] using h
    | cons b bs =>
      rw [Nested, hs] at h
      have hb : Nested { l with mode := b, stack := bs } := h.2
      simpa [apply, pop?, hs] using nested_popThen hb t
  | closeHeredoc =>
    simp only [apply]
    split
    · exact h
    · split
      · exact nested_popThen (l := { l with label := none }) h t
      · exact h

/-- An effect that fits its mode lacks a mode to go back to only when code is left and nothing
waits below it. -/
theorem nested_noMode (h : l.Nested) (hk : ef.nests l.mode = true)
    (ha : l.apply t ef = .failed .noMode l') : ef = .pop ∧ l.mode = .code ∧ l.stack = [] := by
  have hempty : l.stack = [] → none ∈ l.mode.bases := by
    intro hs
    rwa [Nested, hs] at h
  cases ef with
  | stay | push | enter | pushAtName | pushByName | enterByName | openHeredoc => cases ha
  | pop =>
    cases hs : l.stack with
    | nil =>
      obtain hm | hm := Mode.none_mem_bases (hempty hs)
      · rw [hm] at hk
        cases hk
      · exact ⟨rfl, hm, rfl⟩
    | cons b bs => simp [apply, popThen, pop?, hs] at ha
  | popTwice =>
    have hbases : ∀ b ∈ l.mode.bases, ∃ m ∈ b, none ∉ m.bases := by
      simpa [Effect.nests, Option.any_eq_true] using hk
    cases hs : l.stack with
    | nil =>
      obtain ⟨m, hm, -⟩ := hbases _ (hempty hs)
      cases hm
    | cons b bs =>
      rw [Nested, hs] at h
      obtain ⟨m, hm, hnone⟩ := hbases _ h.1
      cases hm
      cases bs with
      | nil => exact absurd h.2 hnone
      | cons => simp [apply, popThen, pop?, hs] at ha
  | closeHeredoc =>
    have hbase : none ∉ l.mode.bases := by simpa [Effect.nests] using hk
    cases hs : l.stack with
    | nil => exact absurd (hempty hs) hbase
    | cons b bs =>
      simp only [apply, popThen, pop?, hs] at ha
      repeat' split at ha
      all_goals cases ha

/-- The rules by which code is left. -/
theorem pop_rules_code :
    (Mode.code.rules.filter fun r => r.effect = .pop) =
      [Rule.withEffect .rightBracket (Pattern.exactly "]") .pop,
        Rule.withEffect .rightBrace (Pattern.exactly "\x7d") .pop] := rfl

theorem head?_of_exactly {s : String} {c : Char} {n : Nat} (hs : s.toList = [c])
    (h : Pattern.exactly s cs = some n) : cs.head? = some c := by
  simp only [Pattern.exactly, hs] at h
  split at h
  · rename_i hp
    obtain ⟨rest, rfl⟩ := List.isPrefixOf_iff_prefix.mp hp
    rfl
  · cases h

/-- Code is left at a closing bracket or brace. -/
theorem head?_of_pop_code {r : Rule} {n : Nat} (hr : r ∈ Mode.code.rules) (he : r.effect = .pop)
    (h : r.pattern cs = some n) : cs.head? = some ']' ∨ cs.head? = some '\x7d' := by
  have hmem : r ∈ Mode.code.rules.filter fun r => r.effect = .pop := by simp [hr, he]
  simp only [pop_rules_code, List.mem_cons, List.not_mem_nil, or_false] at hmem
  obtain rfl | rfl := hmem
  · exact Or.inl (head?_of_exactly rfl h)
  · exact Or.inr (head?_of_exactly rfl h)

/-- A closing bracket or brace is what leaves code. -/
theorem firstMatch_closing {c : Char} (hc : c = ']' ∨ c = '\x7d') (behind : Option Char)
    (cs : List Char) :
    ∃ r n, firstMatch Mode.code.rules behind (c :: cs) = some (r, n) ∧ r.effect = .pop := by
  obtain rfl | rfl := hc
  · exact ⟨_, _, rfl, rfl⟩
  · exact ⟨_, _, rfl, rfl⟩

/-- A call lacks a mode to go back to exactly at a closing bracket or brace in code that nothing
waits for. -/
theorem next_noMode_iff (hw : Within cs l) (h : l.Nested) :
    (∃ l', l.next = .failed .noMode l') ↔
      l.mode = .code ∧ l.stack = [] ∧ (l.rest.head? = some ']' ∨ l.rest.head? = some '\x7d') := by
  constructor
  · rintro ⟨l', hn⟩
    obtain ⟨-, he⟩ | he | ⟨r, hr, n, hlen, he⟩ := next_cases hw.text hw.nonneg
    · rw [he] at hn
      cases hn
    · rw [he] at hn
      cases hn
    · rw [he] at hn
      have hadv : (l.advance r n).Nested := h
      obtain ⟨hpop, hmode, hstack⟩ := nested_noMode hadv (l.mode.nests_rules r hr) hn
      have hcode : l.mode = .code := hmode
      rw [hcode] at hr
      exact ⟨hcode, hstack, head?_of_pop_code hr hpop (pattern_of_length? hlen)⟩
  · rintro ⟨hm, hs, hhead⟩
    obtain ⟨c, rest, hrest, hc⟩ : ∃ c rest, l.rest = c :: rest ∧ (c = ']' ∨ c = '\x7d') := by
      cases hr : l.rest with
      | nil => simp [hr] at hhead
      | cons c rest => exact ⟨c, rest, rfl, by simpa [hr] using hhead⟩
    obtain ⟨r, n, hmatch, hpop⟩ := firstMatch_closing hc l.behind rest
    have hpos : ¬ l.pos < 0 := by have := hw.nonneg; omega
    refine ⟨l.advance r n, ?_⟩
    simp only [next, hw.text, hpos, if_false, hrest]
    simp [scan, hm, hrest, hmatch, hpop, apply, popThen, pop?, advance, hs]

theorem nested_next (hw : Within cs l) (h : l.Nested) : l.next.reader.Nested := by
  obtain ⟨-, he⟩ | he | ⟨r, hr, n, -, he⟩ := next_cases hw.text hw.nonneg
  · rw [he]
    exact h
  · rw [he]
    exact h
  · rw [he]
    exact nested_apply (l := l.advance r n) h (l.mode.nests_rules r hr) _

/-- The lexer at the start of a text, which it takes for plain text; no mode waits. -/
def restart (l : Lexer) (cs : List Char) : Lexer :=
  { l with mode := .html, stack := [] }.input cs

theorem nested_atCall (l : Lexer) (cs : List Char) (n : Nat) :
    ((l.restart cs).atCall n).Nested := by
  induction n with
  | zero => exact List.mem_cons_self
  | succ n ih => exact nested_next (within_atCall _ cs n) ih

/-- The modes that wait, and the latest of them by the mode of the lexer. -/
structure Disciplined (l : Lexer) : Prop where
  entries : ∀ m ∈ l.stack, m = .code ∨ m = .quoted ∨ m = .varName ∨ m = .heredoc
  bottom : ∀ m, l.stack.getLast? = some m → m = .code
  texts : ∀ (above : List Mode) (m : Mode) (below : List Mode),
    l.stack = above ++ m :: below → m = .quoted ∨ m = .heredoc →
    below.head? = some .code
  names : ∀ above below : List Mode, l.stack = above ++ Mode.varName :: below →
    below.head? = some .quoted ∨ below.head? = some .heredoc
  inText : l.mode = .quoted ∨ l.mode = .heredoc → l.stack.head? = some .code
  inQuotedVar : l.mode = .quotedVar → l.stack.head? = some .quoted
  inHeredocVar : l.mode = .heredocVar → l.stack.head? = some .heredoc
  inName : l.mode = .varName ∨ l.mode = .offset →
    l.stack.head? = some .quoted ∨ l.stack.head? = some .heredoc
  inProperty : l.mode = .property →
    l.stack.head? = some .code ∨ l.stack.head? = some .quoted ∨ l.stack.head? = some .heredoc

theorem Nested.disciplined (h : l.Nested) : l.Disciplined where
  entries _ hm := Mode.Nested.entry h hm
  bottom m hm := by
    obtain ⟨above, hs⟩ := List.getLast?_eq_some_iff.mp hm
    have hmem : m ∈ l.stack := by simp [hs]
    rw [Nested, hs] at h
    obtain rfl | rfl := Mode.none_mem_bases h.below
    · obtain he | he | he | he := Mode.Nested.entry h (hs ▸ hmem) <;> cases he
    · rfl
  texts above m below hs hm := by
    rw [Nested, hs] at h
    have hhead := h.below.head?
    obtain rfl | rfl := hm <;> simpa [Mode.bases] using hhead
  names above below hs := by
    rw [Nested, hs] at h
    simpa [Mode.bases] using h.below.head?
  inText hm := by
    have hhead := Mode.Nested.head? h
    obtain hm | hm := hm <;> simpa [hm, Mode.bases] using hhead
  inQuotedVar hm := by simpa [hm, Mode.bases] using Mode.Nested.head? h
  inHeredocVar hm := by simpa [hm, Mode.bases] using Mode.Nested.head? h
  inName hm := by
    have hhead := Mode.Nested.head? h
    obtain hm | hm := hm <;> simpa [hm, Mode.bases] using hhead
  inProperty hm := by simpa [hm, Mode.bases] using Mode.Nested.head? h

/-- However far a text is read from its start, the modes that wait are disciplined, and the call
that comes next lacks one to go back to exactly at a closing bracket or brace in code with none
waiting. -/
theorem stack_disciplined (l : Lexer) (cs : List Char) (n : Nat) :
    let p := (l.restart cs).atCall n
    p.Disciplined ∧
      ((∃ p', p.next = .failed .noMode p') ↔
        p.mode = .code ∧ p.stack = [] ∧
          (p.rest.head? = some ']' ∨ p.rest.head? = some '\x7d')) := by
  intro p
  have hn : p.Nested := nested_atCall l cs n
  exact ⟨hn.disciplined, next_noMode_iff (within_atCall _ cs n) hn⟩

end Lexer
end Docblock
