import Docblock.Proofs.Token.Lexing

/-! Lines are counted exactly: a rule that does not count them matches no line feed. -/
namespace Docblock.Token.Pattern

variable {p q : Pattern} {c : Char → Bool} {cs : List Char} {k n : Nat}

/-- No line feed is among the first `n` characters. -/
def Unbroken (cs : List Char) (n : Nat) : Prop := '\n' ∉ cs.take n

/-- A pattern that matches no line feed. -/
def OneLine (p : Pattern) : Prop := ∀ cs n, p cs = some n → Unbroken cs n

theorem unbroken_zero (cs : List Char) : Unbroken cs 0 := by simp [Unbroken]

theorem unbroken_add (h : Unbroken cs k) (h' : Unbroken (cs.drop k) n) : Unbroken cs (k + n) := by
  rw [Unbroken, List.take_add, List.mem_append]
  exact fun hm => hm.elim h h'

theorem unbroken_cons {d : Char} (hd : d ≠ '\n') (h : Unbroken cs n) :
    Unbroken (d :: cs) (1 + n) := by
  rw [Unbroken, Nat.add_comm, List.take_succ_cons, List.mem_cons]
  exact fun hm => hm.elim (fun he => hd he.symm) h

theorem unbroken_takeWhile (hc : c '\n' = false) (cs : List Char) :
    Unbroken cs (cs.takeWhile c).length := by
  rw [Unbroken, ← List.prefix_iff_eq_take.mp (List.takeWhile_prefix c)]
  intro hm
  have := List.all_eq_true.mp List.all_takeWhile _ hm
  simp [hc] at this

theorem unbroken_run (hc : c '\n' = false) (cs : List Char) : Unbroken cs (run c cs) :=
  unbroken_takeWhile hc cs

theorem OneLine.map_add (hp : p.OneLine) (hk : Unbroken cs k)
    (h : (p (cs.drop k)).map (k + ·) = some n) : Unbroken cs n := by
  obtain ⟨m, hm, rfl⟩ := Option.map_eq_some_iff.mp h
  exact unbroken_add hk (hp _ m hm)

theorem oneLine_exactly {s : String} (hs : '\n' ∉ s.toList) : (exactly s).OneLine := by
  intro cs n h
  simp only [exactly] at h
  split at h
  · rename_i hp
    cases h
    have ht := List.prefix_iff_eq_take.mp (List.isPrefixOf_iff_prefix.mp hp)
    rw [String.length_toList] at ht
    rwa [Unbroken, ← ht]
  · cases h

theorem oneLine_exactlyNotBefore {s : String} (hs : '\n' ∉ s.toList) :
    (exactlyNotBefore s c).OneLine :=
  fun cs n h => oneLine_exactly hs cs n (exactly_of_notBefore h)

theorem oneLine_exactlyBefore {s : String} (hs : '\n' ∉ s.toList) :
    (exactlyBefore s c).OneLine :=
  fun cs n h => oneLine_exactly hs cs n (exactly_of_before h)

theorem oneLine_orElse (hp : p.OneLine) (hq : q.OneLine) : (orElse p q).OneLine := by
  intro cs n h
  simp only [orElse] at h
  rcases hc : p cs with _ | m
  · exact hq cs n (by simpa [hc] using h)
  · obtain rfl : m = n := by simpa [hc] using h
    exact hp cs m hc

theorem oneLine_some1 (hc : c '\n' = false) : (some1 c).OneLine := by
  intro cs n h
  have hr := unbroken_run hc cs
  simp only [some1] at h
  split at h
  · cases h
  · rename_i hn
    cases h
    rwa [hn] at hr

theorem oneLine_identifier : identifier.OneLine := by
  intro cs n h
  cases cs with
  | nil => cases h
  | cons d ds =>
    simp only [identifier] at h
    split at h
    · rename_i hd
      cases h
      refine unbroken_cons ?_ (unbroken_run (by decide) ds)
      rintro rfl
      exact absurd hd (by decide)
    · cases h

theorem oneLine_variableName : variableName.OneLine := by
  intro cs n h
  unfold variableName at h
  split at h
  · obtain ⟨m, hm, rfl⟩ := Option.map_eq_some_iff.mp h
    exact unbroken_cons (by decide) (oneLine_identifier _ m hm)
  · cases h

theorem oneLine_digits : digits.OneLine := oneLine_some1 (by decide)

theorem oneLine_exponent : exponent.OneLine := by
  intro cs n h
  unfold exponent at h
  split at h
  · rename_i e s ds
    split at h
    · rename_i he
      have hmark : e ≠ '\n' := by
        rintro rfl
        exact absurd he (by decide)
      split at h
      · rename_i hs
        obtain ⟨m, hm, rfl⟩ := Option.map_eq_some_iff.mp h
        have hsign : s ≠ '\n' := by
          rintro rfl
          exact absurd hs (by decide)
        have htail := unbroken_cons hmark (unbroken_cons hsign (oneLine_digits _ m hm))
        rwa [← Nat.add_assoc] at htail
      · obtain ⟨m, hm, rfl⟩ := Option.map_eq_some_iff.mp h
        exact unbroken_cons hmark (oneLine_digits _ m hm)
    · cases h
  · cases h

theorem oneLine_double : double.OneLine := by
  intro cs n h
  have hw : Unbroken cs (run Text.isDigit cs) := unbroken_run (by decide) cs
  simp only [double] at h
  split at h
  · rename_i rest hd
    split at h
    · cases h
    · cases h
      have hf : Unbroken rest (run Text.isDigit rest) := unbroken_run (by decide) rest
      -- The exponent may be missing, and then nothing is left.
      have he : Unbroken (rest.drop (run Text.isDigit rest))
          ((exponent (rest.drop (run Text.isDigit rest))).getD 0) := by
        rcases hx : exponent (rest.drop (run Text.isDigit rest)) with _ | m
        · exact unbroken_zero _
        · exact oneLine_exponent _ m hx
      have htail := unbroken_cons (d := '.') (by decide) (unbroken_add hf he)
      rw [← hd] at htail
      have hall := unbroken_add hw htail
      rwa [← Nat.add_assoc, ← Nat.add_assoc] at hall
  · split at h
    · cases h
    · exact oneLine_exponent.map_add hw h

theorem oneLine_hexadecimal : hexadecimal.OneLine := by
  intro cs n h
  unfold hexadecimal at h
  split at h
  · obtain ⟨m, hm, rfl⟩ := Option.map_eq_some_iff.mp h
    have hdigits := oneLine_some1 (c := isHexDigit) (by decide) _ m hm
    have hmark := unbroken_cons (d := 'x') (by decide) hdigits
    have htail := unbroken_cons (d := '0') (by decide) hmark
    rwa [← Nat.add_assoc] at htail
  · cases h

theorem oneLine_integer : integer.OneLine := oneLine_orElse oneLine_hexadecimal oneLine_digits

theorem oneLine_cast (words : List String) : (cast words).OneLine := by
  intro cs n h
  unfold cast at h
  split at h
  · rename_i ds
    simp only at h
    split at h
    · rename_i rest hd
      split at h
      · cases h
        have hbefore : Unbroken ds (run isTab ds) := unbroken_run (by decide) ds
        have hword := unbroken_add hbefore
          (unbroken_takeWhile (c := Char.isAlpha) (by decide) (ds.drop (run isTab ds)))
        have hafter := unbroken_add hword (unbroken_run (c := isTab) (by decide) _)
        have hclose := unbroken_cons (d := ')') (by decide) (unbroken_zero rest)
        rw [← hd] at hclose
        have hall := unbroken_cons (d := '(') (by decide) (unbroken_add hafter hclose)
        simpa only [← Nat.add_assoc, Nat.add_zero] using hall
      · cases h
    · cases h
  · cases h

end Docblock.Token.Pattern

namespace Docblock.Token

open Rule Pattern

/-- The rule counts lines, or it has none to count. -/
def Rule.Accurate (r : Rule) : Prop := r.countsLines = false → r.pattern.OneLine

theorem Rule.accurate_counting (r : Rule) : (counting r).Accurate := by
  simp [Accurate, counting]

theorem Rule.accurate_plain {k : Kind} {p : Pattern} : (plain k p).Accurate ↔ p.OneLine := by
  simp [Accurate, plain]

theorem Rule.accurate_withEffect {k : Kind} {p : Pattern} {ef : Effect} :
    (withEffect k p ef).Accurate ↔ p.OneLine := by
  simp [Accurate, withEffect]

theorem Rule.accurate_codeClasses : ∀ r ∈ codeClasses, r.Accurate := by
  simp only [codeClasses, Rule.casts, List.forall_mem_append, List.forall_mem_map,
    List.forall_mem_cons, accurate_counting, accurate_plain, accurate_withEffect, true_and]
  refine ⟨⟨⟨oneLine_exactly (by decide), oneLine_exactly (by decide), oneLine_exactly (by decide),
    oneLine_exactly (by decide), oneLine_exactly (by decide), fun _ => oneLine_identifier,
    oneLine_variableName, oneLine_double, oneLine_integer, oneLine_exactly (by decide), by simp⟩,
    fun _ _ => oneLine_cast _⟩,
    oneLine_orElse (oneLine_exactlyNotBefore (by decide)) (oneLine_exactly (by decide)),
    oneLine_exactlyNotBefore (by decide), by simp⟩

theorem Rule.accurate_codeSigns : ∀ r ∈ codeSigns, r.Accurate := by
  simp only [codeSigns, List.forall_mem_cons, fixed, accurate_plain]
  repeat refine ⟨oneLine_exactly (by decide), ?_⟩
  simp

theorem Mode.accurate_rules (m : Mode) : ∀ r ∈ m.rules, r.Accurate := by
  cases m <;>
    simp only [Mode.rules, List.forall_mem_append, List.forall_mem_cons, accurate_counting,
      accurate_plain, accurate_withEffect, true_and]
  case html => exact ⟨by simp [Accurate], by simp⟩
  case code => exact ⟨accurate_codeClasses, accurate_codeSigns⟩
  case quoted =>
    exact ⟨oneLine_exactly (by decide), oneLine_variableName, oneLine_exactlyBefore (by decide),
      oneLine_exactly (by decide), by simp⟩
  case quotedVar =>
    exact ⟨oneLine_variableName, oneLine_exactly (by decide), oneLine_exactly (by decide),
      oneLine_exactlyBefore (by decide), oneLine_exactlyBefore (by decide),
      oneLine_exactly (by decide), by simp⟩
  case varName =>
    exact ⟨oneLine_exactly (by decide), oneLine_exactly (by decide), oneLine_identifier, by simp⟩
  case offset =>
    exact ⟨oneLine_exactly (by decide), oneLine_variableName, oneLine_identifier, oneLine_digits,
      by simp⟩
  case property => exact ⟨oneLine_identifier, by simp⟩
  case heredoc =>
    exact ⟨oneLine_exactlyBefore (by decide), oneLine_exactly (by decide),
      fun _ => oneLine_identifier, oneLine_variableName, by simp⟩
  case heredocVar =>
    exact ⟨oneLine_variableName, oneLine_exactly (by decide), oneLine_exactlyBefore (by decide),
      oneLine_exactlyBefore (by decide), oneLine_exactly (by decide), by simp⟩

end Docblock.Token

namespace Docblock.Lexer

open Token

variable {l l' : Lexer} {r : Rule} {n : Nat} {t : Token} {cs : List Char} {start : Int}

/-- Behind the match of a rule, all the lines that end in it are counted. -/
theorem line_advance (hr : r ∈ l.mode.rules) (hn : r.length? l.behind l.rest = some n) :
    (l.advance r n).line = l.line + (l.rest.take n).count '\n' := by
  cases hc : r.countsLines with
  | true => simp [advance, hc]
  | false =>
    have hone : '\n' ∉ l.rest.take n := l.mode.accurate_rules r hr hc _ n (pattern_of_length? hn)
    simp [advance, hc, List.count_eq_zero.mpr hone]

/-- The line is the first one and the line feeds that the lexer has read. -/
def Counted (cs : List Char) (start : Int) (l : Lexer) : Prop :=
  l.line = start + (cs.take l.pos.toNat).count '\n'

/-- Every call counts the lines it reads, whatever it gives. -/
theorem counted_next (hw : Within cs l) (hc : Counted cs start l) :
    Counted cs start l.next.reader := by
  obtain ⟨hr, he⟩ | he | ⟨r, hr, n, hn, he⟩ := next_cases hw.text hw.nonneg
  · -- At the end only the position moves, and no character is left for it to pass.
    have hlen : cs.length ≤ l.pos.toNat := List.drop_eq_nil_iff.mp (hw.rest ▸ hr)
    have hnn := hw.nonneg
    rw [Counted, List.take_of_length_le hlen] at hc
    rw [he, Counted, Scan.reader, List.take_of_length_le (by simp only; omega)]
    exact hc
  · rw [he]
    exact hc
  · have hs := samePlace_apply (l.advance r n) (l.spelling r n) r.effect
    rw [he, Counted, hs.line, hs.pos, line_advance hr hn, (within_advance hw r n).2, hc,
      List.take_add, List.count_append, ← hw.rest]
    omega

theorem counted_atCall (l : Lexer) (cs : List Char) (n : Nat) :
    Counted cs l.line ((l.input cs).atCall n) := by
  induction n with
  | zero => simp [atCall, Counted, input]
  | succ n ih => exact counted_next (within_atCall l cs n) ih

/-- A token is given the line and the position of the lexer, and its text stands there. -/
theorem token_at (h : l.next = .token t l') :
    t.pos = l.pos ∧ t.line = l.line ∧ t.text.toList <+: l.rest := by
  obtain ⟨r, -, n, -, ha⟩ := next_token h
  obtain ⟨-, -, hline, hpos⟩ := apply_token ha
  obtain ⟨-, hrest⟩ := next_token_rest h
  exact ⟨hpos, hline, hrest ▸ List.prefix_append _ _⟩

/-- From whatever line and in whatever mode a text is started on, at every call the line is that
of the position: the first line and the line feeds before it. So is the line of a token, which is
found at its position. -/
theorem line_exact (l : Lexer) (cs : List Char) (n : Nat) :
    let p := (l.input cs).atCall n
    ∃ k : Nat, p.pos = k ∧ p.line = l.line + (cs.take k).count '\n' ∧
      ∀ t p', p.next = .token t p' →
        t.pos = k ∧ t.text.toList <+: cs.drop k ∧ t.line = l.line + (cs.take k).count '\n' := by
  intro p
  have hw : Within cs p := within_atCall l cs n
  have hc : Counted cs l.line p := counted_atCall l cs n
  have hk : p.pos = p.pos.toNat := (Int.toNat_of_nonneg hw.nonneg).symm
  refine ⟨p.pos.toNat, hk, hc, ?_⟩
  intro t p' h
  obtain ⟨hpos, hline, htext⟩ := token_at h
  exact ⟨hpos.trans hk, hw.rest ▸ htext, hline.trans hc⟩

end Docblock.Lexer
