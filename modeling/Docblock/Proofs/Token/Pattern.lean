import Docblock.Token.Rule

/-! Every pattern matches a start of the text that is not empty. -/
namespace Docblock.Token.Pattern

/-- A match is not empty and lies within the text. -/
def Bounded (p : Pattern) : Prop := ∀ cs n, p cs = some n → 0 < n ∧ n ≤ cs.length

variable {p q : Pattern} {c : Char → Bool} {cs : List Char} {n : Nat}

theorem run_le (c : Char → Bool) (cs : List Char) : run c cs ≤ cs.length :=
  (List.takeWhile_sublist c).length_le

theorem length_le_of_isPrefixOf {s : String} (h : s.toList.isPrefixOf cs = true) :
    s.length ≤ cs.length := by
  simpa only [String.length_toList] using (List.isPrefixOf_iff_prefix.mp h).length_le

/-- A part behind `k` characters that were matched. -/
theorem Bounded.map_add (hp : p.Bounded) {k : Nat} (h : (p cs).map (k + ·) = some n) :
    k < n ∧ n ≤ k + cs.length := by
  obtain ⟨m, hm, rfl⟩ := Option.map_eq_some_iff.mp h
  have := hp cs m hm
  omega

theorem bounded_exactly {s : String} (hs : 0 < s.length) : (exactly s).Bounded := by
  intro cs n h
  simp only [exactly] at h
  split at h
  · rename_i hp
    cases h
    exact ⟨hs, length_le_of_isPrefixOf hp⟩
  · cases h

theorem exactly_of_notBefore {s : String} (h : exactlyNotBefore s c cs = some n) :
    exactly s cs = some n := by
  simp only [exactlyNotBefore] at h
  split at h
  · rename_i hp
    rwa [exactly, if_pos (Bool.and_eq_true_iff.mp hp).1]
  · cases h

theorem exactly_of_before {s : String} (h : exactlyBefore s c cs = some n) :
    exactly s cs = some n := by
  simp only [exactlyBefore] at h
  split at h
  · rename_i hp
    rwa [exactly, if_pos (Bool.and_eq_true_iff.mp hp).1]
  · cases h

theorem bounded_exactlyNotBefore {s : String} (hs : 0 < s.length) :
    (exactlyNotBefore s c).Bounded :=
  fun cs n h => bounded_exactly hs cs n (exactly_of_notBefore h)

theorem bounded_exactlyBefore {s : String} (hs : 0 < s.length) :
    (exactlyBefore s c).Bounded :=
  fun cs n h => bounded_exactly hs cs n (exactly_of_before h)

theorem bounded_orElse (hp : p.Bounded) (hq : q.Bounded) : (orElse p q).Bounded := by
  intro cs n h
  simp only [orElse] at h
  rcases hc : p cs with _ | m
  · exact hq cs n (by simpa [hc] using h)
  · obtain rfl : m = n := by simpa [hc] using h
    exact hp cs m hc

theorem bounded_some1 (c : Char → Bool) : (some1 c).Bounded := by
  intro cs n h
  have hr := run_le c cs
  simp only [some1] at h
  split at h
  · cases h
  · cases h
    omega

theorem bounded_identifier : identifier.Bounded := by
  intro cs n h
  cases cs with
  | nil => cases h
  | cons d ds =>
    have hr := run_le Text.isWord ds
    simp only [identifier] at h
    split at h
    · cases h
      simp only [List.length_cons]
      omega
    · cases h

theorem bounded_variableName : variableName.Bounded := by
  intro cs n h
  unfold variableName at h
  split at h
  · have := bounded_identifier.map_add h
    simp only [List.length_cons]
    omega
  · cases h

theorem bounded_exponent : exponent.Bounded := by
  intro cs n h
  unfold exponent at h
  split at h
  · split at h
    · split at h
      · have := (bounded_some1 _).map_add h
        simp only [List.length_cons]
        omega
      · have := (bounded_some1 _).map_add h
        simp only [List.length_cons] at this ⊢
        omega
    · cases h
  · cases h

theorem bounded_double : double.Bounded := by
  intro cs n h
  have hw := run_le Text.isDigit cs
  simp only [double] at h
  split at h
  · rename_i rest hd
    have hl : rest.length + 1 = cs.length - run Text.isDigit cs := by
      simpa using (congrArg List.length hd).symm
    have hf := run_le Text.isDigit rest
    split at h
    · cases h
    · cases h
      -- The exponent, if there is one, ends within what is left behind the fraction.
      have he : (exponent (rest.drop (run Text.isDigit rest))).getD 0 ≤
          rest.length - run Text.isDigit rest := by
        rcases hx : exponent (rest.drop (run Text.isDigit rest)) with _ | m
        · simp
        · simpa using (bounded_exponent _ _ hx).2
      omega
  · split at h
    · cases h
    · have := bounded_exponent.map_add h
      simp only [List.length_drop] at this
      omega

theorem bounded_hexadecimal : hexadecimal.Bounded := by
  intro cs n h
  unfold hexadecimal at h
  split at h
  · have := (bounded_some1 _).map_add h
    simp only [List.length_cons]
    omega
  · cases h

theorem bounded_integer : integer.Bounded :=
  bounded_orElse bounded_hexadecimal (bounded_some1 _)

theorem bounded_closingQuote : closingQuote.Bounded := by
  intro cs
  fun_induction closingQuote cs with
  | case1 | case4 => intro n h; cases h
  | case2 => intro n h; cases h; simp
  | case3 _ ds ih =>
    intro n h
    obtain ⟨m, hm, rfl⟩ := Option.map_eq_some_iff.mp h
    have := ih m hm
    simp only [List.length_cons]
    omega
  | case5 _ ds _ _ _ ih =>
    intro n h
    obtain ⟨m, hm, rfl⟩ := Option.map_eq_some_iff.mp h
    have := ih m hm
    simp only [List.length_cons]
    omega

theorem bounded_singleQuoted : singleQuoted.Bounded := by
  intro cs n h
  unfold singleQuoted at h
  split at h
  · have := bounded_closingQuote.map_add h
    simp only [List.length_cons]
    omega
  · cases h

theorem bounded_closingComment : closingComment.Bounded := by
  intro cs
  fun_induction closingComment cs with
  | case1 => intro n h; cases h
  | case2 => intro n h; cases h; simp
  | case3 _ ds _ ih =>
    intro n h
    obtain ⟨m, hm, rfl⟩ := Option.map_eq_some_iff.mp h
    have := ih m hm
    simp only [List.length_cons]
    omega

theorem bounded_docComment : docComment.Bounded := by
  intro cs n h
  unfold docComment at h
  split at h
  · have := bounded_closingComment.map_add h
    simp only [List.length_cons]
    omega
  · cases h

theorem bounded_blockComment : blockComment.Bounded := by
  intro cs n h
  unfold blockComment at h
  split at h
  · have := bounded_closingComment.map_add h
    simp only [List.length_cons]
    omega
  · cases h

theorem lineRest_le (cs : List Char) : lineRest cs ≤ cs.length := by
  fun_induction lineRest cs <;> simp only [List.length_cons, List.length_nil] <;> omega

theorem bounded_lineComment : lineComment.Bounded := by
  intro cs n h
  unfold lineComment at h
  split at h
  · rename_i ds
    have := lineRest_le ds
    cases h
    simp only [List.length_cons]
    omega
  · rename_i ds
    have := lineRest_le ds
    cases h
    simp only [List.length_cons]
    omega
  · cases h

theorem bounded_comment : comment.Bounded := bounded_orElse bounded_blockComment bounded_lineComment

theorem tagWord_le (cs : List Char) : tagWord cs ≤ cs.length := by
  unfold tagWord
  split
  · simp
  · rename_i ds
    split
    · rename_i hs
      cases ds with
      | nil => cases hs
      | cons => simp
    · simp
  · simp

theorem bounded_openTag : openTag.Bounded := by
  intro cs n h
  unfold openTag at h
  split at h
  · rename_i ds
    have := tagWord_le ds
    split at h
    · cases h
      simp only [List.length_cons]
      omega
    · cases h
  · cases h

theorem lineEnd_le (cs : List Char) : lineEnd cs ≤ cs.length := by
  unfold lineEnd
  split <;> simp

theorem bounded_closeTag : closeTag.Bounded := by
  intro cs n h
  unfold closeTag at h
  split at h
  · rename_i ds
    have := lineEnd_le ds
    split at h
    · cases h
      simp only [List.length_cons]
      omega
    · cases h
  · cases h

theorem bounded_nonzero {f : List Char → Nat} (hf : ∀ cs, f cs ≤ cs.length) :
    Bounded fun cs => nonzero (f cs) := by
  intro cs n h
  have := hf cs
  simp only [nonzero] at h
  split at h
  · cases h
  · cases h
    omega

theorem htmlRun_le (cs : List Char) : htmlRun cs ≤ cs.length := by
  fun_induction htmlRun cs <;> simp only [List.length_cons, List.length_nil] <;> omega

theorem bounded_inlineHtml : inlineHtml.Bounded := bounded_nonzero htmlRun_le

theorem quotedRun_le (cs : List Char) : quotedRun cs ≤ cs.length := by
  fun_induction quotedRun cs <;> simp only [List.length_cons, List.length_nil] <;> omega

theorem bounded_quotedText : quotedText.Bounded := bounded_nonzero quotedRun_le

theorem heredocRun_le (cs : List Char) : heredocRun cs ≤ cs.length := by
  fun_induction heredocRun cs <;> simp only [List.length_cons, List.length_nil] <;> omega

theorem bounded_heredocText : heredocText.Bounded := by
  intro cs n h
  have hr := heredocRun_le cs
  unfold heredocText at h
  split at h
  · split at h <;> cases h <;> simp
  · rename_i m hm
    split at h
    · rename_i hs
      cases h
      -- The line feed stands behind the text, so the rest there is not empty.
      have hne : (cs.drop (m + 1)).length ≠ 0 := by
        intro hz
        rw [List.length_eq_zero_iff.mp hz] at hs
        cases hs
      simp only [List.length_drop] at hne
      omega
    · cases h
      omega

theorem heredocLabel?_bounded {label : List Char} (h : heredocLabel? cs = some (label, n)) :
    0 < n ∧ n ≤ cs.length := by
  unfold heredocLabel? at h
  split at h
  · rename_i ds
    simp only at h
    split at h
    · cases h
    · rename_i m hm
      split at h
      · rename_i rest hd
        cases h
        have hl := congrArg List.length hd
        simp only [List.length_drop, List.length_cons] at hl ⊢
        omega
      · cases h
  · cases h

theorem bounded_startHeredoc : startHeredoc.Bounded := by
  intro cs n h
  obtain ⟨⟨label, m⟩, hm, rfl⟩ := Option.map_eq_some_iff.mp h
  exact heredocLabel?_bounded hm

theorem bounded_cast (words : List String) : (cast words).Bounded := by
  intro cs n h
  unfold cast at h
  split at h
  · rename_i ds
    simp only at h
    split at h
    · rename_i rest hd
      split at h
      · cases h
        have hl := congrArg List.length hd
        simp only [List.length_drop, List.length_cons] at hl ⊢
        omega
      · cases h
    · cases h
  · cases h

end Docblock.Token.Pattern

namespace Docblock.Token

open Rule Pattern

theorem Rule.bounded_fixed {k : Kind} {s : String} (hs : 0 < s.length) :
    (fixed k s).pattern.Bounded := bounded_exactly hs

theorem Rule.bounded_codeClasses : ∀ r ∈ codeClasses, r.pattern.Bounded := by
  simp only [codeClasses, Rule.casts, List.forall_mem_append, List.forall_mem_map,
    List.forall_mem_cons, plain, withEffect, counting]
  refine ⟨⟨⟨bounded_some1 _, bounded_exactly (by decide), bounded_exactly (by decide),
    bounded_exactly (by decide), bounded_exactly (by decide), bounded_exactly (by decide),
    bounded_docComment, bounded_comment, bounded_closeTag, bounded_identifier,
    bounded_variableName, bounded_double, bounded_integer, bounded_singleQuoted,
    bounded_exactly (by decide), bounded_startHeredoc, by simp⟩, fun _ _ => bounded_cast _⟩,
    bounded_orElse (bounded_exactlyNotBefore (by decide)) (bounded_exactly (by decide)),
    bounded_exactlyNotBefore (by decide), by simp⟩

theorem Rule.bounded_codeSigns : ∀ r ∈ codeSigns, r.pattern.Bounded := by
  simp only [codeSigns, List.forall_mem_cons]
  repeat refine ⟨bounded_fixed (by decide), ?_⟩
  simp

/-- The token of a rule is never empty and never reaches behind the text. -/
theorem Mode.bounded_rules (m : Mode) : ∀ r ∈ m.rules, r.pattern.Bounded := by
  cases m <;>
    simp only [Mode.rules, List.forall_mem_append, List.forall_mem_cons, plain, withEffect,
      counting]
  case html => exact ⟨bounded_openTag, bounded_inlineHtml, by simp⟩
  case code => exact ⟨bounded_codeClasses, bounded_codeSigns⟩
  case quoted =>
    exact ⟨bounded_exactly (by decide), bounded_quotedText, bounded_variableName,
      bounded_exactlyBefore (by decide), bounded_exactly (by decide), by simp⟩
  case quotedVar =>
    exact ⟨bounded_variableName, bounded_exactly (by decide), bounded_exactly (by decide),
      bounded_exactlyBefore (by decide), bounded_quotedText, bounded_exactlyBefore (by decide),
      bounded_exactly (by decide), by simp⟩
  case varName =>
    exact ⟨bounded_exactly (by decide), bounded_exactly (by decide), bounded_identifier, by simp⟩
  case offset =>
    exact ⟨bounded_exactly (by decide), bounded_variableName, bounded_identifier,
      bounded_some1 _, by simp⟩
  case property => exact ⟨bounded_identifier, by simp⟩
  case heredoc =>
    exact ⟨bounded_exactlyBefore (by decide), bounded_exactly (by decide), bounded_identifier,
      bounded_heredocText, bounded_variableName, by simp⟩
  case heredocVar =>
    exact ⟨bounded_variableName, bounded_exactly (by decide), bounded_exactlyBefore (by decide),
      bounded_exactlyBefore (by decide), bounded_exactly (by decide), bounded_heredocText, by simp⟩

end Docblock.Token
