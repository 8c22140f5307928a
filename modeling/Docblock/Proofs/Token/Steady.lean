import Docblock.Proofs.Token.Name

/-! Patterns that match no more of a text when a semicolon follows it. -/
namespace Docblock.Token.Pattern

open Text

variable {p q : Pattern} {c : Char → Bool} {cs : List Char} {n : Nat} {s : String}

/-- A pattern that takes as much from a text with a semicolon behind it. -/
def Steady (p : Pattern) : Prop := ∀ cs, p (cs ++ [';']) = p cs

theorem takeWhile_behind (hc : c ';' = false) (cs : List Char) :
    (cs ++ [';']).takeWhile c = cs.takeWhile c := by
  induction cs with
  | nil => simp [hc]
  | cons d ds ih => simp only [List.cons_append, List.takeWhile_cons, ih]

theorem run_behind (hc : c ';' = false) (cs : List Char) : run c (cs ++ [';']) = run c cs := by
  rw [run, takeWhile_behind hc, run]

theorem startsWith_behind (hc : c ';' = false) (cs : List Char) :
    startsWith c (cs ++ [';']) = startsWith c cs := by
  cases cs with
  | nil => exact hc
  | cons => rfl

theorem startsWith_dropWhile (cs : List Char) : startsWith c (cs.dropWhile c) = false := by
  induction cs with
  | nil => rfl
  | cons d ds ih =>
    rw [List.dropWhile_cons]
    split
    · exact ih
    · simpa [startsWith] using ‹¬ c d = true›

theorem drop_behind (h : n ≤ cs.length) : (cs ++ [';']).drop n = cs.drop n ++ [';'] :=
  List.drop_append_of_le_length h

theorem isPrefixOf_behind {ds : List Char} (hs : ';' ∉ ds) (cs : List Char) :
    ds.isPrefixOf (cs ++ [';']) = ds.isPrefixOf cs := by
  induction ds generalizing cs with
  | nil => simp
  | cons d ds ih =>
    rw [List.mem_cons, not_or] at hs
    obtain ⟨hd, hds⟩ := hs
    cases cs with
    | nil => simp [List.isPrefixOf, Ne.symm hd]
    | cons e es => simp [List.isPrefixOf, ih hds]

theorem eq_append_of_exactly (h : exactly s cs = some n) : ∃ ds, cs = s.toList ++ ds := by
  simp only [exactly] at h
  split at h
  · rename_i hstart
    obtain ⟨ds, hds⟩ := List.isPrefixOf_iff_prefix.mp hstart
    exact ⟨ds, hds.symm⟩
  · cases h

theorem steady_exactly (hs : ';' ∉ s.toList) : (exactly s).Steady := by
  intro cs
  simp only [exactly, isPrefixOf_behind hs]

theorem steady_exactlyNotBefore (hs : ';' ∉ s.toList) (hc : c ';' = false) :
    (exactlyNotBefore s c).Steady := by
  intro cs
  simp only [exactlyNotBefore, isPrefixOf_behind hs]
  by_cases hp : s.toList.isPrefixOf cs = true
  · rw [drop_behind (length_le_of_isPrefixOf hp), startsWith_behind hc]
  · simp [hp]

theorem steady_exactlyBefore (hs : ';' ∉ s.toList) (hc : c ';' = false) :
    (exactlyBefore s c).Steady := by
  intro cs
  simp only [exactlyBefore, isPrefixOf_behind hs]
  by_cases hp : s.toList.isPrefixOf cs = true
  · rw [drop_behind (length_le_of_isPrefixOf hp), startsWith_behind hc]
  · simp [hp]

theorem steady_orElse (hp : p.Steady) (hq : q.Steady) : (orElse p q).Steady := by
  intro cs
  simp only [orElse, hp cs, hq cs]

theorem steady_some1 (hc : c ';' = false) : (some1 c).Steady := by
  intro cs
  simp only [some1, run_behind hc]

theorem steady_identifier : identifier.Steady := by
  intro cs
  cases cs with
  | nil => rfl
  | cons d ds => simp only [List.cons_append, identifier, run_behind (c := isWord) (by decide)]

theorem steady_variableName : variableName.Steady := by
  intro cs
  cases cs with
  | nil => rfl
  | cons d ds =>
    by_cases hd : d = '$'
    · subst hd
      simp only [List.cons_append, variableName, steady_identifier ds]
    · simp [variableName, hd]

theorem steady_digits : digits.Steady := steady_some1 (by decide)

theorem steady_exponent : exponent.Steady := by
  intro cs
  rcases cs with _ | ⟨e, _ | ⟨s, cs⟩⟩
  · rfl
  · have hnone : digits [';'] = none := steady_digits []
    simp [exponent, hnone]
  · have hsigned := steady_digits cs
    have hplain : digits (s :: (cs ++ [';'])) = digits (s :: cs) := steady_digits (s :: cs)
    simp only [List.cons_append, exponent, hsigned, hplain]

theorem steady_double : double.Steady := by
  intro cs
  have hdigit : isDigit ';' = false := by decide
  simp only [double, run_behind hdigit, drop_behind (run_le isDigit cs)]
  cases hd : cs.drop (run isDigit cs) with
  | nil => simp [exponent]
  | cons d ds =>
    by_cases hpoint : d = '.'
    · subst hpoint
      simp only [List.cons_append, run_behind hdigit, drop_behind (run_le isDigit ds),
        steady_exponent _]
    · have hexponent : exponent (d :: (ds ++ [';'])) = exponent (d :: ds) :=
        steady_exponent (d :: ds)
      simp [hpoint, hexponent]

theorem steady_hexadecimal : hexadecimal.Steady := by
  intro cs
  rcases cs with _ | ⟨d, _ | ⟨e, cs⟩⟩
  · rfl
  · by_cases hd : d = '0' <;> simp [hexadecimal, hd]
  · have hdigits := steady_some1 (c := isHexDigit) (by decide) cs
    by_cases hd : d = '0' <;> by_cases he : e = 'x' <;> simp [hexadecimal, hd, he, hdigits]

theorem steady_closingQuote : closingQuote.Steady := by
  intro cs
  fun_induction closingQuote cs with
  | case1 => rfl
  | case2 => rfl
  | case3 d cs ih => simp [closingQuote, ih]
  | case4 => rfl
  | case5 d cs hquote hescape hlast ih =>
    have hback : d ≠ '\\' := by
      rintro rfl
      cases cs with
      | nil => exact hlast rfl rfl
      | cons e es => exact hescape e es rfl rfl
    rw [List.cons_append, closingQuote, ih]
    · exact hquote
    · exact fun e es he => absurd he hback
    · exact fun he => absurd he hback

theorem steady_singleQuoted : singleQuoted.Steady := by
  intro cs
  cases cs with
  | nil => rfl
  | cons d ds =>
    by_cases hd : d = '\''
    · subst hd
      simp only [List.cons_append, singleQuoted, steady_closingQuote ds]
    · simp [singleQuoted, hd]

theorem steady_closingComment : closingComment.Steady := by
  intro cs
  fun_induction closingComment cs with
  | case1 => rfl
  | case2 => rfl
  | case3 d cs hend ih =>
    rw [List.cons_append, closingComment, ih]
    rintro es rfl he
    cases cs with
    | nil => cases he
    | cons e cs =>
      obtain ⟨rfl, -⟩ := List.cons.inj he
      exact hend cs rfl rfl

theorem steady_docComment : docComment.Steady := by
  intro cs
  rcases cs with _ | ⟨d, _ | ⟨e, _ | ⟨f, cs⟩⟩⟩
  · rfl
  · simp [docComment]
  · simp [docComment]
  · have hend := steady_closingComment cs
    by_cases hd : d = '/' <;> by_cases he : e = '*' <;> by_cases hf : f = '*' <;>
      simp [docComment, hd, he, hf, hend]

theorem lineEnd_behind (cs : List Char) : lineEnd (cs ++ [';']) = lineEnd cs := by
  rcases cs with _ | ⟨d, _ | ⟨e, cs⟩⟩
  · rfl
  · by_cases hr : d = '\r' <;> by_cases hn : d = '\n' <;> simp [lineEnd, hr, hn]
  · by_cases hr : d = '\r' <;> by_cases hn : d = '\n' <;> by_cases he : e = '\n' <;>
      simp [lineEnd, hr, hn, he]

theorem steady_closeTag : closeTag.Steady := by
  intro cs
  rcases cs with _ | ⟨d, _ | ⟨e, cs⟩⟩
  · rfl
  · simp [closeTag]
  · by_cases he : e = '>' <;> simp [closeTag, he, lineEnd_behind]

theorem heredocLabel?_behind (cs : List Char) : heredocLabel? (cs ++ [';']) = heredocLabel? cs := by
  rcases cs with _ | ⟨d, _ | ⟨e, _ | ⟨f, cs⟩⟩⟩
  · rfl
  · simp [heredocLabel?]
  · simp [heredocLabel?]
  · by_cases hmarks : d = '<' ∧ e = '<' ∧ f = '<'
    · obtain ⟨rfl, rfl, rfl⟩ := hmarks
      simp only [List.cons_append, heredocLabel?, run_behind (c := isTab) (by decide),
        drop_behind (run_le isTab cs), steady_identifier _]
      cases hname : identifier (cs.drop (run isTab cs)) with
      | none => rfl
      | some n =>
        have hn := (bounded_identifier _ _ hname).2
        have hend : run isTab cs + n ≤ cs.length := by
          have := run_le isTab cs
          rw [List.length_drop] at hn
          omega
        simp only [drop_behind hend, List.take_append_of_le_length hn]
        cases cs.drop (run isTab cs + n) with
        | nil => rfl
        | cons g gs => by_cases hg : g = '\n' <;> simp [hg]
    · unfold heredocLabel?
      split
      · rename_i heq
        cases heq
        exact absurd ⟨rfl, rfl, rfl⟩ hmarks
      · split
        · rename_i heq
          cases heq
          exact absurd ⟨rfl, rfl, rfl⟩ hmarks
        · rfl

theorem steady_startHeredoc : startHeredoc.Steady := by
  intro cs
  rw [startHeredoc, heredocLabel?_behind, startHeredoc]

theorem steady_cast (words : List String) : (cast words).Steady := by
  intro cs
  cases cs with
  | nil => rfl
  | cons d cs =>
    by_cases hd : d = '('
    · subst hd
      have htab : isTab ';' = false := by decide
      have hbefore := run_le isTab cs
      simp only [List.cons_append, cast, run_behind htab, drop_behind hbefore,
        takeWhile_behind (c := Char.isAlpha) (by decide)]
      generalize hword : (cs.drop (run isTab cs)).takeWhile Char.isAlpha = word
      have hlength : run isTab cs + word.length ≤ cs.length := by
        have := run_le Char.isAlpha (cs.drop (run isTab cs))
        rw [run, hword, List.length_drop] at this
        omega
      simp only [drop_behind hlength, run_behind htab]
      generalize hafter : run isTab (cs.drop (run isTab cs + word.length)) = after
      have hend : run isTab cs + word.length + after ≤ cs.length := by
        have := run_le isTab (cs.drop (run isTab cs + word.length))
        rw [hafter, List.length_drop] at this
        omega
      simp only [drop_behind hend]
      cases cs.drop (run isTab cs + word.length + after) with
      | nil => rfl
      | cons e es => by_cases he : e = ')' <;> simp [he]
    · simp [cast, hd]

theorem steady_blockComment : blockComment.Steady := by
  intro cs
  rcases cs with _ | ⟨d, _ | ⟨e, cs⟩⟩
  · rfl
  · simp [blockComment]
  · have hend := steady_closingComment cs
    by_cases hd : d = '/' <;> by_cases he : e = '*' <;> simp [blockComment, hd, he, hend]

/-- A semicolon begins no comment. -/
theorem lineComment_behind (hcs : cs ≠ []) (h : lineComment cs = none) :
    lineComment (cs ++ [';']) = none := by
  rcases cs with _ | ⟨d, _ | ⟨e, cs⟩⟩
  · exact absurd rfl hcs
  · by_cases hd : d = '#' <;> simp [lineComment, hd] at h ⊢
  · by_cases hd : d = '#'
    · simp [lineComment, hd] at h
    · by_cases hslash : d = '/' <;> by_cases he : e = '/' <;>
        simp [lineComment, hd, hslash, he] at h ⊢

theorem comment_behind (hcs : cs ≠ []) (h : comment cs = none) : comment (cs ++ [';']) = none := by
  simp only [comment, orElse, steady_blockComment cs, Option.orElse_eq_orElse, Option.orElse_eq_or,
    Option.or_eq_none_iff] at h ⊢
  exact ⟨h.1, lineComment_behind hcs h.2⟩

/-- Where literal text is known to end, it ends there. -/
theorem quotedRun_behind (hend : cs.drop (quotedRun cs) ≠ [])
    (hback : cs.drop (quotedRun cs) ≠ ['\\']) : quotedRun (cs ++ [';']) = quotedRun cs := by
  have hvar : isVarStart ';' = false := by decide
  fun_induction quotedRun cs with
  | case1 => exact absurd rfl hend
  | case2 => rfl
  | case3 => exact absurd rfl hback
  | case4 d cs ih =>
    rw [Nat.add_comm] at hend hback
    simp only [List.cons_append, quotedRun, ih hend hback]
  | case5 cs hstart =>
    simp only [List.cons_append, quotedRun, startsWith_behind hvar, if_pos hstart]
  | case6 cs hstart ih =>
    rw [Nat.add_comm] at hend hback
    simp only [List.cons_append, quotedRun, startsWith_behind hvar, if_neg hstart, ih hend hback]
  | case7 cs hstart =>
    simp only [List.cons_append, quotedRun, startsWith_behind (c := (· == '$')) rfl,
      if_pos hstart]
  | case8 cs hstart ih =>
    rw [Nat.add_comm] at hend hback
    simp only [List.cons_append, quotedRun, startsWith_behind (c := (· == '$')) rfl,
      if_neg hstart, ih hend hback]
  | case9 d cs hquote hlast hescape hvars hbrace ih =>
    have hslash : d ≠ '\\' := by
      rintro rfl
      cases cs with
      | nil => exact hlast rfl rfl
      | cons e es => exact hescape e es rfl rfl
    have hplain : d ∉ quotedMarks := by
      simpa [quotedMarks, hslash] using ⟨hquote, hvars, hbrace⟩
    rw [Nat.add_comm] at hend hback
    rw [List.cons_append, quotedRun_cons hplain, ih hend hback]

end Docblock.Token.Pattern

namespace Docblock.Token

open Pattern

/-- The kinds of the tokens in values that are known before a source is run. -/
def staticKinds : List Kind := [
  .integer, .double, .singleQuoted, .magicLine, .magicFile, .magicDir, .magicClass, .magicMethod,
  .magicFunction, .magicNamespace, .ident, .backslash, .kwNamespace, .quote, .encapsed, .plus,
  .minus, .kwArray, .leftParen, .rightParen, .comma, .doubleArrow]

theorem steady_codeSigns : ∀ r ∈ Rule.codeSigns, ∀ cs ≠ [],
    r.pattern (cs ++ [';']) = r.pattern cs := by
  have hfixed : ∀ {k : Kind} {s : String}, ';' ∉ s.toList → ∀ cs ≠ [],
      (Rule.fixed k s).pattern (cs ++ [';']) = (Rule.fixed k s).pattern cs :=
    fun hs cs _ => steady_exactly hs cs
  have hsemi : ∀ cs ≠ [], exactly ";" (cs ++ [';']) = exactly ";" cs := by
    intro cs hcs
    cases cs with
    | nil => exact absurd rfl hcs
    | cons => rfl
  simp only [Rule.codeSigns, List.forall_mem_cons]
  repeat' apply And.intro
  all_goals first | exact hfixed (by decide) | exact hsemi | simp

/-- In code a semicolon behind a text is no part of its first token, unless that is a comment. -/
theorem steady_code : ∀ r ∈ Mode.code.rules, r = Rule.comment ∨ ∀ cs ≠ [],
    r.pattern (cs ++ [';']) = r.pattern cs := by
  have hclasses : ∀ r ∈ Rule.codeClasses, r = Rule.comment ∨ r.pattern.Steady := by
    simp only [Rule.codeClasses, Rule.casts, List.forall_mem_append, List.forall_mem_map,
      List.forall_mem_cons]
    exact ⟨⟨⟨.inr (steady_some1 rfl), .inr (steady_exactly (by decide)),
      .inr (steady_exactly (by decide)), .inr (steady_exactly (by decide)),
      .inr (steady_exactly (by decide)), .inr (steady_exactly (by decide)), .inr steady_docComment,
      .inl rfl, .inr steady_closeTag, .inr steady_identifier, .inr steady_variableName,
      .inr steady_double, .inr (steady_orElse steady_hexadecimal steady_digits),
      .inr steady_singleQuoted, .inr (steady_exactly (by decide)), .inr steady_startHeredoc,
      by simp⟩, fun _ _ => .inr (steady_cast _)⟩,
      .inr (steady_orElse (steady_exactlyNotBefore (by decide) rfl) (steady_exactly (by decide))),
      .inr (steady_exactlyNotBefore (by decide) rfl), by simp⟩
  intro r hr
  obtain hr | hr := List.mem_append.mp hr
  · exact (hclasses r hr).imp_right fun hsteady cs _ => hsteady cs
  · exact .inr (steady_codeSigns r hr)

theorem steady_quoted {cs : List Char} (hend : cs.drop (quotedRun cs) ≠ [])
    (hback : cs.drop (quotedRun cs) ≠ ['\\']) :
    ∀ r ∈ Mode.quoted.rules, r.pattern (cs ++ [';']) = r.pattern cs := by
  simp only [Mode.rules, List.forall_mem_cons]
  refine ⟨steady_exactly (by decide) cs, ?_, steady_variableName cs,
    steady_exactlyBefore (by decide) rfl cs, steady_exactly (by decide) cs, by simp⟩
  exact congrArg nonzero (quotedRun_behind hend hback)

/-- A token of a value that is read in code changes no mode, unless it is a quote. -/
theorem effect_code : ∀ r ∈ Mode.code.rules, ∀ cs, r.kind cs ∈ .whitespace :: staticKinds →
    r.effect = .stay ∨ r.effect = .push .quoted := by
  have hother : ∀ {r : Rule} (k : Kind), (∀ cs, r.kind cs = k) → k ∉ .whitespace :: staticKinds →
      ∀ cs, r.kind cs ∈ .whitespace :: staticKinds → r.effect = .stay ∨ r.effect = .push .quoted :=
    fun k hr hk cs h => absurd (hr cs ▸ h) hk
  have hclasses : ∀ r ∈ Rule.codeClasses, ∀ cs, r.kind cs ∈ .whitespace :: staticKinds →
      r.effect = .stay ∨ r.effect = .push .quoted := by
    simp only [Rule.codeClasses, Rule.casts, Rule.castWords, List.forall_mem_append,
      List.forall_mem_map, List.forall_mem_cons]
    repeat' apply And.intro
    all_goals first
      | exact fun _ _ => .inl rfl
      | exact fun _ _ => .inr rfl
      | exact hother _ (fun _ => rfl) (by decide)
      | simp
  have hsigns : ∀ r ∈ Rule.codeSigns, r.effect = .stay := by decide
  intro r hr
  obtain hr | hr := List.mem_append.mp hr
  · exact hclasses r hr
  · exact fun _ _ => .inl (hsigns r hr)

/-- Between quotes, the tokens of a value are the closing quote and literal text. -/
theorem effect_quoted : ∀ r ∈ Mode.quoted.rules, ∀ cs, r.kind cs ∈ .whitespace :: staticKinds →
    r.effect = .pop ∧ r.pattern = exactly "\"" ∨ r.effect = .stay ∧ r.pattern = quotedText := by
  simp only [Mode.rules, List.forall_mem_cons]
  refine ⟨fun _ _ => .inl ⟨rfl, rfl⟩, fun _ _ => .inr ⟨rfl, rfl⟩, ?_⟩
  simp [Rule.withEffect, staticKinds]

end Docblock.Token
