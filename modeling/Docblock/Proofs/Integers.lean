import Docblock.Proofs.Scalars
import Mathlib.Tactic.IntervalCases

/-! Integers in the three bases: their numerals are one token each, and stand for them. -/
namespace Docblock

open Token Text Grammar Token.Pattern Automaton.Fragment

variable {b d n : Nat} {c : Char} {cs ds rest : List Char}

namespace Number

/-- A numeral is the numeral of its number without the last digit, and the last digit. -/
theorem toDigits_induction {P : Nat → List Char → Prop} (hb : 1 < b)
    (single : ∀ n < b, P n [n.digitChar])
    (snoc : ∀ n d cs, 0 < n → d < b → P n cs → P (b * n + d) (cs ++ [d.digitChar])) (n : Nat) :
    P n (Nat.toDigits b n) := by
  induction n using Nat.strongRecOn with
  | ind n ih =>
    rw [Nat.toDigits_eq_if hb]
    split
    · exact single n ‹_›
    · have hpos : 0 < n / b := Nat.div_pos (by omega) (by omega)
      have hlt : n / b < n := Nat.div_lt_self (by omega) hb
      have hstep := snoc (n / b) (n % b) _ hpos (Nat.mod_lt n (by omega)) (ih _ hlt)
      rwa [Nat.div_add_mod] at hstep

theorem digit?_digitChar (h : d < 10) : digit? d.digitChar = some d := by
  interval_cases d <;> rfl

theorem mem_toDigits (hb : 1 < b) (n : Nat) :
    ∀ c ∈ Nat.toDigits b n, ∃ d < b, c = d.digitChar := by
  refine toDigits_induction (P := fun _ cs => ∀ c ∈ cs, ∃ d < b, c = d.digitChar) hb ?_ ?_ n
  · intro n hn c hc
    exact ⟨n, hn, List.mem_singleton.mp hc⟩
  · intro n d cs _ hd ih c hc
    obtain hc | hc := List.mem_append.mp hc
    · exact ih c hc
    · exact ⟨d, hd, List.mem_singleton.mp hc⟩

theorem ofDigits?_snoc (h : ofDigits? b cs = some n) (hc : digit? c = some d) (hd : d < b) :
    ofDigits? b (cs ++ [c]) = some (b * n + d) := by
  rw [ofDigits?] at h ⊢
  rw [List.foldlM_append, h]
  simp [hc, hd]

/-- The digits of a number stand for it. -/
theorem ofDigits?_toDigits (hb : 1 < b) (hten : b ≤ 10) (n : Nat) :
    ofDigits? b (Nat.toDigits b n) = some n := by
  refine toDigits_induction (P := fun n cs => ofDigits? b cs = some n) hb ?_ ?_ n
  · intro n hn
    simp [ofDigits?, digit?_digitChar (by omega : n < 10), hn]
  · intro n d cs _ hd ih
    exact ofDigits?_snoc ih (digit?_digitChar (by omega)) hd

/-- The digits of a number start with a zero only for zero. -/
theorem toDigits_eq_cons (hb : 1 < b) (n : Nat) :
    ∃ c cs, Nat.toDigits b n = c :: cs ∧ (c = '0' → n = 0) := by
  refine toDigits_induction (P := fun n ds => ∃ c cs, ds = c :: cs ∧ (c = '0' → n = 0)) hb ?_ ?_ n
  · intro n _
    exact ⟨_, _, rfl, Nat.digitChar_eq_zero.mp⟩
  · rintro n d _ hn - ⟨c, cs, rfl, hc⟩
    exact ⟨c, cs ++ [d.digitChar], rfl, fun h => absurd (hc h) (by omega)⟩

end Number

theorem hexDigit?_digitChar (hd : d < 16) : hexDigit? d.digitChar = some d := by
  interval_cases d <;> rfl

/-- A capital letter is a digit if its small one is. -/
theorem hexDigit?_capital : ∀ d < 16, ∀ k < 26,
    (Char.ofNat (65 + k)).toLower = d.digitChar → hexDigit? (Char.ofNat (65 + k)) = some d := by
  decide

/-- A digit in capital or small letters. -/
theorem hexDigit?_of_toLower (hd : d < 16) (h : c.toLower = d.digitChar) :
    hexDigit? c = some d := by
  by_cases hc : c.val ≥ 'A'.val ∧ c.val ≤ 'Z'.val
  · have hlow : 65 ≤ c.toNat := UInt32.le_iff_toNat_le.mp hc.1
    have hhigh : c.toNat ≤ 90 := UInt32.le_iff_toNat_le.mp hc.2
    have hletter : Char.ofNat (65 + (c.toNat - 65)) = c := by
      rw [Nat.add_sub_cancel' hlow, Char.ofNat_toNat]
    rw [← hletter] at h ⊢
    exact hexDigit?_capital d hd (c.toNat - 65) (by omega) h
  · have hsame : c.toLower = c := dif_neg hc
    rw [← hsame, h, hexDigit?_digitChar hd]

theorem isHexDigit_of_hexDigit? (h : hexDigit? c = some d) : isHexDigit c = true := by
  unfold hexDigit? at h
  simp only [isHexDigit, Bool.or_eq_true, Bool.and_eq_true, decide_eq_true_eq]
  split at h
  · exact Or.inl (Or.inl ‹_›)
  · split at h
    · exact Or.inl (Or.inr ‹_›)
    · split at h
      · exact Or.inr ‹_›
      · cases h

theorem hexValue_snoc (cs : List Char) (hc : hexDigit? c = some d) :
    hexValue (cs ++ [c]) = 16 * hexValue cs + d := by
  simp [hexValue, hc]

/-- Hexadecimal digits in capital or small letters stand for their number. -/
theorem hexValue_toDigits (n : Nat) : ∀ ds : List Char, ds.map Char.toLower = Nat.toDigits 16 n →
    hexValue ds = n ∧ ∀ c ∈ ds, isHexDigit c = true := by
  refine Number.toDigits_induction (P := fun n cs => ∀ ds : List Char, ds.map Char.toLower = cs →
    hexValue ds = n ∧ ∀ c ∈ ds, isHexDigit c = true) (b := 16) (by decide) ?_ ?_ n
  · intro n hn ds hds
    obtain ⟨c, rfl, hc⟩ := List.map_eq_singleton_iff.mp hds
    have hdigit := hexDigit?_of_toLower hn hc
    simp [hexValue, hdigit, isHexDigit_of_hexDigit? hdigit]
  · intro n d cs _ hd ih ds hds
    obtain ⟨us, vs, rfl, hus, hvs⟩ := List.map_eq_append_iff.mp hds
    obtain ⟨c, rfl, hc⟩ := List.map_eq_singleton_iff.mp hvs
    obtain ⟨hvalue, hall⟩ := ih us hus
    have hdigit := hexDigit?_of_toLower hd hc
    refine ⟨by rw [hexValue_snoc us hdigit, hvalue], ?_⟩
    rw [List.forall_mem_append]
    exact ⟨hall, by simpa using isHexDigit_of_hexDigit? hdigit⟩

namespace Token.Pattern

/-- Characters of a class are matched up to one that is not of it. -/
theorem some1_append {p : Char → Bool} (hne : cs ≠ []) (h : ∀ c ∈ cs, p c = true)
    (hrest : startsWith p rest = false) : some1 p (cs ++ rest) = some cs.length := by
  have hlength := List.length_pos_iff.mpr hne
  rw [some1, run_append h hrest]
  split
  · omega
  · rename_i k hk
    rw [hk]

/-- The marks that a numeral ends before. -/
def valueMarks : List Char := [';', ',', ')']

theorem startsWith_mark {p : Char → Bool} (hp : valueMarks.all (!p ·) = true)
    (hc : c ∈ valueMarks) (rest : List Char) : startsWith p (c :: rest) = false := by
  simpa [startsWith] using List.all_eq_true.mp hp c hc

theorem exponent_mark (hc : c ∈ valueMarks) (rest : List Char) : exponent (c :: rest) = none := by
  simp only [valueMarks, List.mem_cons, List.not_mem_nil, or_false] at hc
  obtain rfl | rfl | rfl := hc <;> cases rest <;> rfl

/-- Digits before a mark are no number with a point or an exponent. -/
theorem double_digits (h : ∀ c ∈ cs, isDigit c = true) (hc : c ∈ valueMarks) (rest : List Char) :
    double (cs ++ c :: rest) = none := by
  have hrun : run isDigit (cs ++ c :: rest) = cs.length :=
    run_append h (startsWith_mark rfl hc rest)
  simp only [double, hrun, List.drop_left]
  split
  · rename_i he
    cases he
    exact absurd hc (by decide)
  · simp [exponent_mark hc]

theorem integer_digits (hne : cs ≠ []) (h : ∀ c ∈ cs, isDigit c = true) (hc : c ∈ valueMarks)
    (rest : List Char) : integer (cs ++ c :: rest) = some cs.length := by
  have hhex : hexadecimal (cs ++ c :: rest) = none := by
    unfold hexadecimal
    split
    · rename_i he
      obtain ⟨d, cs, rfl⟩ := List.exists_cons_of_ne_nil hne
      cases cs with
      | nil =>
        cases he
        exact absurd hc (by decide)
      | cons e cs =>
        cases he
        exact absurd (h 'x' (by simp)) (by decide)
    · rfl
  rw [integer, orElse, hhex, digits, some1_append hne h (startsWith_mark rfl hc rest)]
  rfl

/-- Behind a zero the mark of a hexadecimal numeral is no exponent. -/
theorem double_hexadecimal (cs : List Char) : double ('0' :: 'x' :: cs) = none := by
  have hrun : run isDigit ('0' :: 'x' :: cs) = 1 := rfl
  simp only [double, hrun]
  cases cs <;> rfl

theorem integer_hexadecimal (hne : ds ≠ []) (h : ∀ c ∈ ds, isHexDigit c = true) :
    integer ('0' :: 'x' :: (ds ++ [';'])) = some (ds.length + 2) := by
  rw [integer, orElse, hexadecimal, some1_append hne h rfl, Nat.add_comm]
  rfl

end Token.Pattern

/-- The numerals of a number: decimal, hexadecimal in capital or small letters, and octal. -/
inductive Numeral (n : Nat) : List Char → Prop
  | decimal : Numeral n (Nat.toDigits 10 n)
  | hexadecimal {ds : List Char} (h : ds.map Char.toLower = Nat.toDigits 16 n) :
      Numeral n ('0' :: 'x' :: ds)
  | octal : Numeral n ('0' :: Nat.toDigits 8 n)

namespace Numeral

theorem integerValue_decimal (hc : c ≠ '0') (h : Number.ofDigits? 10 (c :: cs) = some n) :
    integerValue (c :: cs) = .ok n := by
  rw [integerValue.eq_def]
  split <;> simp_all

theorem integerValue_octal (hc : c ≠ 'x') (h : Number.ofDigits? 8 ('0' :: c :: cs) = some n) :
    integerValue ('0' :: c :: cs) = .ok n := by
  rw [integerValue.eq_def]
  split <;> simp_all

theorem isDigit_digitChar (hd : d < 10) : isDigit d.digitChar = true := by
  rw [isDigit, Number.digit?_digitChar hd]
  rfl

theorem integerValue_eq (h : Numeral n cs) : integerValue cs = .ok n := by
  cases h with
  | hexadecimal h => exact congrArg (fun m : Nat => Except.ok (m : Int)) (hexValue_toDigits n _ h).1
  | decimal =>
    have hvalue := Number.ofDigits?_toDigits (b := 10) (by decide) (by decide) n
    obtain ⟨c, cs, hcs, hzero⟩ := Number.toDigits_eq_cons (b := 10) (by decide) n
    by_cases hc : c = '0'
    · obtain rfl := hzero hc
      rfl
    · rw [hcs] at hvalue ⊢
      exact integerValue_decimal hc hvalue
  | octal =>
    have hvalue := Number.ofDigits?_toDigits (b := 8) (by decide) (by decide) n
    have hdigits := Number.mem_toDigits (b := 8) (by decide) n
    obtain ⟨c, cs, hcs, -⟩ := Number.toDigits_eq_cons (b := 8) (by decide) n
    rw [hcs] at hvalue hdigits ⊢
    obtain ⟨d, hd, rfl⟩ := hdigits c List.mem_cons_self
    have hx : d.digitChar ≠ 'x' := by interval_cases d <;> decide
    exact integerValue_octal hx hvalue

/-- The first rules of code match nothing at a digit. -/
theorem firstMatch_digit (hd : d < 10) (p : Option Char) (cs : List Char) :
    Lexer.firstMatch (Lexer.rulesBefore .double Lexer.untagged) p (d.digitChar :: cs) = none := by
  interval_cases d <;> rfl

theorem isTagMark_digit (hd : d < 10) : isTagMark d.digitChar = false := by
  interval_cases d <;> rfl

/-- What starts with a digit and is an integer but no other number is read as an integer. -/
theorem firstMatch_integer {k : Nat} (hd : d < 10) (hdouble : double (d.digitChar :: cs) = none)
    (hinteger : integer (d.digitChar :: cs) = some k) (p : Option Char) :
    Lexer.firstMatch Mode.code.rules p (d.digitChar :: cs) =
      some (Rule.plain .integer integer, k) := by
  have hbefore := Lexer.firstMatch_snoc (r := Rule.plain .double double)
    (firstMatch_digit hd p cs) hdouble
  have hfirst : Lexer.firstMatch Lexer.untagged p (d.digitChar :: cs) =
      some (Rule.plain .integer integer, k) :=
    Lexer.firstMatch_of_kind .integer rfl hbefore hinteger
  exact Lexer.firstMatch_untagged (isTagMark_digit hd) hfirst

/-- Digits before a mark are read as an integer. -/
theorem firstMatch_digits (hne : cs ≠ []) (h : ∀ c ∈ cs, ∃ d < 10, c = d.digitChar)
    (hc : c ∈ valueMarks) (rest : List Char) (p : Option Char) :
    Lexer.firstMatch Mode.code.rules p (cs ++ c :: rest) =
      some (Rule.plain .integer integer, cs.length) := by
  have hdigits : ∀ c ∈ cs, isDigit c = true := by
    intro c hc
    obtain ⟨d, hd, rfl⟩ := h c hc
    exact isDigit_digitChar hd
  have hdouble := double_digits hdigits hc rest
  have hinteger := integer_digits hne hdigits hc rest
  obtain ⟨c, cs, rfl⟩ := List.exists_cons_of_ne_nil hne
  obtain ⟨d, hd, rfl⟩ := h c List.mem_cons_self
  exact firstMatch_integer hd hdouble hinteger p

theorem single_digits (hne : cs ≠ []) (h : ∀ c ∈ cs, ∃ d < 10, c = d.digitChar) :
    Lexer.Single .integer cs :=
  ⟨_, firstMatch_digits hne h (by decide) [] (some ' '), rfl, rfl⟩

/-- Every numeral is one token. -/
theorem single (h : Numeral n cs) : Lexer.Single .integer cs := by
  cases h with
  | decimal => exact single_digits Nat.toDigits_ne_nil (Number.mem_toDigits (by decide) n)
  | octal =>
    refine single_digits (by simp) (List.forall_mem_cons.mpr ⟨⟨0, by decide, rfl⟩, ?_⟩)
    intro c hc
    obtain ⟨d, hd, rfl⟩ := Number.mem_toDigits (by decide) n c hc
    exact ⟨d, by omega, rfl⟩
  | @hexadecimal ds h =>
    have hne : ds ≠ [] := by
      rintro rfl
      exact Nat.toDigits_ne_nil h.symm
    have hdouble : double ('0' :: ('x' :: ds ++ [';'])) = none := double_hexadecimal _
    have hinteger : integer ('0' :: ('x' :: ds ++ [';'])) = some (('x' :: ds).length + 1) :=
      integer_hexadecimal hne (hexValue_toDigits n ds h).2
    exact ⟨_, firstMatch_integer (d := 0) (by decide) hdouble hinteger (some ' '), rfl, rfl⟩

end Numeral

/-- Every numeral of a number is one token, and is read into the number. -/
theorem integers_decode (file : Option String) {n : Nat} {cs : List Char} (h : Numeral n cs) :
    Lexer.ReadAs (literalSource cs) (literalWords .integer cs) ∧
      ((Filter.fresh []).parse file (literalSource cs)).1 = .ok [.int n] := by
  refine parse_literal (x := .ok (.int n)) h.single (by decide) fun t ht => ?_
  obtain ⟨hkind, htext⟩ := Prod.mk.inj ht
  have hvalue : (integerValue t.text.toList).map Tree.int = .ok (.int n) := by
    rw [htext, String.toList_ofList, h.integerValue_eq]
    rfl
  rw [← hvalue]
  exact Derives.rule (i := 330) (by decide) rfl (.token hkind .nil)

/-- A digit that would mark an exponent in a decimal numeral, in capital letters. -/
theorem integers_decode_exponent :
    Numeral 0x1e5 "0x1E5".toList ∧
      Lexer.ReadAs "<?php 0x1E5;".toList
        [(.openTag, "<?php "), (.integer, "0x1E5"), (.semi, ";")] ∧
      ((Filter.fresh []).parse none "<?php 0x1E5;".toList).1 = .ok [.int 485] := by
  have hdigits : "1E5".toList.map Char.toLower = Nat.toDigits 16 0x1e5 := rfl
  have hnumeral : Numeral 0x1e5 "0x1E5".toList := .hexadecimal hdigits
  exact ⟨hnumeral, integers_decode none hnumeral⟩

end Docblock
