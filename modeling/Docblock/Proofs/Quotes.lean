import Docblock.Proofs.Interpolation
import Docblock.Proofs.Scalars

/-! Texts between quotes and the escapes in them. Between single quotes two replacements decode a
text like one pass from the left; between double quotes a text comes back but for its dollar
signs. -/
namespace Docblock

open Token Text Grammar Token.Pattern Automaton.Fragment

/-- The text with a backslash before each of some characters. -/
def escaping (marks cs : List Char) : List Char :=
  cs.flatMap fun c => if c ∈ marks then ['\\', c] else [c]

variable {ms b cs rest : List Char} {c q : Char}

theorem escaping_cons_of_mem (h : c ∈ ms) :
    escaping ms (c :: cs) = '\\' :: c :: escaping ms cs := by
  simp [escaping, h]

theorem escaping_cons_of_not_mem (h : c ∉ ms) :
    escaping ms (c :: cs) = c :: escaping ms cs := by
  simp [escaping, h]

theorem length_escaping (ms cs : List Char) :
    (escaping ms cs).length = cs.length + cs.countP (· ∈ ms) := by
  induction cs with
  | nil => rfl
  | cons c cs ih =>
    by_cases hc : c ∈ ms
    · rw [escaping_cons_of_mem hc, List.countP_cons_of_pos (by simpa using hc)]
      simp only [List.length_cons, ih]
      omega
    · rw [escaping_cons_of_not_mem hc, List.countP_cons_of_neg (by simpa using hc)]
      simp only [List.length_cons, ih]
      omega

/-- A text is its own escaped form exactly if none of the marks is in it. -/
theorem escaping_eq_self_iff : escaping ms cs = cs ↔ ∀ c ∈ cs, c ∉ ms := by
  constructor
  · intro he c hc hm
    have hlength := length_escaping ms cs
    have hpos : 0 < cs.countP (· ∈ ms) := List.countP_pos_iff.mpr ⟨c, hc, by simpa using hm⟩
    rw [he] at hlength
    omega
  · intro h
    induction cs with
    | nil => rfl
    | cons c cs ih =>
      obtain ⟨hc, hcs⟩ := List.forall_mem_cons.mp h
      rw [escaping_cons_of_not_mem hc, ih hcs]

/-- What can stand between single quotes: characters other than a quote and a backslash, and
backslashes with any character behind them. -/
inductive SingleQuotedBody : List Char → Prop
  | nil : SingleQuotedBody []
  | plain {c : Char} {cs : List Char} (hs : c ≠ '\\') (hq : c ≠ '\'')
      (h : SingleQuotedBody cs) : SingleQuotedBody (c :: cs)
  | escape (c : Char) {cs : List Char} (h : SingleQuotedBody cs) :
      SingleQuotedBody ('\\' :: c :: cs)

namespace SingleQuotedBody

/-- One pass from the left: an escaped backslash or quote loses its backslash, all else stays. -/
def decoded : List Char → List Char
  | '\\' :: '\\' :: cs => '\\' :: decoded cs
  | '\\' :: '\'' :: cs => '\'' :: decoded cs
  | c :: cs => c :: decoded cs
  | [] => []

theorem decoded_cons (h : c ≠ '\\') (cs : List Char) : decoded (c :: cs) = c :: decoded cs := by
  rw [decoded.eq_def]
  split <;> simp_all

theorem decoded_other (hs : c ≠ '\\') (hq : c ≠ '\'') (cs : List Char) :
    decoded ('\\' :: c :: cs) = '\\' :: c :: decoded cs := by
  rw [decoded.eq_3 '\\' (c :: cs) (by simp [hs]) (by simp [hq]), decoded_cons hs]

theorem dropEscapes_cons (h : c ≠ '\\') (cs : List Char) :
    dropEscapes q (c :: cs) = c :: dropEscapes q cs := by
  rw [dropEscapes.eq_def]
  split <;> simp_all

/-- A backslash stays unless the character it escapes is looked for. -/
theorem dropEscapes_backslash (h : cs.head? ≠ some q) :
    dropEscapes q ('\\' :: cs) = '\\' :: dropEscapes q cs := by
  cases cs with
  | nil => rfl
  | cons c cs =>
    have hc : c ≠ q := fun he => h (congrArg some he)
    simp [dropEscapes, hc]

theorem dropEscapes_escape (q : Char) (cs : List Char) :
    dropEscapes q ('\\' :: q :: cs) = q :: dropEscapes q cs := by
  simp [dropEscapes]

/-- No quote opens a body: it would have ended the text. -/
theorem head?_ne (h : SingleQuotedBody b) : b.head? ≠ some '\'' := by
  cases h with
  | nil => simp
  | plain _ hq => simpa using hq
  | escape => simp

/-- To drop the escapes of quotes first and those of backslashes then is to decode in one pass. -/
theorem dropEscapes_eq_decoded (h : SingleQuotedBody b) :
    dropEscapes '\\' (dropEscapes '\'' b) = decoded b := by
  induction h with
  | nil => rfl
  | plain hs hq _ ih => rw [dropEscapes_cons hs, dropEscapes_cons hs, ih, decoded_cons hs]
  | @escape c cs h ih =>
    by_cases hs : c = '\\'
    · -- The second backslash escapes nothing, for no quote can follow it.
      subst hs
      rw [dropEscapes_backslash (by simp), dropEscapes_backslash h.head?_ne, dropEscapes_escape, ih]
      rfl
    by_cases hq : c = '\''
    · subst hq
      rw [dropEscapes_escape, dropEscapes_cons (by decide), ih]
      rfl
    · rw [dropEscapes_backslash (by simpa using hq), dropEscapes_cons hs,
        dropEscapes_backslash (by simpa using hs), dropEscapes_cons hs, ih, decoded_other hs hq]

/-- The characters with a meaning of their own between single quotes. -/
def marks : List Char := ['\\', '\'']

theorem body_escaping (cs : List Char) : SingleQuotedBody (escaping marks cs) := by
  induction cs with
  | nil => exact .nil
  | cons c cs ih =>
    by_cases hc : c ∈ marks
    · rw [escaping_cons_of_mem hc]
      exact .escape c ih
    · rw [escaping_cons_of_not_mem hc]
      exact .plain (fun he => hc (he ▸ by decide)) (fun he => hc (he ▸ by decide)) ih

theorem decoded_escaping (cs : List Char) : decoded (escaping marks cs) = cs := by
  induction cs with
  | nil => rfl
  | cons c cs ih =>
    by_cases hc : c ∈ marks
    · rw [escaping_cons_of_mem hc]
      simp only [marks, List.mem_cons, List.not_mem_nil, or_false] at hc
      obtain rfl | rfl := hc <;> simp [decoded, ih]
    · have hs : c ≠ '\\' := fun he => hc (he ▸ by decide)
      rw [escaping_cons_of_not_mem hc, decoded_cons hs, ih]

/-- A body ends at the first quote behind it. -/
theorem closingQuote_body (h : SingleQuotedBody b) (rest : List Char) :
    closingQuote (b ++ '\'' :: rest) = some (b.length + 1) := by
  induction h with
  | nil => rfl
  | @plain c cs hs hq _ ih =>
    have hstep : closingQuote (c :: (cs ++ '\'' :: rest)) =
        (closingQuote (cs ++ '\'' :: rest)).map (1 + ·) := by
      rw [closingQuote.eq_def]
      split <;> simp_all
    rw [List.cons_append, hstep, ih, Option.map_some, List.length_cons, Nat.add_comm 1]
  | @escape c cs _ ih =>
    have hstep : closingQuote ('\\' :: c :: (cs ++ '\'' :: rest)) =
        (closingQuote (cs ++ '\'' :: rest)).map (2 + ·) := rfl
    rw [List.cons_append, List.cons_append, hstep, ih, Option.map_some, List.length_cons,
      List.length_cons, Nat.add_comm 2]

/-- The token of a body. -/
def quoted (b : List Char) : List Char := '\'' :: (b ++ ['\''])

theorem single_quoted (h : SingleQuotedBody b) : Lexer.Single .singleQuoted (quoted b) := by
  refine ⟨Rule.counting (Rule.plain .singleQuoted singleQuoted), ?_, rfl, rfl⟩
  have hquoted : quoted b ++ [';'] = '\'' :: (b ++ '\'' :: [';']) := by simp [quoted]
  have hlength : (quoted b).length = 1 + (b.length + 1) := by simp [quoted, Nat.add_comm]
  rw [hquoted, hlength]
  refine Lexer.firstMatch_untagged rfl ?_
  refine Lexer.firstMatch_of_kind .singleQuoted rfl rfl ?_
  exact congrArg (Option.map (1 + ·)) (closingQuote_body h [';'])

/-- The value of the token of a body. -/
theorem singleQuotedValue_quoted (h : SingleQuotedBody b) :
    singleQuotedValue (String.ofList (quoted b)) = String.ofList (decoded b) := by
  have hinner : ((String.ofList (quoted b)).toList.drop 1).dropLast = b := by simp [quoted]
  simp only [singleQuotedValue, hinner, dropEscapes_eq_decoded h]

theorem parse_singleQuoted (h : SingleQuotedBody b) (file : Option String) :
    Lexer.ReadAs (literalSource (quoted b)) (literalWords .singleQuoted (quoted b)) ∧
      ((Filter.fresh []).parse file (literalSource (quoted b))).1 =
        .ok [.text (String.ofList (decoded b))] := by
  refine parse_literal (x := .ok (.text (String.ofList (decoded b)))) (single_quoted h) (by decide)
    fun t ht => ?_
  obtain ⟨hkind, htext⟩ := Prod.mk.inj ht
  rw [← singleQuotedValue_quoted h, ← htext]
  exact gives_token 332 (by decide) rfl hkind

end SingleQuotedBody

open SingleQuotedBody in
/-- Between single quotes the two replacements are one pass from the left, on every body that can
stand there. So every text comes back that is written with its quotes and backslashes escaped: it
is one token, and it is read into itself. -/
theorem single_quotes_decode (file : Option String) :
    (∀ b, SingleQuotedBody b →
      singleQuotedValue (String.ofList (quoted b)) = String.ofList (decoded b) ∧
      ((Filter.fresh []).parse file (literalSource (quoted b))).1 =
        .ok [.text (String.ofList (decoded b))]) ∧
    ∀ s : String,
      let source := literalSource (quoted (escaping marks s.toList))
      Lexer.ReadAs source (literalWords .singleQuoted (quoted (escaping marks s.toList))) ∧
      ((Filter.fresh []).parse file source).1 = .ok [.text s] := by
  refine ⟨fun b hb => ⟨singleQuotedValue_quoted hb, (parse_singleQuoted hb file).2⟩, fun s => ?_⟩
  have hparse := parse_singleQuoted (body_escaping s.toList) file
  rwa [decoded_escaping, String.ofList_toList] at hparse

/-- An escaped backslash before an escaped quote, and a backslash that escapes nothing. -/
theorem single_quotes_decode_run :
    SingleQuotedBody "\\\\\\'\\n".toList ∧
      singleQuotedValue "'\\\\\\'\\n'" = "\\'\\n" ∧
      ((Filter.fresh []).parse none "<?php '\\\\\\'\\n';".toList).1 = .ok [.text "\\'\\n"] := by
  have hbody : SingleQuotedBody "\\\\\\'\\n".toList :=
    .escape _ (.escape _ (.escape _ .nil))
  have hvalue : String.ofList (SingleQuotedBody.decoded "\\\\\\'\\n".toList) = "\\'\\n" := rfl
  obtain ⟨hdecoded, hparse⟩ := (single_quotes_decode none).1 _ hbody
  rw [hvalue] at hdecoded hparse
  exact ⟨hbody, hdecoded, hparse⟩

namespace Token.Pattern

/-- The characters with a meaning of their own between double quotes. -/
def doubleMarks : List Char := ['\\', '"', '$']

/-- Where its marks are escaped, a text does not go on with a dollar sign. -/
theorem startsWith_escaping (cs rest : List Char) :
    startsWith (· == '$') (escaping doubleMarks cs ++ '"' :: rest) = false := by
  cases cs with
  | nil => rfl
  | cons c cs =>
    by_cases hc : c ∈ doubleMarks
    · rw [escaping_cons_of_mem hc]
      rfl
    · rw [escaping_cons_of_not_mem hc]
      have hd : c ≠ '$' := fun he => hc (he ▸ by decide)
      simpa [startsWith] using hd

/-- A text whose marks are escaped is literal up to the quote behind it. -/
theorem quotedRun_escaping (cs rest : List Char) :
    quotedRun (escaping doubleMarks cs ++ '"' :: rest) = (escaping doubleMarks cs).length := by
  induction cs with
  | nil => rfl
  | cons c cs ih =>
    by_cases hc : c ∈ doubleMarks
    · have hstep : quotedRun ('\\' :: c :: (escaping doubleMarks cs ++ '"' :: rest)) =
          2 + quotedRun (escaping doubleMarks cs ++ '"' :: rest) := by simp [quotedRun]
      rw [escaping_cons_of_mem hc, List.cons_append, List.cons_append, hstep, ih, List.length_cons,
        List.length_cons, Nat.add_comm 2]
    rw [escaping_cons_of_not_mem hc, List.cons_append, List.length_cons]
    by_cases hb : c = '{'
    · -- A brace opens a variable before a dollar sign only, and those are escaped.
      subst hb
      rw [quotedRun, startsWith_escaping, if_neg (by decide), ih, Nat.add_comm]
    · have hmark : c ∉ quotedMarks := by
        simp only [doubleMarks, quotedMarks, List.mem_cons, List.not_mem_nil, or_false,
          not_or] at hc ⊢
        exact ⟨hc.2.1, hc.1, hc.2.2, hb⟩
      rw [quotedRun_cons hmark, ih, Nat.add_comm]

end Token.Pattern

theorem ascii_escaping (h : ∀ c ∈ cs, c.toNat < 0x80) : ∀ c ∈ escaping ms cs, c.toNat < 0x80 := by
  intro c hc
  obtain ⟨d, hd, hc⟩ := List.mem_flatMap.mp hc
  split at hc
  · simp only [List.mem_cons, List.not_mem_nil, or_false] at hc
    obtain rfl | rfl := hc
    · decide
    · exact h c hd
  · rw [List.mem_singleton.mp hc]
    exact h d hd

/-- An escape of one character that stands for itself. -/
theorem unescapeAscii_mark (hc : c = '\\' ∨ c = '"') (cs : List Char) :
    unescapeAscii ('\\' :: c :: cs) = (unescapeAscii cs).map (c :: ·) := by
  obtain rfl | rfl := hc <;> rfl

/-- A dollar sign keeps the backslash before it. -/
theorem unescapeAscii_dollar (cs : List Char) :
    unescapeAscii ('\\' :: '$' :: cs) = (unescapeAscii cs).map ('\\' :: '$' :: ·) := by
  have hsimple : simpleEscape? '$' = none := rfl
  have hoctal : octalDigit? '$' = none := rfl
  rw [unescapeAscii.eq_def]
  simp only [hsimple, hoctal]
  rfl

/-- Of the escapes of a text's marks only those of dollar signs are not decoded. -/
theorem unescapeAscii_escaping (cs : List Char) :
    unescapeAscii (escaping doubleMarks cs) = .ok (escaping ['$'] cs) := by
  induction cs with
  | nil => rfl
  | cons c cs ih =>
    by_cases hd : c = '$'
    · subst hd
      rw [escaping_cons_of_mem (by decide), escaping_cons_of_mem (by decide), unescapeAscii_dollar,
        ih]
      rfl
    have hdollar : c ∉ ['$'] := by simpa using hd
    rw [escaping_cons_of_not_mem hdollar]
    by_cases hc : c = '\\' ∨ c = '"'
    · have hmark : c ∈ doubleMarks := by
        obtain rfl | rfl := hc <;> decide
      rw [escaping_cons_of_mem hmark, unescapeAscii_mark hc, ih]
      rfl
    · have hmark : c ∉ doubleMarks := by
        simpa [doubleMarks, hd] using hc
      rw [escaping_cons_of_not_mem hmark, unescapeAscii_cons (not_or.mp hc).1, ih]
      rfl

theorem unescape_escaping (h : ∀ c ∈ cs, c.toNat < 0x80) :
    unescape (String.ofList (escaping doubleMarks cs)) =
      .ok (.text (String.ofList (escaping ['$'] cs))) := by
  have hascii : (escaping doubleMarks cs).all (fun c => c.toNat < 0x80) = true := by
    simpa using ascii_escaping h
  rw [Grammar.unescape, String.toList_ofList, Text.unescape, if_pos hascii, unescapeAscii_escaping]

/-- A text whose marks are escaped is read into itself, with a backslash before every dollar
sign. -/
theorem parse_doubleQuoted (file : Option String) (h : ∀ c ∈ cs, c.toNat < 0x80) :
    ((Filter.fresh []).parse file (quotedStatement (escaping doubleMarks cs))).1 =
      .ok [.text (String.ofList (escaping ['$'] cs))] := by
  obtain rfl | hcs := eq_or_ne cs []
  · have hreads : ∀ b, ∃ b', Lexer.View.Reads ⟨.quoted, [.code], none, b, [] ++ "\";".toList⟩ []
        ⟨.quoted, [.code], none, b', "\";".toList⟩ := fun b => ⟨b, .refl _⟩
    obtain ⟨us, hus, hparse⟩ := parse_quotedStatement hreads
    obtain rfl := List.map_eq_nil_iff.mp hus
    exact hparse file _ gives_noPart
  · have hne : escaping doubleMarks cs ≠ [] := by
      intro he
      have hlength := length_escaping doubleMarks cs
      have := List.length_pos_iff.mpr hcs
      rw [he, List.length_nil] at hlength
      omega
    have hreads : ∀ b, ∃ b', Lexer.View.Reads
        ⟨.quoted, [.code], none, b, escaping doubleMarks cs ++ "\";".toList⟩
        [(.encapsed, String.ofList (escaping doubleMarks cs))]
        ⟨.quoted, [.code], none, b', "\";".toList⟩ := by
      intro b
      obtain ⟨b', hn⟩ := Lexer.View.next_encapsed hne (quotedRun_escaping cs [';'])
      exact ⟨b', .hand hn (by decide) (.refl _)⟩
    obtain ⟨us, hus, hparse⟩ := parse_quotedStatement hreads
    obtain ⟨t, rfl, ht⟩ := List.map_eq_singleton_iff.mp hus
    obtain ⟨hkind, htext⟩ := Prod.mk.inj ht
    rw [hparse file _ (gives_textPart gives_noPart hkind), htext, unescape_escaping h]
    rfl

/-- A text of ASCII characters that is written between double quotes with its backslashes, quotes
and dollar signs escaped keeps the backslashes before its dollar signs. It comes back exactly if it
has no dollar sign. -/
theorem double_quotes_decode (file : Option String) (s : List Char)
    (h : ∀ c ∈ s, c.toNat < 0x80) :
    let result := ((Filter.fresh []).parse file (quotedStatement (escaping doubleMarks s))).1
    result = .ok [.text (String.ofList (escaping ['$'] s))] ∧
      (result = .ok [.text (String.ofList s)] ↔ '$' ∉ s) := by
  intro result
  have hresult : result = .ok [.text (String.ofList (escaping ['$'] s))] :=
    parse_doubleQuoted file h
  refine ⟨hresult, ?_⟩
  have hself : escaping ['$'] s = s ↔ '$' ∉ s := by
    rw [escaping_eq_self_iff]
    simp only [List.mem_singleton]
    exact ⟨fun hall hd => hall '$' hd rfl, fun hd c hc he => hd (he ▸ hc)⟩
  rw [hresult, ← hself]
  simp [String.ofList_inj]

/-- A text with every mark, and with signs that would matter if one of them were not escaped. -/
theorem double_quotes_decode_marks :
    (∀ c ∈ "\\n\"\x7b$v\x7d".toList, c.toNat < 0x80) ∧
      ((Filter.fresh []).parse none "<?php \"\\\\n\\\"\x7b\\$v\x7d\";".toList).1 =
        .ok [.text "\\n\"\x7b\\$v\x7d"] := by
  have hascii : ∀ c ∈ "\\n\"\x7b$v\x7d".toList, c.toNat < 0x80 := by simp
  exact ⟨hascii, (double_quotes_decode none _ hascii).1⟩

/-- An escaped dollar sign is not read into a dollar sign. -/
theorem double_quotes_keep_backslash :
    let result := ((Filter.fresh []).parse none "<?php \"\\$\";".toList).1
    result = .ok [.text "\\$"] ∧ result ≠ .ok [.text "$"] := by
  intro result
  have hsource : quotedStatement (escaping doubleMarks ['$']) = "<?php \"\\$\";".toList := rfl
  have hvalue : String.ofList (escaping ['$'] ['$']) = "\\$" := rfl
  have hascii : ∀ c ∈ ['$'], c.toNat < 0x80 := by simp
  have hparse := parse_doubleQuoted none hascii
  rw [hsource, hvalue] at hparse
  have hresult : result = .ok [.text "\\$"] := hparse
  refine ⟨hresult, ?_⟩
  rw [hresult]
  simp

end Docblock
