import Docblock.Proofs.Token.View

/-! Names, how they are read in code and in interpolated text, and the words that open a source. -/
namespace Docblock.Token

open Text

/-- A letter or underscore, then letters, numbers and underscores. -/
structure Name where
  head : Char
  tail : List Char
  isNameStart_head : isNameStart head = true
  isWord_tail : ∀ c ∈ tail, isWord c = true

theorem toNat_of_isAlpha {c : Char} (h : c.isAlpha = true) : c.toNat < 0x80 := by
  obtain h | h := (Bool.or_eq_true _ _).mp h
  · have hup : c.val ≤ 'Z'.val := (of_decide_eq_true h).2
    exact Nat.lt_of_le_of_lt (UInt32.le_iff_toNat_le.mp hup) (by decide)
  · have hlow : c.val ≤ 'z'.val := of_decide_eq_true (Bool.and_eq_true_iff.mp h).2
    exact Nat.lt_of_le_of_lt (UInt32.le_iff_toNat_le.mp hlow) (by decide)

theorem toNat_of_isNameStart {c : Char} (h : isNameStart c = true) : c.toNat < 0x80 := by
  simp only [isNameStart, Bool.or_eq_true, beq_iff_eq] at h
  obtain h | rfl := h
  · exact toNat_of_isAlpha h
  · decide

theorem isWord_of_isNameStart {c : Char} (h : isNameStart c = true) : isWord c = true := by
  have hascii := toNat_of_isNameStart h
  simp only [isNameStart, Bool.or_eq_true] at h
  simp only [isWord, hascii, if_true, Char.isAlphanum, Bool.or_eq_true]
  exact h.imp Or.inl id

namespace Name

def chars (v : Name) : List Char := v.head :: v.tail

def text (v : Name) : String := String.ofList v.chars

/-- The name as that of a variable. -/
def asVariable (v : Name) : String := String.ofList ('$' :: v.chars)

theorem isWord_chars (v : Name) : ∀ c ∈ v.chars, isWord c = true :=
  List.forall_mem_cons.mpr ⟨isWord_of_isNameStart v.isNameStart_head, v.isWord_tail⟩

/-- The character before what follows a name is one of the name. -/
theorem getLast?_chars_ne (v : Name) (b : Option Char) {c : Char} (hc : isWord c = false) :
    v.chars.getLast?.or b ≠ some c := by
  intro h
  obtain ⟨d, hd⟩ : ∃ d, v.chars.getLast? = some d :=
    Option.ne_none_iff_exists'.mp (by simp [chars])
  rw [hd, Option.some_or, Option.some.injEq] at h
  have hword := v.isWord_chars d (List.mem_of_getLast? hd)
  rw [h, hc] at hword
  cases hword

end Name

namespace Pattern

variable {p : Char → Bool} {cs ds : List Char} {c : Char}

/-- Characters of a class are a run, if no more of them follow. -/
theorem run_append (h : ∀ c ∈ cs, p c = true) (hds : startsWith p ds = false) :
    run p (cs ++ ds) = cs.length := by
  have hstop : ds.takeWhile p = [] := by
    cases ds with
    | nil => rfl
    | cons d ds =>
      have hd : p d = false := hds
      simp [hd]
  rw [run, List.takeWhile_append_of_pos h, hstop, List.append_nil]

theorem identifier_name (v : Name) (hcs : startsWith isWord cs = false) :
    identifier (v.chars ++ cs) = some v.chars.length := by
  have hrun := run_append v.isWord_tail hcs
  simp only [Name.chars, List.cons_append, identifier, v.isNameStart_head, if_true, hrun,
    List.length_cons, Nat.add_comm]

theorem variableName_name (v : Name) (hcs : startsWith isWord cs = false) :
    variableName ('$' :: (v.chars ++ cs)) = some (1 + v.chars.length) := by
  rw [variableName, identifier_name v hcs]
  rfl

theorem closeTag_of_mark (h : isTagMark c = false) : closeTag (c :: cs) = none := by
  unfold closeTag
  split
  · rename_i he
    cases he
    simp [h]
  · rfl

/-- A letter or underscore is none of the other characters. -/
theorem ne_of_isNameStart (h : isNameStart c = true) {d : Char} (hd : isNameStart d = false) :
    c ≠ d := by
  rintro rfl
  rw [h] at hd
  cases hd

theorem isSpace_of_isNameStart (h : isNameStart c = true) : isSpace c = false := by
  simp only [isSpace, Bool.or_eq_false_iff, beq_eq_false_iff_ne]
  exact ⟨⟨⟨ne_of_isNameStart h rfl, ne_of_isNameStart h rfl⟩, ne_of_isNameStart h rfl⟩,
    ne_of_isNameStart h rfl⟩

/-- The characters that end literal text between quotes, or change its meaning. -/
def quotedMarks : List Char := ['"', '\\', '$', '{']

theorem quotedRun_cons (h : c ∉ quotedMarks) (cs : List Char) :
    quotedRun (c :: cs) = 1 + quotedRun cs := by
  rw [quotedRun.eq_def]
  split <;> simp_all [quotedMarks]

end Pattern
end Docblock.Token

namespace Docblock.Lexer

open Token Text Pattern

variable {b : Option Char} {cs taken : List Char} {c : Char} {rules : List Rule} {r : Rule}
  {n : Nat}

/-- The rules of code but that for a closing tag. -/
def untagged : List Rule :=
  rulesBefore .closeTag Mode.code.rules ++ rulesAfter .closeTag Mode.code.rules

/-- Before most characters a closing tag need not be looked for. -/
theorem firstMatch_untagged (hc : isTagMark c = false)
    (h : firstMatch untagged b (c :: cs) = some (r, n)) :
    firstMatch Mode.code.rules b (c :: cs) = some (r, n) := by
  have hfind : Mode.code.rules.find? (fun r => r.kind [] == .closeTag) =
      some (Rule.counting (Rule.withEffect .closeTag closeTag (.enter .html))) := rfl
  have hnone : (Rule.counting (Rule.withEffect .closeTag closeTag (.enter .html))).length? b
      (c :: cs) = none := closeTag_of_mark hc
  rw [firstMatch, untagged, List.findSome?_append] at h
  rw [firstMatch, rules_split hfind, List.findSome?_append, List.findSome?_cons, hnone]
  exact h

/-- No rule matches if none but the last can and that one does not. -/
theorem firstMatch_snoc (hbefore : firstMatch rules b cs = none) (hr : r.length? b cs = none) :
    firstMatch (rules ++ [r]) b cs = none := by
  rw [firstMatch] at hbefore
  rw [firstMatch, List.findSome?_append, hbefore, List.findSome?_cons, hr]
  rfl

/-- The rules before that for names match nothing at a letter or underscore. -/
theorem firstMatch_nameStart (hc : isNameStart c = true) :
    firstMatch (rulesBefore .ident untagged) b (c :: cs) = none := by
  have hne : ∀ d, isNameStart d = false → ¬ d = c :=
    fun d hd he => ne_of_isNameStart hc hd he.symm
  have hspace : whitespace (c :: cs) = none := by
    simp [whitespace, some1, run, isSpace_of_isNameStart hc]
  have hdoc : docComment (c :: cs) = none := by
    unfold docComment
    split
    · rename_i he
      cases he
      cases hc
    · rfl
  have hcomment : comment (c :: cs) = none := by
    unfold comment orElse blockComment lineComment
    split
    · rename_i he
      cases he
      cases hc
    · split
      · rename_i he
        cases he
        cases hc
      · rename_i he
        cases he
        cases hc
      · rfl
  have hrules : rulesBefore .ident untagged = rulesBefore .closeTag Rule.codeClasses := rfl
  rw [hrules]
  simp [firstMatch, rulesBefore, Rule.codeClasses, Rule.withEffect, Rule.counting, Rule.plain,
    Rule.length?, exactly, hdoc, hcomment, hspace, hne '-' rfl, hne '[' rfl, hne ']' rfl,
    hne '{' rfl, hne '}' rfl]

namespace View

variable {m : Mode} {ms : List Mode} {label : Option (List Char)} {v : Name}

theorem next_quote : next ⟨.code, ms, label, b, '"' :: cs⟩ =
    some ((.quote, "\""), ⟨.quoted, .code :: ms, label, some '"', cs⟩) :=
  next_taken ['"'] (firstMatch_untagged rfl rfl) rfl

theorem next_semi : next ⟨.code, ms, label, b, ';' :: cs⟩ =
    some ((.semi, ";"), ⟨.code, ms, label, some ';', cs⟩) :=
  next_taken [';'] (firstMatch_untagged rfl rfl) rfl

/-- A variable in code. -/
theorem next_variable (v : Name) (cs : List Char) (hcs : startsWith isWord cs = false) :
    ∃ b', next ⟨.code, ms, label, b, '$' :: (v.chars ++ cs)⟩ =
      some ((.var, v.asVariable), ⟨.code, ms, label, b', cs⟩) := by
  have hm : firstMatch untagged b ('$' :: (v.chars ++ cs)) =
      some (Rule.plain .var variableName, ('$' :: v.chars).length) := by
    refine firstMatch_of_kind .var rfl rfl ?_
    rw [List.length_cons, Nat.add_comm]
    exact variableName_name v hcs
  exact ⟨_, next_taken ('$' :: v.chars) (firstMatch_untagged rfl hm) rfl⟩

/-- A name behind the arrow of a property. -/
theorem next_property (v : Name) (cs : List Char) (hcs : startsWith isWord cs = false) :
    ∃ b', next ⟨.property, m :: ms, label, b, v.chars ++ cs⟩ =
      some ((.ident, v.text), ⟨m, ms, label, b', cs⟩) := by
  have hm : firstMatch Mode.property.rules b (v.chars ++ cs) =
      some (Rule.withEffect .ident identifier .pop, v.chars.length) :=
    firstMatch_of_kind .ident rfl rfl (identifier_name v hcs)
  exact ⟨_, next_taken v.chars hm rfl⟩

/-- A name behind a dollar sign and a brace. -/
theorem next_varName (v : Name) (cs : List Char) (hcs : startsWith isWord cs = false) :
    ∃ b', next ⟨.varName, ms, label, b, v.chars ++ cs⟩ =
      some ((.varName, v.text), ⟨.varName, ms, label, b', cs⟩) := by
  have hbracket := ne_of_isNameStart v.isNameStart_head (d := '[') rfl
  have hbrace := ne_of_isNameStart v.isNameStart_head (d := '}') rfl
  have hm : firstMatch Mode.varName.rules b (v.chars ++ cs) =
      some (Rule.plain .varName identifier, v.chars.length) := by
    refine firstMatch_of_kind .varName rfl ?_ (identifier_name v hcs)
    simp [firstMatch, rulesBefore, Mode.rules, Rule.withEffect, Rule.plain, Rule.length?, exactly,
      Name.chars, hbracket.symm, hbrace.symm]
  exact ⟨_, next_taken v.chars hm rfl⟩

/-- A name or reserved word in code. -/
theorem next_word (taken cs : List Char) {k : Kind} (hk : kindOfName taken = k)
    (hm : firstMatch Mode.code.rules b (taken ++ cs) =
      some ({ kind := kindOfName, pattern := identifier }, taken.length)) :
    next ⟨.code, ms, label, b, taken ++ cs⟩ =
      some ((k, String.ofList taken), ⟨.code, ms, label, taken.getLast?.or b, cs⟩) := by
  subst hk
  exact next_taken taken hm rfl

/-- A name in code is a token of the kind that its characters have. -/
theorem next_name (v : Name) (cs : List Char) (hcs : startsWith isWord cs = false) :
    ∃ b', next ⟨.code, ms, label, b, v.chars ++ cs⟩ =
      some ((kindOfName v.chars, v.text), ⟨.code, ms, label, b', cs⟩) := by
  have htag : isTagMark v.head = false := by
    simp only [isTagMark, Bool.or_eq_false_iff, beq_eq_false_iff_ne]
    exact ⟨ne_of_isNameStart v.isNameStart_head rfl, ne_of_isNameStart v.isNameStart_head rfl⟩
  have hm : firstMatch untagged b (v.chars ++ cs) =
      some ({ kind := kindOfName, pattern := identifier }, v.chars.length) :=
    firstMatch_of_kind .ident rfl
      (firstMatch_nameStart v.isNameStart_head) (identifier_name v hcs)
  exact ⟨_, next_word v.chars cs rfl (firstMatch_untagged htag hm)⟩

/-- White space in code. -/
theorem next_space {ds : List Char} (hne : cs ≠ []) (hcs : ∀ c ∈ cs, isSpace c = true)
    (hds : startsWith isSpace ds = false) :
    ∃ b', next ⟨.code, ms, label, b, cs ++ ds⟩ =
      some ((.whitespace, String.ofList cs), ⟨.code, ms, label, b', ds⟩) := by
  have hrun : whitespace (cs ++ ds) = some cs.length := by
    rw [whitespace, some1, run_append hcs hds]
    cases cs with
    | nil => exact absurd rfl hne
    | cons => rfl
  exact ⟨_, next_taken cs (firstMatch_of_kind .whitespace rfl rfl hrun) rfl⟩

theorem next_openTag (cs : List Char) : next (ofText ("<?php ".toList ++ cs)) =
    some ((.openTag, "<?php "), ⟨.code, [], none, some ' ', cs⟩) := rfl

/-- A source that starts with a value that is returned, up to the blank before the value. -/
theorem reads_return (cs : List Char) : Reads (ofText ("<?php return".toList ++ ' ' :: cs))
    [(.kwReturn, "return")] ⟨.code, [], none, some 'n', ' ' :: cs⟩ :=
  .skip (next_openTag ("return".toList ++ ' ' :: cs)) (by decide)
    (.hand (next_word "return".toList (' ' :: cs) (by decide) rfl) (by decide) (.refl _))

end View
end Docblock.Lexer
