import Docblock.Proofs.Automaton.Literals
import Docblock.Proofs.Token.Name

/-! Heredoc text: the lines between a label and its end are kept as they are. -/
namespace Docblock

open Token Text Grammar Automaton.Fragment

namespace Token

open Pattern

/-- The name at the start of a text. -/
def leadingName (cs : List Char) : Option (List Char) := (identifier cs).map (cs.take ·)

/-- A text that starts with a name is that name and what follows it. -/
theorem Pattern.exists_name {cs : List Char} {n : Nat} (h : identifier cs = some n) :
    ∃ (v : Name) (rest : List Char), cs = v.chars ++ rest ∧ startsWith isWord rest = false ∧
      leadingName cs = some v.chars := by
  cases cs with
  | nil => cases h
  | cons c cs =>
    have hc : isNameStart c = true := by
      simp only [identifier] at h
      split at h
      · assumption
      · cases h
    let v : Name := ⟨c, cs.takeWhile isWord, hc, List.all_eq_true.mp List.all_takeWhile⟩
    have hsplit : c :: cs = v.chars ++ cs.dropWhile isWord := by simp [v, Name.chars]
    have hstop : startsWith isWord (cs.dropWhile isWord) = false := by
      have hhead := List.head?_dropWhile_not isWord cs
      cases hd : cs.dropWhile isWord with
      | nil => rfl
      | cons d ds => simpa [hd, startsWith] using hhead
    refine ⟨v, cs.dropWhile isWord, hsplit, hstop, ?_⟩
    rw [leadingName, hsplit, identifier_name v hstop]
    simp

namespace Pattern

variable {cs : List Char} {c : Char}

/-- The characters that end a part of heredoc text, or change its meaning. -/
def heredocMarks : List Char := ['\n', '\\', '$', '{']

theorem heredocRun_cons (h : c ∉ heredocMarks) (cs : List Char) :
    heredocRun (c :: cs) = 1 + heredocRun cs := by
  rw [heredocRun.eq_def]
  split <;> simp_all [heredocMarks]

theorem heredocRun_line (h : ∀ c ∈ cs, c ∉ heredocMarks) (rest : List Char) :
    heredocRun (cs ++ '\n' :: rest) = cs.length := by
  induction cs with
  | nil => rfl
  | cons c cs ih =>
    obtain ⟨hc, hcs⟩ := List.forall_mem_cons.mp h
    rw [List.cons_append, heredocRun_cons hc, ih hcs, List.length_cons]
    omega

/-- What is left of a line is matched with its line feed. -/
theorem heredocText_line (h : ∀ c ∈ cs, c ∉ heredocMarks) (rest : List Char) :
    heredocText (cs ++ '\n' :: rest) = some (cs.length + 1) := by
  have hrun := heredocRun_line h rest
  cases cs with
  | nil => rfl
  | cons c cs =>
    simp only [heredocText, hrun, List.length_cons]
    simp [startsWith]

/-- The label of an opening line, behind the blanks before it. -/
theorem heredocLabel?_spelled {gap : List Char} (hgap : ∀ c ∈ gap, isTab c = true) (v : Name)
    (rest : List Char) :
    heredocLabel? ('<' :: '<' :: '<' :: (gap ++ (v.chars ++ '\n' :: rest))) =
      some (v.chars, gap.length + v.chars.length + 4) := by
  have hrun : run isTab (gap ++ (v.chars ++ '\n' :: rest)) = gap.length := by
    have hspace := ne_of_isNameStart v.isNameStart_head (d := ' ') rfl
    have htab := ne_of_isNameStart v.isNameStart_head (d := '\t') rfl
    exact run_append hgap (by simp [startsWith, Name.chars, isTab, hspace, htab])
  have hname : identifier (v.chars ++ '\n' :: rest) = some v.chars.length := identifier_name v rfl
  have hbehind : (gap ++ (v.chars ++ '\n' :: rest)).drop (gap.length + v.chars.length) =
      '\n' :: rest := by
    rw [← List.drop_drop, List.drop_left, List.drop_left]
  simp only [heredocLabel?, hrun, List.drop_left, hname, hbehind, List.take_left]
  rw [Nat.add_comm 3, Nat.add_right_comm _ 3]

theorem heredocLabel?_name (v : Name) (rest : List Char) :
    heredocLabel? ('<' :: '<' :: '<' :: (v.chars ++ '\n' :: rest)) =
      some (v.chars, v.chars.length + 4) := by
  have hgap : ∀ c ∈ ([] : List Char), isTab c = true := by simp
  have hspelled := heredocLabel?_spelled hgap v rest
  rwa [List.length_nil, Nat.zero_add] at hspelled

end Pattern
end Token

open Token.Pattern

namespace Lexer.View

variable {b : Option Char} {m : Mode} {ms : List Mode} {label : Option (List Char)}
  {cs rest : List Char}

/-- No variable starts with a character that is no mark. -/
theorem firstMatch_noVariable {c : Char} (hbrace : c ≠ '{') (hdollar : c ≠ '$') (cs : List Char) :
    firstMatch (rulesBefore .endHeredoc Mode.heredoc.rules) b (c :: cs) = none := by
  simp [firstMatch, rulesBefore, Mode.rules, Rule.withEffect, Rule.length?, Rule.curlyOpen, exactly,
    exactlyBefore, hbrace.symm, hdollar.symm]

/-- The rule for a name at the start of a line. -/
def labelRule : Rule where
  kind := fun _ => .endHeredoc
  pattern := identifier
  effect := .closeHeredoc
  afterBreak := true

/-- A name at the start of a line: the end of the text if it is the label, else a part of it. -/
theorem firstMatch_label (v : Name) (cs : List Char) (hcs : startsWith isWord cs = false) :
    firstMatch Mode.heredoc.rules (some '\n') (v.chars ++ cs) =
      some (labelRule, v.chars.length) :=
  firstMatch_of_kind .endHeredoc rfl
    (firstMatch_noVariable (ne_of_isNameStart v.isNameStart_head rfl)
      (ne_of_isNameStart v.isNameStart_head rfl) _)
    (identifier_name v hcs)

theorem next_label (v : Name) (cs : List Char) (hcs : startsWith isWord cs = false) :
    ∃ b', next ⟨.heredoc, m :: ms, some v.chars, some '\n', v.chars ++ cs⟩ =
      some ((.endHeredoc, v.text), ⟨m, ms, none, b', cs⟩) := by
  refine ⟨v.chars.getLast?.or (some '\n'), next_taken v.chars (firstMatch_label v cs hcs) ?_⟩
  simp only [Lexer.apply, lexer, String.toList_ofList, if_true]
  rfl

/-- A name that is not the label, at the start of a line. -/
theorem next_leadingName (v : Name) (cs : List Char) (hcs : startsWith isWord cs = false)
    {l : List Char} (hl : v.chars ≠ l) :
    ∃ b', b' ≠ some '\n' ∧ next ⟨.heredoc, ms, some l, some '\n', v.chars ++ cs⟩ =
      some ((.encapsed, v.text), ⟨.heredoc, ms, some l, b', cs⟩) := by
  refine ⟨v.chars.getLast?.or (some '\n'), v.getLast?_chars_ne _ rfl,
    next_taken v.chars (firstMatch_label v cs hcs) ?_⟩
  simp only [Lexer.apply, lexer, String.toList_ofList, if_neg hl]
  rfl

/-- What is left of a line, if no name is looked for there. -/
theorem next_lineRest (hcs : ∀ c ∈ cs, c ∉ heredocMarks)
    (hb : b ≠ some '\n' ∨ identifier (cs ++ '\n' :: rest) = none) :
    next ⟨.heredoc, ms, label, b, cs ++ '\n' :: rest⟩ =
      some ((.encapsed, String.ofList (cs ++ ['\n'])), ⟨.heredoc, ms, label, some '\n', rest⟩) := by
  have hvar : firstMatch (rulesBefore .endHeredoc Mode.heredoc.rules) b (cs ++ '\n' :: rest) =
      none := by
    cases cs with
    | nil => rfl
    | cons c cs =>
      have hc := hcs c List.mem_cons_self
      exact firstMatch_noVariable (c := c) (fun he => hc (he ▸ by decide))
        (fun he => hc (he ▸ by decide)) _
  have hlabel : labelRule.length? b (cs ++ '\n' :: rest) = none := by
    obtain hb | hb := hb
    · simp [Rule.length?, labelRule, hb]
    · simp [Rule.length?, labelRule, hb]
  have hbefore := firstMatch_snoc hvar hlabel
  have hm : firstMatch Mode.heredoc.rules b ((cs ++ ['\n']) ++ rest) =
      some (Rule.counting (Rule.plain .encapsed heredocText), (cs ++ ['\n']).length) := by
    rw [List.append_assoc, List.length_append]
    exact firstMatch_of_kind .encapsed rfl hbefore (heredocText_line hcs rest)
  have hbreak : (cs ++ ['\n']).getLast?.or b = some '\n' := by simp
  have hnext : next ⟨.heredoc, ms, label, b, (cs ++ ['\n']) ++ rest⟩ =
      some ((.encapsed, String.ofList (cs ++ ['\n'])), ⟨.heredoc, ms, label, some '\n', rest⟩) := by
    refine next_taken (cs ++ ['\n']) hm ?_
    rw [hbreak]
    rfl
  rwa [List.append_assoc] at hnext

/-- The line with which heredoc text opens. -/
theorem next_startHeredoc (v : Name) (cs : List Char) :
    ∃ s, next ⟨.code, ms, label, b, '<' :: '<' :: '<' :: (v.chars ++ '\n' :: cs)⟩ =
      some ((.startHeredoc, s), ⟨.heredoc, .code :: ms, some v.chars, some '\n', cs⟩) := by
  let taken := ('<' :: '<' :: '<' :: v.chars) ++ ['\n']
  have hrest : '<' :: '<' :: '<' :: (v.chars ++ '\n' :: cs) = taken ++ cs := by simp [taken]
  have hlabel : heredocLabel? taken = some (v.chars, v.chars.length + 4) :=
    heredocLabel?_name v []
  have hm : firstMatch untagged b (taken ++ cs) =
      some (Rule.counting (Rule.withEffect .startHeredoc startHeredoc .openHeredoc),
        taken.length) := by
    refine firstMatch_of_kind .startHeredoc rfl rfl ?_
    have hlength : taken.length = v.chars.length + 4 := by simp [taken]
    rw [hlength, ← hrest]
    exact congrArg (·.map (·.2)) (heredocLabel?_name v cs)
  have hbreak : taken.getLast?.or b = some '\n' := by simp only [taken, List.getLast?_concat,
    Option.some_or]
  rw [hrest]
  refine ⟨String.ofList taken, next_taken taken (firstMatch_untagged rfl hm) ?_⟩
  simp only [hbreak, Rule.counting, Rule.withEffect, Lexer.apply, String.toList_ofList, hlabel]
  rfl

end Lexer.View

/-- A line of heredoc text that needs no decoding and does not start with the label. -/
structure HeredocLine (label : Name) where
  chars : List Char
  plain : ∀ c ∈ chars, c.toNat < 0x80 ∧ c ∉ heredocMarks
  unlabelled : leadingName chars ≠ some label.chars

/-- The text that texts with points between them stand for, if a tree is made of them. -/
def Tree.concatenated : Tree → Option (List Char)
  | .text s => some s.toList
  | .node .binaryOp _ [.text ".", t, u] => do return (← t.concatenated) ++ (← u.concatenated)
  | _ => none

namespace HeredocLine

variable {label : Name} {ms : List Mode} {rest cs : List Char} {file : Option String}
  {ts us : List Token} {before : Tree} {parts : List String}

def spelled (line : HeredocLine label) : List Char := line.chars ++ ['\n']

open Lexer.View in
/-- A line is read as one part or, if it starts with a name, as two. -/
theorem reads_line (line : HeredocLine label) (rest : List Char) :
    ∃ parts : List String, Reads ⟨.heredoc, ms, some label.chars, some '\n', line.spelled ++ rest⟩
        (parts.map (.encapsed, ·)) ⟨.heredoc, ms, some label.chars, some '\n', rest⟩ ∧
      parts.flatMap String.toList = line.spelled := by
  obtain ⟨chars, hplain, hlabel⟩ := line
  have hmarks : ∀ c ∈ chars, c ∉ heredocMarks := fun c hc => (hplain c hc).2
  simp only [spelled, List.append_assoc, List.cons_append, List.nil_append]
  cases hn : identifier chars with
  | none =>
    have hnone : identifier (chars ++ '\n' :: rest) = none := by
      cases chars with
      | nil => rfl
      | cons c cs =>
        simp only [identifier] at hn
        split at hn
        · cases hn
        · rename_i hc
          simp [identifier, hc]
    exact ⟨[String.ofList (chars ++ ['\n'])],
      .hand (next_lineRest hmarks (.inr hnone)) (by decide) (.refl _), by simp⟩
  | some n =>
    obtain ⟨v, tail, rfl, hstop, hlead⟩ := exists_name hn
    have hend : startsWith isWord (tail ++ '\n' :: rest) = false := by
      cases tail with
      | nil => rfl
      | cons => exact hstop
    have hv : v.chars ≠ label.chars := fun he => hlabel (he ▸ hlead)
    have htail : ∀ c ∈ tail, c ∉ heredocMarks := fun c hc => hmarks c (List.mem_append_right _ hc)
    obtain ⟨b, hb, hname⟩ := next_leadingName v _ hend hv
    rw [List.append_assoc]
    refine ⟨[v.text, String.ofList (tail ++ ['\n'])], ?_, by simp [Name.text]⟩
    exact .hand hname (by decide)
      (.hand (next_lineRest htail (.inl hb)) (by decide) (.refl _))

open Lexer.View in
theorem reads_lines (lines : List (HeredocLine label)) (rest : List Char) :
    ∃ parts : List String, Reads ⟨.heredoc, ms, some label.chars, some '\n',
          lines.flatMap spelled ++ rest⟩
        (parts.map (.encapsed, ·)) ⟨.heredoc, ms, some label.chars, some '\n', rest⟩ ∧
      parts.flatMap String.toList = lines.flatMap spelled := by
  induction lines with
  | nil => exact ⟨[], .refl _, rfl⟩
  | cons line lines ih =>
    obtain ⟨parts₁, hline, hparts₁⟩ := reads_line line (lines.flatMap spelled ++ rest)
    obtain ⟨parts₂, hlines, hparts₂⟩ := ih
    refine ⟨parts₁ ++ parts₂, ?_, by simp [hparts₁, hparts₂]⟩
    rw [List.flatMap_cons, List.append_assoc, List.map_append]
    exact hline.trans hlines

/-- A part is put behind the text before it. -/
theorem gives_part {t : Token} (h : Automaton.literals.Gives file .encapsList ts (.ok before))
    (hb : before.concatenated = some cs) (ht : t.kind = .encapsed)
    (hplain : ∀ c ∈ t.text.toList, c.toNat < 0x80 ∧ c ≠ '\\') :
    ∃ x, Automaton.literals.Gives file .encapsList (ts ++ [t]) (.ok x) ∧
      x.concatenated = some (cs ++ t.text.toList) := by
  refine ⟨_, gives_plainPart h ht hplain, ?_⟩
  unfold interpolate
  split
  · obtain rfl : [] = cs := by simpa [Tree.concatenated] using hb
    simp [Tree.concatenated]
  · simp [node, Tree.concatenated, hb]

theorem gives_parts (h : Automaton.literals.Gives file .encapsList ts (.ok before))
    (hb : before.concatenated = some cs) (hus : us.map Token.word = parts.map (.encapsed, ·))
    (hplain : ∀ c ∈ parts.flatMap String.toList, c.toNat < 0x80 ∧ c ≠ '\\') :
    ∃ t, Automaton.literals.Gives file .encapsList (ts ++ us) (.ok t) ∧
      t.concatenated = some (cs ++ parts.flatMap String.toList) := by
  induction parts generalizing ts us before cs with
  | nil =>
    obtain rfl := List.map_eq_nil_iff.mp hus
    exact ⟨before, by simpa using h, by simpa using hb⟩
  | cons part parts ih =>
    obtain ⟨t, us, rfl, ht, hrest⟩ := List.map_eq_cons_iff.mp hus
    obtain ⟨hkind, rfl⟩ := Prod.mk.inj ht
    rw [List.flatMap_cons, List.forall_mem_append] at hplain
    obtain ⟨x, hx, hcat⟩ := gives_part h hb hkind hplain.1
    obtain ⟨y, hy, hall⟩ := ih hx hcat hrest hplain.2
    exact ⟨y, by simpa using hy, by simpa using hall⟩

theorem plain_spelled (lines : List (HeredocLine label)) :
    ∀ c ∈ lines.flatMap spelled, c.toNat < 0x80 ∧ c ≠ '\\' := by
  intro c hc
  obtain ⟨line, -, hc⟩ := List.mem_flatMap.mp hc
  obtain hc | hc := List.mem_append.mp hc
  · obtain ⟨hascii, hmark⟩ := line.plain c hc
    exact ⟨hascii, fun he => hmark (he ▸ by decide)⟩
  · obtain rfl := List.mem_singleton.mp hc
    decide

end HeredocLine

/-- A source that returns some lines of heredoc text. -/
def heredocSource (label : Name) (lines : List (HeredocLine label)) : List Char :=
  "<?php return <<<".toList ++
    (label.chars ++ '\n' :: (lines.flatMap HeredocLine.spelled ++ (label.chars ++ ";\n".toList)))

open Lexer.View in
theorem HeredocLine.reads_source (label : Name) (lines : List (HeredocLine label)) :
    ∃ (v : Lexer.View) (parts : List String) (s : String),
      Reads (ofText (heredocSource label lines)) ((.kwReturn, "return") :: (.startHeredoc, s) ::
        (parts.map (Kind.encapsed, ·) ++ [(Kind.endHeredoc, label.text), (Kind.semi, ";")])) v ∧
      v.rest = [] ∧
      parts.flatMap String.toList = lines.flatMap spelled := by
  let body := lines.flatMap spelled ++ (label.chars ++ ";\n".toList)
  have hspace : next ⟨.code, [], none, some 'n', ' ' :: '<' :: '<' :: '<' ::
        (label.chars ++ '\n' :: body)⟩ =
      some ((.whitespace, " "),
        ⟨.code, [], none, some ' ', '<' :: '<' :: '<' :: (label.chars ++ '\n' :: body)⟩) := rfl
  obtain ⟨s, hstart⟩ := next_startHeredoc label body
  obtain ⟨parts, hlines, hparts⟩ := reads_lines lines
    (label.chars ++ ";\n".toList)
  obtain ⟨b, hlabel⟩ := next_label label ";\n".toList rfl
  have hbreak : next ⟨.code, [], none, some ';', ['\n']⟩ =
      some ((.whitespace, "\n"), ⟨.code, [], none, some '\n', []⟩) := rfl
  have hreads := (reads_return ('<' :: '<' :: '<' :: (label.chars ++ '\n' :: body))).trans
    (.skip hspace (by decide) (.hand hstart (by decide) (hlines.trans
      (.hand hlabel (by decide) (.hand next_semi (by decide) (.skip hbreak (by decide)
        (.refl _)))))))
  exact ⟨_, parts, s, hreads, rfl, hparts⟩

/-- Lines that do not start with the label are kept: what is returned stands for all of them, each
with its line feed. -/
theorem parse_heredoc (file : Option String) (label : Name) (lines : List (HeredocLine label)) :
    ∃ line t, ((Filter.fresh []).parse file (heredocSource label lines)).1 =
        .ok [.node .returnValue line [t]] ∧
      t.concatenated = some (lines.flatMap HeredocLine.spelled) := by
  obtain ⟨v, parts, s, hreads, hv, hparts⟩ := HeredocLine.reads_source label lines
  obtain ⟨ts, hts, hparse⟩ := parse_view hreads hv
  obtain ⟨w, ts, rfl, hw, hts⟩ := List.map_eq_cons_iff.mp hts
  obtain ⟨q, us, r, e, rfl, hus, hq, hr, he⟩ := enclosed_tokens hts
  have hplain : ∀ c ∈ parts.flatMap String.toList, c.toNat < 0x80 ∧ c ≠ '\\' := by
    rw [hparts]
    exact HeredocLine.plain_spelled lines
  have hnone : Automaton.literals.Gives file .encapsList [] (.ok (.text "")) := gives_noPart
  obtain ⟨t, ht, hcat⟩ := HeredocLine.gives_parts hnone rfl hus hplain
  refine ⟨some w.line, t, ?_, hcat.trans (congrArg some hparts)⟩
  exact hparse file _
    (gives_source (gives_return (congrArg Prod.fst hw) (gives_heredoc hq ht hr) he))

/-- Lines that all but start with the label. -/
def nearLabelLines : List (HeredocLine ⟨'E', ['O', 'T'], rfl, List.all_eq_true.mp rfl⟩) := [
  ⟨"EOTX".toList, by simp [heredocMarks], by decide⟩,
  ⟨" EOT;".toList, by simp [heredocMarks], by decide⟩, ⟨[], by simp, by decide⟩,
  ⟨"EO \"T\"".toList, by simp [heredocMarks], by decide⟩]

theorem parse_heredoc_nearLabel :
    ∃ line t, ((Filter.fresh []).parse none
        "<?php return <<<EOT\nEOTX\n EOT;\n\nEO \"T\"\nEOT;\n".toList).1 =
      .ok [.node .returnValue line [t]] ∧
    t.concatenated = some "EOTX\n EOT;\n\nEO \"T\"\n".toList :=
  parse_heredoc none _ nearLabelLines

end Docblock
