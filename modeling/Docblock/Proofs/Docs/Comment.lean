import Docblock.Docs.Comment

/-! A documenting comment gives back the lines that were written into it. -/
namespace Docblock.Docs

open Docblock.Text

variable {c : Char} {indent l rest : List Char} {lines : List (List Char)}

/-- A comment over several lines: each line of its text stands behind an indentation, a star and a
space. -/
def docComment (indent : List Char) (lines : List (List Char)) : List Char :=
  ['/', '*', '*', '\n'] ++ lines.flatMap (fun l => indent ++ '*' :: ' ' :: l ++ ['\n']) ++
    (indent ++ ['*', '/'])

/-- A text that fits on one line. -/
def Unbroken (l : List Char) : Prop := ∀ c ∈ l, isBreak c = false

/-- Spaces and tabs. -/
def Indentation (indent : List Char) : Prop := ∀ c ∈ indent, c = ' ' ∨ c = '\t'

/-- The first line starts with a character that is not white space. -/
def StartsDark (lines : List (List Char)) : Prop :=
  ∃ l c, lines.head? = some l ∧ l.head? = some c ∧ isBlank c = false

/-- The last line ends with a character that is not white space. -/
def EndsDark (lines : List (List Char)) : Prop :=
  ∃ l c, lines.getLast? = some l ∧ l.getLast? = some c ∧ isBlank c = false

theorem unbroken_cons : Unbroken (c :: l) ↔ isBreak c = false ∧ Unbroken l :=
  List.forall_mem_cons

theorem unbroken_append {l m : List Char} : Unbroken (l ++ m) ↔ Unbroken l ∧ Unbroken m :=
  List.forall_mem_append

theorem Indentation.unbroken (h : Indentation indent) : Unbroken indent := by
  intro c hc
  obtain rfl | rfl := h c hc <;> decide

theorem Indentation.blank (h : Indentation indent) : ∀ c ∈ indent, isBlank c = true := by
  intro c hc
  obtain rfl | rfl := h c hc <;> decide

theorem Indentation.no_star (h : Indentation indent) : ∀ c ∈ indent, c ≠ '*' := by
  intro c hc
  obtain rfl | rfl := h c hc <;> decide

/-! ### Lines -/

theorem splitLinesFrom_cons {line : List Char} (h : isBreak c = false) :
    splitLinesFrom line (c :: rest) = splitLinesFrom (c :: line) rest := by
  rw [splitLinesFrom, h, if_neg Bool.false_ne_true]
  -- A return before a line feed is a case of its own, but it is a break by itself.
  rintro _ rfl
  exact absurd h (by decide)

theorem splitLinesFrom_unbroken (line : List Char) (h : Unbroken l) :
    splitLinesFrom line (l ++ rest) = splitLinesFrom (l.reverse ++ line) rest := by
  induction l generalizing line with
  | nil => rfl
  | cons c cs ih =>
    obtain ⟨hc, hcs⟩ := unbroken_cons.mp h
    rw [List.cons_append, splitLinesFrom_cons hc, ih _ hcs]
    simp

/-- Lines that each end with a line feed, and a last line that is not empty. -/
theorem splitLines_lines (h : ∀ l ∈ lines, Unbroken l) (hr : Unbroken rest) (hne : rest ≠ []) :
    splitLines (lines.flatMap (· ++ ['\n']) ++ rest) = lines ++ [rest] := by
  induction lines with
  | nil =>
    have hrest : splitLinesFrom [] (rest ++ []) = _ := splitLinesFrom_unbroken [] hr
    simpa [splitLines, splitLinesFrom, hne] using hrest
  | cons l ls ih =>
    obtain ⟨hl, hls⟩ := List.forall_mem_cons.mp h
    have hbreak : isBreak '\n' = true := by decide
    simpa [splitLines, splitLinesFrom_unbroken [] hl, splitLinesFrom, hbreak] using ih hls

theorem intercalate_snoc (lines : List (List Char)) (l : List Char) :
    ['\n'].intercalate (lines ++ [l]) = lines.flatMap (· ++ ['\n']) ++ l := by
  induction lines with
  | nil => simp [List.intercalate]
  | cons m ms ih =>
    have hcons : ['\n'].intercalate (m :: (ms ++ [l])) =
        m ++ '\n' :: ['\n'].intercalate (ms ++ [l]) := by
      cases ms <;> simp [List.intercalate]
    rw [List.cons_append, hcons, ih]
    simp

/-- Joined lines are cut where they were joined, as long as the last one shows. -/
theorem splitLines_intercalate (h : ∀ l ∈ lines, Unbroken l) (he : EndsDark lines) :
    splitLines (['\n'].intercalate lines) = lines := by
  obtain ⟨l, c, hl, hc, -⟩ := he
  obtain ⟨ls, rfl⟩ := List.getLast?_eq_some_iff.mp hl
  obtain ⟨hls, hu⟩ := List.forall_mem_append.mp h
  rw [intercalate_snoc]
  refine splitLines_lines hls (hu l List.mem_cons_self) ?_
  rintro rfl
  simp at hc

/-! ### White space -/

theorem stripLeft_blank {head : List Char} (h : ∀ c ∈ head, isBlank c = true) :
    stripLeft (head ++ l) = stripLeft l := by
  rw [stripLeft, List.dropWhile_append_of_pos h]
  rfl

theorem stripRight_blank {tail : List Char} (h : ∀ c ∈ tail, isBlank c = true) :
    stripRight (l ++ tail) = stripRight l := by
  rw [stripRight, List.reverse_append, List.dropWhile_append_of_pos]
  · rfl
  · simpa using h

theorem stripLeft_dark (h : l.head? = some c) (hc : isBlank c = false) : stripLeft l = l := by
  obtain ⟨cs, rfl⟩ := List.head?_eq_some_iff.mp h
  rw [stripLeft, List.dropWhile_cons, hc]
  rfl

theorem stripRight_dark (h : l.getLast? = some c) (hc : isBlank c = false) : stripRight l = l := by
  obtain ⟨cs, rfl⟩ := List.getLast?_eq_some_iff.mp h
  simp [stripRight, hc]

theorem head?_intercalate (h : lines.head? = some l) (hc : l.head? = some c) :
    (['\n'].intercalate lines).head? = some c := by
  obtain ⟨ls, rfl⟩ := List.head?_eq_some_iff.mp h
  obtain ⟨cs, rfl⟩ := List.head?_eq_some_iff.mp hc
  cases ls <;> simp [List.intercalate]

theorem getLast?_intercalate (h : lines.getLast? = some l) (hc : l.getLast? = some c) :
    (['\n'].intercalate lines).getLast? = some c := by
  obtain ⟨ls, rfl⟩ := List.getLast?_eq_some_iff.mp h
  rw [intercalate_snoc, List.getLast?_append, hc]
  rfl

/-- The empty lines that the first and the last line of a comment leave behind go. -/
theorem strip_framed (hs : StartsDark lines) (he : EndsDark lines) :
    strip (['\n'].intercalate ([] :: lines ++ [[]])) = ['\n'].intercalate lines := by
  obtain ⟨l, c, hl, hc, hdark⟩ := hs
  obtain ⟨m, d, hm, hd, hdark'⟩ := he
  have hframe : ['\n'].intercalate ([] :: lines ++ [[]]) =
      ['\n'] ++ (['\n'].intercalate lines ++ ['\n']) := by
    obtain ⟨ls, rfl⟩ := List.getLast?_eq_some_iff.mp hm
    rw [intercalate_snoc, intercalate_snoc]
    simp
  have hfirst : stripLeft (['\n'].intercalate lines ++ ['\n']) =
      ['\n'].intercalate lines ++ ['\n'] :=
    stripLeft_dark (by simp [head?_intercalate hl hc]) hdark
  have hblank : ∀ c ∈ ['\n'], isBlank c = true := by simp; decide
  rw [strip, hframe, stripLeft_blank hblank, hfirst, stripRight_blank hblank,
    stripRight_dark (getLast?_intercalate hm hd) hdark']

/-! ### The text of a line -/

theorem beforeEnd?_cons (h : c ≠ '*') : beforeEnd? (c :: l) = (beforeEnd? l).map (c :: ·) := by
  rw [beforeEnd?]
  simp [h]

theorem beforeEnd?_append {head : List Char} (h : ∀ c ∈ head, c ≠ '*') :
    beforeEnd? (head ++ l) = (beforeEnd? l).map (head ++ ·) := by
  induction head with
  | nil => simp
  | cons c cs ih =>
    obtain ⟨hc, hcs⟩ := List.forall_mem_cons.mp h
    rw [List.cons_append, beforeEnd?_cons hc, ih hcs]
    simp [Function.comp_def]

theorem beforeEnd?_eq_none (h : ¬ ['*', '/'] <:+: l) : beforeEnd? l = none := by
  fun_induction beforeEnd? l with
  | case1 => rfl
  | case2 cs => exact absurd (List.prefix_append ['*', '/'] cs).isInfix h
  | case3 c cs _ ih =>
    rw [ih fun hcs => h (List.infix_cons hcs)]
    rfl

/-- The space behind the star keeps the text from going on with the mark of the line, and the star
from ending the comment. -/
theorem lineText?_indented (h : Indentation indent) (he : ¬ ['*', '/'] <:+: l) :
    lineText? (indent ++ '*' :: ' ' :: l) = some l := by
  have hstars : afterStars? (indent ++ '*' :: ' ' :: l) = some l := by
    rw [afterStars?, stripLeft_blank h.blank]
    rfl
  have hend : beforeEnd? (indent ++ '*' :: ' ' :: l) = none := by
    have hl : beforeEnd? (' ' :: l) = none := by
      rw [beforeEnd?_cons (by decide), beforeEnd?_eq_none he]
      rfl
    simp [beforeEnd?_append h.no_star, beforeEnd?, hl]
  simp only [lineText?, hstars, withoutEnd, hend, Option.getD_some]

theorem lineText?_end (h : Indentation indent) : lineText? (indent ++ ['*', '/']) = some [] := by
  have hstars : afterStars? (indent ++ ['*', '/']) = some ['/'] := by
    rw [afterStars?, stripLeft_blank h.blank]
    rfl
  have hend : beforeEnd? (indent ++ ['*', '/']) = some indent := by
    simp [beforeEnd?_append h.no_star, beforeEnd?]
  have hstrip : stripRight indent = [] := stripRight_blank (l := []) h.blank
  simp only [lineText?, hstars, withoutEnd, hend, hstrip]
  rfl

/-! ### The whole comment -/

theorem splitLines_docComment (hi : Indentation indent) (hu : ∀ l ∈ lines, Unbroken l) :
    splitLines (docComment indent lines) =
      ['/', '*', '*'] :: lines.map (fun l => indent ++ '*' :: ' ' :: l) ++
        [indent ++ ['*', '/']] := by
  have hlines : ∀ l ∈ ['/', '*', '*'] :: lines.map (fun l => indent ++ '*' :: ' ' :: l),
      Unbroken l := by
    simp only [List.forall_mem_cons, List.forall_mem_map, unbroken_append, unbroken_cons]
    exact ⟨⟨by decide, by decide, by decide, List.forall_mem_nil _⟩,
      fun l hl => ⟨hi.unbroken, by decide, by decide, hu l hl⟩⟩
  have hend : Unbroken (indent ++ ['*', '/']) := by
    simp only [unbroken_append, unbroken_cons]
    exact ⟨hi.unbroken, by decide, by decide, List.forall_mem_nil _⟩
  have h := splitLines_lines hlines hend (by simp)
  simpa [docComment, List.flatMap_map] using h

theorem filterMap_lineText? (hi : Indentation indent) (ho : ∀ l ∈ lines, ¬ ['*', '/'] <:+: l) :
    (lines.map fun l => indent ++ '*' :: ' ' :: l).filterMap lineText? = lines := by
  induction lines with
  | nil => rfl
  | cons l ls ih =>
    obtain ⟨hl, hls⟩ := List.forall_mem_cons.mp ho
    rw [List.map_cons, List.filterMap_cons_some (lineText?_indented hi hl), ih hls]

/-- The lines of a documenting comment are the lines that were written into it. -/
theorem commentLines_docComment (hi : Indentation indent) (hu : ∀ l ∈ lines, Unbroken l)
    (ho : ∀ l ∈ lines, ¬ ['*', '/'] <:+: l) (hs : StartsDark lines) (he : EndsDark lines) :
    commentLines (docComment indent lines) = lines := by
  have htexts : (splitLines (docComment indent lines)).filterMap lineText? =
      [] :: lines ++ [[]] := by
    have hopen : lineText? ['/', '*', '*'] = some [] := rfl
    rw [splitLines_docComment hi hu, List.filterMap_append, List.filterMap_cons_some hopen,
      filterMap_lineText? hi ho, List.filterMap_cons_some (lineText?_end hi), List.filterMap_nil]
  rw [commentLines, htexts, strip_framed hs he, splitLines_intercalate hu he]

/-- Stars, slashes and white space of the text stay, and so does an empty line. -/
theorem commentLines_docComment_stars :
    commentLines (docComment ['\t', ' '] ["** /a".toList, [], "  *".toList, "/* b".toList]) =
      ["** /a".toList, [], "  *".toList, "/* b".toList] := by
  apply commentLines_docComment
  · simp [Indentation]
  · intro l hl c hc
    have h : ["** /a".toList, [], "  *".toList, "/* b".toList].flatten.all (!isBreak ·) = true :=
      rfl
    simpa using List.all_eq_true.mp h c (List.mem_flatten_of_mem hl hc)
  · decide
  · exact ⟨_, '*', rfl, rfl, by decide⟩
  · exact ⟨_, 'b', rfl, rfl, by decide⟩

end Docblock.Docs
