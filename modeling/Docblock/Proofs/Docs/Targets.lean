import Docblock.Proofs.Docs.Options

/-! The headers of the declarations that a directive is asked for by their names. -/
namespace Docblock.Docs

open Docblock.Tree Docblock.Filter

variable {o : Options} {last : Tree} {ts : List Tree} {targets : List String}

/-- A line that is neither empty nor indented. -/
def isFlush (line : String) : Bool := line.toList.head?.any (· != ' ')

def Entry.head (e : Entry) : Head := ⟨e.kind, e.name⟩

/-- The header of an entry at the outermost level. -/
def Head.line (domain : String) (h : Head) : String :=
  ".. " ++ domain ++ ":" ++ h.kind.name ++ ":: " ++ h.name

theorem isFlush_line (domain : String) (h : Head) : isFlush (h.line domain) = true := by
  simp only [isFlush, Head.line, String.toList_append, List.append_assoc]
  rfl

theorem isFlush_indented (level : Nat) (line : String) :
    isFlush (indented (level + 1) line) = false := by
  rw [indented]
  split
  · rfl
  · rw [isFlush, String.toList_append, String.toList_ofList, Nat.mul_succ, List.replicate_succ]
    rfl

theorem indented_line (domain : String) (h : Head) :
    indented 0 (h.line domain) = h.line domain := by
  have hne : (h.line domain).isEmpty = false := by
    rw [Bool.eq_false_iff, ne_eq, String.isEmpty_iff]
    intro hempty
    have hflush := isFlush_line domain h
    rw [hempty] at hflush
    cases hflush
  rw [indented, hne, if_neg Bool.false_ne_true]
  exact String.empty_append

theorem header_eq (domain : String) (e : Entry) :
    e.header domain = indented e.level (e.head.line domain) := rfl

/-- No line of a text below an entry, or of the content of a directive, is flush. -/
theorem filter_indented (level : Nat) (ls : List String) :
    (ls.map (indented (level + 1)) ++ [""]).filter isFlush = [] := by
  rw [List.filter_eq_nil_iff, List.forall_mem_append, List.forall_mem_map,
    List.forall_mem_singleton]
  refine ⟨fun line _ => ?_, by decide⟩
  rw [isFlush_indented]
  exact Bool.false_ne_true

theorem filter_header (domain : String) (e : Entry) :
    [e.header domain, ""].filter isFlush =
      if e.isOuter then [e.head.line domain] else [] := by
  rw [header_eq, Entry.isOuter]
  cases e.level with
  | zero =>
    rw [indented_line, List.filter_cons_of_pos (isFlush_line ..)]
    rfl
  | succ n =>
    rw [List.filter_cons_of_neg (by simp [isFlush_indented])]
    rfl

/-- Of the lines of an entry, none but the header is flush, and that one if the level is the
outermost. -/
theorem filter_lines (domain : String) (e : Entry) :
    (e.lines domain).filter isFlush =
      if e.isOuter then [e.head.line domain] else [] := by
  rw [← filter_header, Entry.lines, List.filter_append]
  cases e.text with
  | none => exact List.append_nil _
  | some ls => rw [filter_indented, List.append_nil]

/-- The flush lines of a document are the headers of the outermost level. -/
theorem filter_documentLines (r : Request) (es : List Entry) :
    (documentLines r es).filter isFlush =
      (es.filter Entry.isOuter).map fun e => e.head.line r.domain := by
  have hcontent : (if r.content.isEmpty then []
      else r.content.map (indented 1) ++ [""]).filter isFlush = [] := by
    split
    · rfl
    · exact filter_indented 0 _
  have hentries : (es.flatMap (Entry.lines · r.domain)).filter isFlush =
      (es.filter Entry.isOuter).map fun e => e.head.line r.domain := by
    induction es with
    | nil => rfl
    | cons e es ih =>
      rw [List.flatMap_cons, List.filter_append, filter_lines, ih]
      cases he : e.isOuter <;> simp [he]
  rw [documentLines, List.filter_append, List.filter_append, hcontent, hentries]
  simp [isFlush]

theorem filter_askedEntries (last t : Tree) :
    (askedEntries o targets last t).filter Entry.isOuter =
      ((askedClass? targets t).map (forcedEntry last)).toList := by
  rw [askedEntries]
  cases askedClass? targets t with
  | none => rfl
  | some h =>
    rw [List.filter_cons_of_pos (by simp [Entry.isOuter, forcedEntry]), filter_isOuter_body]
    rfl

/-- The entries of the outermost level for the classes that are asked for have their heads. -/
theorem heads_of_classes :
    (((pairs last ts).flatMap fun p => askedEntries o targets p.1 p.2).filter
      Entry.isOuter).map Entry.head =
      ts.filterMap (askedClass? targets) := by
  induction ts generalizing last with
  | nil => rfl
  | cons t ts ih =>
    rw [pairs_cons, List.flatMap_cons, List.filter_append, List.map_append, filter_askedEntries, ih,
      List.filterMap_cons]
    cases askedClass? targets t <;> rfl

theorem heads_of_functions :
    (functionList targets last ts).map Entry.head =
      ts.filterMap (askedFunction? targets) := by
  induction ts generalizing last with
  | nil => rfl
  | cons t ts ih =>
    have hrest := @ih t
    rw [functionList] at hrest ⊢
    rw [pairs_cons, List.filterMap_cons, List.filterMap_cons]
    cases askedFunction? targets t with
    | none => exact hrest
    | some h => exact congrArg (h :: ·) hrest

/-- The classes and interfaces at the outermost level whose names are asked for all have a header,
one each and in their order, whatever the comments before them. Of the functions whose names are
asked for only the first one has; all of them have just if there is no second one. -/
theorem parse_targets {f g : Filter} {file : Option String} {text : List Char}
    (h : f.parse file text = (.ok ts, g)) (r : Request) (arg : String) :
    ∃ cs fs, Directive.classes.entries r.options (targetsOf arg) ts = .ok cs ∧
      Directive.function.entries r.options (targetsOf arg) ts = .ok fs ∧
      (documentLines r cs).filter isFlush =
        (ts.filterMap (askedClass? (targetsOf arg))).map (Head.line r.domain) ∧
      (documentLines r fs).filter isFlush =
        ((ts.filterMap (askedFunction? (targetsOf arg))).take 1).map (Head.line r.domain) ∧
      ((documentLines r fs).filter isFlush =
          (ts.filterMap (askedFunction? (targetsOf arg))).map (Head.line r.domain) ↔
        (ts.filterMap (askedFunction? (targetsOf arg))).length ≤ 1) := by
  have hs := parse_shaped h
  refine ⟨_, _, Directive.classes.entries_eq hs, Directive.function.entries_eq hs, ?_⟩
  have hclasses : (documentLines r
      (Directive.classes.entryList r.options (targetsOf arg) ts)).filter isFlush =
      (ts.filterMap (askedClass? (targetsOf arg))).map (Head.line r.domain) := by
    rw [filter_documentLines, ← heads_of_classes, List.map_map]
    rfl
  have hfunction : (documentLines r
      (Directive.function.entryList r.options (targetsOf arg) ts)).filter isFlush =
      ((ts.filterMap (askedFunction? (targetsOf arg))).take 1).map (Head.line r.domain) := by
    have houter : ((functionList (targetsOf arg) .null ts).take 1).filter Entry.isOuter =
        (functionList (targetsOf arg) .null ts).take 1 := by
      rw [List.filter_eq_self]
      intro e he
      simp [Entry.isOuter, level_of_functionList e (List.mem_of_mem_take he)]
    rw [filter_documentLines, Directive.entryList, houter, ← heads_of_functions, ← List.map_take,
      List.map_map]
    rfl
  refine ⟨hclasses, hfunction, ?_⟩
  rw [hfunction]
  constructor
  · intro heq
    have hlength := congrArg List.length heq
    simp only [List.length_map, List.length_take] at hlength
    omega
  · intro hle
    rw [List.take_of_length_le hle]

/-- Private, undocumented and documented declarations. -/
def targetSource : List Char :=
  ("<?php /** @access private */ class A \x7b \x7d interface B \x7b function f(); \x7d " ++
    "/** d */ class C \x7b \x7d /** @access private */ function f($x) \x7b \x7d " ++
    "function g() \x7b \x7d").toList

theorem parse_targets_private : ∃ ts g, (fresh []).parse none targetSource = (.ok ts, g) ∧
    ∀ r : Request, ∃ cs fs, Directive.classes.entries r.options (targetsOf "B ,A,f") ts = .ok cs ∧
      Directive.function.entries r.options (targetsOf "B ,A,f") ts = .ok fs ∧
      (documentLines r cs).filter isFlush =
        [Head.line r.domain ⟨.classType, "A"⟩, Head.line r.domain ⟨.interfaceType, "B"⟩] ∧
      (documentLines r fs).filter isFlush = [Head.line r.domain ⟨.function, "f($x)"⟩] := by
  obtain ⟨ts, g, h, hasked⟩ := exists_parse_any (fresh []) none targetSource
    (p := fun ts => ts.filterMap (askedClass? (targetsOf "B ,A,f")) =
        [⟨.classType, "A"⟩, ⟨.interfaceType, "B"⟩] ∧
      ts.filterMap (askedFunction? (targetsOf "B ,A,f")) = [⟨.function, "f($x)"⟩])
    (by
      unfold targetSource
      rw [String.toList_append, String.toList_append, String.toList_ofList, String.toList_ofList,
        String.toList_ofList]
      decide +kernel)
  obtain ⟨hclasses, hfunctions⟩ := of_decide_eq_true hasked
  refine ⟨ts, g, h, fun r => ?_⟩
  obtain ⟨cs, fs, hcs, hfs, hclass, hfunction, -⟩ := parse_targets h r "B ,A,f"
  rw [hclasses] at hclass
  rw [hfunctions] at hfunction
  exact ⟨cs, fs, hcs, hfs, hclass, hfunction⟩

/-- Of two functions whose names are asked for, the second one has no header. -/
theorem second_function_missing :
    ∃ ts g, (fresh []).parse none "<?php function f() \x7b\x7d function g() \x7b\x7d".toList =
        (.ok ts, g) ∧
      ts.filterMap (askedFunction? (targetsOf "f, g")) =
        [⟨.function, "f()"⟩, ⟨.function, "g()"⟩] ∧
      ∃ fs, Directive.function.entries ⟨false, false⟩ (targetsOf "f, g") ts = .ok fs ∧
        documentLines ⟨.function, ["f, g"], none, ⟨false, false⟩, [], 1, "php"⟩ fs =
          [".. php:function:: f()", "", ""] := by
  obtain ⟨ts, g, h, hboth⟩ := exists_parse_any (fresh []) none
    "<?php function f() \x7b\x7d function g() \x7b\x7d".toList
    (p := fun ts => ts.filterMap (askedFunction? (targetsOf "f, g")) =
        [⟨.function, "f()"⟩, ⟨.function, "g()"⟩] ∧
      (Directive.function.entries ⟨false, false⟩ (targetsOf "f, g") ts).toOption =
        some [⟨0, .function, "f()", none⟩]) (by rw [String.toList_ofList]; decide +kernel)
  obtain ⟨hasked, hentries⟩ := of_decide_eq_true hboth
  exact ⟨ts, g, h, hasked, _, ok_of_toOption hentries, by decide +kernel⟩

end Docblock.Docs
