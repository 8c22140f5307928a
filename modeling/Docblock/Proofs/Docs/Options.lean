import Docblock.Proofs.Docs.Heads
import Mathlib.Data.List.Flatten

/-! Options only add documentation. -/
namespace Docblock.Docs

open Docblock.Tree Docblock.Filter

variable {o : Options} {level : Nat} {last t : Tree} {ts : List Tree} {targets : List String}

/-- Documentation also of what has no comment. -/
def Options.withUndoc (o : Options) : Options := { o with undocMembers := true }

/-- Documentation also of what stands in classes and interfaces. -/
def Options.withMembers (o : Options) : Options := { o with members := true }

/-- The lines of some entries. -/
def entryLines (domain : String) (es : List Entry) : List String :=
  es.flatMap (Entry.lines · domain)

def Entry.isOuter (e : Entry) : Bool := e.level == 0

/-- Whether a directive has an entry also where only what has a comment is documented: there is a
text, or the entry is for a name that is asked for. -/
def Directive.stands (d : Directive) (e : Entry) : Bool :=
  e.text.isSome || d != .allOfModule && e.isOuter

/-! ### What has no comment -/

theorem entry_undoc (ho : o.undocMembers = false) (kind : EntryKind) (name : String) (r : Remark) :
    entry o false level kind name r =
      (entry o.withUndoc false level kind name r).filter (·.text.isSome) := by
  cases r <;> simp [entry, ho, Options.withUndoc]

theorem headEntries_undoc (ho : o.undocMembers = false) :
    headEntries o level last t =
      (headEntries o.withUndoc level last t).filter (·.text.isSome) := by
  rw [headEntries, headEntries, List.filter_flatMap]
  exact List.flatMap_congr fun h _ => entry_undoc ho h.kind h.name _

theorem bodyEntries_undoc (ho : o.undocMembers = false) :
    bodyEntries o t = (bodyEntries o.withUndoc t).filter (·.text.isSome) := by
  have hmembers : o.withUndoc.members = o.members := rfl
  rw [bodyEntries, bodyEntries, hmembers]
  split
  · rw [List.filter_flatMap]
    exact List.flatMap_congr fun p _ => headEntries_undoc ho
  · rfl

theorem ownEntries_undoc (ho : o.undocMembers = false) :
    ownEntries o last t = (ownEntries o.withUndoc last t).filter (·.text.isSome) := by
  rw [ownEntries, ownEntries]
  split
  · rfl
  · rw [List.filter_append, ← headEntries_undoc ho, ← bodyEntries_undoc ho]

theorem askedEntries_undoc (ho : o.undocMembers = false) :
    askedEntries o targets last t =
      (askedEntries o.withUndoc targets last t).filter Directive.classes.stands := by
  rw [askedEntries, askedEntries]
  split
  · rw [List.filter_cons_of_pos (by simp [Directive.stands, Entry.isOuter, forcedEntry]),
      bodyEntries_undoc ho]
    -- No entry of the body is asked for by its name.
    refine congrArg _ (List.filter_congr fun e he => ?_)
    simp [Directive.stands, Entry.isOuter, level_of_bodyEntries e he]
  · rfl

/-- Without the option for what has no comment, just the entries are left that do not need it. -/
theorem entryList_undoc (d : Directive) (ho : o.undocMembers = false) :
    d.entryList o targets ts = (d.entryList o.withUndoc targets ts).filter d.stands := by
  cases d with
  | plain => rfl
  | allOfModule =>
    have hstands : Directive.allOfModule.stands = fun e => e.text.isSome := by
      funext e
      simp [Directive.stands]
    rw [Directive.entryList, Directive.entryList, hstands, List.filter_flatMap]
    exact List.flatMap_congr fun p _ => ownEntries_undoc ho
  | classes =>
    rw [Directive.entryList, Directive.entryList, List.filter_flatMap]
    exact List.flatMap_congr fun p _ => askedEntries_undoc ho
  | function =>
    rw [Directive.entryList, Directive.entryList, List.filter_eq_self.mpr]
    intro e he
    simp [Directive.stands, Entry.isOuter, level_of_functionList e (List.mem_of_mem_take he)]

/-! ### What stands in classes and interfaces -/

theorem headEntries_withMembers :
    headEntries o.withMembers level last t = headEntries o level last t :=
  List.flatMap_congr fun h _ => by cases remarkOf last <;> rfl

theorem bodyEntries_hidden (ho : o.members = false) : bodyEntries o t = [] := by
  rw [bodyEntries, ho]
  rfl

theorem filter_isOuter_body : (bodyEntries o t).filter Entry.isOuter = [] := by
  rw [List.filter_eq_nil_iff]
  intro e he
  simp [Entry.isOuter, level_of_bodyEntries e he]

theorem ownEntries_hidden (ho : o.members = false) :
    ownEntries o last t = (ownEntries o.withMembers last t).filter Entry.isOuter := by
  rw [ownEntries, ownEntries]
  split
  · rfl
  · rw [List.filter_append, filter_isOuter_body, headEntries_withMembers, bodyEntries_hidden ho,
      List.filter_eq_self.mpr]
    intro e he
    simp [Entry.isOuter, level_of_headEntries e he]

theorem askedEntries_hidden (ho : o.members = false) :
    askedEntries o targets last t =
      (askedEntries o.withMembers targets last t).filter Entry.isOuter := by
  rw [askedEntries, askedEntries]
  split
  · rw [List.filter_cons_of_pos (by simp [Entry.isOuter, forcedEntry]), filter_isOuter_body,
      bodyEntries_hidden ho]
  · rfl

/-- Without the option for what stands in classes, just the entries of the outermost level are
left. -/
theorem entryList_hidden (d : Directive) (ho : o.members = false) :
    d.entryList o targets ts = (d.entryList o.withMembers targets ts).filter Entry.isOuter := by
  cases d with
  | plain => rfl
  | allOfModule =>
    rw [Directive.entryList, Directive.entryList, List.filter_flatMap]
    exact List.flatMap_congr fun p _ => ownEntries_hidden ho
  | classes =>
    rw [Directive.entryList, Directive.entryList, List.filter_flatMap]
    exact List.flatMap_congr fun p _ => askedEntries_hidden ho
  | function =>
    rw [Directive.entryList, Directive.entryList, List.filter_eq_self.mpr]
    intro e he
    simp [Entry.isOuter, level_of_functionList e (List.mem_of_mem_take he)]

/-- Options only add lines, whatever the directive and the names it is asked for. Without the
option for what has no comment, the entries are those that have a text or are asked for by name;
without the option for what stands in classes, they are those of the outermost level. -/
theorem parse_options {f g : Filter} {file : Option String} {text : List Char}
    (h : f.parse file text = (.ok ts, g)) (d : Directive) (o : Options) (targets : List String) :
    ∃ es undoc inner, d.entries o targets ts = .ok es ∧
      d.entries o.withUndoc targets ts = .ok undoc ∧
      d.entries o.withMembers targets ts = .ok inner ∧
      (∀ domain, (entryLines domain es).Sublist (entryLines domain undoc) ∧
        (entryLines domain es).Sublist (entryLines domain inner)) ∧
      (o.undocMembers = false → es = undoc.filter d.stands) ∧
      (o.members = false → es = inner.filter Entry.isOuter) := by
  have hs := parse_shaped h
  refine ⟨_, _, _, d.entries_eq hs, d.entries_eq hs, d.entries_eq hs, ?_, entryList_undoc d,
    entryList_hidden d⟩
  have hundoc : (d.entryList o targets ts).Sublist (d.entryList o.withUndoc targets ts) := by
    cases ho : o.undocMembers with
    | false =>
      rw [entryList_undoc d ho]
      exact List.filter_sublist
    | true =>
      have hsame : o.withUndoc = o := by rw [Options.withUndoc, ← ho]
      rw [hsame]
  have hinner : (d.entryList o targets ts).Sublist (d.entryList o.withMembers targets ts) := by
    cases ho : o.members with
    | false =>
      rw [entryList_hidden d ho]
      exact List.filter_sublist
    | true =>
      have hsame : o.withMembers = o := by rw [Options.withMembers, ← ho]
      rw [hsame]
  intro domain
  exact ⟨hundoc.flatMap _, hinner.flatMap _⟩

/-- A class with a comment, a class and a function without one, and methods with and without. -/
def optionSource : List Char :=
  ("<?php /** a */ class A \x7b /** f */ function f() \x7b\x7d function g() \x7b\x7d \x7d " ++
    "class B \x7b /** h */ function h() \x7b\x7d \x7d function k() \x7b\x7d").toList

/-- How many entries a module has. -/
def entryCount (o : Options) (ts : List Tree) : Option Nat :=
  (moduleEntries o ts).toOption.map List.length

/-- The option for what has no comment adds the second class and the function, and the one for what
stands in classes adds the two methods with a comment. -/
theorem parse_options_module : ∃ ts g, (fresh []).parse none optionSource = (.ok ts, g) ∧
    ∃ es undoc inner, moduleEntries ⟨false, false⟩ ts = .ok es ∧
      moduleEntries ⟨false, true⟩ ts = .ok undoc ∧ moduleEntries ⟨true, false⟩ ts = .ok inner ∧
      (es.length = 1 ∧ undoc.length = 3 ∧ inner.length = 3) ∧
      ∀ domain, (entryLines domain es).Sublist (entryLines domain undoc) ∧
        (entryLines domain es).Sublist (entryLines domain inner) := by
  obtain ⟨ts, g, h, hcount⟩ := exists_parse_any (fresh []) none optionSource
    (p := fun ts => entryCount ⟨false, false⟩ ts = some 1 ∧ entryCount ⟨false, true⟩ ts = some 3 ∧
      entryCount ⟨true, false⟩ ts = some 3)
    (by
      unfold optionSource
      rw [String.toList_append, String.toList_ofList, String.toList_ofList]
      decide +kernel)
  obtain ⟨es, undoc, inner, hes, hundoc, hinner, hlines, -⟩ :=
    parse_options h .allOfModule ⟨false, false⟩ []
  refine ⟨ts, g, h, es, undoc, inner, hes, hundoc, hinner, ?_, hlines⟩
  simp only [Directive.entries, Options.withUndoc, Options.withMembers] at hes hundoc hinner
  simpa [entryCount, hes, hundoc, hinner, Except.toOption] using hcount

end Docblock.Docs
