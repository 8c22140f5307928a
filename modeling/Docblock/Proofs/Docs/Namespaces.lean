import Docblock.Docs.Directive
import Docblock.Proofs.Automaton.Namespace
import Docblock.Proofs.Docs.Describe

/-! What is documented of the statements behind the name of a namespace, and between its braces. -/
namespace Docblock.Docs

open Docblock.Automaton Token

variable {Reader : Type} {file : Option String} {o : Options} {level : Nat} {last last' t : Tree}
  {ts us : List Tree}

theorem attributes_remark (h : remark last = remark last') (nodes : Tree) :
    attributes o level last nodes = attributes o level last' nodes := by
  rw [attributes, attributes, h]

/-- Of the node before a declaration, only its remark matters. -/
theorem describe_remark (h : remark last = remark last') :
    describe o level last t = describe o level last' t := by
  unfold describe
  split
  all_goals first | rw [h] | rw [attributes_remark h] | rfl

theorem describeAll_remark (h : remark last = remark last') :
    describeAll o level last ts = describeAll o level last' ts := by
  cases ts with
  | nil => rw [describeAll, describeAll]
  | cons t ts => rw [describeAll, describeAll, describe_remark h]

/-- A namespace has no entries, and says nothing about what follows it. -/
theorem moduleEntries_namespace (n : NamespaceHead) :
    moduleEntries o (n.tree us :: ts) = moduleEntries o ts := by
  have hnone : describe o 0 .null (n.tree us) = .ok [] := describe_other rfl
  have hremark : remark (n.tree us) = remark .null := rfl
  rw [moduleEntries, moduleEntries, describeAll, hnone, describeAll_remark hremark]
  cases describeAll o 0 .null ts <;> rfl

/-- A document has the lines of no entries only if there are none. -/
theorem documentLines_eq_nil {r : Request} {es : List Entry}
    (h : documentLines r es = documentLines r []) : es = [] := by
  have hlines : es.flatMap (Entry.lines · r.domain) = [] := by
    simpa [documentLines] using h
  cases es with
  | nil => rfl
  | cons e es => simp [Entry.lines] at hlines

/-- The lines that document a whole module. -/
def moduleLines (r : Request) (ts : List Tree) : Except Tree.AccessError (List String) :=
  (Directive.allOfModule.entries r.options [] ts).map (documentLines r)

/-- Behind a namespace, a module is documented as if it were not in one, and between the braces of
a namespace it is not documented. Both are the same only for a module without entries. -/
theorem moduleLines_namespace {n : NamespaceHead} {s s' u v : Stream Reader} {ts ts' : List Tree}
    (hs : (s.parse file).1 = .ok ts) (hs' : (s'.parse file).1 = .ok ts') (hu : n.Unbraced s u)
    (hv : n.Braced s' v) :
    ∃ us vs, (u.parse file).1 = .ok us ∧ (v.parse file).1 = .ok vs ∧
      ∀ r, moduleLines r us = moduleLines r ts ∧ moduleLines r vs = .ok (documentLines r []) ∧
        (moduleLines r us = moduleLines r vs ↔ moduleEntries r.options ts = .ok []) := by
  refine ⟨_, _, hu.parse hs, hv.parse hs', fun r => ?_⟩
  have hbehind : moduleLines r (n.tree [] :: ts) = moduleLines r ts := by
    simp only [moduleLines, Directive.entries, moduleEntries_namespace]
  have hbetween : moduleLines r [n.tree ts'] = .ok (documentLines r []) := by
    simp only [moduleLines, Directive.entries, moduleEntries_namespace]
    rfl
  refine ⟨hbehind, hbetween, ?_⟩
  rw [hbehind, hbetween, moduleLines, Directive.entries]
  constructor
  · intro h
    obtain ⟨es, hes, hlines⟩ := ok_of_map h
    rw [hes, documentLines_eq_nil hlines]
  · intro h
    rw [h]
    rfl

/-- A namespace with a name of two words. -/
def twoWords : NamespaceHead where
  word := ⟨.kwNamespace, "namespace", 1, 6⟩
  first := ⟨.ident, "A", 1, 16⟩
  rest := [(⟨.backslash, "\\", 1, 17⟩, ⟨.ident, "B", 1, 18⟩)]
  word_kind := rfl
  first_kind := rfl
  rest_kinds := by decide

/-- A documented function, and the same function in a namespace in either way. -/
def aloneSource : Stream Filter := streamOf "<?php               /** d */function f()\x7b\x7d"

def behindSource : Stream Filter := streamOf "<?php namespace A\\B;/** d */function f()\x7b\x7d"

def betweenSource : Stream Filter :=
  streamOf "<?php namespace A\\B\x7b/** d */function f()\x7b\x7d\x7d"

theorem twoWords_tokens :
    behindSource.tokens = twoWords.tokens ++ ⟨.semi, ";", 1, 19⟩ :: aloneSource.tokens ∧
    betweenSource.tokens = twoWords.tokens ++ ⟨.leftBrace, "\x7b", 1, 19⟩ ::
      (aloneSource.tokens ++ [⟨.rightBrace, "\x7d", 1, 42⟩]) ∧
    behindSource.error? = none ∧ betweenSource.error? = none ∧
    ((aloneSource.parse none).1.toOption.map fun ts => (moduleEntries ⟨false, false⟩ ts).toOption) =
      some (some [⟨0, .function, "f()", some ["d"]⟩]) := by
  unfold behindSource betweenSource aloneSource streamOf
  rw [String.toList_ofList, String.toList_ofList, String.toList_ofList]
  decide +kernel

theorem twoWords_unbraced : twoWords.Unbraced aloneSource behindSource := by
  obtain ⟨hbehind, -, hnone, -⟩ := twoWords_tokens
  exact ⟨hnone, ⟨.semi, ";", 1, 19⟩, rfl, hbehind⟩

theorem twoWords_braced : twoWords.Braced aloneSource betweenSource := by
  obtain ⟨-, hbetween, -, hnone, -⟩ := twoWords_tokens
  exact ⟨hnone, ⟨.leftBrace, "\x7b", 1, 19⟩, ⟨.rightBrace, "\x7d", 1, 42⟩, rfl, rfl, hbetween⟩

/-- The trees of the function by itself, which has an entry. -/
theorem alone_documented : ∃ ts, (aloneSource.parse none).1 = .ok ts ∧
    moduleEntries ⟨false, false⟩ ts = .ok [⟨0, .function, "f()", some ["d"]⟩] := by
  obtain ⟨-, -, -, -, halone⟩ := twoWords_tokens
  obtain ⟨ts, hts, hentries⟩ := Option.map_eq_some_iff.mp halone
  exact ⟨ts, ok_of_toOption hts, ok_of_toOption hentries⟩

theorem moduleLines_namespace_function : ∃ ts us vs, (aloneSource.parse none).1 = .ok ts ∧
    (behindSource.parse none).1 = .ok us ∧ (betweenSource.parse none).1 = .ok vs ∧
      ∀ r, moduleLines r us = moduleLines r ts ∧ moduleLines r vs = .ok (documentLines r []) ∧
        (moduleLines r us = moduleLines r vs ↔ moduleEntries r.options ts = .ok []) := by
  obtain ⟨ts, hts, -⟩ := alone_documented
  obtain ⟨us, vs, hlines⟩ := moduleLines_namespace hts hts twoWords_unbraced twoWords_braced
  exact ⟨ts, us, vs, hts, hlines⟩

/-- A documented function is not documented alike in both ways. -/
theorem moduleLines_not_alike :
    ¬ ∀ (n : NamespaceHead) (s u v : Stream Filter) (ts us vs : List Tree),
      (s.parse none).1 = .ok ts → n.Unbraced s u → n.Braced s v → (u.parse none).1 = .ok us →
        (v.parse none).1 = .ok vs → ∀ r, moduleLines r us = moduleLines r vs := by
  intro h
  obtain ⟨ts, hts, hentries⟩ := alone_documented
  have hsame := h twoWords aloneSource behindSource betweenSource ts _ _ hts twoWords_unbraced
    twoWords_braced (twoWords_unbraced.parse hts) (twoWords_braced.parse hts)
    ⟨.allOfModule, [], none, ⟨false, false⟩, [], 1, "php"⟩
  simp only [moduleLines, Directive.entries, moduleEntries_namespace, hentries] at hsame
  cases documentLines_eq_nil (Except.ok.inj hsame)

end Docblock.Docs
