import Docblock.Proofs.Docs.Session
import Docblock.Proofs.Docs.Total
import Docblock.Proofs.Tree.Comments

/-! Every source that can be read can be documented. -/
namespace Docblock.Docs

open Docblock.Tree Docblock.Filter

variable {f g : Filter} {file : Option String} {text : List Char} {t : Tree} {ts : List Tree}

theorem shaped_nodesIn (ts : List Tree) (h : ∀ t ∈ ts, t.shaped = true) :
    ∀ n ∈ nodesIn ts, n.shaped = true :=
  everyNodeIn_nodes ts (everyNodeIn_iff.mpr h)

/-- A parameter whose signature is a text. -/
def HasSignature (p : Tree) : Prop :=
  p.isOf [.formalParameter] = true ∧ ∃ s, signature p = .ok (.text s)

/-- What documentation needs of the fields of a node. -/
def Documentable : Tree → Prop
  | .node .classDecl _ fs => ∃ name type ext imp ns,
    fs = [.text name, type, ext, imp, .list ns] ∧ ∀ n ∈ ns, n.isOf memberKinds = true
  | .node .interfaceDecl _ fs => ∃ name ext ns,
    fs = [.text name, ext, .list ns] ∧ ∀ n ∈ ns, n.isOf memberKinds = true
  | .node .classVariables _ fs => ∃ ms vs, fs = [.list ms, .list vs] ∧
    (∀ m ∈ ms, m.isText = true) ∧
      ∀ v ∈ vs, ∃ line name value, v = .node .classVariable line [.text name, value]
  | .node .function _ fs => ∃ name ps body isRef,
    fs = [.text name, .list ps, body, isRef] ∧ ∀ p ∈ ps, HasSignature p
  | .node .method _ fs => ∃ name ms ps body isRef,
    fs = [.text name, .list ms, .list ps, body, isRef] ∧
      (∀ m ∈ ms, m.isText = true) ∧ ∀ p ∈ ps, HasSignature p
  | _ => True

theorem hasSignature_all {ps : List Tree} (hs : (Tree.list ps).shaped = true)
    (hp : ∀ p ∈ ps, p.isOf [.formalParameter] = true) : ∀ p ∈ ps, HasSignature p :=
  fun p hm => ⟨hp p hm, signature_shaped p (shaped_list.mp hs p hm)⟩

theorem documentable_of_shaped (h : t.shaped = true) : Documentable t := by
  unfold Documentable
  split
  · obtain ⟨name, type, ext, imp, ns, rfl, hns⟩ := fields_of_shape (shaped_node.mp h).1
    exact ⟨name, type, ext, .list imp, ns, rfl, hns⟩
  · exact fields_of_shape (shaped_node.mp h).1
  · obtain ⟨hs, hf⟩ := shaped_node.mp h
    obtain ⟨ms, vs, rfl, hms, hvs⟩ := fields_of_shape hs
    refine ⟨ms, vs, rfl, hms, fun v hv => ?_⟩
    obtain ⟨line, fs, rfl⟩ := isOf_singleton (hvs v hv)
    have hv' := shaped_list.mp (hf (.list vs) (by simp)) _ hv
    obtain ⟨name, value, rfl⟩ := fields_of_shape (shaped_node.mp hv').1
    exact ⟨line, name, value, rfl⟩
  · obtain ⟨hs, hf⟩ := shaped_node.mp h
    obtain ⟨name, ps, body, isRef, rfl, hps⟩ := fields_of_shape hs
    exact ⟨name, ps, _, _, rfl, hasSignature_all (hf (.list ps) (by simp)) hps⟩
  · obtain ⟨hs, hf⟩ := shaped_node.mp h
    obtain ⟨name, ms, ps, body, isRef, rfl, hms, hps⟩ := fields_of_shape hs
    exact ⟨name, ms, ps, _, _, rfl, hms, hasSignature_all (hf (.list ps) (by simp)) hps⟩
  · trivial

/-- Every directive makes entries of every source that can be read, whatever its options and the
names it is asked for. All nodes of the source, wherever they stand, have what that needs. -/
theorem parse_documentable (h : f.parse file text = (.ok ts, g)) :
    (∀ (d : Directive) (o : Options) (targets : List String),
      ∃ es, d.entries o targets ts = .ok es) ∧ ∀ n ∈ nodesIn ts, Documentable n := by
  have hts := parse_shaped h
  constructor
  · intro d o targets
    exact entries_shaped d o targets hts
  · intro n hn
    exact documentable_of_shaped (shaped_nodesIn ts hts n hn)

/-- The class stands in a block, and the default value is an array in an array. -/
theorem parse_documentable_nested :
    ∃ ts g, (fresh []).parse none
        ("<?php \x7b class A \x7b var $x; " ++
          "function f($y = array(array(1))) \x7b \x7d \x7d \x7d").toList = (.ok ts, g) ∧
      (∀ (d : Directive) (o : Options) (targets : List String),
        ∃ es, d.entries o targets ts = .ok es) ∧ ∀ n ∈ nodesIn ts, Documentable n := by
  obtain ⟨ts, g, h⟩ := exists_parse_ok (fresh []) none
    ("<?php \x7b class A \x7b var $x; " ++
      "function f($y = array(array(1))) \x7b \x7d \x7d \x7d").toList
    (by rw [String.toList_append, String.toList_ofList, String.toList_ofList]; decide +kernel)
  exact ⟨ts, g, h, parse_documentable h⟩

end Docblock.Docs
