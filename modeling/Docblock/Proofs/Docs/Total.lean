import Docblock.Docs.Directive
import Docblock.Proofs.Docs.Describe

/-! Shaped trees can be documented, whatever is asked for. -/
namespace Docblock.Docs

open Docblock.Tree

variable {t last : Tree} {ts : List Tree} {o : Options} {level : Nat}

theorem describe_ok (ht : t.shaped = true) (hl : last.shaped = true) (hc : container? t = none) :
    ∃ es, describe o level last t = .ok es := by
  obtain ⟨r, hr⟩ := remark_shaped hl
  cases form_of_shaped ht with
  | function hp hs => exact ⟨_, describe_function hs hr⟩
  | method hm hp hs => exact ⟨_, describe_method hs hr⟩
  | attributes hm hv => exact ⟨_, describe_attributes hr hv⟩
  | container hc' => cases hc.symm.trans hc'
  | other ho => exact ⟨_, describe_other ho⟩

theorem describeAll_ok (hs : ∀ t ∈ ts, t.shaped = true) (hl : last.shaped = true)
    (hstep : ∀ t ∈ ts, ∀ last : Tree, last.shaped = true → ∃ es, describe o level last t = .ok es) :
    ∃ es, describeAll o level last ts = .ok es := by
  induction ts generalizing last with
  | nil => exact ⟨[], by rw [describeAll]⟩
  | cons t ts ih =>
    obtain ⟨ht, hts⟩ := List.forall_mem_cons.mp hs
    obtain ⟨hstept, hsteps⟩ := List.forall_mem_cons.mp hstep
    rw [describeAll]
    refine bind_ok (hstept last hl) fun es _ => ?_
    exact bind_ok (ih hts ht hsteps) fun _ _ => ⟨_, rfl⟩

/-- A shaped declaration after a shaped node can be documented. -/
theorem describe_shaped (o : Options) (level : Nat) (last t : Tree) (hl : last.shaped = true)
    (h : t.shaped = true) : ∃ es, describe o level last t = .ok es := by
  cases form_of_shaped h with
  | function | method | attributes => exact describe_ok h hl rfl
  | other ho => exact describe_ok h hl (container?_of_other ho)
  | @container _ kind name ns hc hs hm =>
    obtain ⟨r, hr⟩ := remark_shaped hl
    -- No class stands in the body of another, so the members need no induction.
    have hbody : ∃ ms, describeAll o (level + 1) .null ns = .ok ms :=
      describeAll_ok hs rfl fun n hn _ hl =>
        describe_ok (hs n hn) hl (container?_of_member (hm n hn))
    obtain ⟨ms, hms⟩ := hbody
    exact ⟨_, describe_container hc hr hms⟩

theorem describeAll_shaped (o : Options) (level : Nat) (last : Tree) (ts : List Tree)
    (hl : last.shaped = true) (h : ∀ t ∈ ts, t.shaped = true) :
    ∃ es, describeAll o level last ts = .ok es :=
  describeAll_ok h hl fun t ht last hl => describe_shaped o level last t hl (h t ht)

theorem forcedEntries_shaped {targets : List String} {kind : EntryKind} {name : Tree}
    (hl : last.shaped = true) (h : ∀ t ∈ ts, t.shaped = true) :
    ∃ es, forcedEntries o targets last kind name (.list ts) = .ok es := by
  have hts := describeAll_shaped o 1 .null ts rfl h
  rw [forcedEntries]
  split
  · refine bind_ok (remark_shaped hl) fun r _ => ?_
    rw [describeNodes]
    split
    · exact bind_ok hts fun _ _ => ⟨_, rfl⟩
    · exact ⟨_, rfl⟩
  · exact ⟨_, rfl⟩

theorem describeTarget_shaped {targets : List String} (hl : last.shaped = true)
    (h : t.shaped = true) : ∃ es, describeTarget o targets last t = .ok es := by
  unfold describeTarget
  split
  · obtain ⟨hs, hf⟩ := shaped_node.mp h
    obtain ⟨name, type, ext, imp, ns, hfs, -⟩ := fields_of_shape hs
    cases hfs
    exact forcedEntries_shaped hl (shaped_list.mp (hf (.list ns) (by simp)))
  · obtain ⟨hs, hf⟩ := shaped_node.mp h
    obtain ⟨name, ext, ns, hfs, -⟩ := fields_of_shape hs
    cases hfs
    exact forcedEntries_shaped hl (shaped_list.mp (hf (.list ns) (by simp)))
  · exact ⟨_, rfl⟩

theorem classEntries_shaped {targets : List String} (hl : last.shaped = true)
    (h : ∀ t ∈ ts, t.shaped = true) : ∃ es, classEntries o targets last ts = .ok es := by
  induction ts generalizing last with
  | nil => exact ⟨[], rfl⟩
  | cons t ts ih =>
    obtain ⟨ht, hts⟩ := List.forall_mem_cons.mp h
    refine bind_ok (describeTarget_shaped hl ht) fun es _ => ?_
    exact bind_ok (ih ht hts) fun _ _ => ⟨_, rfl⟩

theorem functionEntries_shaped {targets : List String} (hl : last.shaped = true)
    (h : ∀ t ∈ ts, t.shaped = true) : ∃ es, functionEntries o targets last ts = .ok es := by
  induction ts generalizing last with
  | nil => exact ⟨[], rfl⟩
  | cons t ts ih =>
    obtain ⟨ht, hts⟩ := List.forall_mem_cons.mp h
    unfold functionEntries
    split
    · rename_i heq
      cases heq
    · rename_i heq
      cases heq
      split
      · obtain ⟨s, hs⟩ := signature_shaped _ ht
        exact bind_ok ⟨_, hs⟩ fun _ _ => bind_ok (remark_shaped hl) fun r _ => ⟨_, rfl⟩
      · exact ih ht hts
    · rename_i heq
      cases heq
      exact ih ht hts

/-- A directive makes entries of any shaped trees. -/
theorem entries_shaped (d : Directive) (o : Options) (targets : List String)
    (h : ∀ t ∈ ts, t.shaped = true) : ∃ es, d.entries o targets ts = .ok es := by
  cases d with
  | plain => exact ⟨[], rfl⟩
  | allOfModule => exact describeAll_shaped o 0 .null ts rfl h
  | classes => exact classEntries_shaped rfl h
  | function => exact functionEntries_shaped rfl h

end Docblock.Docs
