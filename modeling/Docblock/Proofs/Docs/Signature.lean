import Docblock.Proofs.Tree.Shape
import Docblock.Docs.Signature

/-! The signature of a shaped tree is a text. -/
namespace Docblock.Docs

open Docblock.Tree

variable {ts : List Tree}

theorem mapM_texts {f : Tree → Except AccessError String} (hf : ∀ s, f (.text s) = .ok s)
    (ss : List String) : (ss.map .text).mapM f = .ok ss := by
  induction ss with
  | nil => rfl
  | cons s ss ih =>
    rw [List.map_cons, List.mapM_cons, hf, ih]
    rfl

theorem joinTexts_map (ss : List String) :
    joinTexts (ss.map .text) = .ok (Tree.commaSeparated ss) := by
  rw [joinTexts, mapM_texts fun _ => rfl]
  rfl

theorem call_texts {name : String} {ss : List String} (h : signatureAll ts = .ok (ss.map .text)) :
    ∃ s, call (.text name) (.list ts) = .ok (.text s) := by
  rw [call, h]
  simp only [bind, Except.bind, joinTexts_map]
  exact ⟨_, rfl⟩

mutual
/-- The signature of a shaped tree is a text. -/
theorem signature_shaped (t : Tree) (h : t.shaped = true) :
    ∃ s, signature t = .ok (.text s) := by
  unfold signature
  split
  · obtain ⟨name, hfs⟩ := fields_of_shape (shaped_node.mp h).1
    cases hfs
    exact ⟨name, rfl⟩
  · obtain ⟨hs, hf⟩ := shaped_node.mp h
    obtain ⟨es, hfs, -⟩ := fields_of_shape hs
    cases hfs
    obtain ⟨ss, hss⟩ := signatureAll_shaped es (shaped_list.mp (hf (.list es) (by simp)))
    simp only [signatureItems, hss, bind, Except.bind, joinTexts_map]
    exact ⟨_, rfl⟩
  · rename_i name value isRef type
    obtain ⟨-, hf⟩ := shaped_node.mp h
    obtain ⟨s, hs⟩ := signature_shaped type (hf type (by simp))
    obtain ⟨s', hs'⟩ := signature_shaped value (hf value (by simp))
    simp only [hs, hs', bind, Except.bind, pure, Except.pure]
    split <;> split <;> exact ⟨_, rfl⟩
  · obtain ⟨hs, hf⟩ := shaped_node.mp h
    obtain ⟨name, ps, body, isRef, hfs, -⟩ := fields_of_shape hs
    cases hfs
    obtain ⟨ss, hss⟩ := signatureAll_shaped ps (shaped_list.mp (hf (.list ps) (by simp)))
    exact call_texts hss
  · obtain ⟨hs, hf⟩ := shaped_node.mp h
    obtain ⟨name, ms, ps, body, isRef, hfs, -⟩ := fields_of_shape hs
    cases hfs
    obtain ⟨ss, hss⟩ := signatureAll_shaped ps (shaped_list.mp (hf (.list ps) (by simp)))
    exact call_texts hss
  · exact ⟨_, rfl⟩

theorem signatureAll_shaped (ts : List Tree) (h : ∀ t ∈ ts, t.shaped = true) :
    ∃ ss : List String, signatureAll ts = .ok (ss.map .text) := by
  match ts with
  | [] => exact ⟨[], by simp [signatureAll]⟩
  | t :: ts =>
    obtain ⟨s, hs⟩ := signature_shaped t (h t List.mem_cons_self)
    obtain ⟨ss, hss⟩ := signatureAll_shaped ts fun u hu => h u (List.mem_cons_of_mem t hu)
    refine ⟨s :: ss, ?_⟩
    rw [signatureAll, hs, hss]
    rfl
end

end Docblock.Docs
