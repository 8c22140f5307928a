import Docblock.Proofs.Tree.Magic
import Docblock.Proofs.Visiting

/-! The constants of a source that name their place. -/
namespace Docblock

open Token Grammar

variable {f g : Filter} {file : Option String} {text : List Char} {ts : List Tree} {t : Tree}
  {name : String} {i : Nat}

namespace Tree

theorem resolveAll_settles (h : ∀ t ∈ ts, t.laid = true) :
    SettlesAll [] (visitItems ts) (visitItems (resolveAll ts)) :=
  (resolveItems_settled [] ts h).2

theorem name?_of_field (h : t.field? "name" = some (.text name)) : t.name? = some name := by
  rw [name?, h]
  rfl

/-- A visited constant has a name, and if that names a place, the value of its place. -/
theorem value_of_place (h : ∀ t ∈ ts, t.laid = true)
    (ht : (visitItems (resolveAll ts))[i]? = some t) (hk : t.isOf [.magicConstant] = true) :
    ∃ name, t.field? "name" = some (.text name) ∧
      (name ∈ placeNames →
        t.field? "value" = some (optionalText (placeName ((visitItems ts).take i) name))) := by
  obtain ⟨-, hnone⟩ | ⟨v, w, -, hw, hv⟩ := (resolveAll_settles h).get i
  · cases hnone.symm.trans ht
  cases hw.symm.trans ht
  cases hv with
  | place _ => exact ⟨_, rfl, fun _ => rfl⟩
  | constant hname => exact ⟨_, rfl, fun hmem => absurd hmem hname⟩
  | other hother => exact absurd (by simpa [isOf] using hk) hother

end Tree

/-- Resolution gives every visited constant that names a place the names of the declarations that
were visited last before it. It changes nothing else, and nothing when it is done again. -/
theorem parse_resolves (h : f.parse file text = (.ok ts, g)) :
    (∀ i t, (Tree.visitItems (Tree.resolveAll ts))[i]? = some t →
      t.isOf [.magicConstant] = true →
        ∃ name, t.field? "name" = some (.text name) ∧
          (name ∈ Tree.placeNames → t.field? "value" =
            some (optionalText (Tree.placeName ((Tree.visitItems ts).take i) name)))) ∧
      Tree.unresolvedItems (Tree.resolveAll ts) = Tree.unresolvedItems ts ∧
      Tree.resolveAll (Tree.resolveAll ts) = Tree.resolveAll ts := by
  have hlaid : ∀ t ∈ ts, t.laid = true := fun t ht => (parse_laid h t ht).1
  refine ⟨fun i t ht hk => Tree.value_of_place hlaid ht hk, ?_, ?_⟩
  · exact Tree.unresolved_resolveItems {} ts hlaid
  · exact congrArg Prod.fst (Tree.resolve_resolveItems {} ts hlaid)

/-- The constant stands behind the class, and no function comes before it. -/
theorem parse_resolves_namespace :
    ∃ ts g t, (Filter.fresh []).parse none
        "<?php namespace N; class A \x7b function f() \x7b\x7d \x7d echo __FUNCTION__;".toList =
          (.ok ts, g) ∧
      (Tree.visitItems (Tree.resolveAll ts))[4]? = some t ∧
      t.field? "value" = some (.text "N\\None") := by
  obtain ⟨ts, g, h, hp⟩ := exists_parse_any (Filter.fresh []) none
    "<?php namespace N; class A \x7b function f() \x7b\x7d \x7d echo __FUNCTION__;".toList
    (p := fun ts => (Tree.visitItems (Tree.resolveAll ts))[4]?.any (fun t =>
        t.isOf [.magicConstant] && t.name? == some "__FUNCTION__") &&
      Tree.placeName ((Tree.visitItems ts).take 4) "__FUNCTION__" == some "N\\None")
    (by rw [String.toList_ofList]; decide +kernel)
  obtain ⟨hany, hplace⟩ := Bool.and_eq_true_iff.mp hp
  obtain ⟨t, ht, htest⟩ := Option.any_eq_true _ _ |>.mp hany
  obtain ⟨hk, hname⟩ := Bool.and_eq_true_iff.mp htest
  obtain ⟨name, hfield, hvalue⟩ := (parse_resolves h).1 4 t ht hk
  obtain rfl : name = "__FUNCTION__" := by simpa [Tree.name?_of_field hfield] using hname
  refine ⟨ts, g, t, h, ht, ?_⟩
  rw [hvalue (by decide), beq_iff_eq.mp hplace]
  rfl

end Docblock
