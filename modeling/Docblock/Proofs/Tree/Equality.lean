import Docblock.Number.Decimal
import Docblock.Tree.Equality

/-! A tree equals itself, unless it holds a number that does not. -/
namespace Docblock

namespace Double

/-- Whether this is a number, finite or not. -/
def isNumber : Double → Bool
  | .nan => false
  | _ => true

theorem same_self {x : Double} (h : x.isNumber = true) : x.same x = true := by
  cases x with
  | finite s m q =>
    simp only [same, sameFinite]
    split
    · simpa using ‹m = 0›
    · simp
  | infinite => simp [same]
  | nan => cases h

theorem isNumber_ofUnits (negative : Bool) (m : Nat) (q : Int) :
    (ofUnits negative m q).isNumber = true := by
  simp only [ofUnits]
  split <;> split <;> rfl

/-- A numeral stands for a number. -/
theorem isNumber_ofDecimal (negative : Bool) (digits : Nat) (exponent : Int) :
    (ofDecimal negative digits exponent).isNumber = true := by
  simp only [ofDecimal]
  split
  · rfl
  · split
    · rfl
    · split
      · rfl
      · exact isNumber_ofUnits _ _ _

end Double

namespace Tree

variable {t : Tree} {ts : List Tree}

mutual
/-- Whether no number in a tree is the one that differs from itself. -/
def proper : Tree → Bool
  | .float x => x.isNumber
  | .list ts => properAll ts
  | .node _ _ ts => properAll ts
  | _ => true

def properAll : List Tree → Bool
  | [] => true
  | t :: ts => t.proper && properAll ts
end

theorem properAll_iff : properAll ts = true ↔ ∀ t ∈ ts, t.proper = true := by
  induction ts with
  | nil => simp [properAll]
  | cons t ts ih => simp [properAll, ih]

theorem proper_node {k : Kind} {line : Option Int} :
    (Tree.node k line ts).proper = true ↔ ∀ t ∈ ts, t.proper = true := properAll_iff

theorem proper_list : (Tree.list ts).proper = true ↔ ∀ t ∈ ts, t.proper = true := properAll_iff

mutual
theorem same_self (t : Tree) (h : t.proper = true) : t.same t = true := by
  cases t with
  | null => rfl
  | bool | int => simp [same, sameNumber, number?, Number.same]
  | float x => exact Double.same_self h
  | text => simp [same]
  | list ts => exact sameAll_self ts h
  | node k line ts => simpa [same] using sameAll_self ts h

theorem sameAll_self (ts : List Tree) (h : properAll ts = true) : sameAll ts ts = true := by
  cases ts with
  | nil => rfl
  | cons t ts =>
    obtain ⟨ht, hts⟩ := Bool.and_eq_true_iff.mp h
    simp [sameAll, same_self t ht, sameAll_self ts hts]
end

/-- Trees that differ behind the same trees only are equal if they are there. -/
theorem sameAll_append {us vs : List Tree} (h : properAll ts = true) (hs : sameAll us vs = true) :
    sameAll (ts ++ us) (ts ++ vs) = true := by
  induction ts with
  | nil => exact hs
  | cons t ts ih =>
    obtain ⟨ht, hts⟩ := Bool.and_eq_true_iff.mp h
    simp [sameAll, same_self t ht, ih hts]

end Tree
end Docblock
