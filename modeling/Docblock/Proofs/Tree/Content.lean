import Docblock.Proofs.Tree.Equality
import Mathlib.Algebra.Order.Field.Power
import Mathlib.Algebra.Order.Ring.Unbundled.Rat
import Mathlib.Tactic.Linarith

/-! What trees are compared by: the exact values of their numbers, and no lines. -/
namespace Docblock

/-- What a number amounts to: an exact rational, or one of the two infinities. -/
inductive Amount where
  | rational (value : ℚ)
  | infinite (negative : Bool)

namespace Double

variable {m n : Nat} {q r : Int}

/-- The value of `m` units of `2 ^ q` with a sign. -/
def ratio (negative : Bool) (m : Nat) (q : Int) : ℚ :=
  if negative then -(m * 2 ^ q) else m * 2 ^ q

def amount? : Double → Option Amount
  | .finite s m q => some (.rational (ratio s m q))
  | .infinite s => some (.infinite s)
  | .nan => none

theorem units_nonneg (m : Nat) (q : Int) : (0 : ℚ) ≤ m * 2 ^ q :=
  mul_nonneg (Nat.cast_nonneg m) (zpow_nonneg (by norm_num) q)

theorem units_eq_zero : (m * 2 ^ q : ℚ) = 0 ↔ m = 0 := by
  simp [zpow_ne_zero]

theorem ratio_eq_zero {s : Bool} : ratio s m q = 0 ↔ m = 0 := by
  cases s <;> simp [ratio, zpow_ne_zero]

/-- Units of a smaller size make up larger ones. -/
theorem units_eq_iff (h : q ≤ r) :
    (m * 2 ^ q : ℚ) = n * 2 ^ r ↔ m = n * Nat.pow 2 (r - q).natAbs := by
  have hr : r = (r - q).natAbs + q := by omega
  have hsplit : (2 : ℚ) ^ r = 2 ^ (r - q).natAbs * 2 ^ q := by
    rw [← zpow_natCast, ← zpow_add₀ (by norm_num), ← hr]
  have hne : (2 : ℚ) ^ q ≠ 0 := zpow_ne_zero q (by norm_num)
  rw [hsplit, ← mul_assoc, mul_left_inj' hne]
  exact_mod_cast Iff.rfl

/-- Finite numbers are compared by their exact values. -/
theorem sameFinite_iff (s : Bool) (m : Nat) (q : Int) (t : Bool) (n : Nat) (r : Int) :
    sameFinite s m q t n r = true ↔ ratio s m q = ratio t n r := by
  by_cases hm : m = 0
  · rw [ratio_eq_zero.mpr hm, eq_comm (a := (0 : ℚ)), ratio_eq_zero]
    simp [sameFinite, hm]
  · have hunits : (if q ≤ r then m == n * Nat.pow 2 (r - q).natAbs
        else m * Nat.pow 2 (q - r).natAbs == n) = true ↔ (m * 2 ^ q : ℚ) = n * 2 ^ r := by
      split
      · rw [units_eq_iff ‹q ≤ r›, beq_iff_eq]
      · rw [beq_iff_eq, eq_comm (a := (m * 2 ^ q : ℚ)), units_eq_iff (by omega)]
        exact eq_comm
    have hpos : (0 : ℚ) < m * 2 ^ q :=
      lt_of_le_of_ne (units_nonneg m q) fun h => hm (units_eq_zero.mp h.symm)
    have hnonneg := units_nonneg n r
    rw [sameFinite, if_neg hm, Bool.and_eq_true, hunits, beq_iff_eq]
    cases s <;> cases t <;> simp only [ratio, neg_inj, reduceCtorEq, true_and, false_and,
      if_true, Bool.false_eq_true, if_false]
    · exact ⟨False.elim, fun h => by linarith⟩
    · exact ⟨False.elim, fun h => by linarith⟩

theorem same_iff {x y : Double} :
    x.same y = true ↔ ∃ a, x.amount? = some a ∧ y.amount? = some a := by
  cases x with
  | finite s m q => cases y <;> simp [same, amount?, sameFinite_iff, eq_comm (a := ratio s m q)]
  | infinite s => cases y <;> simp [same, amount?, eq_comm (a := s)]
  | nan => simp [same, amount?]

theorem ratio_int (n : Int) : ratio (n < 0) n.natAbs 0 = n := by
  obtain h | h := Int.lt_or_le n 0
  · simp [ratio, h, abs_of_neg]
  · simp [ratio, not_lt.mpr h, abs_of_nonneg, h]

theorem sameInt_iff {x : Double} {n : Int} :
    x.sameInt n = true ↔ x.amount? = some (.rational n) := by
  cases x <;> simp [sameInt, amount?, sameFinite_iff, ratio_int]

theorem isSome_amount? (x : Double) : x.amount?.isSome = x.isNumber := by
  cases x <;> rfl

end Double

namespace Tree

def Number.amount? : Number → Option Amount
  | .int n => some (.rational n)
  | .float x => x.amount?

theorem Number.same_iff {x y : Number} :
    x.same y = true ↔ ∃ a, x.amount? = some a ∧ y.amount? = some a := by
  cases x with
  | int m =>
    cases y with
    | int n => simp [Number.same, Number.amount?, eq_comm (a := m)]
    | float y => simp [Number.same, Number.amount?, Double.sameInt_iff]
  | float x =>
    cases y with
    | int n => simp [Number.same, Number.amount?, Double.sameInt_iff]
    | float y => exact Double.same_iff

/-- What a number amounts to; a truth value is one of two numbers. -/
def amount? (t : Tree) : Option Amount := t.number?.bind Number.amount?

theorem sameNumber_iff {t u : Tree} :
    sameNumber t u = true ↔ ∃ a, t.amount? = some a ∧ u.amount? = some a := by
  simp only [sameNumber, amount?]
  cases t.number? <;> cases u.number? <;> simp [Number.same_iff]

/-- What is left of a tree without its lines and without the forms of its numbers. -/
inductive Content where
  | null
  | number (amount : Option Amount)
  | text (s : String)
  | list (items : List Content)
  | node (kind : Kind) (fields : List Content)

mutual
def content : Tree → Content
  | .null => .null
  | .text s => .text s
  | .list ts => .list (contentAll ts)
  | .node k _ ts => .node k (contentAll ts)
  | t => .number t.amount?

def contentAll : List Tree → List Content
  | [] => []
  | t :: ts => t.content :: contentAll ts
end

theorem content_number {t : Tree} {x : Number} (h : t.number? = some x) :
    t.content = .number t.amount? ∧ t.proper = t.amount?.isSome := by
  cases t with
  | bool | int => exact ⟨rfl, rfl⟩
  | float x => exact ⟨rfl, (Double.isSome_amount? x).symm⟩
  | null | text | list | node => cases h

theorem same_of_number? {t : Tree} {x : Number} (h : t.number? = some x) (u : Tree) :
    t.same u = sameNumber t u := by
  cases t with
  | bool | int | float => cases u <;> rfl
  | null | text | list | node => cases h

/-- Numbers are compared by what they amount to, whatever their form. -/
theorem sameNumber_iff_content {t u : Tree} {x y : Number} (ht : t.number? = some x)
    (hu : u.number? = some y) :
    sameNumber t u = true ↔ t.proper = true ∧ t.content = u.content := by
  obtain ⟨htc, htp⟩ := content_number ht
  rw [sameNumber_iff, htc, htp, (content_number hu).1, Content.number.injEq]
  cases t.amount? <;> simp [eq_comm (b := u.amount?)]

mutual
/-- A tree equals the trees of the same content, unless it holds a number that equals none. -/
theorem same_iff (t u : Tree) : t.same u = true ↔ t.proper = true ∧ t.content = u.content := by
  cases t with
  | null | text => cases u <;> simp [same, proper, content, sameNumber, number?]
  | list ts =>
    cases u with
    | list us => simpa [same, proper, content] using sameAll_iff ts us
    | null | bool | int | float | text | node => simp [same, content, sameNumber, number?]
  | node k l ts =>
    cases u with
    | node k' l' us =>
      simp only [same, proper, content, Bool.and_eq_true, beq_iff_eq, sameAll_iff ts us,
        Content.node.injEq]
      exact and_left_comm
    | null | bool | int | float | text | list => simp [same, content, sameNumber, number?]
  | bool | int | float =>
    cases u with
    | bool | int | float =>
      rw [same_of_number? rfl]
      exact sameNumber_iff_content rfl rfl
    | null | text | list | node => simp [same, content, sameNumber, number?]

theorem sameAll_iff (ts us : List Tree) :
    sameAll ts us = true ↔ properAll ts = true ∧ contentAll ts = contentAll us := by
  cases ts with
  | nil => cases us <;> simp [sameAll, properAll, contentAll]
  | cons t ts =>
    cases us with
    | nil => simp [sameAll, contentAll]
    | cons u us =>
      simp only [sameAll, properAll, contentAll, Bool.and_eq_true, same_iff t u,
        sameAll_iff ts us, List.cons.injEq]
      exact and_and_and_comm
end

mutual
/-- A tree with no line at any of its nodes. -/
def unlined : Tree → Tree
  | .list ts => .list (unlinedAll ts)
  | .node k _ ts => .node k none (unlinedAll ts)
  | t => t

def unlinedAll : List Tree → List Tree
  | [] => []
  | t :: ts => t.unlined :: unlinedAll ts
end

mutual
theorem same_unlined (t u : Tree) : t.unlined.same u.unlined = t.same u := by
  cases t with
  | list ts =>
    cases u with
    | list us => simpa [same, unlined] using sameAll_unlined ts us
    | null | bool | int | float | text | node => rfl
  | node k l ts =>
    cases u with
    | node k' l' us => simp [same, unlined, sameAll_unlined ts us]
    | null | bool | int | float | text | list => rfl
  | null | bool | int | float | text => cases u <;> rfl

theorem sameAll_unlined (ts us : List Tree) :
    sameAll (unlinedAll ts) (unlinedAll us) = sameAll ts us := by
  cases ts with
  | nil => cases us <;> rfl
  | cons t ts =>
    cases us with
    | nil => rfl
    | cons u us => simp [sameAll, unlinedAll, same_unlined t u, sameAll_unlined ts us]
end

/-- Equality is an equivalence on the trees in which all numbers are numbers. Whole numbers,
floating-point numbers and truth values are equal if they amount to the same, and the lines inside
the trees are not looked at. -/
theorem same_equivalence :
    Equivalence (fun t u : {t : Tree // t.proper = true} => t.val.same u.val = true) ∧
      (∀ (t u : Tree) (a b : Amount), t.amount? = some a → u.amount? = some b →
        (t.same u = true ↔ a = b)) ∧
      ∀ t t' u u' : Tree, t'.unlined = t.unlined → u'.unlined = u.unlined →
        t'.same u' = t.same u := by
  refine ⟨⟨?_, ?_, ?_⟩, ?_, ?_⟩
  · rintro ⟨t, ht⟩
    exact same_self t ht
  · rintro ⟨t, ht⟩ ⟨u, hu⟩ h
    exact (same_iff u t).mpr ⟨hu, ((same_iff t u).mp h).2.symm⟩
  · rintro ⟨t, ht⟩ ⟨u, hu⟩ ⟨v, hv⟩ htu huv
    exact (same_iff t v).mpr ⟨ht, ((same_iff t u).mp htu).2.trans ((same_iff u v).mp huv).2⟩
  · intro t u a b ha hb
    obtain ⟨x, hx, -⟩ := Option.bind_eq_some_iff.mp ha
    rw [same_of_number? hx, sameNumber_iff, ha, hb]
    simp [eq_comm (a := b)]
  · intro t t' u u' ht hu
    rw [← same_unlined t' u', ht, hu, same_unlined]

/-- Four quarters are the truth value of one, on whatever lines the two stand. -/
theorem same_four_quarters :
    (Tree.node .returnValue (some 1) [.bool true]).same
        (.node .returnValue (some 2) [.float (.finite false 4 (-2))]) = true := by
  obtain ⟨equiv, numbers, lines⟩ := same_equivalence
  have hquarters : (Tree.float (.finite false 4 (-2))).amount? = some (.rational 1) := by
    norm_num [amount?, number?, Number.amount?, Double.amount?, Double.ratio]
  have hone : (Tree.bool true).same (.int 1) = true := (numbers _ _ _ _ rfl rfl).mpr rfl
  have hfour : (Tree.int 1).same (.float (.finite false 4 (-2))) = true :=
    (numbers _ _ _ _ rfl hquarters).mpr rfl
  have hboth : (Tree.bool true).same (.float (.finite false 4 (-2))) = true :=
    equiv.trans (x := ⟨.bool true, rfl⟩) (y := ⟨.int 1, rfl⟩) (z := ⟨.float _, rfl⟩) hone hfour
  have hlines := lines (.node .returnValue none [.bool true])
    (.node .returnValue (some 1) [.bool true])
    (.node .returnValue none [.float (.finite false 4 (-2))])
    (.node .returnValue (some 2) [.float (.finite false 4 (-2))]) rfl rfl
  rw [hlines]
  exact Bool.and_eq_true_iff.mpr ⟨rfl, Bool.and_eq_true_iff.mpr ⟨hboth, rfl⟩⟩

end Tree
end Docblock
