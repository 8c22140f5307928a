/-! Binary floating-point numbers of 64 bits as exact values, read from decimal text. -/
namespace Docblock

/-- A 64-bit floating-point number. A finite one is `significand * 2 ^ exponent` with its sign,
with `significand < 2 ^ 53` and `-1074 ≤ exponent ≤ 971`, and `exponent = -1074` or
`2 ^ 52 ≤ significand`. -/
inductive Double where
  | finite (negative : Bool) (significand : Nat) (exponent : Int)
  | infinite (negative : Bool)
  | nan

namespace Double

def zero (negative : Bool) : Double := .finite negative 0 (-1074)

/-- `num / den` rounded to the nearest integer, a half to the even one. -/
def roundDiv (num den : Nat) : Nat :=
  let q := num / den
  let r := 2 * (num % den)
  if r < den || (r == den && q % 2 == 0) then q else q + 1

/-- Numerator and denominator of `n * b ^ e`. -/
def scale (n b : Nat) (e : Int) : Nat × Nat :=
  if e < 0 then (n, Nat.pow b e.natAbs) else (n * Nat.pow b e.natAbs, 1)

/-- `num / den` in units of `2 ^ q`, rounded. -/
def unitsOf (num den : Nat) (q : Int) : Nat :=
  if q < 0 then roundDiv (num * Nat.pow 2 q.natAbs) den
  else roundDiv num (den * Nat.pow 2 q.natAbs)

/-- The finite number with `m` units of `2 ^ q`, infinite if it is too large. -/
def ofUnits (negative : Bool) (m : Nat) (q : Int) : Double :=
  let m' := if m = Nat.pow 2 53 then Nat.pow 2 52 else m
  let q' := if m = Nat.pow 2 53 then q + 1 else q
  if q' > 971 then .infinite negative else .finite negative m' q'

/-- The greatest `e` with `2 ^ e ≤ num / den`, for positive `num` and `den`. -/
def binaryExponent (num den : Nat) : Int :=
  let e := (Nat.log2 num : Int) - Nat.log2 den
  let power := scale 1 2 e
  if num * power.2 < power.1 * den then e - 1 else e

/-- The number nearest to the positive quotient `num / den`, a half to the even significand. -/
def ofQuotient (negative : Bool) (num den : Nat) : Double :=
  let q := max (-1074) (binaryExponent num den - 52)
  ofUnits negative (unitsOf num den q) q

/-- The number nearest to `digits * 10 ^ exponent`. Past the range of the format the quotient is
not formed. -/
def ofDecimal (negative : Bool) (digits : Nat) (exponent : Int) : Double :=
  if digits = 0 then zero negative
  else
    let size := (Nat.toDigits 10 digits).length + exponent
    if size > 310 then .infinite negative
    else if size < -330 then zero negative
    else
      let quotient := scale digits 10 exponent
      ofQuotient negative quotient.1 quotient.2

/-- Whether the number is other than zero; not-a-number is. -/
def isNonzero : Double → Bool
  | .finite _ m _ => m != 0
  | _ => true

/-- The finite numbers `(-1)^s * m * 2 ^ q` and `(-1)^t * n * 2 ^ r` have one value. -/
def sameFinite (s : Bool) (m : Nat) (q : Int) (t : Bool) (n : Nat) (r : Int) : Bool :=
  if m = 0 then n = 0
  else s == t &&
    (if q ≤ r then m == n * Nat.pow 2 (r - q).natAbs else m * Nat.pow 2 (q - r).natAbs == n)

/-- Equality of values: zeros are equal, and not-a-number equals nothing. -/
def same : Double → Double → Bool
  | .finite s m q, .finite t n r => sameFinite s m q t n r
  | .infinite s, .infinite t => s == t
  | _, _ => false

/-- Equality with an integer. -/
def sameInt (x : Double) (n : Int) : Bool :=
  match x with
  | .finite s m q => sameFinite s m q (n < 0) n.natAbs 0
  | _ => false

end Double
end Docblock
