import Docblock.Number.Double

/-! The shortest decimal text that reads back as a floating-point number. -/
namespace Docblock.Double

/-- The exponent of the leading decimal digit of the positive quotient `num / den`. -/
def leadingExponent (num den : Nat) : Int :=
  let e := (Nat.log2 num : Int) - Nat.log2 den
  let k := (e * 30103).fdiv 100000
  let reaches (c : Int) : Bool := (scale 1 10 c).1 * den ≤ num * (scale 1 10 c).2
  if reaches (k + 1) then k + 1 else if reaches k then k else k - 1

/-- The quotients are compared by cross multiplication. -/
def ltQuotient (a b : Nat × Nat) : Bool := a.1 * b.2 < b.1 * a.2

/-- The reals that round to a positive finite number: the two ends, in quarters of a unit, and
whether they belong to it. -/
structure Interval where
  low : Nat × Nat
  high : Nat × Nat
  closed : Bool

/-- Below a power of two the next number is half as far. -/
def interval (m : Nat) (q : Int) : Interval :=
  let quarter := if m = Nat.pow 2 52 ∧ q > -1074 then 1 else 2
  ⟨scale (4 * m - quarter) 2 (q - 2), scale (4 * m + 2) 2 (q - 2), m % 2 == 0⟩

def Interval.holds (i : Interval) (x : Nat × Nat) : Bool :=
  (ltQuotient i.low x || (i.closed && !ltQuotient x i.low)) &&
  (ltQuotient x i.high || (i.closed && !ltQuotient i.high x))

/-- The decimal with `n` digits that reads back and is nearest to the number, a half to the even
digit; `k` is the exponent of the leading digit. -/
def candidate (i : Interval) (num den : Nat) (k : Int) (n : Nat) : Option (Nat × Int) :=
  let e := k - n + 1
  let unit := scale 1 10 e
  let below := num * unit.2 / (den * unit.1)
  let quotient (d : Nat) : Nat × Nat := scale d 10 e
  let twice := 2 * (num * unit.2 % (den * unit.1))
  let nearBelow := twice < den * unit.1 || (twice == den * unit.1 && below % 2 == 0)
  match i.holds (quotient below), i.holds (quotient (below + 1)) with
  | true, true => some (if nearBelow then below else below + 1, e)
  | true, false => some (below, e)
  | false, true => some (below + 1, e)
  | false, false => none

/-- Digits and exponent of the shortest decimal for a positive finite number. Seventeen digits
always read back. -/
def shortest (m : Nat) (q : Int) : Nat × Int :=
  let value := scale m 2 q
  let k := leadingExponent value.1 value.2
  let i := interval m q
  ((List.range 17).findSome? fun n => candidate i value.1 value.2 k (n + 1)).getD (m, 0)

/-- The digits without zeros at their end, and the exponent of the leading one. -/
def digitsOf (m : Nat) (q : Int) : List Char × Int :=
  let d := shortest m q
  let all := Nat.toDigits 10 d.1
  ((all.reverse.dropWhile (· == '0')).reverse, d.2 + all.length - 1)

/-- Two digits or more after the mark and its sign. -/
def exponentText (e : Int) : List Char :=
  let ds := Nat.toDigits 10 e.natAbs
  'e' :: (if e < 0 then '-' else '+') :: (if ds.length < 2 then '0' :: ds else ds)

/-- Positional from `0.0001` up to sixteen digits before the point, else with an exponent. -/
def layout (ds : List Char) (e : Int) : List Char :=
  if -4 ≤ e ∧ e < 0 then
    '0' :: '.' :: List.replicate (e.natAbs - 1) '0' ++ ds
  else if 0 ≤ e ∧ e < 16 then
    let whole := e.natAbs + 1
    let front := ds.take whole ++ List.replicate (whole - ds.length) '0'
    let back := ds.drop whole
    front ++ '.' :: (if back.isEmpty then ['0'] else back)
  else
    match ds with
    | [] => []
    | [d] => d :: exponentText e
    | d :: rest => d :: '.' :: rest ++ exponentText e

def sign (negative : Bool) : List Char := if negative then ['-'] else []

/-- The text of a number: the fewest digits that read back. -/
def text : Double → String
  | .nan => "nan"
  | .infinite s => String.ofList (sign s ++ ['i', 'n', 'f'])
  | .finite s m q =>
    if m = 0 then String.ofList (sign s ++ ['0', '.', '0'])
    else String.ofList (sign s ++ layout (digitsOf m q).1 (digitsOf m q).2)

end Docblock.Double
