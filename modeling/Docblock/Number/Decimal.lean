import Docblock.Number.Double
import Docblock.Text.Character

/-! Decimal numerals, with digits of any script, and the numbers they stand for. -/
namespace Docblock.Number

open Text

/-- The value of a digit sequence in a base; `none` if one of them is no digit of the base. -/
def ofDigits? (base : Nat) (cs : List Char) : Option Nat :=
  cs.foldlM (fun n c => do
    let d ← digit? c
    if d < base then some (base * n + d) else none) 0

/-- The value of the digits of a numeral, other characters left out. -/
def digitsValue (cs : List Char) : Nat :=
  cs.foldl (fun n c => match digit? c with
    | some d => 10 * n + d
    | none => n) 0

/-- The exponent after its mark: a sign and digits. -/
def exponentValue : List Char → Int
  | '-' :: cs => -(digitsValue cs : Int)
  | '+' :: cs => digitsValue cs
  | cs => digitsValue cs

/-- A numeral with a point or an exponent, such as `1.5`, `.5`, `1.` or `15e-1`. -/
def double (negative : Bool) (cs : List Char) : Double :=
  let mantissa := cs.takeWhile fun c => c != 'e' && c != 'E'
  let exponent := exponentValue (cs.drop (mantissa.length + 1))
  let fraction := (mantissa.dropWhile (· != '.')).drop 1
  Double.ofDecimal negative (digitsValue mantissa) (exponent - fraction.length)

/-- The text of a number: an optional sign before a numeral, `inf` or `nan`. -/
def ofText (s : String) : Double :=
  match s.toList with
  | '-' :: 'i' :: _ => .infinite true
  | '-' :: cs => double true cs
  | 'i' :: _ => .infinite false
  | 'n' :: _ => .nan
  | cs => double false cs

end Docblock.Number
