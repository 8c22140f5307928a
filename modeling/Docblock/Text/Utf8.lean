/-! Strict decoding of UTF-8, with an unfinished last character left out. -/
namespace Docblock.Text

/-- A byte that can stand second to last in a character. -/
def isTail (b : UInt8) : Bool := 0x80 ≤ b && b ≤ 0xbf

/-- The bounds on the second byte, after a first byte that needs more. -/
def secondBounds (b : UInt8) : UInt8 × UInt8 :=
  if b == 0xe0 then (0xa0, 0xbf)
  else if b == 0xed then (0x80, 0x9f)
  else if b == 0xf0 then (0x90, 0xbf)
  else if b == 0xf4 then (0x80, 0x8f)
  else (0x80, 0xbf)

/-- The number of bytes of the character that a first byte opens. -/
def width? (b : UInt8) : Option Nat :=
  if b < 0x80 then some 1
  else if b < 0xc2 then none
  else if b < 0xe0 then some 2
  else if b < 0xf0 then some 3
  else if b < 0xf5 then some 4
  else none

def isSecond (b c : UInt8) : Bool := (secondBounds b).1 ≤ c && c ≤ (secondBounds b).2

/-- The low bits of a byte at a place of a character, scaled to it. -/
def place (b : UInt8) (modulus scale : Nat) : Nat := b.toNat % modulus * scale

/-- The characters of a byte sequence; `none` if it holds a byte that no character allows there.
A character that the end cuts short is dropped. -/
def decodeUtf8 : List UInt8 → Option (List Char)
  | [] => some []
  | b :: rest =>
    match width? b with
    | none => none
    | some 1 => (decodeUtf8 rest).map (Char.ofNat b.toNat :: ·)
    | some 2 =>
      match rest with
      | [] => some []
      | c :: more =>
        if isTail c then
          (decodeUtf8 more).map (Char.ofNat (place b 32 64 + place c 64 1) :: ·)
        else none
    | some 3 =>
      match rest with
      | [] => some []
      | c :: [] => if isSecond b c then some [] else none
      | c :: d :: more =>
        if isSecond b c && isTail d then
          (decodeUtf8 more).map
            (Char.ofNat (place b 16 4096 + place c 64 64 + place d 64 1) :: ·)
        else none
    | some _ =>
      match rest with
      | [] => some []
      | c :: [] => if isSecond b c then some [] else none
      | c :: d :: [] => if isSecond b c && isTail d then some [] else none
      | c :: d :: e :: more =>
        if isSecond b c && isTail d && isTail e then
          (decodeUtf8 more).map
            (Char.ofNat (place b 8 262144 + place c 64 4096 + place d 64 64 + place e 64 1) :: ·)
        else none
termination_by structural bs => bs

end Docblock.Text
