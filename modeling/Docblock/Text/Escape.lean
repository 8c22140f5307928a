/-! Backslash escapes of literals, decoded to characters below U+0100. -/
namespace Docblock.Text

inductive EscapeError where
  /-- A character above U+007F. -/
  | notAscii
  /-- A hexadecimal escape without its two digits. -/
  | badHex
  deriving DecidableEq

def hexDigit? (c : Char) : Option Nat :=
  if c.isDigit then some (c.toNat - 0x30)
  else if 'a' ≤ c ∧ c ≤ 'f' then some (c.toNat - 0x57)
  else if 'A' ≤ c ∧ c ≤ 'F' then some (c.toNat - 0x37)
  else none

def octalDigit? (c : Char) : Option Nat :=
  if '0' ≤ c ∧ c ≤ '7' then some (c.toNat - 0x30) else none

/-- What a single letter or sign after a backslash stands for. -/
def simpleEscape? : Char → Option (List Char)
  | '\n' => some []
  | '\\' => some ['\\']
  | '\'' => some ['\'']
  | '"' => some ['"']
  | 'a' => some ['\x07']
  | 'b' => some ['\x08']
  | 'f' => some ['\x0c']
  | 'n' => some ['\n']
  | 'r' => some ['\r']
  | 't' => some ['\t']
  | 'v' => some ['\x0b']
  | _ => none

/-- The character of an octal escape, whose value is taken modulo 256. -/
def octalChar (n : Nat) : Char := Char.ofNat (n % 256)

/-- The characters for a text of ASCII with escapes: one to three octal digits, `x` and two
hexadecimal digits, or one sign. An unknown escape stays as it is written. -/
def unescapeAscii : List Char → Except EscapeError (List Char)
  | [] => .ok []
  | ['\\'] => .ok ['\\']
  | '\\' :: c :: rest =>
    match simpleEscape? c with
    | some out => return out ++ (← unescapeAscii rest)
    | none =>
      if c == 'x' then
        match rest with
        | h :: l :: tail =>
          match hexDigit? h, hexDigit? l with
          | some a, some b => return Char.ofNat (16 * a + b) :: (← unescapeAscii tail)
          | _, _ => .error .badHex
        | _ => .error .badHex
      else
        match octalDigit? c with
        | none => return '\\' :: c :: (← unescapeAscii rest)
        | some a =>
          match rest with
          | [] => .ok [octalChar a]
          | d :: tail =>
            match octalDigit? d with
            | none => return octalChar a :: (← unescapeAscii (d :: tail))
            | some b =>
              match tail with
              | [] => .ok [octalChar (8 * a + b)]
              | e :: last =>
                match octalDigit? e with
                | none => return octalChar (8 * a + b) :: (← unescapeAscii (e :: last))
                | some k => return octalChar (64 * a + 8 * b + k) :: (← unescapeAscii last)
  | c :: rest => return c :: (← unescapeAscii rest)
termination_by structural cs => cs

/-- Decodes a text with escapes; it must be all ASCII. -/
def unescape (cs : List Char) : Except EscapeError (List Char) :=
  if cs.all fun c => c.toNat < 0x80 then unescapeAscii cs else .error .notAscii

end Docblock.Text
