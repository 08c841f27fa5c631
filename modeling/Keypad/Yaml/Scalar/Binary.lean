/-!
# Bytes in documents

Bytes are written four characters for three of them, with `=` filling up the last four. Other
characters are passed over.
-/

namespace Keypad.Yaml

/-- The value of a character that stands for six bits. -/
def sixBits? (c : Char) : Option Nat :=
  if 'A' ≤ c ∧ c ≤ 'Z' then some (c.toNat - 'A'.toNat)
  else if 'a' ≤ c ∧ c ≤ 'z' then some (c.toNat - 'a'.toNat + 26)
  else if '0' ≤ c ∧ c ≤ '9' then some (c.toNat - '0'.toNat + 52)
  else if c = '+' then some 62
  else if c = '/' then some 63
  else none

/-- The bytes that characters stand for. `count` characters of the present four have been read, the
last `bits` of which are not yet part of a byte, and `fill` fillers directly behind them. Only four
complete characters may end the bytes, fillers included. -/
def bytesFrom : (count bits fill : Nat) → List Char → Option (List UInt8)
  | count, _, _, [] => if count = 0 then some [] else none
  | count, bits, fill, '=' :: cs =>
    if 2 ≤ count ∧ 4 ≤ count + (fill + 1) then some []
    else bytesFrom count bits (if 2 ≤ count then fill + 1 else fill) cs
  | count, bits, fill, c :: cs =>
    match sixBits? c, count with
    | none, _ => bytesFrom count bits fill cs
    | some n, 0 => bytesFrom 1 n 0 cs
    | some n, 1 => (bytesFrom 2 (n % 16) 0 cs).map (UInt8.ofNat (bits * 4 + n / 16) :: ·)
    | some n, 2 => (bytesFrom 3 (n % 4) 0 cs).map (UInt8.ofNat (bits * 16 + n / 4) :: ·)
    | some n, _ => (bytesFrom 0 0 0 cs).map (UInt8.ofNat (bits * 64 + n) :: ·)

/-- The bytes that a text of ASCII characters stands for. -/
def toBytes? (text : String) : Option (List UInt8) :=
  if text.toList.all (·.toNat < 0x80) then bytesFrom 0 0 0 text.toList else none

end Keypad.Yaml
