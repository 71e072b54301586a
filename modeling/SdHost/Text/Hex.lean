/-!
# Hexadecimal text

Registers are reported in base 16.  This file fixes the two spellings that reports use:

* `hex` — the shortest spelling, with the mark `0x` and lower-case digits;
* `hexWide` — the same number filled up with zeros to a least count of digits.
-/

namespace SdHost.Text

/-- The base 16 digits of `n`, lower case, most significant first; zero is one digit. -/
def hexDigits (n : Nat) : List Char := Nat.toDigits 16 n

/-- `n` in base 16 behind the mark `0x`. -/
def hex (n : Nat) : String := "0x" ++ String.ofList (hexDigits n)

/-- `n` in base 16 behind the mark `0x`, with at least `width` digits. -/
def hexWide (width n : Nat) : String :=
  "0x" ++ String.ofList ((hexDigits n).leftpad width '0')

/-- `s` filled up with blanks on the right to at least `width` characters. -/
def padRight (width : Nat) (s : String) : String := s.pushn ' ' (width - s.length)

end SdHost.Text
