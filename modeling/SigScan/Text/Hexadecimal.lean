/-
# Hexadecimal text

Addresses and offsets are written in lower-case hexadecimal after `0x`, a minus sign in front
of everything. The padded form fills with zeros after the `0x`, and its width counts the sign
and the `0x` too.

`paddedHex_of_le` says that a width that is reached adds nothing.
-/
namespace SigScan.Text

/-- The lower-case hexadecimal digits of a number, without leading zeros. -/
def hexDigits (n : Nat) : List Char := Nat.toDigits 16 n

/-- The hexadecimal digits of a number, filled with zeros to at least `width`. -/
def hexDigitsAtLeast (width n : Nat) : List Char :=
  List.replicate (width - (hexDigits n).length) '0' ++ hexDigits n

/-- What stands before the digits: the sign of a negative number, and `0x`. -/
def hexLead (n : Int) : List Char := (if n < 0 then ['-'] else []) ++ ['0', 'x']

/-- An integer in hexadecimal. -/
def hex (n : Int) : String := String.ofList (hexLead n ++ hexDigits n.natAbs)

/-- An integer in hexadecimal, filled with zeros to at least `width` characters. -/
def paddedHex (width : Nat) (n : Int) : String :=
  String.ofList (hexLead n ++ hexDigitsAtLeast (width - (hexLead n).length) n.natAbs)

/-- Digits that fill the width are not padded. -/
theorem hexDigitsAtLeast_of_le {width n : Nat} (h : width ≤ (hexDigits n).length) :
    hexDigitsAtLeast width n = hexDigits n := by
  simp [hexDigitsAtLeast, Nat.sub_eq_zero_of_le h]

/-- A number that fills the width is written as without it. -/
theorem paddedHex_of_le {width : Nat} {n : Int}
    (h : width ≤ (hexLead n).length + (hexDigits n.natAbs).length) :
    paddedHex width n = hex n := by
  rw [paddedHex, hex, hexDigitsAtLeast_of_le (by omega)]

end SigScan.Text
