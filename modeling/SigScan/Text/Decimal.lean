/-
# The length of decimal text

Decimal text has a limited number of digits, whether a number is read from it or written as it.
Text in hexadecimal, octal or binary has no limit.

`isWritable` says which integers can be written in decimal.
-/
namespace SigScan.Text

/-- The greatest number of decimal digits that are read or written. -/
def digitLimit : Nat := 4300

/-- A number whose decimal text has too many digits. -/
structure TooManyDigits where
  /-- The number of digits in a text that is read; nothing for a number that is written. -/
  count : Option Nat
  deriving DecidableEq, Repr

/-- The message for a number with too many digits. -/
def TooManyDigits.message (e : TooManyDigits) : String :=
  let size := match e.count with
    | some n => s!": value has {n} digits"
    | none => ""
  s!"Exceeds the limit ({digitLimit} digits) for integer string conversion" ++ size ++
    "; use sys.set_int_max_str_digits() to increase the limit"

/-- Has the integer few enough digits to be written in decimal? -/
def isWritable (n : Int) : Bool := (Nat.toDigits 10 n.natAbs).length ≤ digitLimit

end SigScan.Text
