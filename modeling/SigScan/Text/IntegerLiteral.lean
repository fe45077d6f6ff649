/-
# Integer literals

The reader of numbers that people write: blanks around, a sign, a base marker such as `0x`,
digits with single underscores between them. Digits of every script count as the ASCII digit of
their value. Decimal literals have a limited number of digits.

* `Literal.ofText` takes a text apart, `Literal.value?` gives its value;
* `digits?_singleton` reads one digit, `nibble?_lt` bounds a hexadecimal one;
* `Literal.excess?_of_base_ne` says that only decimal literals can be too long.
-/
import SigScan.Text.Decimal
import SigScan.Text.Quoted
import SigScan.Unicode.Blank
import SigScan.Unicode.Digit

namespace SigScan.Text

/-- How the base of a literal is found. -/
inductive Radix where
  /-- Sixteen, with or without the marker `0x`. -/
  | sixteen
  /-- By the marker `0x`, `0o` or `0b`; ten where there is none. -/
  | marked
  deriving DecidableEq, Repr

/-- The number that messages give for the base; `0` where the marker decides. -/
def Radix.number : Radix → Nat
  | .sixteen => 16
  | .marked => 0

/-- The base of a literal without marker. -/
def Radix.plainBase : Radix → Nat
  | .sixteen => 16
  | .marked => 10

/-- Why a text is not read as an integer. -/
inductive IntegerError where
  /-- The text is no integer literal. -/
  | noLiteral (radix : Radix) (text : String)
  /-- The literal has too many decimal digits. -/
  | tooLong (e : TooManyDigits)
  deriving DecidableEq, Repr

/-- The number of characters after which a text in quotes is cut off in messages. -/
def shownLength : Nat := 200

/-- The message for a text that is not read as an integer. -/
def IntegerError.message : IntegerError → String
  | .noLiteral radix text =>
    s!"invalid literal for int() with base {radix.number}: " ++
      String.ofList ((quoted text).toList.take shownLength)
  | .tooLong e => e.message

/-! ## Characters -/

/-- The ASCII character that stands for `c` in a number: `c` itself, a space for any blank, the
ASCII digit for a digit of another script, and for the rest a question mark, which no number has. -/
def asciiForm (c : Char) : Char :=
  if c.toNat < 0x80 then c
  else if Unicode.isWideBlank c then ' '
  else
    match Unicode.decimalDigit? c with
    | some d => Char.ofNat (0x30 + d)
    | none => '?'

/-- The value of an ASCII digit or letter, the letters counting on from ten. -/
def alphanumericValue? (c : Char) : Option Nat :=
  if '0' ≤ c ∧ c ≤ '9' then some (c.toNat - 0x30)
  else if 'a' ≤ c ∧ c ≤ 'z' then some (c.toNat - 0x61 + 10)
  else if 'A' ≤ c ∧ c ≤ 'Z' then some (c.toNat - 0x41 + 10)
  else none

/-- The value of an ASCII character as a digit of the base. -/
def digitValue? (base : Nat) (c : Char) : Option Nat :=
  (alphanumericValue? c).filter (· < base)

/-- A digit of a base is below the base. -/
theorem digitValue?_lt {base : Nat} {c : Char} {d : Nat} (h : digitValue? base c = some d) :
    d < base := by
  simpa using (Option.filter_eq_some_iff.1 h).2

/-- The value of one character as a hexadecimal digit. -/
def nibble? (c : Char) : Option Nat := digitValue? 16 (asciiForm c)

/-- A hexadecimal digit is below sixteen. -/
theorem nibble?_lt {c : Char} {d : Nat} (h : nibble? c = some d) : d < 16 := digitValue?_lt h

/-! ## Digits -/

/-- The number that a run of digits continues from `value`; an underscore may stand between
two digits. -/
def digits? (base value : Nat) : List Char → Option Nat
  | [] => none
  | c :: rest =>
    match digitValue? base c with
    | none => none
    | some d =>
      match rest with
      | [] => some (value * base + d)
      | '_' :: more => digits? base (value * base + d) more
      | more => digits? base (value * base + d) more

/-- A single digit is worth its value. -/
theorem digits?_singleton (base : Nat) (c : Char) :
    digits? base 0 [c] = digitValue? base c := by
  cases h : digitValue? base c <;> simp [digits?, h]

/-- The decimal digits and underscores at the start of a text. -/
def decimalRun (text : List Char) : List Char :=
  text.takeWhile fun c => c = '_' || (digitValue? 10 c).isSome

/-! ## Literals -/

/-- A literal, taken apart. -/
structure Literal where
  negative : Bool
  base : Nat
  /-- What stands where the digits should be. -/
  digits : List Char
  deriving DecidableEq, Repr

/-- The base that the letter after a leading `0` marks. -/
def markedBase? : Radix → Char → Option Nat
  | _, 'x' | _, 'X' => some 16
  | .marked, 'o' | .marked, 'O' => some 8
  | .marked, 'b' | .marked, 'B' => some 2
  | _, _ => none

/-- Takes a literal without sign apart; one underscore may follow the marker. -/
def Literal.unsigned (radix : Radix) (negative : Bool) : List Char → Literal
  | '0' :: letter :: rest =>
    match markedBase? radix letter with
    | some base => ⟨negative, base, if rest.head? = some '_' then rest.tail else rest⟩
    | none => ⟨negative, radix.plainBase, '0' :: letter :: rest⟩
  | body => ⟨negative, radix.plainBase, body⟩

/-- Takes a literal with an optional sign apart. -/
def Literal.signed (radix : Radix) : List Char → Literal
  | '-' :: body => .unsigned radix true body
  | '+' :: body => .unsigned radix false body
  | body => .unsigned radix false body

/-- The text without the blanks at both ends. -/
def trimBlanks (text : List Char) : List Char :=
  ((text.dropWhile Unicode.isAsciiBlank).reverse.dropWhile Unicode.isAsciiBlank).reverse

/-- Takes a text apart as a literal. -/
def Literal.ofText (radix : Radix) (text : List Char) : Literal :=
  .signed radix (trimBlanks (text.map asciiForm))

namespace Literal

/-- The value without sign. A decimal literal with a leading zero stands for zero only. -/
def magnitude? (l : Literal) : Option Nat :=
  (digits? l.base 0 l.digits).filter fun n =>
    l.base ≠ 10 || l.digits.head? ≠ some '0' || n = 0

/-- The value of a literal; nothing if there is no well-formed run of digits. -/
def value? (l : Literal) : Option Int :=
  l.magnitude?.map fun n => if l.negative then -(n : Int) else n

/-- The number of digits, where a decimal literal starts with a well-formed run of too many. What
follows the run does not matter. -/
def excess? (l : Literal) : Option Nat :=
  let run := decimalRun l.digits
  let count := run.countP (· ≠ '_')
  if l.base = 10 ∧ digitLimit < count ∧ (digits? 10 0 run).isSome then some count else none

/-- Only a decimal literal can be too long. -/
theorem excess?_of_base_ne {l : Literal} (h : l.base ≠ 10) : l.excess? = none := by
  simp [excess?, h]

end Literal

/-- Reads an integer literal. -/
def readInteger (radix : Radix) (text : String) : Except IntegerError Int :=
  let l := Literal.ofText radix text.toList
  match l.excess? with
  | some count => .error (.tooLong ⟨some count⟩)
  | none =>
    match l.value? with
    | some n => .ok n
    | none => .error (.noLiteral radix text)

end SigScan.Text
