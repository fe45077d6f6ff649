/-
# Well-formed patterns

A well-formed pattern is one byte or more, each of two hexadecimal digits or wildcards, with one
space between two bytes. `check` tells the first place that is not so.

`check_eq_ok_iff` gives the three conditions of an accepted text.
-/
import SigScan.Pattern.Basic

namespace SigScan

/-- Why a pattern, or an operand in it, is refused. -/
inductive PatternError where
  /-- There is no byte. -/
  | empty
  /-- The number of characters does not fit whole bytes. -/
  | badLength (text : String)
  /-- There is no space where two bytes meet. -/
  | noSeparator (index : Nat) (text : String)
  /-- A character is neither a hexadecimal digit nor the wildcard. -/
  | badNibble (c : Char) (index : Nat) (text : String)
  /-- An operand does not lie inside the pattern. -/
  | operandOutside (offset width : Int) (text : String)
  deriving DecidableEq, Repr

/-- The message for a refused pattern. -/
def PatternError.message : PatternError → String
  | .empty => "empty pattern"
  | .badLength text => s!"bad pattern length {text.length}: {Text.quoted text}"
  | .noSeparator index text => s!"expected separator at {index}: {Text.quoted text}"
  | .badNibble c index text =>
    s!"bad nibble {Text.quoted (String.singleton c)} at {index}: {Text.quoted text}"
  | .operandOutside offset width text =>
    s!"operand at {offset}+{width} outside pattern {Text.quoted text}"

namespace Pattern

/-- Is the character an ASCII hexadecimal digit? -/
def isHexDigit (c : Char) : Bool :=
  ('0' ≤ c && c ≤ '9') || ('A' ≤ c && c ≤ 'F') || ('a' ≤ c && c ≤ 'f')

/-- May the character stand for half a byte? -/
def isNibble (c : Char) : Bool := c == wildcard || isHexDigit c

/-- May the character stand at this position? -/
def fits (index : Nat) (c : Char) : Bool :=
  if index % 3 = 2 then c == separator else isNibble c

/-- What is wrong with a character that may not stand at its position. -/
def misfit (text : String) (index : Nat) (c : Char) : PatternError :=
  if index % 3 = 2 then .noSeparator index text else .badNibble c index text

/-- The first character that may not stand where it does, with its position. -/
def firstMisfit? : Nat → List Char → Option (Nat × Char)
  | _, [] => none
  | index, c :: rest => if fits index c then firstMisfit? (index + 1) rest else some (index, c)

/-- Accepts the well-formed patterns. -/
def check (text : String) : Except PatternError Unit :=
  if text.length = 0 then .error .empty
  else if (text.length + 1) % 3 ≠ 0 then .error (.badLength text)
  else
    match firstMisfit? 0 text.toList with
    | some (index, c) => .error (misfit text index c)
    | none => .ok ()

/-- Is the text a well-formed pattern? -/
def WellFormed (text : String) : Prop := check text = .ok ()

instance (text : String) : Decidable (WellFormed text) :=
  match h : check text with
  | .ok () => .isTrue h
  | .error _ => .isFalse fun h' => by simp [WellFormed, h] at h'

/-- A text is accepted when it is not empty, is of a fitting length and has no misfit. -/
theorem check_eq_ok_iff {text : String} :
    check text = .ok () ↔
      text.length ≠ 0 ∧ (text.length + 1) % 3 = 0 ∧ firstMisfit? 0 text.toList = none := by
  unfold check
  split
  · simp_all
  · split
    · simp_all
    · cases firstMisfit? 0 text.toList <;> simp_all

end Pattern

end SigScan
