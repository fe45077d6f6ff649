/-
# JSON documents

The values a report consists of, and their text: two spaces of indentation for each level,
one item or field a line, an empty list or record without a line of its own. The text is
printable ASCII: other characters are written as UTF-16 units in four hexadecimal digits. A
document with an integer of too many digits has a text, but is not to be written.

`unitEscapes_of_lt` is the case of a character that is one unit.
-/
import SigScan.Text.Decimal
import SigScan.Text.Quoted

namespace SigScan.Text

/-- A JSON value without fractions and truth values. -/
inductive Json where
  | null
  | integer (n : Int)
  | text (s : String)
  | list (items : List Json)
  | record (fields : List (String × Json))

namespace Json

/-- One UTF-16 unit in an escape. -/
def unitEscape (n : Nat) : List Char := backslash :: 'u' :: hexDigitsAtLeast 4 n

/-- A code point as one or two escaped UTF-16 units. -/
def unitEscapes (n : Nat) : List Char :=
  if n < 0x10000 then unitEscape n
  else unitEscape (0xD800 + (n - 0x10000) / 0x400) ++ unitEscape (0xDC00 + (n - 0x10000) % 0x400)

/-- A code point of the basic plane is one unit. -/
theorem unitEscapes_of_lt {n : Nat} (h : n < 0x10000) : unitEscapes n = unitEscape n := by
  simp [unitEscapes, h]

/-- A character as it is written inside a string. -/
def stringChar (c : Char) : List Char :=
  if c = doubleQuote || c = backslash then [backslash, c]
  else if c = '\n' then [backslash, 'n']
  else if c = '\r' then [backslash, 'r']
  else if c = '\t' then [backslash, 't']
  else if c.toNat = 0x08 then [backslash, 'b']
  else if c.toNat = 0x0C then [backslash, 'f']
  else if 0x20 ≤ c.toNat && c.toNat < 0x7F then [c]
  else unitEscapes c.toNat

/-- A string with its quotes. -/
def stringChars (s : String) : List Char :=
  doubleQuote :: s.toList.flatMap stringChar ++ [doubleQuote]

/-- A new line at a level of indentation. -/
def newLine (level : Nat) : List Char := '\n' :: List.replicate (2 * level) ' '

/-- An opening bracket, written lines with commas between them, and a closing bracket. -/
def block (opening closing : Char) (level : Nat) : List (List Char) → List Char
  | [] => [opening, closing]
  | line :: rest =>
    opening :: newLine (level + 1) ++ line ++
      rest.flatMap (fun l => ',' :: newLine (level + 1) ++ l) ++ newLine level ++ [closing]

mutual

/-- The text of a value whose first line stands at a level of indentation. -/
def chars (level : Nat) : Json → List Char
  | .null => "null".toList
  | .integer n => (toString n).toList
  | .text s => stringChars s
  | .list items => block '[' ']' level (itemLines (level + 1) items)
  | .record fields => block '\x7b' '\x7d' level (fieldLines (level + 1) fields)

/-- The lines of a list's items. -/
def itemLines (level : Nat) : List Json → List (List Char)
  | [] => []
  | item :: rest => chars level item :: itemLines level rest

/-- The lines of a record's fields. -/
def fieldLines (level : Nat) : List (String × Json) → List (List Char)
  | [] => []
  | (name, value) :: rest =>
    (stringChars name ++ ':' :: ' ' :: chars level value) :: fieldLines level rest

end

mutual

/-- Can all integers in the value be written? -/
def isWritable : Json → Bool
  | .null => true
  | .integer n => Text.isWritable n
  | .text _ => true
  | .list items => itemsWritable items
  | .record fields => fieldsWritable fields

/-- Can all integers in a list's items be written? -/
def itemsWritable : List Json → Bool
  | [] => true
  | item :: rest => isWritable item && itemsWritable rest

/-- Can all integers in a record's fields be written? -/
def fieldsWritable : List (String × Json) → Bool
  | [] => true
  | (_, value) :: rest => isWritable value && fieldsWritable rest

end

/-- The text of a document. -/
def render (value : Json) : String := String.ofList (chars 0 value)

end Json

end SigScan.Text
