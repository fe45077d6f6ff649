/-
# Quoted text

Messages show names, patterns and paths in quotes. The quote mark is the apostrophe, unless the
text has an apostrophe and no double quote. Inside, the mark and the backslash get a backslash,
line feed, carriage return and tab have their letters, and any other character that is not shown
is written by its code point in two, four or eight hexadecimal digits.

`quotedChars_plain` says that text without special characters stands between apostrophes as it is.
-/
import SigScan.Text.Hexadecimal
import SigScan.Unicode.Printable

namespace SigScan.Text

/-- The apostrophe, the usual quote mark. -/
def apostrophe : Char := '\x27'

/-- The double quote. -/
def doubleQuote : Char := '\x22'

/-- The backslash, which starts every escape. -/
def backslash : Char := '\x5c'

/-- The mark that a text is quoted with. -/
def quoteMark (text : List Char) : Char :=
  if text.contains apostrophe && !text.contains doubleQuote then doubleQuote else apostrophe

/-- A code point in an escape of the least fitting width. -/
def codePointEscape (n : Nat) : List Char :=
  if n < 0x100 then backslash :: 'x' :: hexDigitsAtLeast 2 n
  else if n < 0x10000 then backslash :: 'u' :: hexDigitsAtLeast 4 n
  else backslash :: 'U' :: hexDigitsAtLeast 8 n

/-- A character as it is written between the marks; `shown` tells those that need no escape. -/
def quotedChar (shown : Char → Bool) (mark c : Char) : List Char :=
  if c = mark || c = backslash then [backslash, c]
  else if c = '\n' then [backslash, 'n']
  else if c = '\r' then [backslash, 'r']
  else if c = '\t' then [backslash, 't']
  else if shown c then [c]
  else codePointEscape c.toNat

/-- Text in quotes; `shown` tells the characters that need no escape. -/
def quotedChars (shown : Char → Bool) (text : List Char) : List Char :=
  quoteMark text :: text.flatMap (quotedChar shown (quoteMark text)) ++ [quoteMark text]

/-- Text in quotes, with every printable character as it is. -/
def quoted (text : String) : String :=
  String.ofList (quotedChars Unicode.isPrintable text.toList)

/-- Bytes in quotes after the letter `b`, with the printable ASCII characters as they are. -/
def quotedBytes (bytes : List UInt8) : String :=
  String.ofList ('b' :: quotedChars (fun c => 0x20 ≤ c.toNat && c.toNat < 0x7F)
    (bytes.map fun b => Char.ofNat b.toNat))

/-! ## Text without special characters -/

/-- A shown character that is no mark and no escape stands for itself. -/
theorem quotedChar_plain {shown : Char → Bool} {mark c : Char} (hs : shown c = true)
    (hm : c ≠ mark) (hb : c ≠ backslash) (hn : c ≠ '\n') (hr : c ≠ '\r') (ht : c ≠ '\t') :
    quotedChar shown mark c = [c] := by
  simp [quotedChar, hs, hm, hb, hn, hr, ht]

/-- Printable text without apostrophe and backslash is only put between apostrophes. -/
theorem quotedChars_plain {shown : Char → Bool} {text : List Char}
    (h : ∀ c ∈ text, shown c = true ∧ c ≠ apostrophe ∧ c ≠ backslash ∧ c ≠ '\n' ∧ c ≠ '\r' ∧
      c ≠ '\t') :
    quotedChars shown text = apostrophe :: text ++ [apostrophe] := by
  have hmark : quoteMark text = apostrophe := by
    have : apostrophe ∉ text := fun hmem => (h _ hmem).2.1 rfl
    simp [quoteMark, this]
  have hbody : text.flatMap (quotedChar shown apostrophe) = text := by
    induction text with
    | nil => rfl
    | cons c rest ih =>
      obtain ⟨hs, ha, hb, hn, hr, ht⟩ := h c (by simp)
      have hrest := ih (fun d hd => h d (by simp [hd]))
        (by
          have : apostrophe ∉ rest := fun hmem => (h _ (by simp [hmem])).2.1 rfl
          simp [quoteMark, this])
      simp [quotedChar_plain hs ha hb hn hr ht, hrest]
  rw [quotedChars, hmark, hbody]

end SigScan.Text
