/-
# Blanks

The blanks of ASCII that may surround a number, and the white space of the other scripts that
counts as a space there (Unicode 14.0).
-/
namespace SigScan.Unicode

/-- The ASCII blanks: space, tab, line feed, vertical tab, form feed and carriage return. -/
def isAsciiBlank (c : Char) : Bool :=
  c.toNat = 0x20 || (0x09 ≤ c.toNat && c.toNat ≤ 0x0D)

/-- The white space outside ASCII. -/
def isWideBlank (c : Char) : Bool :=
  [0x85, 0xA0, 0x1680, 0x2028, 0x2029, 0x202F, 0x205F, 0x3000].contains c.toNat ||
    (0x2000 ≤ c.toNat && c.toNat ≤ 0x200A)

/-- The white space of the core library is blank. -/
theorem isAsciiBlank_of_isWhitespace {c : Char} (h : c.isWhitespace) : isAsciiBlank c := by
  simp only [Char.isWhitespace, Bool.or_eq_true, decide_eq_true_eq] at h
  rcases h with ((rfl | rfl) | rfl) | rfl <;> rfl

end SigScan.Unicode
