/-
# Regular expressions for patterns

A pattern is looked for with a regular expression that asks for one byte after the other: a byte
itself, any byte, or one of several. The expression only looks ahead, so it takes up no bytes, and
places where it matches may overlap.

Each byte of the text of an expression is a character: in front of what means something by itself
stands a backslash, and the bytes to choose from are written in hexadecimal. What a text says is
told by `read?`.

* `proper_of_mem_byteMasks`: what is asked of a byte lies in the bits that count;
* `read?_source`: the text of an expression says what it was written for;
* `compile_eq`: the expression for a pattern.
-/
import SigScan.Pattern.Basic
import SigScan.Bytes

namespace SigScan

/-! ## Proper masks -/

/-- Is the value zero in the bits that do not count? -/
def ByteMask.IsProper (m : ByteMask) : Prop := m.admits m.value = true

instance (m : ByteMask) : Decidable m.IsProper := inferInstanceAs (Decidable (_ = true))

namespace Pattern

/-- A half of a byte counts as a whole or not at all, and then its value is zero. -/
theorem nibble_proper {c : Char} {n : Nibble} (h : nibble c = .ok n) :
    n.value < 16 ∧ n.mask ∈ [0, 15] ∧ (n.mask = 0 → n.value = 0) := by
  unfold nibble at h
  split at h
  · cases h
    exact ⟨by decide, by decide, fun _ => rfl⟩
  · split at h
    · next d hd =>
      cases h
      exact ⟨Text.nibble?_lt hd, List.mem_cons_of_mem 0 (List.mem_singleton_self 15), nofun⟩
    · cases h

/-- So the mask that two halves make is proper. -/
theorem proper_of_byteMask {high low : Char} {m : ByteMask} (h : byteMask high low = .ok m) :
    m.IsProper := by
  have hall : ∀ v < 16, ∀ w < 16, ∀ p ∈ [0, 15], ∀ q ∈ [0, 15], (p = 0 → v = 0) → (q = 0 → w = 0) →
      ByteMask.IsProper ⟨UInt8.ofNat (16 * v + w), UInt8.ofNat (16 * p + q)⟩ := by
    decide +kernel
  unfold byteMask at h
  cases hhigh : nibble high with
  | error e =>
    rw [hhigh] at h
    cases h
  | ok n =>
    cases hlow : nibble low with
    | error e =>
      rw [hhigh, hlow] at h
      cases h
    | ok k =>
      rw [hhigh, hlow] at h
      cases h
      obtain ⟨hv, hp, hvp⟩ := nibble_proper hhigh
      obtain ⟨hw, hq, hwq⟩ := nibble_proper hlow
      exact hall n.value hv k.value hw n.mask hp k.mask hq hvp hwq

/-- **What a pattern asks of a byte lies in the bits that count.** -/
theorem proper_of_mem_byteMasks {text : String} {masks : List ByteMask}
    (h : byteMasks text = .ok masks) : ∀ m ∈ masks, m.IsProper := by
  intro m hm
  obtain ⟨high, low, hmask⟩ := exists_byteMask_of_mem h hm
  exact proper_of_byteMask hmask

end Pattern

/-! ## Bytes in an expression -/

/-- What an expression asks of one byte. -/
inductive ByteClass where
  /-- The byte itself. -/
  | only (b : UInt8)
  /-- Any byte, line feeds too. -/
  | any
  /-- One of the bytes. -/
  | among (bs : List UInt8)
  deriving DecidableEq, Repr

namespace ByteClass

/-- Does the byte fit? -/
def admits : ByteClass → UInt8 → Bool
  | .only a, b => b == a
  | .any, _ => true
  | .among bs, b => bs.contains b

/-- All bytes, in ascending order. -/
def allBytes : List UInt8 := (List.range 256).map UInt8.ofNat

/-- No byte is missing. -/
theorem mem_allBytes (b : UInt8) : b ∈ allBytes :=
  List.mem_map.2 ⟨b.toNat, List.mem_range.2 b.toNat_lt, UInt8.ofNat_toNat⟩

/-- What a mask asks of a byte. -/
def ofMask (m : ByteMask) : ByteClass :=
  if m.mask = 0xFF then .only m.value
  else if m.mask = 0 then .any
  else .among (allBytes.filter m.admits)

/-- The character for a byte. -/
def charOf (b : UInt8) : Char := Char.ofNat b.toNat

/-- The characters that are written with a backslash in front. -/
def escapedChars : List Char :=
  ['(', ')', '[', ']', '\x7b', '\x7d', '?', '*', '+', '-', '|', '^', '$', '\x5c', '.', '&', '~', '#',
    ' ', '\t', '\n', '\r', '\x0b', '\x0c']

/-- A byte by its character. -/
def literal (b : UInt8) : List Char :=
  if escapedChars.contains (charOf b) then [Text.backslash, charOf b] else [charOf b]

/-- A byte by its number. -/
def numbered (b : UInt8) : List Char :=
  Text.backslash :: 'x' :: Text.hexDigitsAtLeast 2 b.toNat

/-- What is asked of one byte, as it stands in the text of an expression. -/
def text : ByteClass → List Char
  | .only b => literal b
  | .any => ['.']
  | .among bs => '[' :: bs.flatMap numbered ++ [']']

end ByteClass

/-- What an expression asks of the bytes from a place on. -/
abbrev Expression := List ByteClass

namespace Expression

open ByteClass

/-- The text of an expression. -/
def source (e : Expression) : List Char := '(' :: '?' :: '=' :: e.flatMap ByteClass.text ++ [')']

/-! ## Reading -/

/-- The characters that mean something by themselves. -/
def specialChars : List Char :=
  ['.', '\x5c', '[', '\x7b', '(', ')', '*', '+', '?', '^', '$', '|']

/-- The byte with two hexadecimal digits. -/
def byte? (high low : Char) : Option UInt8 := do
  let h ← Text.digitValue? 16 high
  let l ← Text.digitValue? 16 low
  return UInt8.ofNat (16 * h + l)

/-- Reads what is asked of one byte after the other, up to the closing bracket. Inside a choice, the
bytes are collected that were read of it. -/
def readClasses : Option (List UInt8) → List Char → Option Expression
  | none, [')'] => some []
  | none, '.' :: rest => (readClasses none rest).map (.any :: ·)
  | none, '[' :: rest => readClasses (some []) rest
  | none, '\x5c' :: c :: rest =>
    if c.isAlphanum then none else (readClasses none rest).map (.only (UInt8.ofNat c.toNat) :: ·)
  | none, c :: rest =>
    if specialChars.contains c then none
    else (readClasses none rest).map (.only (UInt8.ofNat c.toNat) :: ·)
  | some bs, ']' :: rest =>
    if bs.isEmpty then none else (readClasses none rest).map (.among bs :: ·)
  | some bs, '\x5c' :: 'x' :: high :: low :: rest => do
    let b ← byte? high low
    readClasses (some (bs ++ [b])) rest
  | _, _ => none

/-- What the text of an expression that looks ahead asks for, if it can be read. -/
def read? : List Char → Option Expression
  | '(' :: '?' :: '=' :: rest => readClasses none rest
  | _ => none

/-! ## Texts that are read -/

/-- A choice needs something to choose from. -/
def IsTold (e : Expression) : Prop := .among [] ∉ e

/-- The character for a byte tells the byte. -/
theorem ofNat_charOf (b : UInt8) : UInt8.ofNat (charOf b).toNat = b := by
  have hall : ∀ n < 256, UInt8.ofNat (Char.ofNat n).toNat = UInt8.ofNat n := by decide +kernel
  rw [charOf, hall b.toNat b.toNat_lt, UInt8.ofNat_toNat]

/-- A character with a backslash in front is none that means something else with it. -/
theorem isAlphanum_of_escaped {c : Char} (h : c ∈ escapedChars) : c.isAlphanum = false := by
  have hall : escapedChars.all (!·.isAlphanum) = true := by decide
  simpa using List.all_eq_true.1 hall c h

/-- What means something by itself has a backslash in front. -/
theorem escaped_of_special {c : Char} (h : c ∈ specialChars) : c ∈ escapedChars := by
  have hall : specialChars.all (escapedChars.contains ·) = true := by decide
  exact List.contains_iff_mem.1 (List.all_eq_true.1 hall c h)

/-- A byte that is asked for itself is read. -/
theorem readClasses_literal (b : UInt8) (rest : List Char) :
    readClasses none (literal b ++ rest) = (readClasses none rest).map (.only b :: ·) := by
  unfold literal
  split
  · next hescaped =>
    have hletter := isAlphanum_of_escaped (List.contains_iff_mem.1 hescaped)
    show readClasses none ('\x5c' :: charOf b :: rest) = _
    rw [readClasses, hletter, ofNat_charOf]
    rfl
  · next hplain =>
    have hnot : ∀ c ∈ specialChars, charOf b ≠ c := by
      rintro c hc rfl
      exact hplain (List.contains_iff_mem.2 (escaped_of_special hc))
    have hspecial : specialChars.contains (charOf b) = false := by
      rw [← Bool.not_eq_true, List.contains_iff_mem]
      exact fun hmem => hnot _ hmem rfl
    show readClasses none (charOf b :: rest) = _
    rw [readClasses, hspecial, ofNat_charOf]
    · rfl
    · exact fun hc _ => hnot ')' (by decide) hc
    · exact hnot '.' (by decide)
    · exact hnot '[' (by decide)
    · exact fun _ _ hc _ => hnot '\x5c' (by decide) hc

/-- Do the characters tell the byte in two digits? -/
def tells (b : UInt8) : List Char → Bool
  | [high, low] => byte? high low == some b
  | _ => false

/-- A numbered byte is written in two digits. -/
theorem exists_numbered (b : UInt8) : ∃ high low, numbered b = ['\x5c', 'x', high, low] ∧
    byte? high low = some b := by
  have hall : ∀ n < 256, tells (UInt8.ofNat n) (Text.hexDigitsAtLeast 2 n) = true := by
    decide +kernel
  have htells := hall b.toNat b.toNat_lt
  rw [UInt8.ofNat_toNat] at htells
  unfold tells at htells
  split at htells
  · next high low hdigits =>
    exact ⟨high, low, by rw [numbered, hdigits]; rfl, beq_iff_eq.1 htells⟩
  · cases htells

/-- A choice is read. -/
theorem readClasses_among (bs collected : List UInt8) (h : collected ++ bs ≠ []) (rest : List Char) :
    readClasses (some collected) (bs.flatMap numbered ++ ']' :: rest) =
      (readClasses none rest).map (.among (collected ++ bs) :: ·) := by
  induction bs generalizing collected with
  | nil =>
    have hne : collected.isEmpty = false := by
      simpa using h
    show readClasses (some collected) (']' :: rest) = _
    rw [readClasses, hne, List.append_nil]
    rfl
  | cons b bs ih =>
    obtain ⟨high, low, hnumbered, hbyte⟩ := exists_numbered b
    rw [List.flatMap_cons, hnumbered]
    show readClasses (some collected)
      ('\x5c' :: 'x' :: high :: low :: (bs.flatMap numbered ++ ']' :: rest)) = _
    rw [readClasses, hbyte]
    show readClasses (some (collected ++ [b])) (bs.flatMap numbered ++ ']' :: rest) = _
    rw [ih (collected ++ [b]) (by simp), List.append_assoc]
    rfl

/-- What is asked of one byte after the other is read. -/
theorem readClasses_texts {e : Expression} (h : e.IsTold) :
    readClasses none (e.flatMap ByteClass.text ++ [')']) = some e := by
  induction e with
  | nil => rfl
  | cons c e ih =>
    have hrest := ih fun hmem => h (List.mem_cons_of_mem c hmem)
    rw [List.flatMap_cons, List.append_assoc]
    cases c with
    | only b => rw [ByteClass.text, readClasses_literal, hrest, Option.map_some]
    | any =>
      show readClasses none ('.' :: (e.flatMap ByteClass.text ++ [')'])) = _
      rw [readClasses, hrest, Option.map_some]
    | among bs =>
      have hne : bs ≠ [] := fun hnil => h (hnil ▸ List.mem_cons_self)
      rw [ByteClass.text]
      show readClasses none ('[' :: (bs.flatMap numbered ++ [']'] ++ _)) = _
      rw [List.append_assoc]
      show readClasses (some []) (bs.flatMap numbered ++ ']' :: (e.flatMap ByteClass.text ++ [')'])) = _
      rw [readClasses_among bs [] hne, hrest]
      rfl

/-- **The text of an expression says what it was written for.** -/
theorem read?_source {e : Expression} (h : e.IsTold) : read? e.source = some e := readClasses_texts h

/-! ## Matching -/

/-- Are the bytes from `offset` on those that are asked for, none of them at `stop` or behind? -/
def matchesAt (data : Bytes) (stop : Nat) : Expression → Nat → Bool
  | [], _ => true
  | c :: rest, offset =>
    if offset < stop then
      match data[offset]? with
      | some b => c.admits b && matchesAt data stop rest (offset + 1)
      | none => false
    else false

/-- The places from `start` up to `stop` at which the expression matches, ahead of `stop`. -/
def starts (e : Expression) (data : Bytes) (start stop : Nat) : List Nat :=
  (List.range' start (stop + 1 - start)).filter (matchesAt data stop e)

/-- What masks ask for. -/
def ofMasks (masks : List ByteMask) : Expression := masks.map ByteClass.ofMask

/-- A proper mask leaves something to choose from. -/
theorem isTold_ofMasks {masks : List ByteMask} (h : ∀ m ∈ masks, m.IsProper) :
    (ofMasks masks).IsTold := by
  intro hmem
  obtain ⟨m, hm, heq⟩ := List.mem_map.1 hmem
  unfold ByteClass.ofMask at heq
  split at heq
  · cases heq
  · split at heq
    · cases heq
    · have hvalue : m.value ∈ allBytes.filter m.admits :=
        List.mem_filter.2 ⟨mem_allBytes m.value, h m hm⟩
      rw [ByteClass.among.inj heq] at hvalue
      cases hvalue

end Expression

/-! ## Patterns -/

namespace Pattern

/-- The text of the expression for masks is read. -/
theorem isSome_read? {text : String} {masks : List ByteMask} (h : byteMasks text = .ok masks) :
    (Expression.read? (Expression.ofMasks masks).source).isSome = true := by
  rw [Expression.read?_source (Expression.isTold_ofMasks (proper_of_mem_byteMasks h))]
  rfl

/-- The expression for a pattern: what the text that is written for the pattern asks for. -/
def compile (text : String) : Except Text.IntegerError Expression :=
  match h : byteMasks text with
  | .error e => .error e
  | .ok masks => .ok ((Expression.read? (Expression.ofMasks masks).source).get (isSome_read? h))

/-- **The expression for a pattern asks for what its masks ask for.** -/
theorem compile_eq (text : String) : compile text = (byteMasks text).map Expression.ofMasks := by
  unfold compile
  split
  · next e h => rw [h]; rfl
  · next masks h =>
    have hread := Expression.read?_source (Expression.isTold_ofMasks (proper_of_mem_byteMasks h))
    simp only [hread, Option.get_some, h]
    rfl

end Pattern

end SigScan
