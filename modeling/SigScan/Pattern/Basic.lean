/-
# Byte patterns

A pattern is written byte by byte, two hexadecimal digits for each and one character between
two bytes, such as `48 8D 0? ??`. A question mark stands for any half of a byte. What a pattern
asks of a byte is a `ByteMask`: the bits that count, and their value.

Reading the masks needs no well-formed text: the characters between the bytes are not looked
at, and a last digit without its partner counts for nothing.

* `length_of_byteMasks`: a pattern has as many masks as its size says;
* `exists_byteMask_of_mem`: where a mask of a pattern comes from;
* `ByteMask.admits_iff`: what a mask asks of a byte.
-/
import SigScan.Text.IntegerLiteral

namespace SigScan

/-- What a pattern asks of one byte: the bits that count, and the value they have. -/
structure ByteMask where
  value : UInt8
  mask : UInt8
  deriving DecidableEq, Repr

/-- Does the byte have the asked value in the bits that count? -/
def ByteMask.admits (m : ByteMask) (b : UInt8) : Bool := b &&& m.mask == m.value

/-- A mask admits the bytes that agree with its value where it counts. -/
theorem ByteMask.admits_iff (m : ByteMask) (b : UInt8) :
    m.admits b = true ↔ b &&& m.mask = m.value := by
  simp [ByteMask.admits]

namespace Pattern

/-- The character that stands for any half of a byte. -/
def wildcard : Char := '?'

/-- The character between two bytes. -/
def separator : Char := ' '

/-- The number of bytes a text of this many characters describes. -/
def sizeOfLength (length : Nat) : Nat := (length + 1) / 3

/-- The number of bytes a pattern describes. -/
def size (text : String) : Nat := sizeOfLength text.length

/-- Half of a byte: its value and the bits of it that count. -/
structure Nibble where
  value : Nat
  mask : Nat
  deriving DecidableEq, Repr

/-- What a pattern character asks of half a byte. -/
def nibble (c : Char) : Except Text.IntegerError Nibble :=
  if c = wildcard then .ok ⟨0, 0⟩
  else
    match Text.nibble? c with
    | some d => .ok ⟨d, 15⟩
    | none => .error (.noLiteral .sixteen (String.singleton c))

/-- The mask of the byte that two characters describe. -/
def byteMask (high low : Char) : Except Text.IntegerError ByteMask := do
  let h ← nibble high
  let l ← nibble low
  return ⟨UInt8.ofNat (16 * h.value + l.value), UInt8.ofNat (16 * h.mask + l.mask)⟩

/-- The masks of the bytes that the characters describe. -/
def byteMasksOf : List Char → Except Text.IntegerError (List ByteMask)
  | high :: low :: _ :: rest => do
    let m ← byteMask high low
    let masks ← byteMasksOf rest
    return m :: masks
  | [high, low] => do
    let m ← byteMask high low
    return [m]
  | _ => .ok []

/-- The masks of the bytes that a pattern describes. -/
def byteMasks (text : String) : Except Text.IntegerError (List ByteMask) :=
  byteMasksOf text.toList

/-- The characters describe as many bytes as their number says. -/
theorem length_of_byteMasksOf {chars : List Char} {masks : List ByteMask}
    (h : byteMasksOf chars = .ok masks) : masks.length = sizeOfLength chars.length := by
  fun_induction byteMasksOf chars generalizing masks with
  | case1 high low c rest ih =>
    cases hm : byteMask high low with
    | error e => simp [hm, bind, Except.bind] at h
    | ok m =>
      cases hr : byteMasksOf rest with
      | error e => simp [hm, hr, bind, Except.bind] at h
      | ok more =>
        simp only [hm, hr, bind, Except.bind, pure, Except.pure, Except.ok.injEq] at h
        subst h
        simp only [List.length_cons, ih hr, sizeOfLength]
        omega
  | case2 high low =>
    cases hm : byteMask high low with
    | error e => simp [hm, bind, Except.bind] at h
    | ok m =>
      simp only [hm, bind, Except.bind, pure, Except.pure, Except.ok.injEq] at h
      subst h
      simp [sizeOfLength]
  | case3 chars hlong hshort =>
    cases h
    match chars with
    | [] => simp [sizeOfLength]
    | [_] => simp [sizeOfLength]
    | [a, b] => exact absurd rfl (hshort a b)
    | a :: b :: c :: rest => exact absurd rfl (hlong a b c rest)

/-- A pattern has as many masks as its size says. -/
theorem length_of_byteMasks {text : String} {masks : List ByteMask}
    (h : byteMasks text = .ok masks) : masks.length = size text :=
  length_of_byteMasksOf h

/-- Each mask is that of the two characters of a byte. -/
theorem exists_byteMask_of_mem {chars : List Char} {masks : List ByteMask}
    (h : byteMasksOf chars = .ok masks) {m : ByteMask} (hm : m ∈ masks) :
    ∃ high low, byteMask high low = .ok m := by
  fun_induction byteMasksOf chars generalizing masks with
  | case1 high low c rest ih =>
    cases hfirst : byteMask high low with
    | error e => simp [hfirst, bind, Except.bind] at h
    | ok first =>
      cases hrest : byteMasksOf rest with
      | error e => simp [hfirst, hrest, bind, Except.bind] at h
      | ok more =>
        rw [hfirst, hrest] at h
        cases h
        rcases List.mem_cons.1 hm with rfl | hmore
        · exact ⟨high, low, hfirst⟩
        · exact ih hrest hmore
  | case2 high low =>
    cases hfirst : byteMask high low with
    | error e => simp [hfirst, bind, Except.bind] at h
    | ok first =>
      rw [hfirst] at h
      cases h
      rw [List.mem_singleton] at hm
      subst hm
      exact ⟨high, low, hfirst⟩
  | case3 =>
    cases h
    cases hm

end Pattern

end SigScan
