/-
# UTF-8 names with damaged bytes

Names in an image are UTF-8, but nobody has checked them. The decoder reads one byte at a time.
Bytes that can start a character open one, each following byte must lie in the range that the
first ones leave, and the first byte that does not ends the attempt: the bytes read so far are
one damaged place, and the byte itself is read afresh. A damaged place is left out or shown as
U+FFFD, as the caller asks.

`Decoder.foldl_feed_after` says that what was decoded stays decoded.
-/
namespace SigScan.Text.Utf8

/-- A character of which some bytes are still to come. -/
structure Pending where
  /-- The number of bytes to come. -/
  owed : Nat
  /-- The least value of the next byte. -/
  low : Nat
  /-- The greatest value of the next byte. -/
  high : Nat
  /-- The bits read so far. -/
  bits : Nat
  deriving DecidableEq, Repr

/-- What a byte does. -/
inductive Step where
  /-- It completes a character. -/
  | done (c : Char)
  /-- It leaves a character open. -/
  | more (p : Pending)
  /-- It cannot stand here. -/
  | refused
  deriving DecidableEq, Repr

/-- What a byte does between two characters. -/
def first (b : Nat) : Step :=
  if b < 0x80 then .done (Char.ofNat b)
  else if b < 0xC2 then .refused
  else if b < 0xE0 then .more ⟨1, 0x80, 0xBF, b - 0xC0⟩
  else if b < 0xF0 then
    .more ⟨2, if b = 0xE0 then 0xA0 else 0x80, if b = 0xED then 0x9F else 0xBF, b - 0xE0⟩
  else if b < 0xF5 then
    .more ⟨3, if b = 0xF0 then 0x90 else 0x80, if b = 0xF4 then 0x8F else 0xBF, b - 0xF0⟩
  else .refused

/-- What a byte does inside a character. -/
def Pending.next (p : Pending) (b : Nat) : Step :=
  if p.low ≤ b ∧ b ≤ p.high then
    if p.owed ≤ 1 then .done (Char.ofNat (p.bits * 64 + (b - 0x80)))
    else .more ⟨p.owed - 1, 0x80, 0xBF, p.bits * 64 + (b - 0x80)⟩
  else .refused

/-- The decoder between two bytes. -/
structure Decoder where
  /-- The open character, if any. -/
  pending : Option Pending
  /-- The characters decoded so far, the last one first. -/
  decoded : List Char
  deriving DecidableEq, Repr

/-- The decoder before the first byte. -/
def Decoder.start : Decoder := ⟨none, []⟩

/-- The decoder after a byte that follows a whole character or a damaged place. -/
def Decoder.open (damage : Option Char) (decoded : List Char) (b : Nat) : Decoder :=
  match first b with
  | .done c => ⟨none, c :: decoded⟩
  | .more p => ⟨some p, decoded⟩
  | .refused => ⟨none, damage.toList ++ decoded⟩

/-- The decoder after one more byte; `damage` is what a damaged place is shown as. -/
def Decoder.feed (damage : Option Char) (d : Decoder) (b : UInt8) : Decoder :=
  match d.pending with
  | none => .open damage d.decoded b.toNat
  | some p =>
    match p.next b.toNat with
    | .done c => ⟨none, c :: d.decoded⟩
    | .more q => ⟨some q, d.decoded⟩
    | .refused => .open damage (damage.toList ++ d.decoded) b.toNat

/-- The decoded text once the bytes have ended; an open character is a damaged place. -/
def Decoder.finish (damage : Option Char) (d : Decoder) : List Char :=
  match d.pending with
  | none => d.decoded.reverse
  | some _ => (damage.toList ++ d.decoded).reverse

/-- The text of the bytes, with `damage` in each damaged place. -/
def decode (damage : Option Char) (bytes : List UInt8) : List Char :=
  (bytes.foldl (Decoder.feed damage) .start).finish damage

/-- The text of the bytes with U+FFFD in each damaged place. -/
def decodeReplacing (bytes : List UInt8) : String := String.ofList (decode (some '\uFFFD') bytes)

/-! ## What was decoded stays decoded -/

/-- A decoder that has already decoded some text. -/
def Decoder.after (d : Decoder) (earlier : List Char) : Decoder :=
  ⟨d.pending, d.decoded ++ earlier⟩

/-- Opening a character leaves the text decoded before as it is. -/
theorem Decoder.open_append (damage : Option Char) (decoded earlier : List Char) (b : Nat) :
    Decoder.open damage (decoded ++ earlier) b = (Decoder.open damage decoded b).after earlier := by
  unfold Decoder.open Decoder.after
  cases first b <;> simp

/-- A byte never touches the text decoded before. -/
theorem Decoder.feed_after (damage : Option Char) (earlier : List Char) (d : Decoder) (b : UInt8) :
    (d.after earlier).feed damage b = (d.feed damage b).after earlier := by
  obtain ⟨pending, decoded⟩ := d
  cases pending with
  | none => exact open_append damage decoded earlier b.toNat
  | some p =>
    simp only [Decoder.feed, Decoder.after]
    cases p.next b.toNat with
    | done c => rfl
    | more q => rfl
    | refused =>
      rw [← List.append_assoc]
      exact open_append damage (damage.toList ++ decoded) earlier b.toNat

/-- No run of bytes touches the text decoded before. -/
theorem Decoder.foldl_feed_after (damage : Option Char) (earlier : List Char)
    (bytes : List UInt8) (d : Decoder) :
    bytes.foldl (Decoder.feed damage) (d.after earlier) =
      (bytes.foldl (Decoder.feed damage) d).after earlier := by
  induction bytes generalizing d with
  | nil => rfl
  | cons b rest ih => rw [List.foldl_cons, List.foldl_cons, feed_after, ih]

end SigScan.Text.Utf8
