/-
# Occurrences of a pattern

A pattern occurs at an offset when each of its masks admits the byte there. A scan looks at a
window of the data with the expression for the pattern, and reports the occurrences that lie wholly
inside, overlapping ones too, in ascending order and counted from the start of the window. A window
that has no room for the pattern is not scanned at all, so the pattern is not even read.

* `mem_occurrences`: the offsets of the occurrences;
* `occursAt_iff`: an occurrence, mask by mask.
-/
import SigScan.Pattern.Expression

namespace SigScan.Pattern

/-- Do the masks admit the bytes from `offset` on? -/
def occursAt : List ByteMask → Bytes → Nat → Bool
  | [], _, _ => true
  | m :: rest, data, offset =>
    match data[offset]? with
    | some b => m.admits b && occursAt rest data (offset + 1)
    | none => false

/-- The offsets in the window from `start` to `stop` at which the masks occur. -/
def occurrences (masks : List ByteMask) (data : Bytes) (start stop : Nat) : List Nat :=
  if start + masks.length ≤ stop then
    (List.range' start (stop - start - masks.length + 1)).filter (occursAt masks data)
  else []

/-- Where a scan ends: at `stop`, but no later than the data. -/
def windowEnd (data : Bytes) (stop : Option Int) : Int :=
  match stop with
  | some e => min e data.size
  | none => data.size

/-- The offsets, counted from the start of the window, at which the pattern occurs. -/
def offsets (text : String) (data : Bytes) (start : Int) (stop : Option Int) :
    Except Text.IntegerError (List Nat) :=
  if windowEnd data stop - start.toNat < size text then .ok []
  else do
    let e ← compile text
    return (e.starts data start.toNat (windowEnd data stop).toNat).map (· - start.toNat)

/-- What `onMatch` makes of all occurrences, in their order. -/
def find {α : Type} (text : String) (data : Bytes) (onMatch : Nat → List α) (start : Int)
    (stop : Option Int) : Except Text.IntegerError (List α) :=
  (offsets text data start stop).map (·.flatMap onMatch)

/-- The offsets of the whole data at which the pattern occurs. -/
def allOffsets (text : String) (data : Bytes) : Except Text.IntegerError (List Nat) :=
  (compile text).map (·.starts data 0 data.size)

/-! ## What an occurrence is -/

/-- The masks occur where each admits its byte. -/
theorem occursAt_iff {masks : List ByteMask} {data : Bytes} {offset : Nat} :
    occursAt masks data offset = true ↔
      ∀ k (h : k < masks.length), ∃ b, data[offset + k]? = some b ∧ masks[k].admits b := by
  induction masks generalizing offset with
  | nil => simp [occursAt]
  | cons m rest ih =>
    constructor
    · intro h k hk
      simp only [occursAt] at h
      split at h
      · next b hb =>
        simp only [Bool.and_eq_true] at h
        match k with
        | 0 => exact ⟨b, hb, h.1⟩
        | k + 1 =>
          obtain ⟨c, hc, hm⟩ := ih.1 h.2 k (by simpa using hk)
          exact ⟨c, by rw [← hc]; congr 1; omega, hm⟩
      · simp at h
    · intro h
      obtain ⟨b, hb, hm⟩ := h 0 (by simp)
      simp only [Nat.add_zero] at hb
      simp only [occursAt, hb, Bool.and_eq_true]
      refine ⟨hm, ih.2 fun k hk => ?_⟩
      obtain ⟨c, hc, hm'⟩ := h (k + 1) (by simpa using hk)
      exact ⟨c, by rw [← hc]; congr 1; omega, hm'⟩

/-- The occurrences in a window lie wholly inside it. -/
theorem mem_occurrences {masks : List ByteMask} {data : Bytes} {start stop i : Nat} :
    i ∈ occurrences masks data start stop ↔
      start ≤ i ∧ i + masks.length ≤ stop ∧ occursAt masks data i = true := by
  unfold occurrences
  split
  · simp only [List.mem_filter, List.mem_range'_1]
    constructor
    · rintro ⟨⟨h₁, h₂⟩, h₃⟩
      exact ⟨h₁, by omega, h₃⟩
    · rintro ⟨h₁, h₂, h₃⟩
      exact ⟨⟨h₁, by omega⟩, h₃⟩
  · simp only [List.not_mem_nil, false_iff]
    rintro ⟨h₁, h₂, -⟩
    omega

end SigScan.Pattern
