/-
# Patterns by their expressions

The expression for a pattern matches where its masks occur: a mask that fixes the whole byte is the
byte itself, one that fixes nothing is any byte, and one that fixes half of it is one of sixteen bytes.

* `ByteClass.admits_ofMask`: a byte fits what a mask asks for if the mask admits it;
* `starts_ofMasks`: the expression for masks matches where they occur;
* `offsets_eq`, `allOffsets_eq`: scans by the masks.
-/
import SigScan.Pattern.Occurrence
import SigScan.Proofs.Fallible

namespace SigScan

/-! ## Bytes -/

/-- **A byte fits what a mask asks for if the mask admits it.** -/
theorem ByteClass.admits_ofMask {m : ByteMask} (h : m.IsProper) (b : UInt8) :
    (ofMask m).admits b = m.admits b := by
  rw [Bool.eq_iff_iff, ByteMask.admits_iff]
  have hvalue := (ByteMask.admits_iff m m.value).1 h
  unfold ofMask
  split
  · next hfull =>
    rw [hfull, show b &&& 0xFF = b from UInt8.and_neg_one]
    exact beq_iff_eq
  · split
    · next hfree =>
      -- nothing counts, so the value is zero
      rw [hfree, UInt8.and_zero] at hvalue ⊢
      exact iff_of_true rfl hvalue
    · show (allBytes.filter m.admits).contains b = true ↔ _
      rw [List.contains_iff_mem, List.mem_filter, and_iff_right (mem_allBytes b),
        ByteMask.admits_iff]

/-! ## Places -/

namespace Expression

/-- An expression matches where each byte fits and lies in front of the end. -/
theorem matchesAt_iff {e : Expression} {data : Bytes} {stop offset : Nat} :
    matchesAt data stop e offset = true ↔ ∀ k (h : k < e.length), offset + k < stop ∧
      ∃ b, data[offset + k]? = some b ∧ e[k].admits b = true := by
  induction e generalizing offset with
  | nil => simp [matchesAt]
  | cons c rest ih =>
    have hstep : matchesAt data stop (c :: rest) offset = true ↔
        (offset < stop ∧ ∃ b, data[offset]? = some b ∧ c.admits b = true) ∧
          matchesAt data stop rest (offset + 1) = true := by
      rw [matchesAt]
      cases data[offset]? <;> simp [and_assoc]
    rw [hstep, ih]
    constructor
    · rintro ⟨hfirst, hrest⟩ k hk
      cases k with
      | zero => exact hfirst
      | succ k =>
        have hnext := hrest k (Nat.lt_of_succ_lt_succ hk)
        rwa [Nat.add_right_comm, Nat.add_assoc] at hnext
    · intro hall
      refine ⟨hall 0 (Nat.zero_lt_succ _), fun k hk => ?_⟩
      have hnext := hall (k + 1) (Nat.succ_lt_succ hk)
      rwa [Nat.add_right_comm, Nat.add_assoc]

/-- The places at which an expression matches. -/
theorem mem_starts {e : Expression} {data : Bytes} {start stop i : Nat} :
    i ∈ e.starts data start stop ↔
      start ≤ i ∧ i ≤ stop ∧ matchesAt data stop e i = true := by
  rw [starts, List.mem_filter, List.mem_range'_1, and_assoc]
  refine and_congr_right fun hle => and_congr_left fun _ => ?_
  omega

end Expression

namespace Pattern

/-- Masks occur at ascending places. -/
theorem pairwise_occurrences (masks : List ByteMask) (data : Bytes) (start stop : Nat) :
    (occurrences masks data start stop).Pairwise (· < ·) := by
  unfold occurrences
  split
  · exact List.Pairwise.filter _ (List.pairwise_lt_range' 1)
  · exact List.Pairwise.nil

/-- The expression for masks matches where the masks occur in front of the end. -/
theorem matchesAt_ofMasks {masks : List ByteMask} (h : ∀ m ∈ masks, m.IsProper) {data : Bytes}
    {stop i : Nat} (hi : i ≤ stop) :
    Expression.matchesAt data stop (.ofMasks masks) i = true ↔
      i + masks.length ≤ stop ∧ occursAt masks data i = true := by
  rw [Expression.matchesAt_iff, occursAt_iff]
  simp only [Expression.ofMasks, List.length_map, List.getElem_map]
  constructor
  · intro hall
    constructor
    · -- the last byte lies in front of the end
      cases hlength : masks.length with
      | zero => exact hi
      | succ n => exact (hall n (by omega)).1
    · intro k hk
      obtain ⟨-, b, hb, hadmits⟩ := hall k hk
      rw [ByteClass.admits_ofMask (h _ (List.getElem_mem hk))] at hadmits
      exact ⟨b, hb, hadmits⟩
  · rintro ⟨hle, hall⟩ k hk
    obtain ⟨b, hb, hadmits⟩ := hall k hk
    rw [← ByteClass.admits_ofMask (h _ (List.getElem_mem hk))] at hadmits
    exact ⟨by omega, b, hb, hadmits⟩

/-- **The expression for masks matches where they occur.** -/
theorem starts_ofMasks {masks : List ByteMask} (h : ∀ m ∈ masks, m.IsProper) (data : Bytes)
    (start stop : Nat) :
    (Expression.ofMasks masks).starts data start stop = occurrences masks data start stop := by
  have hstarts : ((Expression.ofMasks masks).starts data start stop).Pairwise (· < ·) :=
    List.Pairwise.filter _ (List.pairwise_lt_range' 1)
  refine hstarts.eq_of_mem_iff (pairwise_occurrences masks data start stop) fun i => ?_
  rw [Expression.mem_starts, mem_occurrences]
  refine and_congr_right fun _ => ?_
  constructor
  · rintro ⟨hi, hmatches⟩
    exact (matchesAt_ofMasks h hi).1 hmatches
  · intro hoccurs
    have hi : i ≤ stop := by omega
    exact ⟨hi, (matchesAt_ofMasks h hi).2 hoccurs⟩

/-- What the expression for a pattern finds, by the masks. -/
theorem compile_map_starts (text : String) (data : Bytes) (start stop : Nat) :
    (compile text).map (·.starts data start stop) =
      (byteMasks text).map (occurrences · data start stop) := by
  rw [compile_eq]
  cases h : byteMasks text with
  | error e => rfl
  | ok masks => exact congrArg Except.ok (starts_ofMasks (proper_of_mem_byteMasks h) data start stop)

/-- A scan of a window, by the masks. -/
theorem offsets_eq (text : String) (data : Bytes) (start : Int) (stop : Option Int) :
    offsets text data start stop =
      if windowEnd data stop - start.toNat < size text then .ok []
      else do
        let masks ← byteMasks text
        return (occurrences masks data start.toNat (windowEnd data stop).toNat).map
          (· - start.toNat) := by
  unfold offsets
  rw [compile_eq]
  congr 1
  cases h : byteMasks text with
  | error e => rfl
  | ok masks =>
    have hstarts := starts_ofMasks (proper_of_mem_byteMasks h) data start.toNat
      (windowEnd data stop).toNat
    show Except.ok (((Expression.ofMasks masks).starts _ _ _).map _) = _
    rw [hstarts]
    rfl

/-- A scan of the whole data, by the masks. -/
theorem allOffsets_eq (text : String) (data : Bytes) :
    allOffsets text data = (byteMasks text).map (occurrences · data 0 data.size) :=
  compile_map_starts text data 0 data.size

end Pattern

end SigScan
