/-
# Where a pattern occurs

`OccursIn text data offset` says, byte by byte, that the whole pattern fits at the offset. A scan of
a window reports just these offsets, each once and in ascending order.

An occurrence is a matter of its own bytes: `occursIn_congr` moves it to any data that have the same
bytes at another place, such as a file that the data are a stretch of, or data that go on.

* `mem_offsets_window`, `mem_offsets`: what a scan reports;
* `eq_filter_of_offsets`: the whole report, in order;
* `occursIn_append_left`, `occursIn_append_right`, `occursIn_between`: occurrences in joined data.
-/
import SigScan.Proofs.Layout
import SigScan.Proofs.Pattern.Expression

namespace SigScan.Pattern

/-! ## Occurrences -/

/-- The data have room for the whole pattern at the offset, and each byte there is admitted. -/
def OccursIn (text : String) (data : Bytes) (offset : Nat) : Prop :=
  offset + size text ≤ data.size ∧ ∃ masks, byteMasks text = .ok masks ∧
    ∀ k (h : k < masks.length), ∃ b, data[offset + k]? = some b ∧ masks[k].admits b = true

/-- A pattern occurs where its masks do. -/
theorem occursIn_iff_of_masks {text : String} {masks : List ByteMask}
    (h : byteMasks text = .ok masks) (data : Bytes) (offset : Nat) :
    OccursIn text data offset ↔
      offset + size text ≤ data.size ∧ occursAt masks data offset = true := by
  rw [occursAt_iff]
  constructor
  · rintro ⟨hle, others, hothers, hbytes⟩
    have hsame := h.symm.trans hothers
    cases hsame
    exact ⟨hle, hbytes⟩
  · rintro ⟨hle, hbytes⟩
    exact ⟨hle, masks, h, hbytes⟩

instance (text : String) (data : Bytes) (offset : Nat) : Decidable (OccursIn text data offset) :=
  match h : byteMasks text with
  | .ok masks => decidable_of_iff _ (occursIn_iff_of_masks h data offset).symm
  | .error _ => .isFalse fun ⟨_, _, hmasks, _⟩ => by simp [h] at hmasks

/-! ## Scans -/

/-- A scan ends no later than the data. -/
theorem windowEnd_le (data : Bytes) (stop : Option Int) : windowEnd data stop ≤ data.size := by
  cases stop with
  | none => exact Int.le_refl _
  | some e => exact Int.min_le_right e data.size

/-- **A scan of a window reports the occurrences inside**, counted from its start. -/
theorem mem_offsets_window {text : String} {data : Bytes} {start : Int} {stop : Option Int}
    {found : List Nat} (h : offsets text data start stop = .ok found) (k : Nat) :
    k ∈ found ↔ ((start.toNat + k + size text : Nat) : Int) ≤ windowEnd data stop ∧
      OccursIn text data (start.toNat + k) := by
  have hend := windowEnd_le data stop
  rw [offsets_eq] at h
  split at h
  · next hroom =>
    -- the window has no room for the pattern anywhere
    cases h
    constructor
    · intro hmem
      cases hmem
    · rintro ⟨hle, -⟩
      omega
  · next hroom =>
    obtain ⟨masks, hmasks, hpure⟩ := bind_eq_ok_iff.1 h
    cases hpure
    have hlength := length_of_byteMasks hmasks
    rw [occursIn_iff_of_masks hmasks, List.mem_map]
    constructor
    · rintro ⟨i, hi, rfl⟩
      obtain ⟨hstart, hle, hoccurs⟩ := mem_occurrences.1 hi
      rw [show start.toNat + (i - start.toNat) = i from by omega]
      exact ⟨by omega, by omega, hoccurs⟩
    · rintro ⟨hle, -, hoccurs⟩
      exact ⟨start.toNat + k, mem_occurrences.2 ⟨by omega, by omega, hoccurs⟩, by omega⟩

/-- **A scan of the whole data reports the occurrences**, and nothing else. -/
theorem mem_offsets {text : String} {data : Bytes} {found : List Nat}
    (h : offsets text data 0 none = .ok found) (offset : Nat) :
    offset ∈ found ↔ OccursIn text data offset := by
  rw [mem_offsets_window h, Int.toNat_zero, Nat.zero_add]
  constructor
  · rintro ⟨-, hoccurs⟩
    exact hoccurs
  · intro hoccurs
    have hle := hoccurs.1
    exact ⟨by simp only [windowEnd]; omega, hoccurs⟩

/-- A scan reports in ascending order, and nothing twice. -/
theorem pairwise_offsets {text : String} {data : Bytes} {start : Int} {stop : Option Int}
    {found : List Nat} (h : offsets text data start stop = .ok found) :
    found.Pairwise (· < ·) := by
  rw [offsets_eq] at h
  split at h
  · cases h
    exact List.Pairwise.nil
  · obtain ⟨masks, -, hpure⟩ := bind_eq_ok_iff.1 h
    cases hpure
    rw [List.pairwise_map]
    refine (pairwise_occurrences masks data start.toNat _).imp_of_mem fun hi hj hlt => ?_
    have hstart := (mem_occurrences.1 hi).1
    omega

/-- **The report of a scan**: of all places that the data have, those where the pattern occurs and
ends inside the window. -/
theorem eq_filter_of_offsets {text : String} {data : Bytes} {start : Int} {stop : Option Int}
    {found : List Nat} (h : offsets text data start stop = .ok found) :
    found = (List.range (data.size + 1)).filter fun k =>
      ((start.toNat + k + size text : Nat) : Int) ≤ windowEnd data stop ∧
        OccursIn text data (start.toNat + k) := by
  refine (pairwise_offsets h).eq_of_mem_iff (List.Pairwise.filter _ List.pairwise_lt_range) ?_
  intro k
  rw [mem_offsets_window h, List.mem_filter, List.mem_range, decide_eq_true_iff]
  constructor
  · rintro ⟨hle, hoccurs⟩
    have hin := hoccurs.1
    exact ⟨by omega, hle, hoccurs⟩
  · rintro ⟨-, hk⟩
    exact hk

/-! ## Moving an occurrence -/

/-- **An occurrence is a matter of its own bytes.** -/
theorem occursIn_congr {text : String} {data other : Bytes} {i j : Nat}
    (hroom : i + size text ≤ data.size ↔ j + size text ≤ other.size)
    (hbytes : ∀ k < size text, data[i + k]? = other[j + k]?) :
    OccursIn text data i ↔ OccursIn text other j := by
  unfold OccursIn
  rw [hroom]
  refine and_congr_right fun _ => exists_congr fun masks => and_congr_right fun hmasks => ?_
  refine forall_congr' fun k => forall_congr' fun hk => ?_
  rw [length_of_byteMasks hmasks] at hk
  rw [hbytes k hk]

/-- An occurrence in a stretch of a file is an occurrence in the file. -/
theorem OccursIn.of_holds {text : String} {file content : Bytes} {p offset : Nat}
    (h : OccursIn text content offset) (hp : p + content.size ≤ file.size)
    (hholds : file.Holds p content.toList) : OccursIn text file (p + offset) := by
  have hle := h.1
  refine (occursIn_congr ⟨fun _ => by omega, fun _ => by omega⟩ fun k hk => ?_).1 h
  rw [Nat.add_assoc, hholds.getElem? (by rw [Array.length_toList]; omega), Array.getElem?_toList]

/-- Behind other data a pattern occurs where it did, as far further on as those data are long. -/
theorem occursIn_append_left {text : String} (front : Bytes) {data : Bytes} {offset : Nat} :
    OccursIn text (front ++ data) (front.size + offset) ↔ OccursIn text data offset := by
  refine occursIn_congr ?_ fun k _ => ?_
  · rw [Array.size_append]
    omega
  · rw [Array.getElem?_append_right (by omega)]
    congr 1
    omega

/-- In data that go on, a pattern occurs where it did, and nowhere else that the data had room. -/
theorem occursIn_append_right {text : String} {data : Bytes} (behind : Bytes) {offset : Nat}
    (h : offset + size text ≤ data.size) :
    OccursIn text (data ++ behind) offset ↔ OccursIn text data offset := by
  refine occursIn_congr ?_ fun k hk => ?_
  · rw [Array.size_append]
    omega
  · exact Array.getElem?_append_left (by omega)

/-- An occurrence is left alone by what follows the data. -/
theorem OccursIn.append {text : String} {data : Bytes} {offset : Nat}
    (h : OccursIn text data offset) (behind : Bytes) : OccursIn text (data ++ behind) offset :=
  (occursIn_append_right behind h.1).2 h

/-- In data that stand between others, a pattern occurs where it did. -/
theorem occursIn_between {text : String} (front : Bytes) {data : Bytes} (behind : Bytes)
    {offset : Nat} (h : offset + size text ≤ data.size) :
    OccursIn text (front ++ data ++ behind) (front.size + offset) ↔ OccursIn text data offset := by
  have hroom : front.size + offset + size text ≤ (front ++ data).size := by
    rw [Array.size_append]
    omega
  rw [occursIn_append_right behind hroom, occursIn_append_left]

end SigScan.Pattern
