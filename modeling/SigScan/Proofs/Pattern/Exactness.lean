/-
# Scans are exact

Whatever the bytes of a pattern and of the data, a scan of a window tells the places at which each
byte agrees with the pattern in the bits that count and which lie wholly inside the window: all of
them, each once and in ascending order, overlapping ones too. A window is scanned like the stretch
of the data that it holds. The window may start in front of the data, end behind them, or end in
front of its start, and the pattern need not be well-formed, as long as it can be read.

* `occurrences_eq_places`: the places in a window;
* `places_extract`: the places in a stretch of the data;
* `find_exact`: what a scan makes of them.
-/
import SigScan.Proofs.Pattern.Occurs

namespace SigScan.Pattern

/-! ## Places -/

/-- Each byte from a place on has the value that is asked for, in the bits that count. -/
def Agrees (masks : List ByteMask) (data : Bytes) (i : Nat) : Prop :=
  ∀ k (h : k < masks.length), ∃ b, data[i + k]? = some b ∧ b &&& masks[k].mask = masks[k].value

/-- Bytes agree where the masks occur. -/
theorem agrees_iff_occursAt {masks : List ByteMask} {data : Bytes} {i : Nat} :
    Agrees masks data i ↔ occursAt masks data i = true := by
  rw [occursAt_iff]
  simp only [ByteMask.admits_iff]
  rfl

instance (masks : List ByteMask) (data : Bytes) (i : Nat) : Decidable (Agrees masks data i) :=
  decidable_of_iff _ agrees_iff_occursAt.symm

/-- The places from `start` on at which the bytes agree and end no later than `stop`. -/
def places (masks : List ByteMask) (data : Bytes) (start : Nat) (stop : Int) : List Nat :=
  (List.range (data.size + 1)).filter fun i =>
    start ≤ i ∧ (i : Int) + masks.length ≤ stop ∧ Agrees masks data i

variable {masks : List ByteMask} {data : Bytes} {start i : Nat} {stop : Int}

/-- A place in a window that does not end behind the data. -/
theorem mem_places (hstop : stop ≤ data.size) :
    i ∈ places masks data start stop ↔
      start ≤ i ∧ (i : Int) + masks.length ≤ stop ∧ Agrees masks data i := by
  rw [places, List.mem_filter, List.mem_range, decide_eq_true_iff]
  refine and_iff_right_of_imp ?_
  rintro ⟨-, hle, -⟩
  omega

/-- Places ascend. -/
theorem pairwise_places : (places masks data start stop).Pairwise (· < ·) :=
  List.Pairwise.filter _ List.pairwise_lt_range

/-- There is no place in a window that has no room for the pattern. -/
theorem places_eq_nil (hstop : stop ≤ data.size) (h : stop - start < masks.length) :
    places masks data start stop = [] := by
  rw [List.eq_nil_iff_forall_not_mem]
  intro i hi
  obtain ⟨hstart, hle, -⟩ := (mem_places hstop).1 hi
  omega

/-- The masks occur in a window at its places. -/
theorem occurrences_eq_places (hstop : stop ≤ data.size) (hpos : 0 ≤ stop) :
    occurrences masks data start stop.toNat = places masks data start stop := by
  refine (pairwise_occurrences masks data start _).eq_of_mem_iff pairwise_places fun i => ?_
  rw [mem_occurrences, mem_places hstop, agrees_iff_occursAt]
  refine and_congr_right fun _ => and_congr_left fun _ => ?_
  omega

/-- **The places in a stretch of the data** are those in the window that it fills, counted from
there. -/
theorem places_extract (hstop : stop ≤ data.size) (hstart : start ≤ stop) :
    places masks data start stop =
      (places masks (data.extract start stop.toNat) 0
        (data.extract start stop.toNat).size).map (start + ·) := by
  have hsize : (data.extract start stop.toNat).size = stop.toNat - start := by
    rw [Array.size_extract]
    omega
  have hagrees : ∀ k : Nat, start + k + masks.length ≤ stop.toNat →
      (Agrees masks (data.extract start stop.toNat) k ↔ Agrees masks data (start + k)) := by
    intro k hk
    refine forall_congr' fun j => forall_congr' fun hj => ?_
    rw [Array.getElem?_extract_of_lt (by omega), Nat.add_assoc, ← Array.getElem?_eq_getElem]
  refine pairwise_places.eq_of_mem_iff ?_ fun i => ?_
  · rw [List.pairwise_map]
    exact pairwise_places.imp fun hlt => Nat.add_lt_add_left hlt start
  · rw [mem_places hstop, List.mem_map]
    constructor
    · rintro ⟨hle, hend, hi⟩
      refine ⟨i - start, (mem_places (Int.le_refl _)).2 ⟨Nat.zero_le _, by omega, ?_⟩, by omega⟩
      rw [hagrees _ (by omega)]
      rwa [Nat.add_sub_cancel' hle]
    · rintro ⟨k, hk, rfl⟩
      obtain ⟨-, hend, hi⟩ := (mem_places (Int.le_refl _)).1 hk
      exact ⟨Nat.le_add_right _ _, by omega, (hagrees k (by omega)).1 hi⟩

/-- A window that ends in front of its start holds no place, and neither does an empty stretch, unless
the pattern has no bytes. -/
theorem places_window {start : Int} {stop : Option Int}
    (h : start.toNat ≤ windowEnd data stop ∨ masks ≠ []) :
    places masks data start.toNat (windowEnd data stop) =
      (places masks (data.extract start.toNat (windowEnd data stop).toNat) 0
        (data.extract start.toNat (windowEnd data stop).toNat).size).map (start.toNat + ·) := by
  have hstop := windowEnd_le data stop
  by_cases hstart : start.toNat ≤ windowEnd data stop
  · exact places_extract hstop hstart
  · have hsome : 0 < masks.length := List.length_pos_iff.2 (h.resolve_left hstart)
    have hsize : (data.extract start.toNat (windowEnd data stop).toNat).size = 0 := by
      rw [Array.size_extract]
      omega
    rw [places_eq_nil hstop (by omega), places_eq_nil (Int.le_refl _) (by omega)]
    rfl

/-! ## Scans -/

/-- **A scan of a window finds its places**, counted from its start. -/
theorem offsets_of_byteMasks {text : String} (h : byteMasks text = .ok masks) (data : Bytes)
    (start : Int) (stop : Option Int) :
    offsets text data start stop =
      .ok ((places masks data start.toNat (windowEnd data stop)).map (· - start.toNat)) := by
  have hstop := windowEnd_le data stop
  have hlength := length_of_byteMasks h
  rw [offsets_eq, h]
  split
  · next hroom =>
    rw [places_eq_nil hstop (by omega)]
    rfl
  · next hroom =>
    show Except.ok ((occurrences masks data start.toNat (windowEnd data stop).toNat).map _) = _
    rw [occurrences_eq_places hstop (by omega)]

/-- So what is made of the places is found. -/
theorem find_of_byteMasks {α : Type} {text : String} (h : byteMasks text = .ok masks) (data : Bytes)
    (onMatch : Nat → List α) (start : Int) (stop : Option Int) :
    find text data onMatch start stop =
      .ok ((places masks data start.toNat (windowEnd data stop)).flatMap fun i =>
        onMatch (i - start.toNat)) := by
  rw [find, offsets_of_byteMasks h]
  exact congrArg Except.ok (List.flatMap_map ..)

/-- What is found in a window of the data, and in the whole of them. -/
structure Exact (masks : List ByteMask) (text : String) (data : Bytes) (start : Int)
    (stop : Option Int) : Prop where
  /-- What is made of the places in the window, one after the other. -/
  found : ∀ (α : Type) (onMatch : Nat → List α), find text data onMatch start stop =
    .ok ((places masks data start.toNat (windowEnd data stop)).flatMap fun i =>
      onMatch (i - start.toNat))
  /-- The same is found in the stretch that the window holds. A window that ends in front of its
  start holds nothing, and there only a pattern of no bytes would be found in the stretch. -/
  stretch : start.toNat ≤ windowEnd data stop ∨ masks ≠ [] → ∀ (α : Type) (onMatch : Nat → List α),
    find text data onMatch start stop =
      find text (data.extract start.toNat (windowEnd data stop).toNat) onMatch 0 none
  /-- Nothing is found in a window that ends in front of its start. -/
  inverted : windowEnd data stop < start.toNat → ∀ (α : Type) (onMatch : Nat → List α),
    find text data onMatch start stop = .ok []
  /-- The compiled pattern matches at the places in the whole data. -/
  whole : allOffsets text data = find text data (fun i => [i]) 0 none

/-- **Scans are exact**, for every pattern that can be read and every window. -/
theorem find_exact {text : String} (h : byteMasks text = .ok masks) (data : Bytes) (start : Int)
    (stop : Option Int) : Exact masks text data start stop where
  found := fun α onMatch => find_of_byteMasks h data onMatch start stop
  stretch := by
    intro hwindow α onMatch
    rw [find_of_byteMasks h, find_of_byteMasks h, places_window hwindow, List.flatMap_map]
    simp only [Nat.add_sub_cancel_left]
    rfl
  inverted := by
    intro hstart α onMatch
    have hstop := windowEnd_le data stop
    rw [find_of_byteMasks h, places_eq_nil hstop (by omega)]
    rfl
  whole := by
    have hplaces : occurrences masks data 0 data.size = places masks data 0 data.size :=
      occurrences_eq_places (Int.le_refl _) (Int.natCast_nonneg _)
    rw [find_of_byteMasks h, allOffsets_eq, h]
    show Except.ok (occurrences masks data 0 data.size) = _
    rw [hplaces]
    exact congrArg Except.ok (List.flatMap_singleton' _).symm

/-- Bytes that mean something in an expression, a line feed, and half of a byte. The places overlap,
and the window starts in front of the data and ends behind them. The character between the two bytes
of the pattern is not looked at. -/
theorem find_exact_dots :
    byteMasks "2E-?A" = .ok [⟨0x2E, 0xFF⟩, ⟨0x0A, 0x0F⟩] ∧
      find "2E-?A" #[0x2E, 0x2A, 0x2E, 0x0A, 0x2E] (fun i => [i, 10 * i]) (-3) (some 9) =
        .ok [0, 0, 2, 20] ∧
      Exact [⟨0x2E, 0xFF⟩, ⟨0x0A, 0x0F⟩] "2E-?A" #[0x2E, 0x2A, 0x2E, 0x0A, 0x2E] (-3) (some 9) := by
  have hmasks : byteMasks "2E-?A" = .ok [⟨0x2E, 0xFF⟩, ⟨0x0A, 0x0F⟩] := by decide +kernel
  exact ⟨hmasks, by decide +kernel, find_exact hmasks _ _ _⟩

/-- A pattern of no bytes is at every place of a window, its end too. -/
example : find "" #[0x2E, 0x2A, 0x2E] (fun i => [i]) 1 none = .ok [0, 1, 2] := by decide +kernel

end SigScan.Pattern
