/-
# What is found does not depend on where the code is cut

An accepted signature finds the same in a stretch of code as in the code around it. Code in front
moves every match on by its length, and changes no address when the code in front starts as much
earlier. Code behind takes no match away, and adds none among those that had room: a match depends on
`Signature.reach` bytes from its offset on, which for x86 is as far as the last loop that is close
enough may go.

The listing of a signature goes offset by offset, so both laws are laws of what starts at one offset,
`startingAt_append_left` and `startingAt_append_right`.

* `listing_append_left`, `listing_sublist`, `listing_append_right`: the laws of the listing;
* `resolve_foundLocally`: the laws of what is found.
-/
import SigScan.Proofs.Signature.Safety

namespace SigScan

/-! ## Lists over a range -/

/-- Filters of two ranges that keep the same numbers. -/
theorem filter_range_eq {m n : Nat} {p q : Nat → Bool}
    (h : ∀ k, (k < m ∧ p k = true) ↔ (k < n ∧ q k = true)) :
    (List.range m).filter p = (List.range n).filter q := by
  refine (List.Pairwise.filter p List.pairwise_lt_range).eq_of_mem_iff
    (List.Pairwise.filter q List.pairwise_lt_range) fun k => ?_
  rw [List.mem_filter, List.mem_filter, List.mem_range, List.mem_range]
  exact h k

/-- A longer range makes no difference where nothing is listed for what it adds. -/
theorem flatMap_range_add {α : Type} {n more : Nat} {f : Nat → List α}
    (h : ∀ k, n ≤ k → f k = []) : (List.range (n + more)).flatMap f = (List.range n).flatMap f := by
  have hnil : ((List.range more).map (n + ·)).flatMap f = [] := by
    rw [List.flatMap_eq_nil_iff]
    intro k hk
    obtain ⟨j, -, rfl⟩ := List.mem_map.1 hk
    exact h (n + j) (Nat.le_add_right n j)
  rw [List.range_add, List.flatMap_append, hnil, List.append_nil]

/-! ## Numbers in joined code -/

/-- The same match in code that has so many bytes more in front. -/
def Match.movedBy (m : Match) (count : Nat) : Match := { m with offset := m.offset + count }

namespace Signature

/-- A number stands as far further on as there is code in front. -/
theorem wordAt_append_left (front code : Bytes) (order : ByteOrder) {offset : Int} (width : Nat)
    (h : 0 ≤ offset) :
    wordAt (front ++ code) order (front.size + offset) width = wordAt code order offset width := by
  have hplace : ((front.size : Int) + offset).toNat = front.toList.length + offset.toNat := by
    rw [Array.length_toList]
    omega
  unfold wordAt
  rw [Bytes.toList_slice, Bytes.toList_slice, hplace, Array.toList_append,
    List.drop_length_add_append]

/-- A number inside the code is left alone by code behind. -/
theorem wordAt_append_right {code : Bytes} (behind : Bytes) (order : ByteOrder) {offset : Int}
    {width : Nat} (hpos : 0 ≤ offset) (h : offset + width ≤ code.size) :
    wordAt (code ++ behind) order offset width = wordAt code order offset width := by
  have hdrop : offset.toNat ≤ code.toList.length := by
    rw [Array.length_toList]
    omega
  unfold wordAt
  rw [Bytes.toList_slice, Bytes.toList_slice, Array.toList_append,
    List.drop_append_of_le_length hdrop, List.take_append_of_le_length]
  rw [List.length_drop, Array.length_toList]
  omega

/-! ## Loops in joined code -/

/-- Code in front leaves the loops alone. -/
theorem X86.loops_append_left (s : X86) (front code : Bytes) (offset : Nat) :
    s.loops (front ++ code) (front.size + offset) = s.loops code offset := by
  refine filter_range_eq fun k => ?_
  rw [decide_eq_true_iff, decide_eq_true_iff, Nat.add_assoc, Pattern.occursIn_append_left,
    Array.size_append]
  constructor
  · rintro ⟨-, hclose, hoccurs⟩
    have hle := hoccurs.1
    exact ⟨by omega, hclose, hoccurs⟩
  · rintro ⟨hk, hkept⟩
    exact ⟨by omega, hkept⟩

/-- Code behind takes no loop away. -/
theorem X86.loops_sublist (s : X86) (code behind : Bytes) (offset : Nat) :
    (s.loops code offset).Sublist (s.loops (code ++ behind) offset) := by
  unfold X86.loops
  rw [Array.size_append, show code.size + behind.size + 1 = code.size + 1 + behind.size from by omega,
    @List.range_add (code.size + 1) behind.size, List.filter_append]
  refine List.Sublist.trans ?_ (List.sublist_append_left _ _)
  refine List.monotone_filter_right _ fun k hk => ?_
  rw [decide_eq_true_iff] at hk ⊢
  exact ⟨hk.1, hk.2.append behind⟩

/-- Code behind adds no loop where there is room for all that are close enough. -/
theorem X86.loops_append_right {s : X86} {code : Bytes} (behind : Bytes) {offset : Nat}
    (h : offset + s.window ≤ code.size) : s.loops (code ++ behind) offset = s.loops code offset := by
  unfold X86.window at h
  refine filter_range_eq fun k => ?_
  rw [decide_eq_true_iff, decide_eq_true_iff, Array.size_append]
  constructor
  · rintro ⟨hk, hclose, hoccurs⟩
    have hroom : offset + k + Pattern.size s.loopPattern ≤ code.size := by omega
    exact ⟨by omega, hclose, (Pattern.occursIn_append_right behind hroom).1 hoccurs⟩
  · rintro ⟨hk, hclose, hoccurs⟩
    exact ⟨by omega, hclose, hoccurs.append behind⟩

/-! ## Addresses in joined code -/

/-- How many bytes a match depends on, from its offset on. -/
def reach : Signature → Int
  | .x64 s => Pattern.size s.pattern
  | .x86 s => max (Pattern.size s.pattern) s.window
  | .ppcBE s => Pattern.size s.pattern

/-- A match reaches at least as far as its pattern. -/
theorem size_le_reach (s : Signature) : Pattern.size s.pattern ≤ s.reach := by
  cases s with
  | x64 s => exact Int.le_refl _
  | x86 s => exact Int.le_max_left _ _
  | ppcBE s => exact Int.le_refl _

/-- Code in front that starts as much earlier changes no address. -/
theorem addresses_append_left {s : Signature} (h : s.check = .ok ()) (front code : Bytes)
    (base : Int) (offset : Nat) :
    s.addresses (front ++ code) (base - front.size) (front.size + offset) =
      s.addresses code base offset := by
  have hword : ∀ o ∈ s.operands, ∀ order,
      wordAt (front ++ code) order ((front.size + offset : Nat) + o.1) o.2 =
        wordAt code order (offset + o.1) o.2 := by
    intro o ho order
    have hpos := (inside_of_mem_operands h ho).1
    rw [Nat.cast_add, Int.add_assoc]
    exact wordAt_append_left front code order o.2 (by omega)
  cases s with
  | x64 s =>
    have hdisplacement := hword _ (List.mem_singleton_self _) .little
    simp only [addresses, X64.address, hdisplacement]
    congr 2
    omega
  | x86 s =>
    have haddress := hword _ (List.mem_singleton_self _) .little
    simp only [addresses, X86.address, haddress, X86.loops_append_left]
  | ppcBE s =>
    have hhigh := hword _ List.mem_cons_self .big
    have hlow := hword _ (List.mem_cons_of_mem _ (List.mem_singleton_self _)) .big
    simp only [addresses, PpcBE.address, hhigh, hlow]

/-- The operands of an occurrence are left alone by code behind. -/
theorem wordAt_operand_append_right {s : Signature} (h : s.check = .ok ()) {code : Bytes}
    (behind : Bytes) {offset : Nat} (hoccurs : Pattern.OccursIn s.pattern code offset)
    {o : Int × Nat} (ho : o ∈ s.operands) (order : ByteOrder) :
    wordAt (code ++ behind) order (offset + o.1) o.2 = wordAt code order (offset + o.1) o.2 := by
  have hle := hoccurs.1
  obtain ⟨hpos, hinside⟩ := inside_of_mem_operands h ho
  exact wordAt_append_right behind order (by omega) (by omega)

/-- Code behind takes no address away, and adds none where the match has room. -/
theorem addresses_append_right {s : Signature} (h : s.check = .ok ()) {code : Bytes}
    (behind : Bytes) (base : Int) {offset : Nat}
    (hoccurs : Pattern.OccursIn s.pattern code offset) :
    (s.addresses code base offset).Sublist (s.addresses (code ++ behind) base offset) ∧
      (offset + s.reach ≤ code.size →
        s.addresses (code ++ behind) base offset = s.addresses code base offset) := by
  have hword := fun {o} => @wordAt_operand_append_right s h code behind offset hoccurs o
  cases s with
  | x64 s =>
    have hdisplacement := hword (List.mem_singleton_self _) .little
    have hsame : addresses (.x64 s) (code ++ behind) base offset =
        addresses (.x64 s) code base offset := by
      simp only [addresses, X64.address, hdisplacement]
    rw [hsame]
    exact ⟨List.Sublist.refl _, fun _ => rfl⟩
  | x86 s =>
    have haddress := hword (List.mem_singleton_self _) .little
    simp only [addresses, X86.address, haddress]
    constructor
    · exact (X86.loops_sublist s code behind offset).map _
    · intro hroom
      have hwindow : s.window ≤ (Signature.x86 s).reach := Int.le_max_right _ _
      rw [X86.loops_append_right behind (by omega)]
  | ppcBE s =>
    have hhigh := hword List.mem_cons_self .big
    have hlow := hword (List.mem_cons_of_mem _ (List.mem_singleton_self _)) .big
    have hsame : addresses (.ppcBE s) (code ++ behind) base offset =
        addresses (.ppcBE s) code base offset := by
      simp only [addresses, PpcBE.address, hhigh, hlow]
    rw [hsame]
    exact ⟨List.Sublist.refl _, fun _ => rfl⟩

/-! ## Listings of joined code -/

/-- **Code in front moves what starts at an offset.** -/
theorem startingAt_append_left {s : Signature} (h : s.check = .ok ()) (front code : Bytes)
    (base : Int) (offset : Nat) :
    s.startingAt (front ++ code) (base - front.size) (front.size + offset) =
      (s.startingAt code base offset).map (·.movedBy front.size) := by
  simp only [startingAt, Pattern.occursIn_append_left, addresses_append_left h]
  split
  · rw [List.map_map]
    refine List.map_congr_left fun address _ => ?_
    simp only [Function.comp, Match.movedBy, Nat.cast_add, Int.add_comm]
  · rfl

/-- **Code behind takes nothing away that starts at an offset**, and adds nothing where there is
room. -/
theorem startingAt_append_right {s : Signature} (h : s.check = .ok ()) (code behind : Bytes)
    (base : Int) (offset : Nat) :
    (s.startingAt code base offset).Sublist (s.startingAt (code ++ behind) base offset) ∧
      (offset + s.reach ≤ code.size →
        s.startingAt (code ++ behind) base offset = s.startingAt code base offset) := by
  have hsize := s.size_le_reach
  unfold startingAt
  by_cases hoccurs : Pattern.OccursIn s.pattern code offset
  · obtain ⟨hsublist, hsame⟩ := addresses_append_right h behind base hoccurs
    rw [if_pos hoccurs, if_pos (hoccurs.append behind)]
    exact ⟨hsublist.map _, fun hroom => by rw [hsame hroom]⟩
  · rw [if_neg hoccurs]
    refine ⟨List.nil_sublist _, fun hroom => if_neg ?_⟩
    rw [Pattern.occursIn_append_right behind (by omega)]
    exact hoccurs

/-- The listing of code with other code in front, from where the code begins. -/
theorem listing_append_left {s : Signature} (h : s.check = .ok ()) (front code : Bytes)
    (base : Int) :
    ((s.listing (front ++ code) (base - front.size)).filter fun m =>
      (front.size : Int) ≤ m.offset) = (s.listing code base).map (·.movedBy front.size) := by
  have hbefore : ((List.range front.size).flatMap
      (s.startingAt (front ++ code) (base - front.size))).filter
        (fun m => (front.size : Int) ≤ m.offset) = [] := by
    rw [List.filter_eq_nil_iff]
    intro m hm
    obtain ⟨offset, hoffset, hmatch⟩ := List.mem_flatMap.1 hm
    rw [List.mem_range] at hoffset
    rw [offset_of_mem_startingAt hmatch, decide_eq_true_iff]
    omega
  have hbehind : ((List.range (code.size + 1)).map (front.size + ·)).flatMap
      (s.startingAt (front ++ code) (base - front.size)) =
        (s.listing code base).map (·.movedBy front.size) := by
    rw [List.flatMap_map, listing, List.map_flatMap]
    exact List.flatMap_congr fun offset _ => startingAt_append_left h front code base offset
  have hkept : ∀ m ∈ (s.listing code base).map (·.movedBy front.size),
      (front.size : Int) ≤ m.offset := by
    intro m hm
    obtain ⟨m, halone, rfl⟩ := List.mem_map.1 hm
    obtain ⟨offset, -, address, -, rfl⟩ := mem_listing.1 halone
    simp only [Match.movedBy]
    omega
  rw [listing, Array.size_append, Nat.add_assoc, List.range_add, List.flatMap_append,
    List.filter_append, hbefore, hbehind, List.nil_append, List.filter_eq_self]
  intro m hm
  exact decide_eq_true (hkept m hm)

/-- The listing of code is in the listing of code that goes on. -/
theorem listing_sublist {s : Signature} (h : s.check = .ok ()) (code behind : Bytes)
    (base : Int) : (s.listing code base).Sublist (s.listing (code ++ behind) base) := by
  unfold listing
  rw [Array.size_append, show code.size + behind.size + 1 = code.size + 1 + behind.size from by omega,
    @List.range_add (code.size + 1) behind.size, List.flatMap_append]
  refine List.Sublist.trans ?_ (List.sublist_append_left _ _)
  exact List.Sublist.flatMap_right _ fun offset _ =>
    (startingAt_append_right h code behind base offset).1

/-- The two listings agree on the matches that have room in the code. -/
theorem listing_append_right {s : Signature} (h : s.check = .ok ()) (code behind : Bytes)
    (base : Int) :
    ((s.listing (code ++ behind) base).filter fun m => m.offset + s.reach ≤ code.size) =
      (s.listing code base).filter fun m => m.offset + s.reach ≤ code.size := by
  have hsize := s.size_le_reach
  -- what starts at an offset has room as a whole, or not at all
  have hnone : ∀ (data : Bytes) (offset : Nat), ¬offset + s.reach ≤ code.size →
      (s.startingAt data base offset).filter (fun m => m.offset + s.reach ≤ code.size) = [] := by
    intro data offset hroom
    rw [List.filter_eq_nil_iff]
    intro m hm
    rw [offset_of_mem_startingAt hm, decide_eq_true_iff]
    exact hroom
  unfold listing
  rw [List.filter_flatMap, List.filter_flatMap, Array.size_append,
    show code.size + behind.size + 1 = code.size + 1 + behind.size from by omega,
    flatMap_range_add fun offset hoffset => hnone _ offset (by omega)]
  refine List.flatMap_congr fun offset _ => ?_
  by_cases hroom : offset + s.reach ≤ code.size
  · rw [(startingAt_append_right h code behind base offset).2 hroom]
  · rw [hnone _ _ hroom, hnone _ _ hroom]

/-! ## Locality -/

/-- The laws that tie what is found in a stretch of code to what is found with code in front of it,
and with code behind. -/
def FoundLocally (s : Signature) (front code behind : Bytes) (base : Int) : Prop :=
  ∃ alone later longer,
    s.resolve code base = .ok alone ∧
    s.resolve (front ++ code) (base - front.size) = .ok later ∧
    s.resolve (code ++ behind) base = .ok longer ∧
    -- the matches from the start of the code on are those of the code, moved
    (later.filter fun m => (front.size : Int) ≤ m.offset) = alone.map (·.movedBy front.size) ∧
    -- no match of the code is lost, and the order stays
    alone.Sublist longer ∧
    -- there are no others among those that have room in the code
    (longer.filter fun m => m.offset + s.reach ≤ code.size) =
      alone.filter fun m => m.offset + s.reach ≤ code.size

/-- **What an accepted signature finds does not depend on where the code is cut.** -/
theorem resolve_foundLocally {s : Signature} (h : s.check = .ok ()) (front code behind : Bytes)
    (base : Int) : s.FoundLocally front code behind base := by
  refine ⟨s.listing code base, s.listing (front ++ code) (base - front.size),
    s.listing (code ++ behind) base, ?_, ?_, ?_, ?_, ?_, ?_⟩
  · exact resolve_eq_listing h code base
  · exact resolve_eq_listing h (front ++ code) (base - front.size)
  · exact resolve_eq_listing h (code ++ behind) base
  · exact listing_append_left h front code base
  · exact listing_sublist h code behind base
  · exact listing_append_right h code behind base

/-- A loop ends with the code, and another one that is close enough starts where the code ends. -/
theorem resolve_foundLocally_secondLoop :
    (Signature.x86 ⟨1, "8D ?? ?? ?? ??", 8, "E? FF"⟩).check = .ok () ∧
      (Signature.x86 ⟨1, "8D ?? ?? ?? ??", 8, "E? FF"⟩).resolve #[0x8D, 1, 2, 3, 4, 0xE0, 0xFF] 9 =
        .ok [⟨.x86, 0, 0x04030201⟩] ∧
      (Signature.x86 ⟨1, "8D ?? ?? ?? ??", 8, "E? FF"⟩).resolve
        (#[0x8D, 1, 2, 3, 4, 0xE0, 0xFF] ++ #[0xE1, 0xFF]) 9 =
        .ok [⟨.x86, 0, 0x04030201⟩, ⟨.x86, 0, 0x04030201⟩] ∧
      (Signature.x86 ⟨1, "8D ?? ?? ?? ??", 8, "E? FF"⟩).FoundLocally #[0x8D]
        #[0x8D, 1, 2, 3, 4, 0xE0, 0xFF] #[0xE1, 0xFF] 9 :=
  ⟨rfl, by decide +kernel, by decide +kernel, resolve_foundLocally rfl _ _ _ _⟩

end Signature

end SigScan
