/-
# The matches of a signature, offset by offset

What a signature finds is told in closed form: `Signature.listing` goes through the offsets of the
code in ascending order, and lists at each one what starts there. Where the pattern does not occur,
nothing starts; where it does, the operands there tell the address. An x86 match is listed once for
each loop that starts close enough behind it.

The scan for those loops ends where the last one that is close enough would end, so whether a loop
is close enough need not be asked again: `Signature.X86.filter_loops`.

* `Signature.eq_listing_of_resolve`: what is found is the listing;
* `Signature.mem_listing`, `Signature.mem_resolve`: what a match tells;
* `Signature.onePerOccurrence_listing`: one match for each occurrence, where it tells one address;
* `Signature.exists_holds_operand`: the bytes of an operand.
-/
import SigScan.Proofs.Pattern.Occurs
import SigScan.Signature.Match

namespace SigScan.Signature

/-! ## What starts at an offset -/

/-- The pattern that a match starts with. -/
def pattern : Signature → String
  | .x64 s => s.pattern
  | .x86 s => s.pattern
  | .ppcBE s => s.pattern

/-- The number that the `width` bytes at `offset` hold. -/
def wordAt (code : Bytes) (order : ByteOrder) (offset : Int) (width : Nat) : Nat :=
  order.number (code.slice offset.toNat width).toList

/-- The number that bytes of the code hold. -/
theorem wordAt_of_holds {code : Bytes} {p : Nat} {bs : List UInt8} (h : code.Holds p bs)
    (order : ByteOrder) : wordAt code order p bs.length = order.number bs := by
  rw [wordAt, Int.toNat_natCast, h.toList_slice]

/-- The address that the instruction at an offset loads, in code at the address `base`. -/
def X64.address (s : X64) (code : Bytes) (base : Int) (offset : Nat) : Int :=
  (signed 4 (wordAt code .little (offset + s.displacementAt) 4) +
    (offset + s.nextInstructionAt) + base) % addressSpace

/-- The address that the instruction at an offset loads. -/
def X86.address (s : X86) (code : Bytes) (offset : Nat) : Int :=
  wordAt code .little (offset + s.addressAt) 4

/-- The loops that start close enough behind an offset, each counted from there. -/
def X86.loops (s : X86) (code : Bytes) (offset : Nat) : List Nat :=
  (List.range (code.size + 1)).filter fun k =>
    (k : Int) < s.loopDistance ∧ Pattern.OccursIn s.loopPattern code (offset + k)

/-- The address that the two instructions at an offset load. -/
def PpcBE.address (s : PpcBE) (code : Bytes) (offset : Nat) : Int :=
  (wordAt code .big (offset + s.highAt) 2 * 0x10000 +
    signed 2 (wordAt code .big (offset + s.lowAt) 2)) % addressSpace

/-- The addresses that an occurrence of the pattern tells. -/
def addresses (s : Signature) (code : Bytes) (base : Int) (offset : Nat) : List Int :=
  match s with
  | .x64 s => [s.address code base offset]
  | .x86 s => (s.loops code offset).map fun _ => s.address code offset
  | .ppcBE s => [s.address code offset]

/-- The matches that start at an offset. -/
def startingAt (s : Signature) (code : Bytes) (base : Int) (offset : Nat) : List Match :=
  if Pattern.OccursIn s.pattern code offset then
    (s.addresses code base offset).map fun address => ⟨s.arch, offset, address⟩
  else []

/-- The matches of a signature, offset by offset. -/
def listing (s : Signature) (code : Bytes) (base : Int) : List Match :=
  (List.range (code.size + 1)).flatMap (s.startingAt code base)

/-- What starts at an offset stands there. -/
theorem offset_of_mem_startingAt {s : Signature} {code : Bytes} {base : Int} {offset : Nat}
    {m : Match} (h : m ∈ s.startingAt code base offset) : m.offset = offset := by
  rw [startingAt] at h
  split at h
  · obtain ⟨address, -, rfl⟩ := List.mem_map.1 h
    rfl
  · cases h

/-- A match in the listing: where it stands and what it tells. -/
theorem mem_listing {s : Signature} {code : Bytes} {base : Int} {m : Match} :
    m ∈ s.listing code base ↔ ∃ offset : Nat, Pattern.OccursIn s.pattern code offset ∧
      ∃ address ∈ s.addresses code base offset, m = ⟨s.arch, offset, address⟩ := by
  rw [listing, List.mem_flatMap]
  constructor
  · rintro ⟨offset, -, hm⟩
    rw [startingAt] at hm
    split at hm
    · next hoccurs =>
      obtain ⟨address, haddress, rfl⟩ := List.mem_map.1 hm
      exact ⟨offset, hoccurs, address, haddress, rfl⟩
    · cases hm
  · rintro ⟨offset, hoccurs, address, haddress, rfl⟩
    have hle := hoccurs.1
    refine ⟨offset, List.mem_range.2 (by omega), ?_⟩
    rw [startingAt, if_pos hoccurs]
    exact List.mem_map.2 ⟨address, haddress, rfl⟩

/-! ## What is found -/

/-- An operand that is read is the number that its bytes hold. -/
theorem eq_wordAt_of_operand {code : Bytes} {order : ByteOrder} {offset : Int} {width n : Nat}
    (h : operand code order offset width = .ok n) : n = wordAt code order offset width := by
  unfold operand at h
  split at h
  · cases h
  · split at h
    · next m hread =>
      cases h
      simp only [Bytes.uint] at hread
      split at hread
      · cases hread
        rfl
      · cases hread
    · cases h

/-- The report of a scan up to the end of the code. -/
theorem eq_filter_of_offsetsIn {pattern : String} {code : Bytes} {start : Nat} {found : List Nat}
    (h : offsetsIn pattern code start none = .ok found) :
    found = (List.range (code.size + 1)).filter fun k =>
      Pattern.OccursIn pattern code (start + k) := by
  rw [Pattern.eq_filter_of_offsets (mapError_eq_ok_iff.1 h)]
  refine List.filter_congr fun k _ => decide_eq_decide.2 ?_
  rw [Int.toNat_natCast]
  refine and_iff_right_of_imp fun hoccurs => ?_
  have hle := hoccurs.1
  simp only [Pattern.windowEnd]
  omega

/-- **The window holds just the loops that are close enough**: to ask whether a loop that is found
in it is close enough leaves none out. -/
theorem X86.filter_loops {s : X86} {code : Bytes} {offset : Nat} {found : List Nat}
    (h : offsetsIn s.loopPattern code offset (some (offset + s.window)) = .ok found) :
    found = s.loops code offset ∧
      (found.filter fun (k : Nat) => (k : Int) < s.loopDistance) = s.loops code offset := by
  have hfound : found = s.loops code offset := by
    rw [Pattern.eq_filter_of_offsets (mapError_eq_ok_iff.1 h), X86.loops]
    refine List.filter_congr fun k _ => decide_eq_decide.2 ?_
    rw [Int.toNat_natCast]
    refine and_congr_left fun hoccurs => ?_
    have hle := hoccurs.1
    simp only [Pattern.windowEnd, X86.window]
    omega
  refine ⟨hfound, ?_⟩
  rw [hfound, List.filter_eq_self]
  intro k hk
  have hclose := (decide_eq_true_iff.1 (List.mem_filter.1 hk).2).1
  exact decide_eq_true hclose

/-- Steps at the places of a list that pass a test, listed place by place. -/
theorem flatMap_filter {α β : Type} (p : α → Prop) [DecidablePred p] (f : α → List β)
    (l : List α) : (l.filter (p ·)).flatMap f = l.flatMap fun a => if p a then f a else [] := by
  induction l with
  | nil => rfl
  | cons a rest ih =>
    rw [List.flatMap_cons, ← ih]
    by_cases ha : p a
    · simp [ha]
    · simp [ha]

/-- One match where the pattern occurs, as the step at each occurrence tells it. -/
theorem eq_flatMap_of_mapM {pattern : String} {code : Bytes} {offsets : List Nat}
    {step : Nat → Except ScanFault Match} {found : List Match} {told : Nat → Match}
    (hoffsets : offsetsIn pattern code 0 none = .ok offsets) (hfound : offsets.mapM step = .ok found)
    (hstep : ∀ offset m, step offset = .ok m → m = told offset) :
    found = (List.range (code.size + 1)).flatMap fun offset =>
      if Pattern.OccursIn pattern code offset then [told offset] else [] := by
  rw [eq_map_of_mapM hfound hstep, eq_filter_of_offsetsIn hoffsets, List.map_eq_flatMap,
    flatMap_filter]
  simp only [Nat.zero_add]

/-- **What is found is the listing.** -/
theorem eq_listing_of_resolve {s : Signature} {code : Bytes} {base : Int} {found : List Match}
    (h : s.resolve code base = .ok found) : found = s.listing code base := by
  cases s with
  | x64 s =>
    obtain ⟨offsets, hoffsets, hmatches⟩ := bind_eq_ok_iff.1 h
    have hmatch : ∀ offset m, s.matchAt code base offset = .ok m →
        m = ⟨.x64, offset, s.address code base offset⟩ := by
      intro offset m hm
      obtain ⟨n, hn, hpure⟩ := bind_eq_ok_iff.1 hm
      cases hpure
      rw [eq_wordAt_of_operand hn, X64.address]
    exact eq_flatMap_of_mapM hoffsets hmatches hmatch
  | x86 s =>
    obtain ⟨offsets, hoffsets, hrest⟩ := bind_eq_ok_iff.1 h
    obtain ⟨lists, hlists, hpure⟩ := bind_eq_ok_iff.1 hrest
    cases hpure
    have hmatches : ∀ offset ms, s.matchesAt code offset = .ok ms →
        ms = (s.loops code offset).map fun _ => ⟨.x86, offset, s.address code offset⟩ := by
      intro offset ms hms
      obtain ⟨loops, hloops, hread⟩ := bind_eq_ok_iff.1 hms
      rw [(X86.filter_loops hloops).2] at hread
      refine eq_map_of_mapM hread fun _ m hm => ?_
      obtain ⟨n, hn, hpure⟩ := bind_eq_ok_iff.1 hm
      cases hpure
      rw [eq_wordAt_of_operand hn, X86.address]
    rw [eq_map_of_mapM hlists hmatches, eq_filter_of_offsetsIn hoffsets, ← List.flatMap_def,
      flatMap_filter, listing]
    refine List.flatMap_congr fun offset _ => ?_
    rw [Nat.zero_add, startingAt, addresses, List.map_map]
    rfl
  | ppcBE s =>
    obtain ⟨offsets, hoffsets, hmatches⟩ := bind_eq_ok_iff.1 h
    have hmatch : ∀ offset m, s.matchAt code offset = .ok m →
        m = ⟨.ppcBE, offset, s.address code offset⟩ := by
      intro offset m hm
      obtain ⟨high, hhigh, hrest⟩ := bind_eq_ok_iff.1 hm
      obtain ⟨low, hlow, hpure⟩ := bind_eq_ok_iff.1 hrest
      cases hpure
      rw [eq_wordAt_of_operand hhigh, eq_wordAt_of_operand hlow, PpcBE.address]
    exact eq_flatMap_of_mapM hoffsets hmatches hmatch

/-- **A match is for the architecture of its signature**, and stands where the pattern occurs. -/
theorem mem_resolve {s : Signature} {code : Bytes} {base : Int} {found : List Match}
    (h : s.resolve code base = .ok found) {m : Match} (hm : m ∈ found) :
    m.arch = s.arch ∧ ∃ offset : Nat, m.offset = offset ∧ Pattern.OccursIn s.pattern code offset := by
  rw [eq_listing_of_resolve h] at hm
  obtain ⟨offset, hoccurs, address, -, rfl⟩ := mem_listing.1 hm
  exact ⟨rfl, offset, rfl, hoccurs⟩

/-! ## One match for each occurrence -/

/-- The matches stand where the pattern occurs, one at each place, in ascending order. -/
structure OnePerOccurrence (pattern : String) (code : Bytes) (found : List Match) : Prop where
  /-- There is a match where the pattern occurs, and nowhere else. -/
  place : ∀ z : Int, (∃ m ∈ found, m.offset = z) ↔
    ∃ offset : Nat, z = offset ∧ Pattern.OccursIn pattern code offset
  /-- Each match stands in front of those that follow. -/
  ascending : found.Pairwise (·.offset < ·.offset)

/-- Where an occurrence tells one address, the matches are those of the occurrences with it. -/
theorem mem_listing_of_single {s : Signature} {code : Bytes} {base : Int} {told : Nat → Int}
    (h : ∀ offset, s.addresses code base offset = [told offset]) {m : Match} :
    m ∈ s.listing code base ↔ ∃ offset : Nat, Pattern.OccursIn s.pattern code offset ∧
      m = ⟨s.arch, offset, told offset⟩ := by
  rw [mem_listing]
  apply exists_congr
  intro offset
  rw [h]
  simp

/-- **Where an occurrence tells one address**, there is one match for each occurrence. -/
theorem onePerOccurrence_listing {s : Signature} {code : Bytes} {base : Int} {told : Nat → Int}
    (h : ∀ offset, s.addresses code base offset = [told offset]) :
    OnePerOccurrence s.pattern code (s.listing code base) := by
  constructor
  · intro z
    constructor
    · rintro ⟨m, hm, rfl⟩
      obtain ⟨offset, hoccurs, rfl⟩ := (mem_listing_of_single h).1 hm
      exact ⟨offset, rfl, hoccurs⟩
    · rintro ⟨offset, rfl, hoccurs⟩
      exact ⟨_, (mem_listing_of_single h).2 ⟨offset, hoccurs, rfl⟩, rfl⟩
  · rw [listing, List.pairwise_flatMap]
    constructor
    · intro offset _
      rw [startingAt, h]
      split
      · exact List.pairwise_singleton _ _
      · exact List.Pairwise.nil
    · apply List.pairwise_lt_range.imp
      intro offset other hlt m hm n hn
      rw [offset_of_mem_startingAt hm, offset_of_mem_startingAt hn]
      omega

/-- An occurrence holds the bytes of each operand that lies inside the pattern. -/
theorem exists_holds_operand {pattern : String} {code : Bytes} {offset width : Nat} {place : Int}
    (hoccurs : Pattern.OccursIn pattern code offset) (hpos : 0 ≤ place)
    (hinside : place + width ≤ Pattern.size pattern) (order : ByteOrder) :
    ∃ bytes : List UInt8, bytes.length = width ∧ code.Holds (offset + place).toNat bytes ∧
      wordAt code order (offset + place) width = order.number bytes := by
  have hle := hoccurs.1
  refine ⟨(code.slice (offset + place).toNat width).toList, ?_, ?_, rfl⟩
  · rw [Array.length_toList, Bytes.size_slice]
    omega
  · rw [Bytes.Holds, Bytes.toList_slice]
    exact List.take_prefix _ _

end SigScan.Signature
