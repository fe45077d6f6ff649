/-
# Code at another address

Where code is loaded shows in its x64 matches alone. An x64 instruction tells its address as a
displacement from its own place, so the address moves with the code, modulo 2^64. An address on x86
or PowerPC stands in the instructions themselves, and stays. What is found, and at which offsets, is
the same wherever the code is loaded.

* `X64.address_add`: one x64 address;
* `listing_add`: the matches of one signature;
* `find_add`: what a registry finds;
* `found_relocated`: what any changed registry finds.
-/
import SigScan.Proofs.Registry.History
import SigScan.Proofs.Signature.Safety

namespace SigScan

/-! ## Relocated matches -/

/-- The same match in code that is loaded `shift` further on. -/
def Match.relocated (m : Match) (shift : Int) : Match :=
  match m.arch with
  | .x64 => { m with address := (m.address + shift) % Signature.addressSpace }
  | .x86 | .ppcBE => m

/-- A match in code, and the match in the same code where it is loaded `shift` further on. -/
structure Match.IsRelocated (shift : Int) (m moved : Match) : Prop where
  arch_eq : moved.arch = m.arch
  offset_eq : moved.offset = m.offset
  /-- An x64 address moves with the code, modulo 2^64. -/
  address_of_x64 : m.arch = .x64 → moved.address = (m.address + shift) % 2 ^ 64
  /-- Any other address stays. -/
  address_of_ne_x64 : m.arch ≠ .x64 → moved.address = m.address

/-- The relocated match is what its name says. -/
theorem Match.isRelocated (m : Match) (shift : Int) : m.IsRelocated shift (m.relocated shift) := by
  obtain ⟨arch, offset, address⟩ := m
  cases arch with
  | x64 => exact ⟨rfl, rfl, fun _ => rfl, fun hne => absurd rfl hne⟩
  | x86 => exact ⟨rfl, rfl, nofun, fun _ => rfl⟩
  | ppcBE => exact ⟨rfl, rfl, nofun, fun _ => rfl⟩

namespace Signature

/-! ## The matches of a signature -/

/-- **An x64 address moves with the code**, modulo 2^64. -/
theorem X64.address_add (s : X64) (code : Bytes) (base shift : Int) (offset : Nat) :
    s.address code (base + shift) offset = (s.address code base offset + shift) % addressSpace := by
  unfold X64.address
  rw [Int.emod_add_emod, Int.add_assoc _ base shift]

/-- What starts at an offset of code that is loaded further on. -/
theorem startingAt_add (s : Signature) (code : Bytes) (base shift : Int) (offset : Nat) :
    s.startingAt code (base + shift) offset =
      (s.startingAt code base offset).map (·.relocated shift) := by
  unfold startingAt
  split
  · cases s with
    | x64 s =>
      simp only [addresses, X64.address_add]
      rfl
    | x86 s =>
      simp only [addresses, List.map_map]
      rfl
    | ppcBE s => rfl
  · rfl

/-- **The matches of code that is loaded further on** are those of the code, relocated one by
one. -/
theorem listing_add (s : Signature) (code : Bytes) (base shift : Int) :
    s.listing code (base + shift) = (s.listing code base).map (·.relocated shift) := by
  unfold listing
  rw [List.map_flatMap]
  exact List.flatMap_congr fun offset _ => startingAt_add s code base shift offset

/-- A shift by a multiple of 2^64 leaves every match as it is. -/
theorem relocated_of_dvd {s : Signature} {code : Bytes} {base shift : Int} {m : Match}
    (hm : m ∈ s.listing code base) (hshift : addressSpace ∣ shift) : m.relocated shift = m := by
  obtain ⟨offset, -, address, haddress, rfl⟩ := mem_listing.1 hm
  obtain ⟨hpos, hlt⟩ := address_range haddress
  cases s with
  | x64 s =>
    have hsame : (address + shift) % addressSpace = address := by
      obtain ⟨turns, rfl⟩ := hshift
      rw [Int.add_mul_emod_self_left]
      exact Int.emod_eq_of_lt hpos hlt
    simp only [Match.relocated, arch, hsame]
  | x86 s => rfl
  | ppcBE s => rfl

end Signature

namespace Registry

/-! ## What is found -/

/-- **What accepted signatures find** is one listing after the other. -/
theorem find_eq_listings {r : Registry} (h : r.Accepted) (code : Bytes) (base : Int)
    (wanted : List Arch) :
    r.find code base wanted = .ok ((r.inScanOrder wanted).flatMap (·.listing code base)) := by
  obtain ⟨byArch, hbyArch⟩ := findByArch_of_accepted h code base wanted
  have hfind : r.find code base wanted = .ok (byArch.flatMap (·.2)) := by
    unfold find
    rw [hbyArch]
    rfl
  obtain ⟨parts, hparts, hflatten⟩ := find_eq_ok_iff.1 hfind
  have hlistings : parts = (r.inScanOrder wanted).map (·.listing code base) :=
    eq_map_of_mapM (mapM_eq_ok_iff.2 hparts) fun _ _ => Signature.eq_listing_of_resolve
  rw [hfind, ← hflatten, hlistings, List.flatMap_def]

/-- What is found in code that is loaded further on. -/
theorem find_add {r : Registry} (h : r.Accepted) (code : Bytes) (base shift : Int)
    (wanted : List Arch) :
    r.find code (base + shift) wanted =
      (r.find code base wanted).map fun found => found.map (·.relocated shift) := by
  rw [find_eq_listings h, find_eq_listings h]
  simp only [Except.map, List.map_flatMap, Signature.listing_add]

/-- Code that is loaded multiples of 2^64 apart has the same matches. -/
theorem find_congr_base {r : Registry} (h : r.Accepted) (code : Bytes) {base other : Int}
    (hbase : other % 2 ^ 64 = base % 2 ^ 64) (wanted : List Arch) :
    r.find code other wanted = r.find code base wanted := by
  have hshift : Signature.addressSpace ∣ other - base :=
    Int.dvd_of_emod_eq_zero (Int.emod_eq_emod_iff_emod_sub_eq_zero.1 hbase)
  have hlisting : ∀ s : Signature, s.listing code other = s.listing code base := by
    intro s
    rw [show other = base + (other - base) from by omega, s.listing_add,
      List.map_congr_left fun m hm => Signature.relocated_of_dvd hm hshift, List.map_id']
  rw [find_eq_listings h, find_eq_listings h]
  simp only [hlisting]

/-- The laws that tie what is found in code at two addresses. -/
structure FoundRelocated (r : Registry) (code : Bytes) (base shift : Int) (wanted : List Arch) :
    Prop where
  /-- What is found at the second address is what is found at the first, match by match. -/
  relocated : ∃ found moved, r.find code base wanted = .ok found ∧
    r.find code (base + shift) wanted = .ok moved ∧
      List.Forall₂ (Match.IsRelocated shift) found moved
  /-- What is found depends on the address modulo 2^64 only. -/
  periodic : ∀ other, other % 2 ^ 64 = base % 2 ^ 64 →
    r.find code other wanted = r.find code base wanted

/-- **Whatever changes are made to the built-in registry**, code that is loaded elsewhere has the
same matches, the addresses of the x64 ones moved with it. -/
theorem found_relocated (changes : List Change) (code : Bytes) (base shift : Int)
    (wanted : List Arch) : (defaults.changed changes).FoundRelocated code base shift wanted where
  relocated := by
    have haccepted := accepted_changed changes
    obtain ⟨found, hfound⟩ :
        ∃ found, (defaults.changed changes).find code base wanted = .ok found :=
      ⟨_, find_eq_listings haccepted code base wanted⟩
    refine ⟨found, found.map (·.relocated shift), hfound, ?_, ?_⟩
    · rw [find_add haccepted, hfound]
      rfl
    · rw [List.forall₂_map_right_iff, List.forall₂_same]
      exact fun m _ => m.isRelocated shift
  periodic := fun _ hother => find_congr_base (accepted_changed changes) code hother wanted

/-- An instruction that points in front of its code: at the lowest address it wraps around, and with
the code loaded further on it does so no longer. -/
example :
    let code : Bytes := #[0x48, 0x8D, 0x0D, 0xF0, 0xFF, 0xFF, 0xFF, 0xEB, 0x0D, 0x48, 0x8B, 0x89,
      0x30, 0x02, 0x00, 0x00, 0x66, 0x0F, 0x1F, 0x44, 0x00, 0x00]
    defaults.find code 0 Arch.all = .ok [⟨.x64, 0, 2 ^ 64 - 9⟩] ∧
      defaults.find code 16 Arch.all = .ok [⟨.x64, 0, 7⟩] := by
  decide +kernel

end Registry

end SigScan
