/-
# The targets of displacements

An x64 instruction tells its target by a displacement: a signed number of 32 bits in the instruction,
to be added to the address of the next one. The next instruction may stand in front of the match, the
code may be loaded anywhere, also below zero, and a target is an address of 64 bits. So a match tells
its target modulo 2^64.

The other way round, each target that 32 bits reach can be told. `X64.redirect` writes the displacement
to it into the code. Where the pattern leaves the displacement open, the match stays, and tells the
target.

* `tells_address`: the target that an occurrence tells;
* `occursIn_redirect`: an occurrence stays where its displacement is overwritten;
* `resolve_findsTargets`: what is found with an accepted x64 signature.
-/
import SigScan.Proofs.Pattern.Overwrite
import SigScan.Proofs.Signature.Safety

namespace SigScan.Signature.X64

open Pattern (OccursIn OpenAt)

/-! ## Displacements -/

/-- The address that displacements at an offset count from: that of the next instruction. -/
def origin (s : X64) (base offset : Int) : Int := base + offset + s.nextInstructionAt

/-- Does a displacement of 32 bits lead from an offset to the target? -/
def Reaches (s : X64) (base offset target : Int) : Prop :=
  -(2 ^ 31) ≤ target - s.origin base offset ∧ target - s.origin base offset < 2 ^ 31

/-- The code with another displacement at an offset: that to the target. -/
def redirect (s : X64) (code : Bytes) (base : Int) (offset : Nat) (target : Int) : Bytes :=
  code.overwrite (offset + s.displacementAt.toNat)
    (ByteOrder.little.signedBytes 4 (target - s.origin base offset))

/-- What a match tells: the target of the displacement that the code holds, modulo 2^64. -/
structure Tells (s : X64) (code : Bytes) (base : Int) (m : Match) : Prop where
  arch_eq : m.arch = .x64
  range : 0 ≤ m.address ∧ m.address < 2 ^ 64
  target : ∃ bytes : List UInt8, bytes.length = 4 ∧
    code.Holds (m.offset + s.displacementAt).toNat bytes ∧
      m.address ≡ s.origin base m.offset + signed 4 (ByteOrder.little.number bytes) [ZMOD 2 ^ 64]

/-! ## Told targets -/

/-- An occurrence tells one address. -/
theorem addresses_eq (s : X64) (code : Bytes) (base : Int) (offset : Nat) :
    (Signature.x64 s).addresses code base offset = [s.address code base offset] := rfl

/-- The address is the target of the displacement, modulo 2^64. -/
theorem address_eq (s : X64) (code : Bytes) (base : Int) (offset : Nat) :
    s.address code base offset =
      (s.origin base offset + signed 4 (wordAt code .little (offset + s.displacementAt) 4)) %
        2 ^ 64 := by
  rw [address, origin]
  congr 1
  omega

/-- **An occurrence tells the target of its displacement.** -/
theorem tells_address {s : X64} (h : s.check = .ok ()) {code : Bytes} {offset : Nat}
    (hoccurs : OccursIn s.pattern code offset) (base : Int) :
    s.Tells code base ⟨.x64, offset, s.address code base offset⟩ := by
  obtain ⟨-, ⟨hpos, hinside⟩, -⟩ := check_eq_ok_iff.1 h
  constructor
  · rfl
  · have htold : s.address code base offset ∈ (Signature.x64 s).addresses code base offset :=
      List.mem_singleton_self _
    exact address_range htold
  · obtain ⟨bytes, hlength, hholds, hword⟩ := exists_holds_operand hoccurs hpos hinside .little
    refine ⟨bytes, hlength, hholds, ?_⟩
    show s.address code base offset ≡ _ [ZMOD 2 ^ 64]
    rw [address_eq, hword]
    exact Int.mod_modEq _ _

/-! ## Chosen targets -/

/-- **An occurrence stays where its displacement is overwritten**, if the pattern leaves it open. -/
theorem occursIn_redirect {s : X64} (h : s.check = .ok ()) {code : Bytes} {offset : Nat}
    (hoccurs : OccursIn s.pattern code offset)
    (hopen : OpenAt s.pattern s.displacementAt.toNat 4) (base target : Int) :
    OccursIn s.pattern (s.redirect code base offset target) offset := by
  obtain ⟨-, ⟨hpos, hinside⟩, -⟩ := check_eq_ok_iff.1 h
  apply hoccurs.overwrite _ hopen
  · omega
  · exact ByteOrder.length_bytes _ _ _

/-- The target that is told then is the one that was chosen. -/
theorem address_redirect {s : X64} (h : s.check = .ok ()) {code : Bytes} {offset : Nat}
    (hoccurs : OccursIn s.pattern code offset) {base target : Int}
    (hreach : s.Reaches base offset target) :
    s.address (s.redirect code base offset target) base offset = target % 2 ^ 64 := by
  obtain ⟨-, ⟨hpos, hinside⟩, -⟩ := check_eq_ok_iff.1 h
  obtain ⟨hlow, hhigh⟩ := hreach
  have hle := hoccurs.1
  have hholds : (s.redirect code base offset target).Holds (offset + s.displacementAt.toNat)
      (ByteOrder.little.signedBytes 4 (target - s.origin base offset)) :=
    Bytes.holds_overwrite (by omega)
  have hword := wordAt_of_holds hholds .little
  rw [ByteOrder.signedBytes, ByteOrder.length_bytes, ← ByteOrder.signedBytes] at hword
  have hplace : ((offset + s.displacementAt.toNat : Nat) : Int) = offset + s.displacementAt := by
    omega
  have hread : signed 4 (wordAt (s.redirect code base offset target) .little
      (offset + s.displacementAt) 4) = target - s.origin base offset := by
    rw [← hplace, hword]
    exact ByteOrder.signed_number_signedBytes .little (by omega) (by omega)
  rw [address_eq, hread, add_sub_cancel]

/-! ## What is found -/

/-- What is found with a signature that tells targets by displacements. -/
structure FindsTargets (s : X64) (code : Bytes) (base : Int) : Prop where
  /-- There is one match for each occurrence of the pattern, and it tells its target. -/
  found : ∃ found, (Signature.x64 s).resolve code base = .ok found ∧
    OnePerOccurrence s.pattern code found ∧ ∀ m ∈ found, s.Tells code base m
  /-- At an occurrence that leaves its displacement open, each target in reach can be told. -/
  redirected : ∀ (offset : Nat) (target : Int), OccursIn s.pattern code offset →
    OpenAt s.pattern s.displacementAt.toNat 4 → s.Reaches base offset target →
      ∃ found, (Signature.x64 s).resolve (s.redirect code base offset target) base = .ok found ∧
        ⟨.x64, offset, target % 2 ^ 64⟩ ∈ found

/-- **What is found with an accepted x64 signature**: one match for each occurrence, with the target
of its displacement, and where the displacement is open, every target in reach. -/
theorem resolve_findsTargets {s : X64} (h : s.check = .ok ()) (code : Bytes) (base : Int) :
    s.FindsTargets code base := by
  have hcheck : (Signature.x64 s).check = .ok () := h
  constructor
  · refine ⟨_, resolve_eq_listing hcheck code base,
      onePerOccurrence_listing (s.addresses_eq code base), fun m hm => ?_⟩
    obtain ⟨offset, hoccurs, rfl⟩ := (mem_listing_of_single (s.addresses_eq code base)).1 hm
    exact tells_address h hoccurs base
  · intro offset target hoccurs hopen hreach
    refine ⟨_, resolve_eq_listing hcheck _ base, ?_⟩
    rw [mem_listing_of_single (s.addresses_eq _ base), ← address_redirect h hoccurs hreach]
    exact ⟨offset, occursIn_redirect h hoccurs hopen base target, rfl⟩

/-- Two matches that overlap, in code that is loaded below zero: both tell targets that wrap around.
The second is led to another one, which changes what the first one tells. -/
theorem resolve_findsTargets_overlap :
    (X64.mk 1 5 "8D ?? ?? ?? ??").check = .ok () ∧
      (Signature.x64 ⟨1, 5, "8D ?? ?? ?? ??"⟩).resolve #[0x8D, 0x8D, 0xFF, 0xFF, 0xFF, 0xFF] (-7) =
        .ok [⟨.x64, 0, 2 ^ 64 - 117⟩, ⟨.x64, 1, 2 ^ 64 - 2⟩] ∧
      (Signature.x64 ⟨1, 5, "8D ?? ?? ?? ??"⟩).resolve
        ((X64.mk 1 5 "8D ?? ?? ?? ??").redirect #[0x8D, 0x8D, 0xFF, 0xFF, 0xFF, 0xFF] (-7) 1 3) (-7) =
          .ok [⟨.x64, 0, 0x48B⟩, ⟨.x64, 1, 3⟩] ∧
      (X64.mk 1 5 "8D ?? ?? ?? ??").FindsTargets #[0x8D, 0x8D, 0xFF, 0xFF, 0xFF, 0xFF] (-7) :=
  ⟨rfl, by decide +kernel, by decide +kernel, resolve_findsTargets rfl _ _⟩

end SigScan.Signature.X64
