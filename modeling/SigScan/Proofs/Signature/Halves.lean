/-
# Addresses in halves

On PowerPC an address is built from two halves of 16 bits, in two instructions. The second one adds
its half as a signed number. So where the low half of an address starts with a one, it counts as
negative, and the high half has to be one more than that of the address.

Halves that are stored so tell their address. From 0xFFFF8000 on the high half would have to be
0x10000: there it is 0, and what is told is the address less 2^32, which wraps around at 2^64.

* `sum_halves`: what the halves of an address add up to;
* `address_of_holds`: the address that is told where the code holds the halves of one;
* `resolve_findsSums`: what is found with an accepted PowerPC signature.
-/
import SigScan.Proofs.Pattern.Overwrite
import SigScan.Proofs.Signature.Acceptance
import SigScan.Proofs.Signature.WellFormed

namespace SigScan.Signature.PpcBE

open Pattern (OccursIn OpenAt)

/-! ## The halves of an address -/

/-- The high half that is stored for an address: one more where the low half counts as negative. -/
def highHalf (a : Nat) : Nat := ((a + 0x8000) >>> 16) % 2 ^ 16

/-- The low half that is stored for an address. -/
def lowHalf (a : Nat) : Nat := a % 2 ^ 16

/-- There is room for the high half. -/
theorem highHalf_lt (a : Nat) : highHalf a < 256 ^ 2 := Nat.mod_lt _ (by decide)

/-- There is room for the low half. -/
theorem lowHalf_lt (a : Nat) : lowHalf a < 256 ^ 2 := Nat.mod_lt a (by decide)

/-- **What the halves of an address add up to**: the address, but for the uppermost ones. -/
theorem sum_halves {a : Nat} (h : a < 2 ^ 32) :
    (highHalf a : Int) * 2 ^ 16 + signed 2 (lowHalf a) =
      if a < 0xFFFF8000 then (a : Int) else a - 2 ^ 32 := by
  have hhigh : highHalf a = (a + 0x8000) / 2 ^ 16 % 2 ^ 16 := by
    rw [highHalf, Nat.shiftRight_eq_div_pow]
  rw [signed_eq (lowHalf_lt a), hhigh, lowHalf]
  -- the low half counts as negative or not, and the address is one of the uppermost or not
  split <;> split <;> omega

/-! ## Told sums -/

/-- Does the code hold the halves of an address at the places of a match? -/
structure HoldsHalves (s : PpcBE) (code : Bytes) (offset : Int) (a : Nat) : Prop where
  high : code.Holds (offset + s.highAt).toNat (ByteOrder.big.bytes 2 (highHalf a))
  low : code.Holds (offset + s.lowAt).toNat (ByteOrder.big.bytes 2 (lowHalf a))

/-- What a match tells: the sum of the halves that the code holds, modulo 2^64. -/
structure Tells (s : PpcBE) (code : Bytes) (m : Match) : Prop where
  arch_eq : m.arch = .ppcBE
  sum : ∃ high low : List UInt8, high.length = 2 ∧ low.length = 2 ∧
    code.Holds (m.offset + s.highAt).toNat high ∧ code.Holds (m.offset + s.lowAt).toNat low ∧
      m.address =
        (ByteOrder.big.number high * 2 ^ 16 + signed 2 (ByteOrder.big.number low)) % 2 ^ 64
  /-- The halves of an address tell it modulo 2^32, and all but the uppermost ones as they are. -/
  halves : ∀ a < 2 ^ 32, s.HoldsHalves code m.offset a →
    m.address ≡ a [ZMOD 2 ^ 32] ∧ (a < 0xFFFF8000 → m.address = a)

/-- An occurrence tells one address. -/
theorem addresses_eq (s : PpcBE) (code : Bytes) (base : Int) (offset : Nat) :
    (Signature.ppcBE s).addresses code base offset = [s.address code offset] := rfl

/-- The sum that an occurrence tells. -/
theorem exists_sum {s : PpcBE} (h : s.check = .ok ()) {code : Bytes} {offset : Nat}
    (hoccurs : OccursIn s.pattern code offset) :
    ∃ high low : List UInt8, high.length = 2 ∧ low.length = 2 ∧
      code.Holds (offset + s.highAt).toNat high ∧ code.Holds (offset + s.lowAt).toNat low ∧
        s.address code offset =
          (ByteOrder.big.number high * 2 ^ 16 + signed 2 (ByteOrder.big.number low)) % 2 ^ 64 := by
  obtain ⟨-, ⟨hhighPos, hhighIn⟩, hlowPos, hlowIn⟩ := check_eq_ok_iff.1 h
  obtain ⟨high, hhighLength, hhighHolds, hhigh⟩ :=
    exists_holds_operand hoccurs hhighPos hhighIn .big
  obtain ⟨low, hlowLength, hlowHolds, hlow⟩ := exists_holds_operand hoccurs hlowPos hlowIn .big
  refine ⟨high, low, hhighLength, hlowLength, hhighHolds, hlowHolds, ?_⟩
  rw [address, hhigh, hlow]
  rfl

/-- **Where the code holds the halves of an address**, their sum is told, modulo 2^64. -/
theorem address_of_holds {s : PpcBE} (h : s.check = .ok ()) {code : Bytes} {offset a : Nat}
    (hoccurs : OccursIn s.pattern code offset) (ha : a < 2 ^ 32)
    (hholds : s.HoldsHalves code offset a) :
    s.address code offset = (if a < 0xFFFF8000 then (a : Int) else a - 2 ^ 32) % 2 ^ 64 := by
  obtain ⟨high, low, hhighLength, hlowLength, hhigh, hlow, hsum⟩ := exists_sum h hoccurs
  have hhighBytes : high = ByteOrder.big.bytes 2 (highHalf a) :=
    hhigh.eq_of_length hholds.high (by rw [hhighLength, ByteOrder.length_bytes])
  have hlowBytes : low = ByteOrder.big.bytes 2 (lowHalf a) :=
    hlow.eq_of_length hholds.low (by rw [hlowLength, ByteOrder.length_bytes])
  rw [hsum, hhighBytes, hlowBytes, ByteOrder.number_bytes _ _ _ (highHalf_lt a),
    ByteOrder.number_bytes _ _ _ (lowHalf_lt a), sum_halves ha]

/-- **An occurrence tells the sum of its halves.** -/
theorem tells_address {s : PpcBE} (h : s.check = .ok ()) {code : Bytes} {offset : Nat}
    (hoccurs : OccursIn s.pattern code offset) :
    s.Tells code ⟨.ppcBE, offset, s.address code offset⟩ := by
  constructor
  · rfl
  · exact exists_sum h hoccurs
  · intro a ha hholds
    have htold := address_of_holds h hoccurs ha hholds
    show s.address code offset ≡ _ [ZMOD 2 ^ 32] ∧ (_ → s.address code offset = _)
    rw [htold, Int.ModEq]
    split <;> omega

/-! ## Chosen addresses -/

/-- The code with other halves at an offset: those of the address. -/
def store (s : PpcBE) (code : Bytes) (offset a : Nat) : Bytes :=
  (code.overwrite (offset + s.highAt.toNat) (ByteOrder.big.bytes 2 (highHalf a))).overwrite
    (offset + s.lowAt.toNat) (ByteOrder.big.bytes 2 (lowHalf a))

/-- Does the pattern leave both halves open, and do they stand apart? -/
structure OpenHalves (s : PpcBE) : Prop where
  high : OpenAt s.pattern s.highAt.toNat 2
  low : OpenAt s.pattern s.lowAt.toNat 2
  apart : s.highAt + 2 ≤ s.lowAt ∨ s.lowAt + 2 ≤ s.highAt

/-- **An occurrence stays where its halves are overwritten**, and then holds the others. -/
theorem occursIn_store {s : PpcBE} (h : s.check = .ok ()) (hopen : s.OpenHalves) {code : Bytes}
    {offset : Nat} (hoccurs : OccursIn s.pattern code offset) (a : Nat) :
    OccursIn s.pattern (s.store code offset a) offset ∧
      s.HoldsHalves (s.store code offset a) offset a := by
  obtain ⟨-, ⟨hhighPos, hhighIn⟩, hlowPos, hlowIn⟩ := check_eq_ok_iff.1 h
  have hfirst : OccursIn s.pattern
      (code.overwrite (offset + s.highAt.toNat) (ByteOrder.big.bytes 2 (highHalf a))) offset :=
    hoccurs.overwrite (ByteOrder.length_bytes _ _ _) hopen.high (by omega)
  have hle := hoccurs.1
  have hle' := hfirst.1
  have hhighAt : (offset + s.highAt).toNat = offset + s.highAt.toNat := by omega
  have hlowAt : (offset + s.lowAt).toNat = offset + s.lowAt.toNat := by omega
  refine ⟨hfirst.overwrite (ByteOrder.length_bytes _ _ _) hopen.low (by omega), ?_, ?_⟩
  · rw [hhighAt]
    apply (Bytes.holds_overwrite (by omega)).overwrite
    · rw [ByteOrder.length_bytes]
      omega
    · rw [ByteOrder.length_bytes, ByteOrder.length_bytes]
      rcases hopen.apart with hfront | hbehind
      · exact .inr (by omega)
      · exact .inl (by omega)
  · rw [hlowAt]
    exact Bytes.holds_overwrite (by omega)

/-! ## What is found -/

/-- What is found with a signature that tells addresses by their halves. -/
structure FindsSums (s : PpcBE) (code : Bytes) (base : Int) : Prop where
  /-- There is one match for each occurrence of the pattern, and it tells its sum. -/
  found : ∃ found, (Signature.ppcBE s).resolve code base = .ok found ∧
    OnePerOccurrence s.pattern code found ∧ ∀ m ∈ found, s.Tells code m
  /-- At an occurrence whose halves are open, each address that has halves can be told. -/
  stored : s.OpenHalves → ∀ offset a : Nat, OccursIn s.pattern code offset → a < 0xFFFF8000 →
    ∃ found, (Signature.ppcBE s).resolve (s.store code offset a) base = .ok found ∧
      ⟨.ppcBE, offset, a⟩ ∈ found

/-- **What is found with an accepted PowerPC signature**, wherever the code stands: one match for each
occurrence, with the sum of its halves, which is the address that they were stored for. -/
theorem resolve_findsSums {s : PpcBE} (h : s.check = .ok ()) (code : Bytes) (base : Int) :
    s.FindsSums code base := by
  have hcheck : (Signature.ppcBE s).check = .ok () := h
  constructor
  · refine ⟨_, resolve_eq_listing hcheck code base,
      onePerOccurrence_listing (s.addresses_eq code base), fun m hm => ?_⟩
    obtain ⟨offset, hoccurs, rfl⟩ := (mem_listing_of_single (s.addresses_eq code base)).1 hm
    exact tells_address h hoccurs
  · intro hopen offset a hoccurs ha
    obtain ⟨hstays, hholds⟩ := occursIn_store h hopen hoccurs a
    have htold : s.address (s.store code offset a) offset = a := by
      rw [address_of_holds h hstays (by omega) hholds]
      omega
    refine ⟨_, resolve_eq_listing hcheck _ base, ?_⟩
    rw [mem_listing_of_single (s.addresses_eq _ base), ← htold]
    exact ⟨offset, hstays, rfl⟩

/-- The low half stands in front of the high one. Both are those of an address whose low half counts
as negative, then of the first address that is too high to be told. -/
theorem resolve_findsSums_swapped :
    (PpcBE.mk 3 1 "3? ?? ?? ?? ??").check = .ok () ∧
      (Signature.ppcBE ⟨3, 1, "3? ?? ?? ?? ??"⟩).resolve #[0x3C, 0x80, 0x00, 0x00, 0x2C] 5 =
        .ok [⟨.ppcBE, 0, 0x2B8000⟩] ∧
      (Signature.ppcBE ⟨3, 1, "3? ?? ?? ?? ??"⟩).resolve
        ((PpcBE.mk 3 1 "3? ?? ?? ?? ??").store #[0x3C, 0x80, 0x00, 0x00, 0x2C] 0 0xFFFF8000) 5 =
          .ok [⟨.ppcBE, 0, 2 ^ 64 - 0x8000⟩] ∧
      (PpcBE.mk 3 1 "3? ?? ?? ?? ??").FindsSums #[0x3C, 0x80, 0x00, 0x00, 0x2C] 5 :=
  ⟨rfl, by decide +kernel, by decide +kernel, resolve_findsSums rfl _ _⟩

end SigScan.Signature.PpcBE
