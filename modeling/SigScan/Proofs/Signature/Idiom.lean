/-
# The built-in signatures and other programs

The built-in signatures were taken from the code of one program. In another program the same
instructions load another address: the operand has other bytes, and all else is the same.
`Operand.code` is the code with an operand of choice.

On x64 and x86 the built-in pattern leaves the operand open. Wherever the code stands, it is found,
with the address that the operand tells. On PowerPC the built-in pattern asks for the two halves that
the one program has. There the code is found with those two, and with no others.

* `pattern_occurs_iff`: with which operands the pattern occurs;
* `mem_addresses_iff`: which addresses are told then;
* `resolve_code`: what is found where the code stands;
* `resolve_otherHalves`: the code of another PowerPC program is not found.
-/
import SigScan.Proofs.Pattern.Overwrite
import SigScan.Proofs.Signature.Acceptance

namespace SigScan.Signature

/-! ## The code of one program -/

/-- The instructions on x64. -/
def knownX64 : Bytes :=
  #[0x48, 0x8D, 0x0D, 0x8F, 0xDA, 0x26, 0x00, 0xEB, 0x0D, 0x48, 0x8B, 0x89, 0x30, 0x02, 0x00, 0x00,
    0x66, 0x0F, 0x1F, 0x44, 0x00, 0x00]

/-- The instruction on x86, the code that is jumped over, and the loop. -/
def knownX86 : Bytes :=
  #[0x8D, 0x05, 0x60, 0x49, 0x6A, 0x00, 0xEB, 0x1A] ++ Array.replicate 16 0x90 ++
    #[0x8B, 0x80, 0x18, 0x01, 0x00, 0x00, 0x8B, 0x54, 0x24, 0x20, 0x85, 0xC0, 0x75, 0xE2]

/-- The instructions on big-endian PowerPC. -/
def knownPpcBE : Bytes :=
  #[0x3C, 0x80, 0x00, 0x2C, 0x38, 0x84, 0x80, 0x00, 0x48, 0x00, 0x00, 0x08, 0xE8, 0x84, 0x02, 0x30,
    0x7C, 0x24, 0x00, 0x00, 0x41, 0x82, 0x01, 0xA8]

/-! ## Operands of choice -/

/-- The bytes of an operand, for one of the architectures. -/
inductive Operand where
  | x64 (displacement : Vector UInt8 4)
  | x86 (address : Vector UInt8 4)
  | ppcBE (high low : Vector UInt8 2)

namespace Operand

/-- The architecture that an operand is for. -/
def arch : Operand → Arch
  | .x64 _ => .x64
  | .x86 _ => .x86
  | .ppcBE _ _ => .ppcBE

/-- The code of the program with another operand. -/
def code : Operand → Bytes
  | .x64 displacement => knownX64.overwrite 3 displacement.toList
  | .x86 address => knownX86.overwrite 2 address.toList
  | .ppcBE high low => (knownPpcBE.overwrite 2 high.toList).overwrite 6 low.toList

/-- The address that an operand tells where its code stands at an offset. -/
def address (base : Int) (offset : Nat) : Operand → Int
  | .x64 displacement =>
    (signed 4 (ByteOrder.little.number displacement.toList) + (offset + 7) + base) % addressSpace
  | .x86 address => ByteOrder.little.number address.toList
  | .ppcBE high low =>
    (ByteOrder.big.number high.toList * 0x10000 + signed 2 (ByteOrder.big.number low.toList)) %
      addressSpace

/-- Does the built-in pattern let the operand have these bytes? -/
def Admitted : Operand → Prop
  | .x64 _ => True
  | .x86 _ => True
  | .ppcBE high low => high = #v[0x00, 0x2C] ∧ low = #v[0x80, 0x00]

/-! ## The bytes of the code -/

/-- The code is as long as it was. -/
theorem size_code (o : Operand) : o.code.size =
    match o.arch with
    | .x64 => 22
    | .x86 => 38
    | .ppcBE => 24 := by
  cases o with
  | x64 displacement => exact Bytes.size_overwrite (by rw [Vector.length_toList]; decide)
  | x86 address => exact Bytes.size_overwrite (by rw [Vector.length_toList]; decide)
  | ppcBE high low =>
    have hhigh : (knownPpcBE.overwrite 2 high.toList).size = 24 :=
      Bytes.size_overwrite (by rw [Vector.length_toList]; decide)
    refine (Bytes.size_overwrite ?_).trans hhigh
    rw [Vector.length_toList, hhigh]
    decide

/-- The code holds the two halves. -/
theorem holds_halves (high low : Vector UInt8 2) :
    (code (.ppcBE high low)).Holds 2 high.toList ∧ (code (.ppcBE high low)).Holds 6 low.toList := by
  have hsize : (knownPpcBE.overwrite 2 high.toList).size = 24 :=
    Bytes.size_overwrite (by rw [Vector.length_toList]; decide)
  have hhigh : (knownPpcBE.overwrite 2 high.toList).Holds 2 high.toList :=
    Bytes.holds_overwrite (by decide)
  constructor
  · refine hhigh.overwrite ?_ (.inr ?_)
    · rw [Vector.length_toList, hsize]
      decide
    · rw [Vector.length_toList]
      decide
  · refine Bytes.holds_overwrite ?_
    rw [hsize]
    decide

/-- The pattern is no longer than the code. -/
theorem size_pattern_le (o : Operand) : Pattern.size (builtIn o.arch).pattern ≤ o.code.size := by
  rw [size_code]
  generalize o.arch = a
  cases a with
  | x64 => decide
  | x86 => decide
  | ppcBE => decide

/-! ## Where the pattern occurs -/

/-- The built-in x64 pattern leaves the displacement open. -/
theorem openAt_displacement : Pattern.OpenAt builtInX64.pattern 3 4 :=
  ⟨_, rfl, by decide⟩

/-- The built-in x86 pattern leaves the address open. -/
theorem openAt_address : Pattern.OpenAt builtInX86.pattern 2 4 :=
  ⟨_, rfl, by decide⟩

/-- The built-in PowerPC pattern asks for one high half. -/
theorem asksFor_high : Pattern.AsksFor builtInPpcBE.pattern 2 [0x00, 0x2C] :=
  ⟨_, rfl, by decide⟩

/-- The built-in PowerPC pattern asks for one low half. -/
theorem asksFor_low : Pattern.AsksFor builtInPpcBE.pattern 6 [0x80, 0x00] :=
  ⟨_, rfl, by decide⟩

/-- **With which operands the built-in pattern occurs**: on x64 and x86 with all, on PowerPC with
those of one program. -/
theorem pattern_occurs_iff (o : Operand) :
    Pattern.OccursIn (builtIn o.arch).pattern o.code 0 ↔ o.Admitted := by
  cases o with
  | x64 displacement =>
    have hknown : Pattern.OccursIn builtInX64.pattern knownX64 0 := by decide +kernel
    exact ⟨fun _ => trivial,
      fun _ => hknown.overwrite Vector.length_toList openAt_displacement (by decide)⟩
  | x86 address =>
    have hknown : Pattern.OccursIn builtInX86.pattern knownX86 0 := by decide +kernel
    exact ⟨fun _ => trivial,
      fun _ => hknown.overwrite Vector.length_toList openAt_address (by decide)⟩
  | ppcBE high low =>
    constructor
    · intro hoccurs
      obtain ⟨hhigh, hlow⟩ := holds_halves high low
      have hasked := hoccurs.holds asksFor_high
      have hasked' := hoccurs.holds asksFor_low
      rw [Nat.zero_add] at hasked hasked'
      constructor
      · exact Vector.toList_inj.1 (Bytes.Holds.eq_of_length hhigh hasked Vector.length_toList)
      · exact Vector.toList_inj.1 (Bytes.Holds.eq_of_length hlow hasked' Vector.length_toList)
    · rintro ⟨rfl, rfl⟩
      decide +kernel

/-- The loop of the x86 code is not overwritten. -/
theorem loop_occurs (address : Vector UInt8 4) :
    Pattern.OccursIn builtInX86.loopPattern (code (.x86 address)) 24 := by
  have hknown : Pattern.OccursIn builtInX86.loopPattern knownX86 24 := by decide +kernel
  refine hknown.overwrite_outside ?_ (.inl ?_)
  · rw [Vector.length_toList]
    decide
  · rw [Vector.length_toList]
    decide

/-! ## What is found -/

/-- A number that the code holds, where the code stands between other code. -/
theorem wordAt_between {code : Bytes} {p width : Nat} {bs : Vector UInt8 width}
    (h : code.Holds p bs.toList) (front behind : Bytes) (order : ByteOrder) :
    wordAt (front ++ code ++ behind) order (front.size + p) width = order.number bs.toList := by
  have hword := wordAt_of_holds (h.between front behind) order
  rwa [Vector.length_toList, Nat.cast_add] at hword

/-- **Which addresses are told** where the code stands between other code: that of the operand. -/
theorem mem_addresses_iff (o : Operand) (front behind : Bytes) (base told : Int) :
    told ∈ (builtIn o.arch).addresses (front ++ o.code ++ behind) base front.size ↔
      told = o.address base front.size := by
  cases o with
  | x64 displacement =>
    have hholds : (code (.x64 displacement)).Holds 3 displacement.toList :=
      Bytes.holds_overwrite (by decide)
    have haddress : builtInX64.address (front ++ code (.x64 displacement) ++ behind) base front.size =
        address base front.size (.x64 displacement) := by
      show (signed 4 (wordAt _ .little (front.size + (3 : Nat)) 4) + _ + _) % addressSpace = _
      rw [wordAt_between hholds]
      rfl
    rw [← haddress]
    exact List.mem_singleton
  | x86 value =>
    have hholds : (code (.x86 value)).Holds 2 value.toList := Bytes.holds_overwrite (by decide)
    have haddress : builtInX86.address (front ++ code (.x86 value) ++ behind) front.size =
        address base front.size (.x86 value) := by
      show ((wordAt _ .little (front.size + (2 : Nat)) 4 : Nat) : Int) = _
      rw [wordAt_between hholds]
      rfl
    have hsize : (code (.x86 value)).size = 38 := size_code (.x86 value)
    have hloop : 24 ∈ builtInX86.loops (front ++ code (.x86 value) ++ behind) front.size := by
      refine List.mem_filter.2 ⟨?_, decide_eq_true ⟨by decide, ?_⟩⟩
      · rw [List.mem_range, Array.size_append, Array.size_append, hsize]
        omega
      · refine (Pattern.occursIn_between front behind ?_).2 (loop_occurs value)
        rw [hsize]
        decide
    rw [← haddress]
    constructor
    · intro hmem
      obtain ⟨k, -, htold⟩ := List.mem_map.1 hmem
      exact htold.symm
    · intro htold
      exact List.mem_map.2 ⟨24, hloop, htold.symm⟩
  | ppcBE high low =>
    obtain ⟨hhigh, hlow⟩ := holds_halves high low
    have haddress : builtInPpcBE.address (front ++ code (.ppcBE high low) ++ behind) front.size =
        address base front.size (.ppcBE high low) := by
      show ((wordAt _ .big (front.size + (2 : Nat)) 2 : Nat) * 0x10000 +
        signed 2 (wordAt _ .big (front.size + (6 : Nat)) 2)) % addressSpace = _
      rw [wordAt_between hhigh, wordAt_between hlow]
      rfl
    rw [← haddress]
    exact List.mem_singleton

end Operand

/-- **What the built-in signature finds where the code stands**: on x64 and x86 a match with the
address that the operand tells, whatever the operand, the code around and its address. On PowerPC
there is a match just if the operand is that of the one program. -/
theorem resolve_code (o : Operand) (front behind : Bytes) (base : Int) :
    ∃ found, (builtIn o.arch).resolve (front ++ o.code ++ behind) base = .ok found ∧
      ((⟨o.arch, front.size, o.address base front.size⟩ : Match) ∈ found ↔ o.Admitted) ∧
      ∀ m ∈ found, m.offset = front.size →
        m = ⟨o.arch, front.size, o.address base front.size⟩ := by
  have hoccurs : Pattern.OccursIn (builtIn o.arch).pattern (front ++ o.code ++ behind) front.size ↔
      o.Admitted := by
    have hroom : 0 + Pattern.size (builtIn o.arch).pattern ≤ o.code.size := by
      rw [Nat.zero_add]
      exact o.size_pattern_le
    rw [← o.pattern_occurs_iff]
    exact Pattern.occursIn_between front behind hroom
  refine ⟨_, resolve_eq_listing (check_builtIn o.arch) _ base, ?_, ?_⟩
  · rw [mem_listing, ← hoccurs]
    constructor
    · rintro ⟨offset, hat, told, -, hmatch⟩
      have hoffset : front.size = offset := Nat.cast_inj.1 (congrArg Match.offset hmatch)
      rwa [hoffset]
    · intro hat
      refine ⟨front.size, hat, _, (o.mem_addresses_iff front behind base _).2 rfl, ?_⟩
      rw [arch_builtIn]
  · intro m hm hoffset
    obtain ⟨offset, -, told, htold, rfl⟩ := mem_listing.1 hm
    have hsame : offset = front.size := Nat.cast_inj.1 hoffset
    rw [hsame, Operand.mem_addresses_iff] at htold
    rw [hsame, htold, arch_builtIn]

/-- **The code of another PowerPC program is not found**, though its halves tell an address. -/
theorem resolve_otherHalves :
    (builtIn .ppcBE).resolve (Operand.ppcBE #v[0x00, 0x12] #v[0x34, 0x56]).code 0 = .ok [] ∧
      (Operand.ppcBE #v[0x00, 0x12] #v[0x34, 0x56]).address 0 0 = 0x123456 := by
  decide +kernel

end SigScan.Signature
