/-
# Scanning is safe

Nothing is left to chance while an accepted signature is resolved. Its patterns can be read, also
that of the loop. Its operands lie inside the code, though the code is not asked when they are read:
they lie inside the pattern, and the pattern occurs inside the code. Each match stands inside the
code, and its address fits the architecture.

* `inside_of_mem_operands`: what the check of a signature says of its operands;
* `address_range`: the addresses that an occurrence tells;
* `resolvesSafely_of_check`: all of this for every accepted signature, code and address.
-/
import SigScan.Proofs.Signature.Acceptance
import SigScan.Proofs.Signature.WellFormed

namespace SigScan.Signature

/-! ## What is read -/

/-- The patterns that are looked for. -/
def patterns : Signature → List String
  | .x64 s => [s.pattern]
  | .x86 s => [s.pattern, s.loopPattern]
  | .ppcBE s => [s.pattern]

/-- The operands that are read, each with its place in a match and its width. -/
def operands : Signature → List (Int × Nat)
  | .x64 s => [(s.displacementAt, 4)]
  | .x86 s => [(s.addressAt, 4)]
  | .ppcBE s => [(s.highAt, 2), (s.lowAt, 2)]

/-- The number of addresses of the architecture. -/
def addressLimit : Signature → Int
  | .x64 _ => addressSpace
  | .x86 _ => 0x100000000
  | .ppcBE _ => addressSpace

/-- The patterns of an accepted signature are of the grammar. -/
theorem grammatical_of_mem_patterns {s : Signature} (h : s.check = .ok ()) {text : String}
    (ht : text ∈ s.patterns) : Pattern.Grammatical text.toList := by
  cases s with
  | x64 s =>
    obtain ⟨hpattern, -⟩ := X64.check_eq_ok_iff.1 h
    rw [List.mem_singleton.1 ht]
    exact hpattern
  | x86 s =>
    obtain ⟨hpattern, hloop, -⟩ := X86.check_eq_ok_iff.1 h
    rcases List.mem_cons.1 ht with rfl | ht
    · exact hpattern
    · rw [List.mem_singleton.1 ht]
      exact hloop
  | ppcBE s =>
    obtain ⟨hpattern, -⟩ := PpcBE.check_eq_ok_iff.1 h
    rw [List.mem_singleton.1 ht]
    exact hpattern

/-- The operands of an accepted signature lie inside its pattern. -/
theorem inside_of_mem_operands {s : Signature} (h : s.check = .ok ()) {o : Int × Nat}
    (ho : o ∈ s.operands) : Inside s.pattern o.1 o.2 := by
  cases s with
  | x64 s =>
    obtain ⟨-, hdisplacement, -⟩ := X64.check_eq_ok_iff.1 h
    rw [List.mem_singleton.1 ho]
    exact hdisplacement
  | x86 s =>
    obtain ⟨-, -, haddress⟩ := X86.check_eq_ok_iff.1 h
    rw [List.mem_singleton.1 ho]
    exact haddress
  | ppcBE s =>
    obtain ⟨-, hhigh, hlow⟩ := PpcBE.check_eq_ok_iff.1 h
    rcases List.mem_cons.1 ho with rfl | ho
    · exact hhigh
    · rw [List.mem_singleton.1 ho]
      exact hlow

/-! ## What is told -/

/-- A number is below the power of 256 that its width gives, also where the code ends early. -/
theorem wordAt_lt (code : Bytes) (order : ByteOrder) (offset : Int) (width : Nat) :
    wordAt code order offset width < 256 ^ width :=
  order.number_slice_lt code offset.toNat width

/-- **The addresses that an occurrence tells** are those of the architecture. -/
theorem address_range {s : Signature} {code : Bytes} {base : Int} {offset : Nat} {address : Int}
    (h : address ∈ s.addresses code base offset) : 0 ≤ address ∧ address < s.addressLimit := by
  have hspace : (0 : Int) < addressSpace := by decide
  cases s with
  | x64 s =>
    rw [List.mem_singleton.1 h]
    exact ⟨Int.emod_nonneg _ hspace.ne', Int.emod_lt_of_pos _ hspace⟩
  | x86 s =>
    obtain ⟨loop, -, rfl⟩ := List.mem_map.1 h
    have hlt := wordAt_lt code .little (offset + s.addressAt) 4
    simp only [X86.address, addressLimit]
    omega
  | ppcBE s =>
    rw [List.mem_singleton.1 h]
    exact ⟨Int.emod_nonneg _ hspace.ne', Int.emod_lt_of_pos _ hspace⟩

/-! ## Safety -/

/-- What may be relied on when a signature is resolved. -/
structure ResolvesSafely (s : Signature) (code : Bytes) (base : Int) : Prop where
  /-- Every pattern can be read. -/
  masks : ∀ text ∈ s.patterns, ∃ masks, Pattern.byteMasks text = .ok masks
  /-- Every operand of an occurrence lies inside the code. -/
  reads : ∀ offset : Nat, Pattern.OccursIn s.pattern code offset → ∀ o ∈ s.operands,
    0 ≤ offset + o.1 ∧ offset + o.1 + o.2 ≤ code.size
  /-- There is a result, and each match stands inside the code with an address that fits. -/
  found : ∃ found, s.resolve code base = .ok found ∧ ∀ m ∈ found,
    0 ≤ m.offset ∧ m.offset + Pattern.size s.pattern ≤ code.size ∧
      0 ≤ m.address ∧ m.address < s.addressLimit

/-- **An accepted signature is resolved safely**, whatever the code and its address. -/
theorem resolvesSafely_of_check {s : Signature} (h : s.check = .ok ()) (code : Bytes) (base : Int) :
    s.ResolvesSafely code base where
  masks := fun _ ht => (grammatical_of_mem_patterns h ht).byteMasksOf
  reads := by
    intro offset hoccurs o ho
    have hle := hoccurs.1
    obtain ⟨hpos, hinside⟩ := inside_of_mem_operands h ho
    omega
  found := by
    refine ⟨s.listing code base, resolve_eq_listing h code base, fun m hm => ?_⟩
    obtain ⟨offset, hoccurs, address, haddress, rfl⟩ := mem_listing.1 hm
    have hle := hoccurs.1
    refine ⟨?_, ?_, address_range haddress⟩
    · show (0 : Int) ≤ offset
      omega
    · show (offset : Int) + Pattern.size s.pattern ≤ code.size
      omega

/-- The loop and its instruction end where the code does, and the loop overlaps the address. -/
theorem resolvesSafely_overlap :
    (Signature.x86 ⟨1, "8D ?? ?? ?? ??", 5, "?0 FF"⟩).check = .ok () ∧
      (Signature.x86 ⟨1, "8D ?? ?? ?? ??", 5, "?0 FF"⟩).resolve #[0x8D, 1, 2, 0x30, 0xFF] (-7) =
        .ok [⟨.x86, 0, 0xFF300201⟩] ∧
      (Signature.x86 ⟨1, "8D ?? ?? ?? ??", 5, "?0 FF"⟩).ResolvesSafely
        #[0x8D, 1, 2, 0x30, 0xFF] (-7) :=
  ⟨rfl, by decide +kernel, resolvesSafely_of_check rfl _ _⟩

end SigScan.Signature
