/-
# Accepted signatures are resolved

A signature that `Signature.check` accepts never fails to be resolved, whatever the code and its
address: its pattern has masks, and an operand that lies inside the pattern lies inside the code
wherever the pattern occurs.

* `offsetsIn_of_check`: the occurrences of a well-formed pattern are found;
* `resolve_of_check`: an accepted signature is resolved;
* `findByArch_of_accepted`: so is a registry of accepted signatures;
* `resolve_eq_listing`: what an accepted signature finds.
-/
import SigScan.Proofs.Pattern.Grammar
import SigScan.Proofs.Signature.Matches
import SigScan.Registry

namespace SigScan

/-! ## Operands -/

namespace Signature

/-- An operand that lies inside the code is read. -/
theorem operand_of_le {code : Bytes} {order : ByteOrder} {offset : Int} {width : Nat}
    (hpos : 0 ≤ offset) (hwidth : 0 < width) (hle : offset + width ≤ code.size) :
    ∃ n, operand code order offset width = .ok n := by
  obtain ⟨n, hn⟩ := (@Bytes.uint_isOk_iff code order offset.toNat width hwidth).2 (by omega)
  refine ⟨n, ?_⟩
  rw [operand, if_neg (by omega), hn]

/-- An accepted operand lies inside the code wherever the pattern occurs. -/
theorem operand_of_checkOperand {pattern : String} {code : Bytes} {order : ByteOrder}
    {operandAt : Int} {width offset : Nat} (hwidth : 0 < width)
    (hcheck : checkOperand pattern operandAt width = .ok ())
    (ho : offset + Pattern.size pattern ≤ code.size) :
    ∃ n, operand code order (offset + operandAt) width = .ok n := by
  obtain ⟨hpos, hle⟩ := checkOperand_eq_ok_iff.1 hcheck
  exact operand_of_le (by omega) hwidth (by omega)

/-- The occurrences of a well-formed pattern are found. -/
theorem offsetsIn_of_check {pattern : String} (h : Pattern.check pattern = .ok ()) (code : Bytes)
    (start : Nat) (stop : Option Int) : ∃ found, offsetsIn pattern code start stop = .ok found := by
  obtain ⟨found, hfound⟩ := Pattern.offsets_of_check h code start stop
  exact ⟨found, mapError_eq_ok_iff.2 hfound⟩

/-- The occurrences in the whole code lie inside it. -/
theorem le_size_of_mem_offsetsIn {pattern : String} {code : Bytes} {found : List Nat}
    (h : offsetsIn pattern code 0 none = .ok found) {offset : Nat} (ho : offset ∈ found) :
    offset + Pattern.size pattern ≤ code.size :=
  ((Pattern.mem_offsets (mapError_eq_ok_iff.1 h) offset).1 ho).1

/-! ## Signatures -/

/-- An accepted x64 signature is resolved. -/
theorem X64.resolve_of_check {s : X64} (h : s.check = .ok ()) (code : Bytes) (base : Int) :
    ∃ found, s.resolve code base = .ok found := by
  obtain ⟨⟨⟩, hpattern, hrest⟩ := bind_eq_ok_iff.1 h
  obtain ⟨⟨⟩, hdisplacement, -⟩ := bind_eq_ok_iff.1 hrest
  obtain ⟨offsets, hoffsets⟩ := offsetsIn_of_check hpattern code 0 none
  have hmatch : ∀ offset ∈ offsets, ∃ m, s.matchAt code base offset = .ok m := by
    intro offset ho
    obtain ⟨n, hn⟩ := operand_of_checkOperand (by decide) hdisplacement
      (le_size_of_mem_offsetsIn hoffsets ho)
    exact ⟨_, bind_eq_ok_iff.2 ⟨n, hn, rfl⟩⟩
  obtain ⟨found, hfound⟩ := exists_mapM_eq_ok hmatch
  exact ⟨found, bind_eq_ok_iff.2 ⟨offsets, hoffsets, hfound⟩⟩

/-- An accepted x86 signature is resolved. -/
theorem X86.resolve_of_check {s : X86} (h : s.check = .ok ()) (code : Bytes) :
    ∃ found, s.resolve code = .ok found := by
  obtain ⟨⟨⟩, hpattern, hrest⟩ := bind_eq_ok_iff.1 h
  obtain ⟨⟨⟩, hloop, haddress⟩ := bind_eq_ok_iff.1 hrest
  obtain ⟨offsets, hoffsets⟩ := offsetsIn_of_check hpattern code 0 none
  have hmatches : ∀ offset ∈ offsets, ∃ ms, s.matchesAt code offset = .ok ms := by
    intro offset ho
    obtain ⟨loops, hloops⟩ := offsetsIn_of_check hloop code offset (some (offset + s.window))
    have haddress' : ∃ n, operand code .little (offset + s.addressAt) 4 = .ok n :=
      operand_of_checkOperand (by decide) haddress (le_size_of_mem_offsetsIn hoffsets ho)
    obtain ⟨n, hn⟩ := haddress'
    -- The address is read once for each loop, and it is the same each time.
    have hread : ∃ ms, ((loops.filter fun (loop : Nat) => (loop : Int) < s.loopDistance).mapM
        fun _ => do
          let address ← operand code .little (offset + s.addressAt) 4
          return (⟨.x86, offset, address⟩ : Match)) = .ok ms :=
      exists_mapM_eq_ok fun _ _ => ⟨_, bind_eq_ok_iff.2 ⟨n, hn, rfl⟩⟩
    obtain ⟨ms, hms⟩ := hread
    exact ⟨ms, bind_eq_ok_iff.2 ⟨loops, hloops, hms⟩⟩
  obtain ⟨found, hfound⟩ := exists_mapM_eq_ok hmatches
  exact ⟨found.flatten,
    bind_eq_ok_iff.2 ⟨offsets, hoffsets, bind_eq_ok_iff.2 ⟨found, hfound, rfl⟩⟩⟩

/-- An accepted PowerPC signature is resolved. -/
theorem PpcBE.resolve_of_check {s : PpcBE} (h : s.check = .ok ()) (code : Bytes) :
    ∃ found, s.resolve code = .ok found := by
  obtain ⟨⟨⟩, hpattern, hrest⟩ := bind_eq_ok_iff.1 h
  obtain ⟨⟨⟩, hhigh, hlow⟩ := bind_eq_ok_iff.1 hrest
  obtain ⟨offsets, hoffsets⟩ := offsetsIn_of_check hpattern code 0 none
  have hmatch : ∀ offset ∈ offsets, ∃ m, s.matchAt code offset = .ok m := by
    intro offset ho
    have hle := le_size_of_mem_offsetsIn hoffsets ho
    obtain ⟨high, hh⟩ := operand_of_checkOperand (by decide) hhigh hle
    obtain ⟨low, hl⟩ := operand_of_checkOperand (by decide) hlow hle
    exact ⟨_, bind_eq_ok_iff.2 ⟨high, hh, bind_eq_ok_iff.2 ⟨low, hl, rfl⟩⟩⟩
  obtain ⟨found, hfound⟩ := exists_mapM_eq_ok hmatch
  exact ⟨found, bind_eq_ok_iff.2 ⟨offsets, hoffsets, hfound⟩⟩

/-- **An accepted signature is resolved**, whatever the code and its address. -/
theorem resolve_of_check {s : Signature} (h : s.check = .ok ()) (code : Bytes) (base : Int) :
    ∃ found, s.resolve code base = .ok found := by
  cases s with
  | x64 s => exact X64.resolve_of_check h code base
  | x86 s => exact X86.resolve_of_check h code
  | ppcBE s => exact PpcBE.resolve_of_check h code

/-- **What an accepted signature finds** is its listing. -/
theorem resolve_eq_listing {s : Signature} (h : s.check = .ok ()) (code : Bytes) (base : Int) :
    s.resolve code base = .ok (s.listing code base) := by
  obtain ⟨found, hfound⟩ := resolve_of_check h code base
  rw [hfound, eq_listing_of_resolve hfound]

end Signature

/-! ## Registries -/

namespace Registry

/-- Is every signature in the registry accepted? -/
def Accepted (r : Registry) : Prop := ∀ s ∈ r, s.check = .ok ()

/-- The built-in signatures are accepted. -/
theorem accepted_defaults : defaults.Accepted := by
  intro s hs
  obtain ⟨a, -, rfl⟩ := List.mem_map.1 hs
  exact Signature.check_builtIn a

/-- The signatures that are used are in the registry. -/
theorem mem_of_mem_inScanOrder {r : Registry} {wanted : List Arch} {s : Signature}
    (h : s ∈ r.inScanOrder wanted) : s ∈ r := by
  obtain ⟨a, -, hs⟩ := List.mem_filterMap.1 h
  exact List.mem_of_find?_eq_some hs

/-- Accepted signatures are all resolved. -/
theorem findByArch_of_accepted {r : Registry} (h : r.Accepted) (code : Bytes) (base : Int)
    (wanted : List Arch) : ∃ byArch, r.findByArch code base wanted = .ok byArch := by
  apply exists_mapM_eq_ok
  intro s hs
  obtain ⟨found, hfound⟩ := Signature.resolve_of_check (h s (mem_of_mem_inScanOrder hs)) code base
  exact ⟨_, bind_eq_ok_iff.2 ⟨found, hfound, rfl⟩⟩

end Registry

end SigScan
