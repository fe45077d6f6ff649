/-
# Selections of architectures

A selection says which architectures to scan for, by switches or by a list. Either way the
selected ones are scanned in scan order, each of them once.

`mem_ofArchs` says what a list selects, and `ofArchs_congr` that only its members count.
-/
import SigScan.Registry

namespace SigScan

/-- A choice of architectures to scan for, in scan order. -/
structure Selection where
  archs : List Arch
  deriving DecidableEq, Repr

namespace Selection

/-- The selection by a switch for each architecture. -/
def ofSwitches (x64 x86 ppcBE : Bool) : Selection :=
  ⟨Arch.all.filter fun
    | .x64 => x64
    | .x86 => x86
    | .ppcBE => ppcBE⟩

/-- The selection of listed architectures, in whatever order they are listed. -/
def ofArchs (wanted : List Arch) : Selection :=
  ofSwitches (wanted.contains .x64) (wanted.contains .x86) (wanted.contains .ppcBE)

/-- The matches of the selected signatures. -/
def collect (s : Selection) (r : Registry) (code : Bytes) (base : Int) :
    Except ScanFault (List Match) :=
  r.find code base s.archs

/-- Listing architectures selects just those. -/
theorem mem_ofArchs {wanted : List Arch} {a : Arch} :
    a ∈ (ofArchs wanted).archs ↔ a ∈ wanted := by
  cases a <;> simp [ofArchs, ofSwitches, Arch.mem_all]

/-- Two lists with the same members select the same architectures in the same order. -/
theorem ofArchs_congr {wanted other : List Arch} (h : ∀ a, a ∈ wanted ↔ a ∈ other) :
    ofArchs wanted = ofArchs other := by
  have hc : ∀ a, wanted.contains a = other.contains a := fun a => by
    rw [Bool.eq_iff_iff, List.contains_iff_mem, List.contains_iff_mem]
    exact h a
  rw [ofArchs, ofArchs, hc, hc, hc]

end Selection

end SigScan
