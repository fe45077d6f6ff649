/-
# The registry of signatures

A registry holds at most one signature for each architecture. Registering one replaces the
signature of the same architecture. However the registry is ordered, signatures are used in
scan order.

* `get?_register`, `get?_drop`: what is found after a change;
* `arch_of_mem_inScanOrder`: only wanted architectures are used.
-/
import SigScan.Signature.Match

namespace SigScan

/-- The signatures in use, in the order of their registration. -/
abbrev Registry := List Signature

namespace Registry

/-- The built-in signatures. -/
def defaults : Registry := Arch.all.map Signature.builtIn

/-- The registry without the signature of an architecture. -/
def drop (r : Registry) (a : Arch) : Registry := r.filter fun s => s.arch ≠ a

/-- The registry with a signature in place of the one for the same architecture. -/
def register (r : Registry) (s : Signature) : Registry := r.drop s.arch ++ [s]

/-- The signature of an architecture. -/
def get? (r : Registry) (a : Arch) : Option Signature := r.find? fun s => s.arch = a

/-- The signatures of the wanted architectures, in scan order. -/
def inScanOrder (r : Registry) (wanted : List Arch) : List Signature :=
  (Arch.all.filter (wanted.contains ·)).filterMap r.get?

/-- The matches of each wanted signature, in scan order. -/
def findByArch (r : Registry) (code : Bytes) (base : Int) (wanted : List Arch) :
    Except ScanFault (List (Arch × List Match)) :=
  (r.inScanOrder wanted).mapM fun s => do
    let found ← s.resolve code base
    return (s.arch, found)

/-- The matches of the wanted signatures in code at the address `base`, one signature after
the other in scan order. -/
def find (r : Registry) (code : Bytes) (base : Int) (wanted : List Arch) :
    Except ScanFault (List Match) :=
  (r.findByArch code base wanted).map (·.flatMap (·.2))

/-! ## Looking up -/

/-- A signature that is found is for the architecture asked for. -/
theorem arch_of_get? {r : Registry} {a : Arch} {s : Signature} (h : r.get? a = some s) :
    s.arch = a := by
  simpa using List.find?_some h

/-- A dropped architecture has no signature; the others keep theirs. -/
theorem get?_drop (r : Registry) (a b : Arch) :
    (r.drop a).get? b = if b = a then none else r.get? b := by
  induction r with
  | nil => simp [drop, get?]
  | cons s rest ih =>
    simp only [drop, get?] at ih ⊢
    by_cases ha : s.arch = a <;> by_cases hb : s.arch = b <;> grind

/-- A registered signature is found under its architecture; the others are kept. -/
theorem get?_register (r : Registry) (s : Signature) (b : Arch) :
    (r.register s).get? b = if b = s.arch then some s else r.get? b := by
  have h : (r.register s).get? b = ((r.drop s.arch).get? b).or ([s].find? fun t => t.arch = b) := by
    simp [register, get?, List.find?_append]
  rw [h, get?_drop]
  by_cases hb : b = s.arch
  · simp [hb]
  · have hs : s.arch ≠ b := fun h => hb h.symm
    simp [hb, hs]

/-- Only signatures of wanted architectures are used. -/
theorem arch_of_mem_inScanOrder {r : Registry} {wanted : List Arch} {s : Signature}
    (h : s ∈ r.inScanOrder wanted) : s.arch ∈ wanted := by
  obtain ⟨a, ha, hs⟩ := List.mem_filterMap.1 h
  rw [arch_of_get? hs]
  simpa [Arch.mem_all] using ha

end Registry

end SigScan
