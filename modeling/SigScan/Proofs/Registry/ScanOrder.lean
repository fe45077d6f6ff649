/-
# Signatures in scan order

However a registry is ordered, the signatures in it are used in scan order. What is used and what
is found depends on nothing but `Registry.get?` and on which architectures are wanted: neither the
order of the registry nor that of the wanted architectures counts.

* `mem_inScanOrder`, `map_arch_inScanOrder`: which signatures are used, and in which order;
* `find_eq_ok_iff`: what is found is found by one signature after the other;
* `mem_find`: what a match tells;
* `find_congr`: registries with the same signatures find the same;
* `find_filter`: wanting fewer architectures leaves out the matches of the others.
-/
import SigScan.Proofs.Signature.Matches
import SigScan.Registry

namespace SigScan.Registry

/-! ## Which signatures are used -/

/-- The built-in registry has the built-in signature of each architecture. -/
theorem get?_defaults (a : Arch) : defaults.get? a = some (.builtIn a) := by
  cases a <;> rfl

/-- The signatures in use are those of the wanted architectures. -/
theorem mem_inScanOrder {r : Registry} {wanted : List Arch} {s : Signature} :
    s ∈ r.inScanOrder wanted ↔ s.arch ∈ wanted ∧ r.get? s.arch = some s := by
  unfold inScanOrder
  rw [List.mem_filterMap]
  constructor
  · rintro ⟨a, ha, hs⟩
    rw [arch_of_get? hs]
    exact ⟨List.contains_iff_mem.1 (List.mem_filter.1 ha).2, hs⟩
  · rintro ⟨hwanted, hs⟩
    exact ⟨s.arch, List.mem_filter.2 ⟨Arch.mem_all _, List.contains_iff_mem.2 hwanted⟩, hs⟩

/-- Looking architectures up leaves those that have a signature. -/
theorem map_arch_filterMap_get? (r : Registry) (archs : List Arch) :
    (archs.filterMap r.get?).map Signature.arch = archs.filter fun a => (r.get? a).isSome := by
  rw [List.map_filterMap, ← List.filterMap_eq_filter]
  congr 1
  funext a
  cases hs : r.get? a with
  | none => simp [Option.guard, hs]
  | some s => simp [Option.guard, hs, arch_of_get? hs]

/-- **The wanted architectures that have a signature, in scan order and each of them once.** -/
theorem map_arch_inScanOrder (r : Registry) (wanted : List Arch) :
    (r.inScanOrder wanted).map Signature.arch =
      Arch.all.filter fun a => a ∈ wanted ∧ r.get? a ≠ none := by
  unfold inScanOrder
  rw [map_arch_filterMap_get?, List.filter_filter]
  apply List.filter_congr
  intro a _
  rw [Bool.eq_iff_iff, Bool.and_eq_true, Option.isSome_iff_ne_none, List.contains_iff_mem,
    decide_eq_true_iff]
  exact and_comm

/-- Wanting fewer architectures leaves out the signatures of the others. -/
theorem inScanOrder_eq_filter (r : Registry) (wanted : List Arch) :
    r.inScanOrder wanted = (r.inScanOrder Arch.all).filter fun s => wanted.contains s.arch := by
  have hall : Arch.all.filter (Arch.all.contains ·) = Arch.all := by decide
  unfold inScanOrder
  rw [hall, List.filterMap_filter, List.filter_filterMap]
  congr 1
  funext a
  cases hs : r.get? a with
  | none => simp
  | some s => rw [Option.filter_some, arch_of_get? hs]

/-! ## What is found -/

/-- **What is found is found by one signature after the other.** -/
theorem find_eq_ok_iff {r : Registry} {code : Bytes} {base : Int} {wanted : List Arch}
    {found : List Match} :
    r.find code base wanted = .ok found ↔
      ∃ parts, List.Forall₂ (fun s part => s.resolve code base = .ok part)
        (r.inScanOrder wanted) parts ∧ parts.flatten = found := by
  unfold find findByArch
  rw [map_eq_ok_iff]
  constructor
  · rintro ⟨byArch, hbyArch, rfl⟩
    refine ⟨byArch.map (·.2), ?_, rfl⟩
    rw [List.forall₂_map_right_iff]
    refine (mapM_eq_ok_iff.1 hbyArch).imp ?_
    intro s part hpart
    obtain ⟨ms, hms, hpure⟩ := bind_eq_ok_iff.1 hpart
    cases hpure
    exact hms
  · rintro ⟨parts, hparts, rfl⟩
    simp only [mapM_eq_ok_iff]
    generalize r.inScanOrder wanted = signatures at hparts ⊢
    -- signature by signature, each with its part of the matches
    induction hparts with
    | nil => exact ⟨[], .nil, rfl⟩
    | @cons s part signatures parts hpart _ ih =>
      obtain ⟨byArch, hbyArch, hflatten⟩ := ih
      refine ⟨(s.arch, part) :: byArch, .cons (bind_eq_ok_iff.2 ⟨part, hpart, rfl⟩) hbyArch, ?_⟩
      rw [List.flatMap_cons, hflatten, List.flatten_cons]

/-- A match is found by one of the signatures that are used. -/
theorem exists_resolve_of_mem_find {r : Registry} {code : Bytes} {base : Int} {wanted : List Arch}
    {found : List Match} (h : r.find code base wanted = .ok found) {m : Match} (hm : m ∈ found) :
    ∃ s ∈ r.inScanOrder wanted, ∃ part, s.resolve code base = .ok part ∧ m ∈ part := by
  obtain ⟨parts, hparts, rfl⟩ := find_eq_ok_iff.1 h
  obtain ⟨part, hpart, hm⟩ := List.mem_flatten.1 hm
  have hsteps := mapM_eq_ok_iff.2 hparts
  obtain ⟨s, hs, hresolve⟩ := exists_of_mem_mapM hsteps hpart
  exact ⟨s, hs, part, hresolve, hm⟩

/-- **A match is for a wanted architecture**, and stands where the pattern of the signature of that
architecture occurs. -/
theorem mem_find {r : Registry} {code : Bytes} {base : Int} {wanted : List Arch}
    {found : List Match} (h : r.find code base wanted = .ok found) {m : Match} (hm : m ∈ found) :
    m.arch ∈ wanted ∧ ∃ s, r.get? m.arch = some s ∧
      ∃ offset : Nat, m.offset = offset ∧ Pattern.OccursIn s.pattern code offset := by
  obtain ⟨s, hs, part, hresolve, hm⟩ := exists_resolve_of_mem_find h hm
  obtain ⟨hwanted, hget⟩ := mem_inScanOrder.1 hs
  obtain ⟨harch, hoccurs⟩ := Signature.mem_resolve hresolve hm
  rw [harch]
  exact ⟨hwanted, s, hget, hoccurs⟩

/-- Registries that have the same signature for each architecture use the same signatures. -/
theorem inScanOrder_congr {r other : Registry} (h : ∀ a, r.get? a = other.get? a)
    (wanted : List Arch) : r.inScanOrder wanted = other.inScanOrder wanted := by
  unfold inScanOrder
  rw [funext h]

/-- Registries that have the same signature for each architecture find the same. -/
theorem find_congr {r other : Registry} (h : ∀ a, r.get? a = other.get? a) (code : Bytes)
    (base : Int) (wanted : List Arch) :
    r.find code base wanted = other.find code base wanted := by
  unfold find findByArch
  rw [inScanOrder_congr h]

/-- Signatures that are left out take their matches with them. -/
theorem forall₂_resolve_filter {code : Bytes} {base : Int} (wanted : List Arch)
    {signatures : List Signature} {parts : List (List Match)}
    (h : List.Forall₂ (fun s part => s.resolve code base = .ok part) signatures parts) :
    ∃ kept, List.Forall₂ (fun s part => s.resolve code base = .ok part)
        (signatures.filter fun s => wanted.contains s.arch) kept ∧
      kept.flatten = parts.flatten.filter fun m => wanted.contains m.arch := by
  induction h with
  | nil => exact ⟨[], .nil, rfl⟩
  | @cons s part signatures parts hpart _ ih =>
    obtain ⟨kept, hkept, hflatten⟩ := ih
    have harch : ∀ m ∈ part, wanted.contains m.arch = wanted.contains s.arch := by
      intro m hm
      rw [(Signature.mem_resolve hpart hm).1]
    by_cases hs : wanted.contains s.arch = true
    · refine ⟨part :: kept, ?_, ?_⟩
      · rw [List.filter_cons, if_pos hs]
        exact .cons hpart hkept
      · have hpart' : (part.filter fun m => wanted.contains m.arch) = part := by
          rw [List.filter_eq_self]
          intro m hm
          rw [harch m hm]
          exact hs
        rw [List.flatten_cons, List.flatten_cons, List.filter_append, hpart', hflatten]
    · refine ⟨kept, ?_, ?_⟩
      · rw [List.filter_cons, if_neg hs]
        exact hkept
      · have hpart' : (part.filter fun m => wanted.contains m.arch) = [] := by
          rw [List.filter_eq_nil_iff]
          intro m hm
          rw [harch m hm]
          exact hs
        rw [List.flatten_cons, List.filter_append, hpart', List.nil_append, hflatten]

/-- **Wanting fewer architectures leaves out the matches of the others**, and changes nothing
else. -/
theorem find_filter {r : Registry} {code : Bytes} {base : Int} {all : List Match}
    (h : r.find code base Arch.all = .ok all) (wanted : List Arch) :
    r.find code base wanted = .ok (all.filter fun m => wanted.contains m.arch) := by
  obtain ⟨parts, hparts, rfl⟩ := find_eq_ok_iff.1 h
  obtain ⟨kept, hkept, hflatten⟩ := forall₂_resolve_filter wanted hparts
  rw [find_eq_ok_iff, inScanOrder_eq_filter]
  exact ⟨kept, hkept, hflatten⟩

end SigScan.Registry
