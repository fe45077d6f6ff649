/-
# Registries after changes

A registry is changed by registering a signature or by dropping the one of an architecture. The
list behind it is put in another order by each registration, but that does not show: after any
changes to the built-in registry, the last change to an architecture tells what is found there,
and signatures are used in scan order.

* `get?_apply`, `get?_changed`: one change, and all changes;
* `onePerArch_changed`, `accepted_changed`: what every change keeps;
* `alike_of_swap`: changes to two architectures may be made in either order;
* `recalls_changed`: what is observed after any changes.
-/
import SigScan.Proofs.Registry.ScanOrder
import SigScan.Proofs.Signature.Acceptance
import SigScan.Selection

namespace SigScan.Registry

/-! ## Changes -/

/-- A change of a registry. Only accepted signatures can be built, and so be registered. -/
inductive Change where
  | register (s : Signature) (accepted : s.check = .ok ())
  | drop (a : Arch)

namespace Change

/-- The architecture that a change is about. -/
def arch : Change → Arch
  | .register s _ => s.arch
  | .drop a => a

/-- The signature that a change leaves for its architecture. -/
def leaves? : Change → Option Signature
  | .register s _ => some s
  | .drop _ => none

/-- The registry after a change. -/
def apply (r : Registry) : Change → Registry
  | .register s _ => r.register s
  | .drop a => r.drop a

end Change

/-- The registry after changes, made one after the other. -/
def changed (r : Registry) (changes : List Change) : Registry := changes.foldl Change.apply r

/-- The last change to an architecture. -/
def lastChange? (changes : List Change) (a : Arch) : Option Change :=
  (changes.filter fun c => c.arch = a).getLast?

/-- The last of some changes is made to the registry that the others leave. -/
theorem changed_concat (r : Registry) (changes : List Change) (c : Change) :
    r.changed (changes ++ [c]) = c.apply (r.changed changes) := by
  rw [changed, changed, List.foldl_append]
  rfl

/-- A change to an architecture is the last one to it, and not to any other. -/
theorem lastChange?_concat (changes : List Change) (c : Change) (a : Arch) :
    lastChange? (changes ++ [c]) a = if a = c.arch then some c else lastChange? changes a := by
  unfold lastChange?
  rw [List.filter_append]
  by_cases ha : a = c.arch
  · rw [if_pos ha, List.filter_cons_of_pos (by simp [ha]), List.filter_nil, List.getLast?_concat]
  · have hne : c.arch ≠ a := fun h => ha h.symm
    rw [if_neg ha, List.filter_cons_of_neg (by simp [hne]), List.filter_nil, List.append_nil]

/-- The last change to an architecture is about that architecture. -/
theorem arch_of_lastChange? {changes : List Change} {a : Arch} {c : Change}
    (h : lastChange? changes a = some c) : c.arch = a := by
  have hmem := List.mem_of_getLast? h
  simpa using (List.mem_filter.1 hmem).2

/-! ## Looking up -/

/-- **One change** is seen at its architecture and at no other. -/
theorem get?_apply (r : Registry) (c : Change) (a : Arch) :
    (c.apply r).get? a = if a = c.arch then c.leaves? else r.get? a := by
  cases c with
  | register s _ => exact get?_register r s a
  | drop b => exact get?_drop r b a

/-- **After all changes**, the last one to an architecture tells what is found there; without one
nothing has changed. -/
theorem get?_changed (r : Registry) (changes : List Change) (a : Arch) :
    (r.changed changes).get? a = (lastChange? changes a).elim (r.get? a) Change.leaves? := by
  -- from the last change backwards
  induction changes using List.reverseRecOn with
  | nil => rfl
  | append_singleton changes c ih =>
    rw [changed_concat, get?_apply, lastChange?_concat]
    by_cases ha : a = c.arch
    · rw [if_pos ha, if_pos ha]
      rfl
    · rw [if_neg ha, if_neg ha]
      exact ih

/-- A signature that is registered goes to the end of the list, but it is used in its turn. -/
example :
    let r := defaults.changed [.drop .x86, .register (.builtIn .x64) rfl]
    r.map Signature.arch = [.ppcBE, .x64] ∧
      (r.inScanOrder [.ppcBE, .x86, .x64, .ppcBE]).map Signature.arch = [.x64, .ppcBE] := by
  decide

/-- An architecture is without a signature just when the last change has dropped it. -/
theorem get?_changed_defaults_eq_none_iff (changes : List Change) (a : Arch) :
    (defaults.changed changes).get? a = none ↔ lastChange? changes a = some (.drop a) := by
  rw [get?_changed, get?_defaults]
  cases h : lastChange? changes a with
  | none => simp
  | some c =>
    have harch := arch_of_lastChange? h
    cases c with
    | register s _ => simp [Change.leaves?]
    | drop b =>
      have hb : b = a := harch
      subst hb
      exact ⟨fun _ => rfl, fun _ => rfl⟩

/-! ## What changes keep -/

/-- No two signatures are for one architecture. -/
def OnePerArch (r : Registry) : Prop := (r.map Signature.arch).Nodup

/-- Dropping an architecture brings in no second signature of another one. -/
theorem OnePerArch.drop {r : Registry} (h : r.OnePerArch) (a : Arch) : (r.drop a).OnePerArch :=
  List.Nodup.sublist (List.Sublist.map _ List.filter_sublist) h

/-- A change brings in no second signature of an architecture. -/
theorem OnePerArch.apply {r : Registry} (h : r.OnePerArch) (c : Change) :
    (c.apply r).OnePerArch := by
  cases c with
  | drop a => exact h.drop a
  | register s _ =>
    show ((r.drop s.arch ++ [s]).map Signature.arch).Nodup
    rw [List.map_append, List.map_singleton, ← List.concat_eq_append]
    refine List.Nodup.concat ?_ (h.drop s.arch)
    intro hmem
    obtain ⟨t, ht, harch⟩ := List.mem_map.1 hmem
    -- the signature that would be the second one has been dropped
    have hne : t.arch ≠ s.arch := by simpa using (List.mem_filter.1 ht).2
    exact hne harch

/-- A change brings in accepted signatures only. -/
theorem Accepted.apply {r : Registry} (h : r.Accepted) (c : Change) : (c.apply r).Accepted := by
  have hdrop : ∀ a, (r.drop a).Accepted := fun a s hs => h s (List.mem_filter.1 hs).1
  cases c with
  | drop a => exact hdrop a
  | register s accepted =>
    intro t ht
    rcases List.mem_append.1 ht with hold | hnew
    · exact hdrop s.arch t hold
    · rw [List.mem_singleton.1 hnew]
      exact accepted

/-- What every change keeps holds after all changes. -/
theorem changed_induction {P : Registry → Prop} {r : Registry} (h : P r)
    (step : ∀ r c, P r → P (Change.apply r c)) (changes : List Change) : P (r.changed changes) := by
  induction changes generalizing r with
  | nil => exact h
  | cons c rest ih => exact ih (step r c h)

/-- No changes bring in a second signature of an architecture. -/
theorem onePerArch_changed (changes : List Change) : (defaults.changed changes).OnePerArch :=
  changed_induction (by unfold OnePerArch; decide) (fun _ c h => h.apply c) changes

/-- No changes bring in a signature that is not accepted. -/
theorem accepted_changed (changes : List Change) : (defaults.changed changes).Accepted :=
  changed_induction accepted_defaults (fun _ c h => h.apply c) changes

/-! ## The order of changes -/

/-- Two registries that cannot be told apart: the same is found at each architecture, used for any
wanted ones, and found in any code. -/
structure Alike (r other : Registry) : Prop where
  get?_eq : ∀ a, r.get? a = other.get? a
  inScanOrder_eq : ∀ wanted, r.inScanOrder wanted = other.inScanOrder wanted
  find_eq : ∀ code base wanted, r.find code base wanted = other.find code base wanted

/-- Registries with the same signature for each architecture cannot be told apart. -/
theorem alike_of_get? {r other : Registry} (h : ∀ a, r.get? a = other.get? a) : r.Alike other :=
  ⟨h, inScanOrder_congr h, find_congr h⟩

/-- **Changes to two architectures may be made in either order.** -/
theorem alike_of_swap (r : Registry) (earlier later : List Change) {c d : Change}
    (h : c.arch ≠ d.arch) :
    (r.changed (earlier ++ c :: d :: later)).Alike (r.changed (earlier ++ d :: c :: later)) := by
  apply alike_of_get?
  intro a
  have hlast : lastChange? (earlier ++ c :: d :: later) a =
      lastChange? (earlier ++ d :: c :: later) a := by
    unfold lastChange?
    simp only [List.filter_append, List.filter_cons, decide_eq_true_eq]
    -- at most one of the two changes is to the architecture
    by_cases hc : c.arch = a
    · have hd : d.arch ≠ a := fun hd => h (hc.trans hd.symm)
      rw [if_pos hc, if_neg hd, if_neg hd, if_pos hc]
    · rw [if_neg hc, if_neg hc]
  rw [get?_changed, get?_changed, hlast]

/-! ## Selections -/

/-- Switches that are on for the listed architectures select what the list does. -/
theorem ofSwitches_eq_ofArchs {x64 x86 ppcBE : Bool} {wanted : List Arch}
    (hx64 : x64 = true ↔ .x64 ∈ wanted) (hx86 : x86 = true ↔ .x86 ∈ wanted)
    (hppcBE : ppcBE = true ↔ .ppcBE ∈ wanted) :
    Selection.ofSwitches x64 x86 ppcBE = Selection.ofArchs wanted := by
  have hcontains : ∀ {b : Bool} {a : Arch}, (b = true ↔ a ∈ wanted) → b = wanted.contains a := by
    intro b a h
    rw [Bool.eq_iff_iff, List.contains_iff_mem]
    exact h
  rw [Selection.ofArchs, ← hcontains hx64, ← hcontains hx86, ← hcontains hppcBE]

/-- **A selection of listed architectures finds what the list finds.** -/
theorem collect_ofArchs (r : Registry) (code : Bytes) (base : Int) (wanted : List Arch) :
    (Selection.ofArchs wanted).collect r code base = r.find code base wanted := by
  have hsame : r.inScanOrder (Selection.ofArchs wanted).archs = r.inScanOrder wanted := by
    unfold inScanOrder
    congr 1
    apply List.filter_congr
    intro a _
    rw [Bool.eq_iff_iff, List.contains_iff_mem, List.contains_iff_mem]
    exact Selection.mem_ofArchs
  unfold Selection.collect find findByArch
  rw [hsame]

/-! ## What is observed -/

/-- What a registry recalls of the changes that have led to it. -/
structure Recalls (changes : List Change) (r : Registry) : Prop where
  /-- No two signatures are for one architecture. -/
  onePerArch : r.OnePerArch
  /-- The last change to an architecture tells what is found there. -/
  get?_eq : ∀ a, r.get? a = (lastChange? changes a).elim (some (.builtIn a)) Change.leaves?
  /-- Nothing is found just where the last change has dropped what was there. -/
  get?_eq_none_iff : ∀ a, r.get? a = none ↔ lastChange? changes a = some (.drop a)
  /-- The wanted architectures that have a signature are visited in scan order, each once. -/
  visited : ∀ wanted, (r.inScanOrder wanted).map Signature.arch =
    Arch.all.filter fun a => a ∈ wanted ∧ r.get? a ≠ none
  /-- Each is visited with the signature that is found there. -/
  visited_with : ∀ wanted, ∀ s ∈ r.inScanOrder wanted, r.get? s.arch = some s
  /-- What is found is found by the visited signatures, one after the other. -/
  found : ∀ code base wanted, ∃ parts, r.find code base wanted = .ok parts.flatten ∧
    List.Forall₂ (fun s part => s.resolve code base = .ok part) (r.inScanOrder wanted) parts
  /-- Two neighbouring changes to two architectures may be made in the other order. -/
  swapped : ∀ earlier later c d, changes = earlier ++ c :: d :: later → c.arch ≠ d.arch →
    r.Alike (defaults.changed (earlier ++ d :: c :: later))
  /-- A selection of listed architectures finds what the list finds. -/
  collected : ∀ code base wanted,
    (Selection.ofArchs wanted).collect r code base = r.find code base wanted
  /-- So do switches that are on for the listed architectures. -/
  switched : ∀ code base wanted (x64 x86 ppcBE : Bool), (x64 = true ↔ .x64 ∈ wanted) →
    (x86 = true ↔ .x86 ∈ wanted) → (ppcBE = true ↔ .ppcBE ∈ wanted) →
      (Selection.ofSwitches x64 x86 ppcBE).collect r code base = r.find code base wanted

/-- **Whatever changes are made to the built-in registry, it recalls them**: the last change to
each architecture counts, and the order of changes to different architectures does not. -/
theorem recalls_changed (changes : List Change) : Recalls changes (defaults.changed changes) where
  onePerArch := onePerArch_changed changes
  get?_eq := by
    intro a
    rw [get?_changed, get?_defaults]
  get?_eq_none_iff := get?_changed_defaults_eq_none_iff changes
  visited := map_arch_inScanOrder _
  visited_with := fun _ _ hs => (mem_inScanOrder.1 hs).2
  found := by
    intro code base wanted
    obtain ⟨byArch, hbyArch⟩ := findByArch_of_accepted (accepted_changed changes) code base wanted
    have hfind : (defaults.changed changes).find code base wanted = .ok (byArch.flatMap (·.2)) := by
      unfold find
      rw [hbyArch]
      rfl
    obtain ⟨parts, hparts, hflatten⟩ := find_eq_ok_iff.1 hfind
    rw [← hflatten] at hfind
    exact ⟨parts, hfind, hparts⟩
  swapped := by
    rintro earlier later c d rfl hne
    exact alike_of_swap defaults earlier later hne
  collected := collect_ofArchs _
  switched := by
    intro code base wanted x64 x86 ppcBE hx64 hx86 hppcBE
    rw [ofSwitches_eq_ofArchs hx64 hx86 hppcBE]
    exact collect_ofArchs _ code base wanted

end SigScan.Registry
