/-
# The order of the addresses

The matches of a report are looked at one after the other, and an address that was not seen before
goes to the end of the list. What was seen only matters as a set: so the addresses of two lists of
matches, one behind the other, are those of the first list and then those of the second list that
the first one does not have. Each list is read from its front, where the places of two addresses
compare as the places of their first matches do.

* `firstSeen_append`, `firstSeen_append_seen`: lists, and what was seen, in two parts;
* `idxOf_firstSeen_lt_iff`: addresses stand in the order in which they come first;
* `addresses_append`, `addresses_concat`: the addresses of more matches, and of one more;
* `addresses_listFirst`: the list of addresses as a whole.
-/
import Mathlib
import SigScan.Report

namespace SigScan.Report

/-! ## What was seen -/

/-- A member that was seen is passed over. -/
theorem firstSeen_cons_of_mem {seen : List Int} {a : Int} (h : a ∈ seen) (rest : List Int) :
    firstSeen seen (a :: rest) = firstSeen seen rest :=
  if_pos h

/-- A member that was not seen is listed, and has been seen from then on. -/
theorem firstSeen_cons_of_not_mem {seen : List Int} {a : Int} (h : a ∉ seen) (rest : List Int) :
    firstSeen seen (a :: rest) = a :: firstSeen (a :: seen) rest :=
  if_neg h

/-- Of what was seen, only the members matter. -/
theorem firstSeen_congr {seen other : List Int} (h : ∀ a, a ∈ seen ↔ a ∈ other) (list : List Int) :
    firstSeen seen list = firstSeen other list := by
  induction list generalizing seen other with
  | nil => rfl
  | cons a rest ih =>
    have hmore : ∀ b, b ∈ a :: seen ↔ b ∈ a :: other := by
      intro b
      rw [List.mem_cons, List.mem_cons, h]
    by_cases ha : a ∈ seen
    · rw [firstSeen_cons_of_mem ha, firstSeen_cons_of_mem ((h a).1 ha), ih h]
    · rw [firstSeen_cons_of_not_mem ha, firstSeen_cons_of_not_mem (mt (h a).2 ha), ih hmore]

/-- To be seen twice is to be seen. -/
theorem firstSeen_cons_seen {seen : List Int} {a : Int} (h : a ∈ seen) (list : List Int) :
    firstSeen (a :: seen) list = firstSeen seen list := by
  apply firstSeen_congr
  intro b
  rw [List.mem_cons, or_iff_right_of_imp]
  rintro rfl
  exact h

/-- It does not matter when a member was seen. -/
theorem firstSeen_middle (front seen list : List Int) (a : Int) :
    firstSeen (front ++ a :: seen) list = firstSeen (a :: (front ++ seen)) list :=
  firstSeen_congr (fun _ => List.perm_middle.mem_iff) list

/-- What is passed over because it was seen can be taken out afterwards. -/
theorem firstSeen_append_seen (earlier seen list : List Int) :
    firstSeen (earlier ++ seen) list = (firstSeen seen list).filter (· ∉ earlier) := by
  induction list generalizing seen with
  | nil => rfl
  | cons a rest ih =>
    by_cases hseen : a ∈ seen
    · rw [firstSeen_cons_of_mem (List.mem_append_right earlier hseen), firstSeen_cons_of_mem hseen,
        ih]
    · rw [firstSeen_cons_of_not_mem hseen]
      by_cases hearlier : a ∈ earlier
      · -- `a` is listed where only `seen` was seen, and taken out again
        have hboth : a ∈ earlier ++ seen := List.mem_append_left seen hearlier
        rw [firstSeen_cons_of_mem hboth, List.filter_cons_of_neg (by simpa using hearlier), ← ih,
          firstSeen_middle, firstSeen_cons_seen hboth]
      · have hneither : a ∉ earlier ++ seen := by simp [hearlier, hseen]
        rw [firstSeen_cons_of_not_mem hneither, List.filter_cons_of_pos (by simpa using hearlier),
          ← ih, firstSeen_middle]

/-- Behind a list, its members have been seen. -/
theorem firstSeen_append (seen list more : List Int) :
    firstSeen seen (list ++ more) = firstSeen seen list ++ firstSeen (list ++ seen) more := by
  induction list generalizing seen with
  | nil => rfl
  | cons a rest ih =>
    rw [List.cons_append]
    by_cases ha : a ∈ seen
    · have hrest : a ∈ rest ++ seen := List.mem_append_right rest ha
      rw [firstSeen_cons_of_mem ha, firstSeen_cons_of_mem ha, ih, List.cons_append,
        firstSeen_cons_seen hrest]
    · rw [firstSeen_cons_of_not_mem ha, firstSeen_cons_of_not_mem ha, ih, firstSeen_middle,
        List.cons_append, List.cons_append]

/-! ## Places -/

/-- **Members stand in the order in which they come first.** What does not come counts as behind
the end. -/
theorem idxOf_firstSeen_lt_iff {seen : List Int} {a b : Int} (ha : a ∉ seen) (hb : b ∉ seen)
    (list : List Int) :
    (firstSeen seen list).idxOf a < (firstSeen seen list).idxOf b ↔
      list.idxOf a < list.idxOf b := by
  induction list generalizing seen with
  | nil => rfl
  | cons c rest ih =>
    by_cases hc : c ∈ seen
    · -- a member that was seen is neither of the two, and passed over
      have hca : c ≠ a := fun h => ha (h ▸ hc)
      have hcb : c ≠ b := fun h => hb (h ▸ hc)
      rw [firstSeen_cons_of_mem hc, ih ha hb, List.idxOf_cons_ne _ hca, List.idxOf_cons_ne _ hcb,
        Nat.succ_lt_succ_iff]
    · rw [firstSeen_cons_of_not_mem hc]
      by_cases hca : c = a
      · subst hca
        by_cases hcb : c = b
        · subst hcb
          simp
        · rw [List.idxOf_cons_self, List.idxOf_cons_self, List.idxOf_cons_ne _ hcb,
            List.idxOf_cons_ne _ hcb]
          simp
      · by_cases hcb : c = b
        · subst hcb
          simp
        · have ha' : a ∉ c :: seen := by simp [ha, Ne.symm hca]
          have hb' : b ∉ c :: seen := by simp [hb, Ne.symm hcb]
          rw [List.idxOf_cons_ne _ hca, List.idxOf_cons_ne _ hcb, List.idxOf_cons_ne _ hca,
            List.idxOf_cons_ne _ hcb, Nat.succ_lt_succ_iff, Nat.succ_lt_succ_iff, ih ha' hb']

/-- The place of the first match with an address; the number of matches if no match has it. -/
def firstPlace (found : List Match) (a : Int) : Nat := found.findIdx (·.address = a)

/-- The first match with an address is where the address comes first. -/
theorem idxOf_map_address (found : List Match) (a : Int) :
    (found.map (·.address)).idxOf a = firstPlace found a := by
  rw [List.idxOf, List.findIdx_map]
  rfl

/-! ## The addresses of more matches -/

/-- An address that a match has is one that is listed. -/
theorem mem_map_address {r : Report} {a : Int} : a ∈ r.found.map (·.address) ↔ a ∈ r.addresses := by
  rw [mem_addresses, List.mem_map]

/-- **The addresses of two lists of matches**: those of the first, and behind them those of the
second that the first does not have. -/
theorem addresses_append (r : Report) (more : List Match) :
    { r with found := r.found ++ more }.addresses =
      r.addresses ++ { r with found := more }.addresses.filter (· ∉ r.addresses) := by
  have hsplit : { r with found := r.found ++ more }.addresses =
      r.addresses ++
        { r with found := more }.addresses.filter
          (· ∉ r.found.map fun m : Match => m.address) := by
    rw [addresses, List.map_append, firstSeen_append, firstSeen_append_seen]
    rfl
  rw [hsplit]
  congr 2
  funext a
  rw [decide_eq_decide, mem_map_address]

/-- A list of addresses with that of one more match: at the end, unless it is there. -/
def withAddress (listed : List Int) (m : Match) : List Int :=
  if m.address ∈ listed then listed else listed ++ [m.address]

/-- One more match adds its address at the end, or nothing. -/
theorem addresses_concat (r : Report) (m : Match) :
    { r with found := r.found ++ [m] }.addresses = withAddress r.addresses m := by
  have hone : { r with found := [m] }.addresses = [m.address] := rfl
  rw [addresses_append, hone, withAddress]
  split
  · next h => rw [List.filter_cons_of_neg (by simpa using h), List.filter_nil, List.append_nil]
  · next h => rw [List.filter_cons_of_pos (by simpa using h), List.filter_nil]

/-- The addresses are collected match by match. -/
theorem addresses_eq_foldl (r : Report) : r.addresses = r.found.foldl withAddress [] := by
  obtain ⟨sample, format, sections, found, foundIn, log, error⟩ := r
  induction found using List.reverseRecOn with
  | nil => rfl
  | append_singleton front m ih =>
    rw [List.foldl_append, ← ih]
    -- the last match is looked at with the addresses of those in front of it
    exact addresses_concat ⟨sample, format, sections, front, foundIn, log, error⟩ m

/-! ## The list as a whole -/

/-- How a list tells the addresses of the matches of a report, and how it goes on if more matches
follow. -/
structure ListsFirst (r : Report) (more : List Match) (listed : List Int) : Prop where
  /-- No address is listed twice. -/
  nodup : listed.Nodup
  /-- The addresses of the matches are listed, and no others. -/
  complete : ∀ a, a ∈ listed ↔ ∃ m ∈ r.found, m.address = a
  /-- One address stands before another if its first match does. -/
  ordered : ∀ a b, listed.idxOf a < listed.idxOf b ↔ firstPlace r.found a < firstPlace r.found b
  /-- Match by match, an address is passed over if it is there, and put at the end if not. -/
  collected : listed = r.found.foldl withAddress []
  /-- More matches add those of their addresses that are not there, in their order. -/
  extended : { r with found := r.found ++ more }.addresses =
    listed ++ { r with found := more }.addresses.filter (· ∉ listed)
  /-- So the list only grows at its end. -/
  start : listed <+: { r with found := r.found ++ more }.addresses

/-- **The addresses of a report are listed where they come first**, and more matches only add at the
end. -/
theorem addresses_listFirst (r : Report) (more : List Match) : ListsFirst r more r.addresses where
  nodup := nodup_addresses r
  complete := fun _ => mem_addresses
  ordered := by
    intro a b
    rw [addresses, idxOf_firstSeen_lt_iff List.not_mem_nil List.not_mem_nil, idxOf_map_address,
      idxOf_map_address]
  collected := addresses_eq_foldl r
  extended := addresses_append r more
  start := ⟨_, (addresses_append r more).symm⟩

/-- An address that comes back, in another section or for another architecture, keeps its place. -/
example :
    let found : List Match :=
      [⟨.x64, 0, 7⟩, ⟨.x86, 4, 2⟩, ⟨.ppcBE, 8, 7⟩, ⟨.x64, 0, 2⟩, ⟨.x64, 9, 5⟩]
    { sample := "a", found : Report }.addresses = [7, 2, 5] := by
  decide

end SigScan.Report
