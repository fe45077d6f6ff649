/-
# Code sections

A stretch of code in an image, with the name it has there and the address it is loaded at.

`mem_keepNamed` says which sections a list of names keeps, and `keepNamed_of_nodup` that one name
keeps one section where no two names are the same.
-/
import SigScan.Bytes

namespace SigScan

/-- A stretch of code and the address it is loaded at. -/
structure Section where
  name : String
  content : Bytes
  /-- The address of the first byte. -/
  base : Int
  deriving DecidableEq, Repr

namespace Section

/-- The address behind the last byte. -/
def limit (s : Section) : Int := s.base + s.content.size

/-- The sections with one of the names; no names keep every section. -/
def keepNamed (names : List String) (sections : List Section) : List Section :=
  if names.isEmpty then sections else sections.filter fun s => names.contains s.name

/-- A section is kept if its name is listed, or if none is. -/
theorem mem_keepNamed {names : List String} {sections : List Section} {s : Section} :
    s ∈ keepNamed names sections ↔ s ∈ sections ∧ (names = [] ∨ s.name ∈ names) := by
  cases names <;> simp [keepNamed]

/-- The kept sections stay in their order. -/
theorem keepNamed_sublist (names : List String) (sections : List Section) :
    (keepNamed names sections).Sublist sections := by
  unfold keepNamed
  split
  · exact List.Sublist.refl _
  · exact List.filter_sublist

/-- A single name keeps the sections that have it. -/
theorem keepNamed_singleton (name : String) (sections : List Section) :
    keepNamed [name] sections = sections.filter (·.name = name) := by
  simp [keepNamed]

/-- **Where names differ, the name of a section selects it.** -/
theorem keepNamed_of_nodup {sections : List Section} (h : (sections.map (·.name)).Nodup)
    {s : Section} (hs : s ∈ sections) : keepNamed [s.name] sections = [s] := by
  rw [keepNamed_singleton]
  induction sections with
  | nil => cases hs
  | cons t rest ih =>
    obtain ⟨hother, hrest⟩ := List.nodup_cons.1 h
    rcases List.mem_cons.1 hs with rfl | hs
    · have hnone : rest.filter (·.name = s.name) = [] := by
        rw [List.filter_eq_nil_iff]
        intro u hu hname
        exact hother (List.mem_map.2 ⟨u, hu, of_decide_eq_true hname⟩)
      rw [List.filter_cons_of_pos (by simp), hnone]
    · have hne : t.name ≠ s.name := fun hname => hother (List.mem_map.2 ⟨s, hs, hname.symm⟩)
      rw [List.filter_cons_of_neg (by simpa using hne), ih hrest hs]

end Section

/-- Is a bit of an integer set? Negative integers have infinitely many bits set. -/
def hasBit (n : Int) (bit : Nat) : Bool := (n >>> bit) % 2 = 1

end SigScan
