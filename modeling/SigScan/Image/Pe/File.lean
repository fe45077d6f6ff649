/-
# The code of a PE file

The headers are read one after the other, and the first that is refused decides. The sections
are then put in the order of their addresses.

* `byAddress_perm` and `pairwise_byAddress`: the same sections, in the order of their addresses;
* `byAddress_of_pairwise`: sections in this order stay as they are;
* `Image.read_sorted`: the sections of an image are in this order.
-/
import SigScan.Image.Pe.SectionTable

namespace SigScan.Pe

/-! ## The order of addresses -/

/-- Is the address of the first section no greater than that of the second? -/
def InOrder (s t : SectionHeader) : Prop := s.virtualAddress ≤ t.virtualAddress

/-- Puts a section in front of the first one with an address not below its own. -/
def placeByAddress (s : SectionHeader) : List SectionHeader → List SectionHeader
  | [] => [s]
  | t :: rest =>
    if s.virtualAddress ≤ t.virtualAddress then s :: t :: rest else t :: placeByAddress s rest

/-- The sections in the order of their addresses; sections at one address keep their order. -/
def byAddress (sections : List SectionHeader) : List SectionHeader :=
  sections.foldr placeByAddress []

/-- Placing a section adds it and nothing else. -/
theorem placeByAddress_perm (s : SectionHeader) (sections : List SectionHeader) :
    (placeByAddress s sections).Perm (s :: sections) := by
  induction sections with
  | nil => exact List.Perm.refl _
  | cons t rest ih =>
    rw [placeByAddress]
    split
    · exact List.Perm.refl _
    · exact (ih.cons t).trans (List.Perm.swap s t rest)

/-- The ordered sections are the given ones. -/
theorem byAddress_perm (sections : List SectionHeader) : (byAddress sections).Perm sections := by
  induction sections with
  | nil => exact List.Perm.refl _
  | cons s rest ih => exact (placeByAddress_perm s _).trans (ih.cons s)

/-- Placing a section keeps the order. -/
theorem pairwise_placeByAddress {s : SectionHeader} {sections : List SectionHeader}
    (h : sections.Pairwise InOrder) : (placeByAddress s sections).Pairwise InOrder := by
  induction sections with
  | nil => exact List.pairwise_singleton _ _
  | cons t rest ih =>
    obtain ⟨ht, hrest⟩ := List.pairwise_cons.1 h
    rw [placeByAddress]
    split
    · next hst =>
      refine List.pairwise_cons.2 ⟨fun u hu => ?_, h⟩
      rcases List.mem_cons.1 hu with rfl | hu
      · exact hst
      · exact Nat.le_trans hst (ht u hu)
    · next hst =>
      refine List.pairwise_cons.2 ⟨fun u hu => ?_, ih hrest⟩
      rcases List.mem_cons.1 ((placeByAddress_perm s rest).mem_iff.1 hu) with rfl | hu
      · exact Nat.le_of_not_le hst
      · exact ht u hu

/-- The ordered sections are in the order of their addresses. -/
theorem pairwise_byAddress (sections : List SectionHeader) :
    (byAddress sections).Pairwise InOrder := by
  induction sections with
  | nil => exact List.Pairwise.nil
  | cons s rest ih => exact pairwise_placeByAddress ih

/-- Sections in the order of their addresses stay as they are. -/
theorem byAddress_of_pairwise {sections : List SectionHeader} (h : sections.Pairwise InOrder) :
    byAddress sections = sections := by
  induction sections with
  | nil => rfl
  | cons s rest ih =>
    obtain ⟨hs, hrest⟩ := List.pairwise_cons.1 h
    have hb : byAddress (s :: rest) = placeByAddress s rest := by
      rw [byAddress, List.foldr_cons]
      exact congrArg (placeByAddress s) (ih hrest)
    rw [hb]
    match rest, hs with
    | [], _ => rfl
    | t :: more, hs => exact if_pos (hs t (by simp))

/-! ## The image -/

/-- The headers of an image. -/
structure Image where
  optional : OptionalHeader
  sections : List SectionHeader
  deriving DecidableEq, Repr

namespace Image

/-- Reads the headers of a file. -/
def read (file : Bytes) : Except Fault Image := do
  let nt ← ntOffset file
  checkSignature file nt
  let header ← FileHeader.read file nt
  let optional ← OptionalHeader.read file (nt + 24)
  let sections ← sectionHeaders file optional (min header.sectionCount sectionLimit)
    (nt + 24 + header.optionalHeaderSize)
  return ⟨optional, byAddress sections⟩

/-- The code sections of the image in a file. -/
def codeOf (file : Bytes) (image : Image) : List Section :=
  codeSections image.optional.imageBase
    ((image.sections.filter fun s => isCode s.characteristics).map
      (·.entry file image.optional))

/-- The sections of an image are in the order of their addresses. -/
theorem read_sorted {file : Bytes} {image : Image} (h : read file = .ok image) :
    image.sections.Pairwise InOrder := by
  unfold read at h
  simp only [bind, Except.bind, pure, Except.pure] at h
  repeat' split at h
  all_goals try contradiction
  cases h
  exact pairwise_byAddress _

end Image

end SigScan.Pe
