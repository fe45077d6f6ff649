/-
# Where code is loaded

The address of a section is as wide as its fields in the headers of the image, so the code of an
image is loaded below `2 ^ 65`: an ELF header has the address itself, and a PE header has it relative
to that of the image. Only a raw sample is loaded wherever one likes.

* `Elf.base_of_mem_codeOf`, `Pe.base_of_mem_codeOf`: the addresses in an image;
* `base_of_mem_loadAll`: the addresses in an image of either format.
-/
import SigScan.Proofs.Elf.NarrowFile
import SigScan.Proofs.Numbers
import SigScan.Proofs.Provenance

namespace SigScan

/-! ## ELF images -/

namespace Elf

/-- The address in a section header has at most eight bytes. -/
theorem address_of_sectionHeader {file : Bytes} {h : Header} {index : Nat} {s : SectionHeader}
    (hs : sectionHeader file h index = .ok s) : s.address < 2 ^ 64 := by
  have hwidth : 256 ^ h.wordSize.bytes ≤ 2 ^ 64 := by
    cases h.wordSize <;> decide
  unfold sectionHeader at hs
  split at hs
  · cases hs
  · split at hs
    · cases hs
    · unfold SectionHeader.readAt at hs
      simp only [bind_eq_ok_iff] at hs
      obtain ⟨_, -, _, -, _, -, address, haddress, _, -, _, -, _, -, _, -, _, -, _, -, hdone⟩ := hs
      cases hdone
      exact Nat.lt_of_lt_of_le (uint_lt haddress) hwidth

/-- The address in a segment header has at most eight bytes. -/
theorem address_of_segmentHeader {file : Bytes} {h : Header} {index : Nat} {s : SegmentHeader}
    (hs : segmentHeader file h index = .ok s) : s.address < 2 ^ 64 := by
  unfold segmentHeader at hs
  split at hs
  · cases hs
  · obtain ⟨_, -, hread⟩ := bind_eq_ok_iff.1 hs
    unfold SegmentHeader.readAt at hread
    split at hread
    · simp only [bind_eq_ok_iff] at hread
      obtain ⟨_, -, _, -, address, haddress, _, -, _, -, _, -, _, -, _, -, hdone⟩ := hread
      cases hdone
      exact Nat.lt_trans (uint_lt haddress) (by decide)
    · simp only [bind_eq_ok_iff] at hread
      obtain ⟨_, -, _, -, _, -, address, haddress, _, -, _, -, _, -, _, -, hdone⟩ := hread
      cases hdone
      exact uint_lt haddress

/-- **The code of an ELF image is loaded below `2 ^ 64`.** -/
theorem base_of_mem_codeOf {file : Bytes} {h : Header} {sections : List Section}
    (hcode : codeOf file h = .ok sections) {s : Section} (hs : s ∈ sections) :
    0 ≤ s.base ∧ s.base < 2 ^ 64 := by
  rcases exists_header_of_mem_codeOf hcode hs with
    ⟨i, header, name, hheader, -, hbase⟩ | ⟨i, header, hheader, -, hbase⟩
  · have haddress := address_of_sectionHeader (sectionHeader_of_namedSection hheader)
    omega
  · have haddress := address_of_segmentHeader hheader
    omega

end Elf

/-! ## PE images -/

namespace Pe

/-- A number that is read as far as the file has it fits its field. -/
theorem paddedUint_lt (data : Bytes) (offset width : Nat) :
    data.paddedUint offset width < 256 ^ width :=
  ByteOrder.number_slice_lt .little data offset width

/-- The address of an image has at most eight bytes. -/
theorem imageBase_lt {file : Bytes} {start : Nat} {o : OptionalHeader}
    (h : OptionalHeader.read file start = .ok o) : o.imageBase < 2 ^ 64 := by
  simp only [OptionalHeader.read] at h
  split at h
  · cases h
  · cases h
    simp only
    split
    · exact paddedUint_lt file (start + 24) 8
    · exact Nat.lt_trans (paddedUint_lt file (start + 28) 4) (by decide)

/-- The address in a section header has four bytes. -/
theorem virtualAddress_lt {file : Bytes} {o : OptionalHeader} {count offset : Nat}
    {headers : List SectionHeader} (h : sectionHeaders file o count offset = .ok headers) :
    ∀ s ∈ headers, s.virtualAddress < 2 ^ 32 := by
  induction count generalizing offset headers with
  | zero =>
    cases h
    exact fun s hs => absurd hs List.not_mem_nil
  | succ count ih =>
    simp only [sectionHeaders] at h
    -- only a header that is whole and makes sense is kept
    split_ifs at h
    · cases h
      exact fun s hs => absurd hs List.not_mem_nil
    · cases h
      exact fun s hs => absurd hs List.not_mem_nil
    · cases h
      exact fun s hs => absurd hs List.not_mem_nil
    · obtain ⟨rest, hrest, hpure⟩ := bind_eq_ok_iff.1 h
      cases hpure
      exact List.forall_mem_cons.2 ⟨paddedUint_lt _ 12 4, ih hrest⟩

/-- **The code of a PE image is loaded below `2 ^ 65`.** -/
theorem base_of_mem_codeOf {file : Bytes} {image : Image} (h : Image.read file = .ok image)
    {s : Section} (hs : s ∈ image.codeOf file) : 0 ≤ s.base ∧ s.base < 2 ^ 65 := by
  obtain ⟨e, he, -, rfl⟩ := mem_codeSections.1 hs
  obtain ⟨header, hheader, rfl⟩ := List.mem_map.1 he
  unfold Image.read at h
  simp only [bind_eq_ok_iff] at h
  obtain ⟨nt, -, _, -, _, -, optional, hoptional, headers, hheaders, hpure⟩ := h
  cases hpure
  have hbase := imageBase_lt hoptional
  have hmem : header ∈ headers := (byAddress_perm headers).mem_iff.1 (List.mem_filter.1 hheader).1
  have haddress := virtualAddress_lt hheaders header hmem
  show (0 : Int) ≤ optional.imageBase + header.virtualAddress ∧
    (optional.imageBase : Int) + header.virtualAddress < 2 ^ 65
  omega

end Pe

/-- **The code of an image is loaded below `2 ^ 65`**, whatever its format. -/
theorem base_of_mem_loadAll {path : Path} {file : Bytes} {format : Format}
    {sections : List Section} (h : loadAll path (.file file) = .ok (some (format, sections)))
    {s : Section} (hs : s ∈ sections) : 0 ≤ s.base ∧ s.base < 2 ^ 65 := by
  have hcode : codeOf file = .ok (some (format, sections)) := h
  unfold codeOf at hcode
  split at hcode
  · cases hcode
  · next f _ =>
    obtain ⟨found, hfound, heq⟩ := map_eq_ok_iff.1 hcode
    obtain ⟨rfl, rfl⟩ := Prod.mk.inj (Option.some.inj heq)
    cases f with
    | pe =>
      obtain ⟨image, himage, rfl⟩ := map_eq_ok_iff.1 hfound
      exact Pe.base_of_mem_codeOf (mapError_eq_ok_iff.1 himage) hs
    | elf =>
      obtain ⟨header, -, hwalk⟩ := bind_eq_ok_iff.1 hfound
      obtain ⟨hpos, hlt⟩ := Elf.base_of_mem_codeOf (mapError_eq_ok_iff.1 hwalk) hs
      exact ⟨hpos, Int.lt_trans hlt (by decide)⟩

end SigScan
