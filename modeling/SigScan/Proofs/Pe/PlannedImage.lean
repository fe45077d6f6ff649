/-
# Images with headers and bodies in a row

A PE image is written from a list of sections: the DOS header, the NT headers and the section table,
filled up to a sector, and then the bodies of the sections, each of them whole sectors.

Loading such an image gives back exactly its code sections, `load_plannedImage`. On the way there,
`PlannedImage.headers_read` reads the headers back: every section makes sense where the layout puts
it (`PlannedImage.sensible_of_mem_headers`), and the sections are in the order of their addresses.
`PlannedImage.entries_eq` gives each entry its own bytes.
-/
import SigScan.Proofs.Pe.Encoding

namespace SigScan.Pe

open Elf (IsPlainName)

/-! ## What is written -/

/-- A section to be written. -/
structure SectionPlan where
  name : String
  characteristics : Nat
  /-- The address, counted from the image base. -/
  address : Nat
  /-- The size in memory. -/
  room : Nat
  /-- The bytes that the file has for the section. -/
  body : Bytes
  deriving DecidableEq, Repr

namespace SectionPlan

/-- Is the section executable? -/
def isCode (s : SectionPlan) : Bool := s.characteristics.testBit 29

/-- The section as it is loaded; an address behind 64 bits is not wrapped. -/
def loaded (imageBase : Nat) (s : SectionPlan) : Section := ⟨s.name, s.body, imageBase + s.address⟩

/-- The entry of the section. -/
def entry (s : SectionPlan) : SectionEntry := ⟨nameField s.name, s.characteristics, s.address, s.body⟩

/-- The section header, with the body at a given place. -/
def header (s : SectionPlan) (offset : Nat) : SectionHeader where
  nameBytes := nameField s.name
  virtualSize := s.room
  virtualAddress := s.address
  rawSize := s.body.size
  rawOffset := offset
  characteristics := s.characteristics

/-- A section that can be written: a name of one to eight plain characters, a page to start at, and
whole sectors of bytes. The name that drivers have for their paged code is left out. -/
structure WellFormed (s : SectionPlan) : Prop where
  plain : IsPlainName s.name
  named : s.name ≠ ""
  short : s.name.length ≤ 8
  not_page : s.name ≠ "PAGE"
  behind_headers : 0 < s.address
  paged : pageSize ∣ s.address
  low : s.address < sensibleBound
  small : s.room ≤ sensibleBound
  filled : 0 < s.body.size
  whole : sectorSize ∣ s.body.size

/-- The sections that the loader takes for code are the executable ones. -/
theorem isCode_eq (s : SectionPlan) : Pe.isCode s.characteristics = s.isCode :=
  hasBit_natCast s.characteristics 29

/-- A section is loaded with its own name, address and bytes. -/
theorem toSection_entry {s : SectionPlan} (hs : s.WellFormed) (imageBase : Nat) :
    s.entry.toSection imageBase = s.loaded imageBase := by
  rw [SectionEntry.toSection, entry, nameOf_nameField hs.plain]
  rfl

end SectionPlan

/-- The start of the first sector that is not in front of a position. -/
def sectorFrom (n : Nat) : Nat := (n + (sectorSize - 1)) / sectorSize * sectorSize

/-- The sector does not start in front of the position. -/
theorem le_sectorFrom (n : Nat) : n ≤ sectorFrom n := by
  simp only [sectorFrom, sectorSize]
  omega

/-- An image to be written. -/
structure PlannedImage where
  imageBase : Nat
  preamble : Preamble
  sections : List SectionPlan
  deriving DecidableEq, Repr

namespace PlannedImage

/-- The file header. -/
def fileHeader (image : PlannedImage) : FileHeader := ⟨image.sections.length, optionalHeaderSize⟩

/-- The optional header: sections start at pages in memory and at sectors in the file. -/
def optional (image : PlannedImage) : OptionalHeader := ⟨image.imageBase, pageSize, sectorSize⟩

/-- The contents of the sections. -/
def bodies (image : PlannedImage) : List (List UInt8) := image.sections.map (·.body.toList)

/-- Where the section table starts. -/
def tableAt : Nat := dosHeaderSize + 24 + optionalHeaderSize

/-- Where the section table ends. -/
def tableEnd (image : PlannedImage) : Nat := tableAt + image.sections.length * sectionHeaderSize

/-- Where the contents of the sections start. -/
def bodiesAt (image : PlannedImage) : Nat := sectorFrom image.tableEnd

/-- The header of a section of the list. -/
def planHeader (image : PlannedImage) (i : Nat) (s : SectionPlan) : SectionHeader :=
  s.header (image.bodiesAt + startOf image.bodies i)

/-- The entries of the section table. -/
def headers (image : PlannedImage) : List SectionHeader := image.sections.mapIdx image.planHeader

/-- The entries of the section table as they are written. -/
def table (image : PlannedImage) : List UInt8 := (image.headers.map SectionHeader.bytes).flatten

/-- The bytes of the image. -/
def bytes (image : PlannedImage) : List UInt8 :=
  ByteOrder.little.fields dosFields ++
    (ByteOrder.little.fields (image.fileHeader.fields image.preamble) ++
      (ByteOrder.little.fields (image.optional.fields image.preamble) ++
        (image.table ++
          (List.replicate (image.bodiesAt - image.tableEnd) 0 ++ image.bodies.flatten))))

/-- The image as a file. -/
def file (image : PlannedImage) : Bytes := image.bytes.toArray

/-- An image that can be written: up to 96 sections, at increasing addresses, and fields that have
room for their numbers. -/
structure WellFormed (image : PlannedImage) : Prop where
  nonempty : image.sections ≠ []
  few : image.sections.length ≤ 96
  sections : ∀ s ∈ image.sections, s.WellFormed
  ordered : image.sections.Pairwise (·.address < ·.address)
  fileHeaderFits : FieldsFit (image.fileHeader.fields image.preamble)
  optionalFits : FieldsFit (image.optional.fields image.preamble)
  headersFit : ∀ s ∈ image.headers, FieldsFit s.fields

/-! ## Where everything is -/

/-- The section table is as long as its entries together. -/
theorem length_table (image : PlannedImage) (hw : image.WellFormed) :
    image.table.length = image.sections.length * sectionHeaderSize := by
  have hwidth : ∀ b ∈ image.headers.map SectionHeader.bytes, b.length = sectionHeaderSize := by
    intro b hb
    obtain ⟨e, he, rfl⟩ := List.mem_map.1 hb
    obtain ⟨i, hi, rfl⟩ := List.mem_mapIdx.1 he
    exact SectionHeader.length_bytes
      (length_nameField (hw.sections _ (List.getElem_mem hi)).short)
  have hall := startOf_of_width _ sectionHeaderSize _ hwidth (Nat.le_refl _)
  rw [startOf, List.take_length, List.length_map, headers, List.length_mapIdx] at hall
  exact hall

/-- The parts of the image are where the layout puts them. -/
theorem file_holds (image : PlannedImage) (hw : image.WellFormed) :
    image.file.Holds 0 (ByteOrder.little.fields dosFields) ∧
      image.file.Holds dosHeaderSize
        (ByteOrder.little.fields (image.fileHeader.fields image.preamble)) ∧
      image.file.Holds (dosHeaderSize + 24)
        (ByteOrder.little.fields (image.optional.fields image.preamble)) ∧
      image.file.Holds tableAt image.table ∧
      image.file.Holds image.bodiesAt image.bodies.flatten := by
  have h : image.file.Holds 0 image.bytes := Bytes.holds_self image.bytes
  have hpadded : image.tableEnd + (image.bodiesAt - image.tableEnd) = image.bodiesAt :=
    Nat.add_sub_cancel' (le_sectorFrom image.tableEnd)
  simp only [bytes, Bytes.holds_append, length_dosFields, FileHeader.length_fields,
    OptionalHeader.length_fields, image.length_table hw, List.length_replicate, Nat.zero_add] at h
  obtain ⟨hdosBytes, hheaderBytes, hoptionalBytes, htable, -, hbodies⟩ := h
  rw [← tableAt, ← tableEnd, hpadded] at hbodies
  exact ⟨hdosBytes, hheaderBytes, hoptionalBytes, htable, hbodies⟩

/-- The body of a section is where its header says. -/
theorem holds_body (image : PlannedImage) (hw : image.WellFormed) (i : Nat) (s : SectionPlan)
    (hi : image.sections[i]? = some s) :
    image.file.Holds (image.bodiesAt + startOf image.bodies i) s.body.toList := by
  have hbody : image.bodies[i]? = some s.body.toList := by
    rw [bodies, List.getElem?_map, hi]
    rfl
  exact (image.file_holds hw).2.2.2.2.block i _ hbody

/-- The bodies start at sectors. -/
theorem sectorSize_dvd (image : PlannedImage) (hw : image.WellFormed) (i : Nat) :
    sectorSize ∣ image.bodiesAt + startOf image.bodies i := by
  have hwhole : ∀ b ∈ image.bodies, sectorSize ∣ b.length := by
    intro b hb
    obtain ⟨s, hs, rfl⟩ := List.mem_map.1 hb
    rw [Array.length_toList]
    exact (hw.sections s hs).whole
  exact Nat.dvd_add (Nat.dvd_mul_left _ _) (dvd_startOf hwhole i)

/-! ## The headers -/

/-- The section headers can be written. -/
theorem fits_of_mem_headers (image : PlannedImage) (hw : image.WellFormed) :
    ∀ s ∈ image.headers, s.Fits := by
  intro e he
  have hfields := hw.headersFit e he
  obtain ⟨i, hi, rfl⟩ := List.mem_mapIdx.1 he
  have hs := hw.sections _ (List.getElem_mem hi)
  refine ⟨length_nameField hs.short, ?_, hfields⟩
  exact exists_ne_zero_of_nameField hs.plain hs.named

/-- **Every section header makes sense**: the body is in the file, at a sector. -/
theorem sensible_of_mem_headers (image : PlannedImage) (hw : image.WellFormed) :
    ∀ s ∈ image.headers, s.Sensible image.optional image.file.size := by
  intro e he
  obtain ⟨i, hi, rfl⟩ := List.mem_mapIdx.1 he
  have hs := hw.sections _ (List.getElem_mem hi)
  have hinside := (image.holds_body hw i _ (List.getElem?_eq_getElem hi)).length_le
  have hfilled := hs.filled
  rw [Array.length_toList] at hinside
  refine ⟨?_, hs.small, Nat.le_of_lt hs.low, image.sectorSize_dvd hw i⟩
  show (image.sections[i]).body.size + (image.bodiesAt + startOf image.bodies i) ≤ image.file.size
  omega

/-- The sections are in the order of their addresses. -/
theorem pairwise_headers (image : PlannedImage) (hw : image.WellFormed) :
    image.headers.Pairwise InOrder := by
  rw [List.pairwise_iff_getElem]
  intro i j hi hj hij
  have h := List.pairwise_iff_getElem.1 hw.ordered i j (by simpa [headers] using hi)
    (by simpa [headers] using hj) hij
  simp only [headers, List.getElem_mapIdx]
  exact Nat.le_of_lt h

/-- **The headers are read back.** -/
theorem headers_read (image : PlannedImage) (hw : image.WellFormed) :
    Image.read image.file = .ok ⟨image.optional, image.headers⟩ := by
  obtain ⟨hdos, hheader, hoptional, htable, -⟩ := image.file_holds hw
  have hcount : min image.fileHeader.sectionCount sectionLimit = image.headers.length := by
    have hlimit : image.sections.length ≤ sectionLimit := Nat.le_trans hw.few (by decide)
    rw [headers, List.length_mapIdx]
    exact Nat.min_eq_left hlimit
  have hsections : sectionHeaders image.file image.optional image.headers.length tableAt =
      .ok image.headers :=
    sectionHeaders_of_holds (image.fits_of_mem_headers hw) (image.sensible_of_mem_headers hw) htable
  simp only [Image.read, ntOffset_of_holds hdos, checkSignature_of_holds hw.fileHeaderFits hheader,
    FileHeader.read_of_holds hw.fileHeaderFits hheader,
    OptionalHeader.read_of_holds hw.optionalFits hoptional, hcount, bind, Except.bind, pure,
    Except.pure]
  rw [show dosHeaderSize + 24 + image.fileHeader.optionalHeaderSize = tableAt from rfl, hsections]
  simp only [byAddress_of_pairwise (image.pairwise_headers hw)]

/-! ## The code -/

/-- The content of a section is its body. -/
theorem content_planHeader (image : PlannedImage) (hw : image.WellFormed) (i : Nat)
    (s : SectionPlan) (hi : image.sections[i]? = some s) :
    (image.planHeader i s).content image.file image.optional = s.body := by
  have hpaged : image.optional.isPaged = true := rfl
  have hoffset : (image.planHeader i s).contentOffset image.optional =
      image.bodiesAt + startOf image.bodies i := by
    rw [SectionHeader.contentOffset, hpaged, if_neg (fun h => Bool.false_ne_true h.1)]
    exact roundDown_of_dvd (image.sectorSize_dvd hw i)
  rw [SectionHeader.content, hoffset]
  exact (image.holds_body hw i s hi).slice_eq

/-- **Every entry has its own bytes.** -/
theorem entries_eq (image : PlannedImage) (hw : image.WellFormed) :
    image.headers.map (·.entry image.file image.optional) = image.sections.map (·.entry) := by
  apply List.ext_getElem?
  intro i
  rw [headers, List.getElem?_map, List.getElem?_mapIdx, List.getElem?_map]
  cases hi : image.sections[i]? with
  | none => rfl
  | some s =>
    show some ((image.planHeader i s).entry image.file image.optional) = some s.entry
    rw [SectionHeader.entry, image.content_planHeader hw i s hi]
    rfl

/-- **The section table gives back the code sections**, in the order of the list. -/
theorem codeOf_eq (image : PlannedImage) (hw : image.WellFormed) :
    Image.codeOf image.file ⟨image.optional, image.headers⟩ =
      (image.sections.filter (·.isCode)).map (·.loaded image.imageBase) := by
  have hentries : (image.headers.filter fun s => isCode s.characteristics).map
        (·.entry image.file image.optional) =
      (image.sections.map (·.entry)).filter fun e => isCode e.characteristics := by
    rw [← image.entries_eq hw, List.filter_map]
    rfl
  have hcode : ((fun e : SectionEntry => isCode e.characteristics) ∘ fun s : SectionPlan =>
      s.entry) = fun s => s.isCode := funext SectionPlan.isCode_eq
  show codeSections image.imageBase _ = _
  rw [hentries, codeSections, List.filter_filter]
  simp only [Bool.and_self]
  rw [List.filter_map, hcode, List.map_map]
  refine List.map_congr_left fun s hs => ?_
  exact SectionPlan.toSection_entry (hw.sections s (List.mem_of_mem_filter hs)) image.imageBase

end PlannedImage

/-- **A written image is loaded as it was**: with exactly its executable sections, in the order of
the section table, each with its name, its address behind the image base and its bytes. -/
theorem load_plannedImage (image : PlannedImage) (hw : image.WellFormed) (path : Path) :
    load path (.file image.file) [] =
      .ok (some (.pe, (image.sections.filter (·.isCode)).map (·.loaded image.imageBase))) := by
  rw [load_pe path (ofHead?_of_holds (image.file_holds hw).1) (image.headers_read hw),
    image.codeOf_eq hw]

/-- An image at the upper end of 64 bits: code, data, and code again, whose address is not
wrapped. -/
def highImage : PlannedImage where
  imageBase := 2 ^ 64 - 0x1000
  preamble := ⟨0x8664, 0x22, 0x400, 0x200, 0x1000, 0x1000, 0x4000, 0x200, 3⟩
  sections :=
    [⟨".text", 0x60000020, 0x1000, 0x1FF, Array.replicate 0x200 0x90⟩,
      ⟨".rdata", 0x40000040, 0x2000, 8, Array.replicate 0x200 0x2E⟩,
      ⟨"INIT", 0xE2000020, 0x3000, 0x2000, Array.replicate 0x400 0xCC⟩]

/-- The code sections of `highImage` are its first and its last one. -/
theorem load_highImage :
    highImage.WellFormed ∧
      load ⟨"", ["sample"]⟩ (.file highImage.file) [] =
        .ok (some (.pe, [⟨".text", Array.replicate 0x200 0x90, 2 ^ 64⟩,
          ⟨"INIT", Array.replicate 0x400 0xCC, 2 ^ 64 + 0x2000⟩])) := by
  have hsections : ∀ s ∈ highImage.sections, s.WellFormed := by
    intro s hs
    simp only [highImage, List.mem_cons, List.not_mem_nil, or_false] at hs
    rcases hs with rfl | rfl | rfl
    all_goals exact ⟨by decide, by decide, by decide, by decide, by decide, by decide, by decide,
      by decide, by simp, by simp [sectorSize]⟩
  have hw : highImage.WellFormed := {
    nonempty := by decide
    few := by decide
    sections := hsections
    ordered := by decide
    fileHeaderFits := by decide
    optionalFits := by decide
    headersFit := by decide +kernel }
  exact ⟨hw, load_plannedImage highImage hw ⟨"", ["sample"]⟩⟩

end SigScan.Pe
