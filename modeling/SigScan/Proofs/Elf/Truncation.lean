/-
# Truncated images

An image that ends with its section table is cut off somewhere. Wherever that is, the loss is told:
the last entry of the table is the one that the names of all sections depend on, and it is never
whole. A cut in front of the table leaves less to read, and may leave no file header or no magic.

* `Header.size_le_of_read`: a file that is too short for a file header has none;
* `sectionHeader_of_size_lt`: a section header that is not whole is refused;
* `SectionImage.nameTable_cut`, `SectionImage.codeOf_cut`: the tables of a cut image are refused;
* `SectionImage.tellsLoss_cut`: what loading and running a cut image come to;
* `tellsLoss_cut_textImage`: the same for an image of one code section.
-/
import SigScan.Proofs.Elf.SectionImage
import SigScan.Proofs.Escape

namespace SigScan

/-! ## The bytes in front of a cut -/

/-- What a file holds in front of a cut is still there. -/
theorem Bytes.Holds.cut {data : Bytes} {p k : Nat} {bs : List UInt8} (h : data.Holds p bs)
    (hk : p + bs.length ≤ k) : (data.slice 0 k).Holds p bs := by
  unfold Bytes.Holds
  rw [Bytes.toList_slice, List.drop_zero, List.drop_take, List.prefix_take_iff]
  exact ⟨h, by omega⟩

/-- A file that is cut off has as many bytes as are left. -/
theorem Bytes.size_cut {data : Bytes} {k : Nat} (h : k < data.size) :
    (data.slice 0 k).size = k := by
  rw [Bytes.size_slice]
  omega

/-- The first bytes of what is in front of a cut. -/
theorem Bytes.toList_slice_cut (data : Bytes) (k n : Nat) :
    ((data.slice 0 k).slice 0 n).toList = (data.slice 0 n).toList.take k := by
  simp only [Bytes.toList_slice, List.drop_zero, List.take_take, Nat.min_comm]

namespace Elf

/-! ## Headers that are not whole -/

/-- The word size of a file header is that of its class byte, and the whole header is there. -/
theorem Header.size_le_of_read {file : Bytes} {h : Header} (hread : Header.read file = .ok h) :
    WordSize.ofClass? (file.slice 4 1).toList = some h.wordSize ∧ size h.wordSize ≤ file.size := by
  unfold Header.read at hread
  split at hread
  · cases hread
  · split at hread
    · cases hread
    · next w hw =>
      split at hread
      · cases hread
      · next order _ =>
        have hfields := mapError_eq_ok_iff.1 hread
        clear hread
        unfold readFields at hfields
        simp only [bind_eq_ok_iff] at hfields
        obtain ⟨_, -, _, -, _, -, _, -, _, -, _, -, _, -, _, -, _, -, _, -, _, -, _, -, _, -, index,
          hindex, hdone⟩ := hfields
        cases hdone
        -- the index of the table of names is the last field
        have hlast := (Bytes.uint_isOk_iff (by decide)).1 ⟨index, hindex⟩
        refine ⟨hw, ?_⟩
        show 40 + 3 * w.bytes ≤ file.size
        omega

/-- A step that can fail only because the file is cut short. -/
def FailsShort {α : Type} (x : Walk α) : Prop := ∀ f, x = .error f → ∃ s, f = .table (.cut s)

/-- Such steps stay so one after the other. -/
theorem failsShort_bind {α β : Type} {x : Walk α} {f : α → Walk β} (hx : FailsShort x)
    (hf : ∀ a, FailsShort (f a)) : FailsShort (x >>= f) := by
  intro e h
  rcases bind_eq_error_iff.1 h with hx' | ⟨a, -, ha⟩
  · exact hx e hx'
  · exact hf a e ha

/-- A field is read, or the file is cut short. -/
theorem failsShort_uint (file : Bytes) (h : Header) (p width : Nat) :
    FailsShort (uint file h p width) := by
  intro f hf
  obtain ⟨s, -, hs⟩ := mapError_eq_error_iff.1 hf
  exact ⟨s, hs.symm⟩

/-- A section header is read, or the file is cut short. -/
theorem failsShort_readAt (file : Bytes) (h : Header) (p : Nat) :
    FailsShort (SectionHeader.readAt file h p) := by
  unfold SectionHeader.readAt
  iterate 10
    refine failsShort_bind (failsShort_uint file h _ _) fun _ => ?_
  intro f hf
  cases hf

/-- A section header that is read is there as a whole. -/
theorem SectionHeader.add_width_le_of_readAt {file : Bytes} {h : Header} {p : Nat}
    {s : SectionHeader} (hs : SectionHeader.readAt file h p = .ok s) :
    p + width h.wordSize ≤ file.size := by
  unfold SectionHeader.readAt at hs
  simp only [bind_eq_ok_iff] at hs
  obtain ⟨_, -, _, -, _, -, _, -, _, -, _, -, _, -, _, -, _, -, entrySize, hentrySize, -⟩ := hs
  -- the size of the entries is the last field
  have hpos : 0 < h.wordSize.bytes := by
    cases h.wordSize <;> decide
  have hlast := (Bytes.uint_isOk_iff hpos).1 ⟨entrySize, mapError_eq_ok_iff.1 hentrySize⟩
  rw [width]
  omega

/-- **A section header that is not whole is refused**, for what is missing. -/
theorem sectionHeader_of_size_lt {file : Bytes} {h : Header} {index : Nat}
    (hentry : SectionHeader.width h.wordSize ≤ h.sectionEntrySize)
    (hsize : file.size < h.sectionHeaderAt index + SectionHeader.width h.wordSize) :
    ∃ f, sectionHeader file h index = .error (.table f) ∧ f.isStructural = true := by
  unfold sectionHeader
  rw [if_neg (fun hsmall => by omega)]
  split
  · exact ⟨_, rfl, rfl⟩
  · cases hread : SectionHeader.readAt file h (h.sectionHeaderAt index) with
    | ok s =>
      have hle := SectionHeader.add_width_le_of_readAt hread
      omega
    | error f =>
      obtain ⟨s, rfl⟩ := failsShort_readAt file h _ f hread
      exact ⟨_, rfl, rfl⟩

/-! ## Sections without names -/

/-- Without the table of names no section is read. -/
theorem codeSectionAt_of_nameTable {file : Bytes} {h : Header} {g : TableFault}
    (hnames : nameTable file h = .error (.table g)) (index : Nat) :
    ∃ f, codeSectionAt file h index = .error (.table f) := by
  have hname : ∀ s, sectionName file h s = .error (.table g) := fun s =>
    bind_eq_error_iff.2 (.inl hnames)
  have hnamed : ∃ f, namedSection file h index = .error (.table f) := by
    rw [namedSection_eq]
    cases hheader : sectionHeader file h index with
    | ok s => exact ⟨g, bind_eq_error_iff.2 (.inr ⟨s, rfl, bind_eq_error_iff.2 (.inl (hname s))⟩)⟩
    | error f =>
      cases f with
      | table f => exact ⟨f, rfl⟩
      | unreachable u => exact absurd hheader (inReach_sectionHeader file h index u)
  obtain ⟨f, hf⟩ := hnamed
  exact ⟨f, bind_eq_error_iff.2 (.inl hf)⟩

/-- Without the table of names the code of a file with sections is not read. -/
theorem codeOf_of_nameTable {file : Bytes} {h : Header} {g : TableFault}
    (hnames : nameTable file h = .error (.table g)) (htable : h.sectionTable ≠ 0)
    (hcount : h.sectionCount ≠ 0) : ∃ f, Elf.codeOf file h = .error (.table f) := by
  obtain ⟨f, hf⟩ := codeSectionAt_of_nameTable hnames 0
  have hwalk : collect (codeSectionAt file h) h.sectionCount 0 [] = .error (.table f) :=
    collect_eq_error_iff.2 ⟨0, Nat.le_refl 0, by omega, fun j _ hj => absurd hj (Nat.not_lt_zero j),
      hf⟩
  have hsections : sectionsOf file h = .error (.table f) := by
    rw [sectionsOf, sectionCount, if_neg htable, if_neg hcount]
    exact hwalk
  exact ⟨f, bind_eq_error_iff.2 (.inl hsections)⟩

/-! ## Cut images -/

namespace SectionImage

/-- The section table reaches from its start to the end of the image. -/
theorem size_file (image : SectionImage) :
    image.file.size =
      image.tableAt + (image.sections.length + 2) * SectionHeader.width image.wordSize := by
  have hwidth : ∀ b ∈ image.table, b.length = SectionHeader.width image.wordSize := by
    intro b hb
    obtain ⟨e, -, rfl⟩ := List.mem_map.1 hb
    exact SectionHeader.length_fields image.order image.wordSize e.2 e.1
  have hcount : image.table.length = image.sections.length + 2 := by
    simp [table, headers]
  have htable := startOf_of_width image.table _ image.table.length hwidth (Nat.le_refl _)
  rw [startOf, List.take_length, hcount] at htable
  have hheader : (image.header.bytes image.preamble).length = image.bodiesAt :=
    Header.length_bytes image.header image.preamble
  have hfiller : image.filler.toList.length = image.filler.size := Array.length_toList
  rw [file, List.size_toArray, bytes, List.length_append, hheader, List.length_append,
    List.length_append, List.length_append, htable, tableAt, namesAt, hfiller]
  omega

/-- **A cut image has no table of names**: its header, the last one of the section table, is not
whole. -/
theorem nameTable_cut (image : SectionImage) (hfew : image.sections.length + 2 < 0xFF00) {k : Nat}
    (hk : k < image.file.size) :
    Elf.nameTable (image.file.slice 0 k) image.header = .error (.table .noNameTable) := by
  have hne : image.header.nameTableIndex ≠ indexEscape := by
    simp only [header, indexEscape]
    omega
  have hlast : (image.file.slice 0 k).size <
      image.header.sectionHeaderAt (image.sections.length + 1) +
        SectionHeader.width image.wordSize := by
    have hsize := image.size_file
    rw [show image.sections.length + 2 = image.sections.length + 1 + 1 from rfl,
      Nat.add_mul _ 1, Nat.one_mul] at hsize
    rw [Bytes.size_cut hk]
    simp only [Header.sectionHeaderAt, header]
    omega
  obtain ⟨f, hf, hstructural⟩ := sectionHeader_of_size_lt (Nat.le_refl _) hlast
  have hindex : image.header.nameTableIndex = image.sections.length + 1 := rfl
  rw [nameTable_eq_openNames, if_neg hne, openNames, hindex, hf]
  simp only [hstructural, if_true]
  rfl

/-- The tables of a cut image are refused. -/
theorem codeOf_cut (image : SectionImage) (hfew : image.sections.length + 2 < 0xFF00) {k : Nat}
    (hk : k < image.file.size) :
    ∃ f, Elf.codeOf (image.file.slice 0 k) image.header = .error (.table f) := by
  refine codeOf_of_nameTable (image.nameTable_cut hfew hk) ?_ (Nat.succ_ne_zero _)
  show image.tableAt ≠ 0
  rw [tableAt, namesAt, bodiesAt, Header.size]
  omega

/-- The first bytes of a cut image are those of the magic that are left. -/
theorem ofHead?_cut (image : SectionImage) (k : Nat) :
    Format.ofHead? (image.file.slice 0 k) = if k < 4 then none else some .elf := by
  have hmagic : (image.file.slice 0 4).toList = Format.elf.magic := by
    have hheader := image.file_holds.1
    simp only [Header.bytes, Bytes.holds_append] at hheader
    exact hheader.1.toList_slice
  have hstarts : ∀ f : Format,
      f.starts (image.file.slice 0 k) = f.magic.isPrefixOf (Format.elf.magic.take k) := by
    intro f
    rw [Format.starts, Bytes.toList_slice_cut, hmagic]
  rw [Format.ofHead?, funext hstarts]
  split
  · next hk =>
    -- each of the four cuts inside the magic by itself
    interval_cases k <;> rfl
  · next hk =>
    rw [List.take_of_length_le (show Format.elf.magic.length ≤ k from Nat.le_of_not_lt hk)]
    rfl

/-- A file header that is read from a cut image is the one that was written. -/
theorem header_cut (image : SectionImage) (hfit : FieldsFit (image.header.fields image.preamble))
    {k : Nat} (hk : k < image.file.size) {h : Header}
    (hread : Header.read (image.file.slice 0 k) = .ok h) : h = image.header := by
  obtain ⟨hclass, hsize⟩ := Header.size_le_of_read hread
  rw [Bytes.size_cut hk] at hsize
  have hall := image.file_holds.1
  -- the class byte is in front of the cut, and tells how far the header reaches
  have hword : h.wordSize = image.wordSize := by
    have hparts := hall
    simp only [Header.bytes, Bytes.holds_append] at hparts
    have hfive : 5 ≤ k := by
      rw [Header.size] at hsize
      omega
    have hbyte : ((image.file.slice 0 k).slice 4 1).toList = [image.wordSize.classByte] :=
      (hparts.2.1.cut hfive).toList_slice
    have hback : WordSize.ofClass? [image.wordSize.classByte] = some image.wordSize := by
      cases image.wordSize <;> rfl
    rw [hbyte, hback] at hclass
    exact (Option.some.inj hclass).symm
  have hwritten := Header.read_of_holds (image.file.slice 0 k) image.header image.preamble hfit
    (hall.cut (by
      rw [Header.length_bytes, Nat.zero_add]
      show Header.size image.wordSize ≤ k
      rw [← hword]
      exact hsize))
  exact Except.ok.inj (hread.symm.trans hwritten)

/-- A cut image with its magic is refused. -/
theorem loadError_cut (image : SectionImage) (hfew : image.sections.length + 2 < 0xFF00)
    (hfit : FieldsFit (image.header.fields image.preamble)) {k : Nat}
    (hk : k < image.file.size) (hmagic : 4 ≤ k) :
    ∃ e, SigScan.codeOf (image.file.slice 0 k) = .error (.error e) := by
  unfold SigScan.codeOf
  rw [ofHead?_cut, if_neg (Nat.not_lt.2 hmagic)]
  cases hread : Header.read (image.file.slice 0 k) with
  | error f =>
    refine ⟨.elfHeader f, map_eq_error_iff.2 (bind_eq_error_iff.2 (.inl ?_))⟩
    exact mapError_eq_error_iff.2 ⟨f, hread, rfl⟩
  | ok h =>
    have hh := image.header_cut hfit hk hread
    subst hh
    obtain ⟨f, hf⟩ := image.codeOf_cut hfew hk
    refine ⟨.elfTables f, map_eq_error_iff.2 (bind_eq_error_iff.2 (.inr ⟨image.header, ?_, ?_⟩))⟩
    · exact mapError_eq_ok_iff.2 hread
    · exact mapError_eq_error_iff.2 ⟨_, hf, rfl⟩

end SectionImage

end Elf

/-! ## What is told of the rest -/

/-- What loading and running come to for the rest of a file whose end is lost. A run that takes
the sample as code, without a format, has nothing to miss. -/
structure TellsLoss (rest : Bytes) : Prop where
  /-- Loading fails, or knows no format. -/
  load_cases : ∀ path names, (∃ e, load path (.file rest) names = .error (.error e)) ∨
    load path (.file rest) names = .ok none
  /-- No format is known exactly if there is no room for a magic. -/
  load_none_iff : ∀ path names, load path (.file rest) names = .ok none ↔ rest.size < 4
  /-- A run reports an error, and neither matches nor sections. -/
  run_error : ∀ r path options, options.raw = false →
    ∃ o, run r path options (.file rest) = .ok o ∧ o.report.error ≠ none ∧ o.report.found = [] ∧
      o.report.sections = []

/-- The loss is told of a file that has no format if it is short, and is refused otherwise. -/
theorem tellsLoss_of_codeOf {rest : Bytes} (hshort : rest.size < 4 → codeOf rest = .ok none)
    (hlong : 4 ≤ rest.size → ∃ e, codeOf rest = .error (.error e)) : TellsLoss rest := by
  have hload : ∀ path names, load path (.file rest) names =
      (codeOf rest).map (·.map fun c => (c.1, Section.keepNamed names c.2)) := fun _ _ => rfl
  rcases Nat.lt_or_ge rest.size 4 with hsize | hsize
  · have hnone : ∀ path names, load path (.file rest) names = .ok none := by
      intro path names
      rw [hload, hshort hsize]
      rfl
    refine ⟨fun path names => .inr (hnone path names),
      fun path names => iff_of_true (hnone path names) hsize, ?_⟩
    intro r path options hraw
    have hall : loadAll path (.file rest) = .ok none := hshort hsize
    refine ⟨.ofFailure path none [] [] (.unknownFormat path), ?_, Option.some_ne_none _, rfl, rfl⟩
    simp only [run_file, hraw, Bool.false_eq_true, if_false, runImage, hall]
  · obtain ⟨e, he⟩ := hlong hsize
    have herror : ∀ path names, load path (.file rest) names = .error (.error e) := by
      intro path names
      rw [hload, he]
      rfl
    refine ⟨fun path names => .inl ⟨e, herror path names⟩, fun path names => ?_, ?_⟩
    · rw [herror]
      exact iff_of_false (by simp) (Nat.not_lt.2 hsize)
    · intro r path options hraw
      exact ⟨_, run_of_load_error hraw (herror path _), Option.some_ne_none _, rfl, rfl⟩

/-- **Wherever an image is cut off, the loss is told.** -/
theorem Elf.SectionImage.tellsLoss_cut (image : Elf.SectionImage)
    (hfew : image.sections.length + 2 < 0xFF00)
    (hfit : FieldsFit (image.header.fields image.preamble)) {k : Nat}
    (hk : k < image.file.size) : TellsLoss (image.file.slice 0 k) := by
  apply tellsLoss_of_codeOf
  · intro hshort
    rw [Bytes.size_cut hk] at hshort
    rw [codeOf_eq_none_iff, image.ofHead?_cut, if_pos hshort]
  · intro hlong
    rw [Bytes.size_cut hk] at hlong
    exact image.loadError_cut hfew hfit hk hlong

/-! ## Images of one code section -/

/-- A little-endian 64-bit image of one code section, its section table at a multiple of eight. -/
def textImage (text : Bytes) (address : Nat) : Elf.SectionImage where
  wordSize := .bits64
  order := .little
  machine := Elf.machineX64
  preamble := ⟨2, 1, address, 0⟩
  sections := [⟨".text", .stored, 6, address, 16, text⟩]
  filler := Array.replicate ((8 - (64 + text.size + 17) % 8) % 8) 0

/-- Where the names of such an image start. -/
theorem namesAt_textImage (text : Bytes) (address : Nat) :
    (textImage text address).namesAt = 64 + text.size := by
  have hbodies : (textImage text address).bodies.flatten.length = text.size := by
    simp [textImage, Elf.SectionImage.bodies]
  have hat : (textImage text address).bodiesAt = 64 := rfl
  rw [Elf.SectionImage.namesAt, hat, hbodies]

/-- The names of such an image do not depend on the code. -/
theorem nameTable_textImage (text : Bytes) (address : Nat) :
    (textImage text address).nameTable =
      0 :: (Elf.nameBytes ".text" ++ Elf.nameBytes ".shstrtab") := by
  show 0 :: (Elf.nameBytes ".text" ++ (Elf.nameBytes ".shstrtab" ++ [])) = _
  rw [List.append_nil]

/-- How long the names of such an image are. -/
theorem length_nameTable_textImage (text : Bytes) (address : Nat) :
    (textImage text address).nameTable.length = 17 := by
  rw [nameTable_textImage]
  rfl

/-- Where the section table of such an image starts. -/
theorem tableAt_textImage (text : Bytes) (address : Nat) :
    (textImage text address).tableAt = (64 + text.size + 17 + 7) / 8 * 8 := by
  have hfiller : (textImage text address).filler.size = (8 - (64 + text.size + 17) % 8) % 8 :=
    Array.size_replicate
  rw [Elf.SectionImage.tableAt, namesAt_textImage, length_nameTable_textImage, hfiller]
  omega

/-- The section headers of such an image. -/
theorem headers_textImage (text : Bytes) (address : Nat) :
    (textImage text address).headers =
      [(⟨0, 0, 0, 0, 0, 0, 0, 0, 0⟩, 0), (⟨1, 1, 6, address, 64, text.size, 0, 0, 0⟩, 16),
        (⟨7, 3, 0, 0, 64 + text.size, 17, 0, 0, 0⟩, 1)] := by
  have hstart : (textImage text address).nameStart 1 = 7 := by
    show 1 + startOf [Elf.nameBytes ".text", Elf.nameBytes ".shstrtab"] 1 = 7
    rfl
  rw [← namesAt_textImage text address, ← length_nameTable_textImage text address, ← hstart]
  rfl

/-- The file header of such an image has room for its numbers, if only for the address and for the
place of the section table. -/
theorem fieldsFit_textImage {text : Bytes} {address : Nat} (haddress : address < 2 ^ 64)
    (hroom : text.size + 88 < 2 ^ 64) :
    FieldsFit ((textImage text address).header.fields (textImage text address).preamble) := by
  have hfields : (textImage text address).header.fields (textImage text address).preamble =
      [(2, 2), (2, 62), (4, 1), (8, address), (8, 0), (8, (textImage text address).tableAt), (4, 0),
        (2, 64), (2, 56), (2, 0), (2, 64), (2, 3), (2, 2)] := rfl
  rw [hfields, tableAt_textImage]
  simp only [FieldsFit, List.forall_mem_cons, List.not_mem_nil, false_implies, implies_true,
    and_true]
  omega

/-- The image as a whole has its code section. -/
theorem load_textImage {text : Bytes} {address : Nat} (haddress : address < 2 ^ 64)
    (hreach : (textImage text address).file.size < Elf.reach) (path : Path) :
    load path (.file (textImage text address).file) [] =
      .ok (some (.elf, [⟨".text", text, address⟩])) := by
  have hsize : (textImage text address).file.size =
      (textImage text address).tableAt + 3 * 64 := (textImage text address).size_file
  rw [tableAt_textImage] at hsize
  have hroom : text.size + 88 < 2 ^ 63 := by
    rw [Elf.reach] at hreach
    omega
  have hone : ∀ s ∈ (textImage text address).sections,
      s = ⟨".text", .stored, 6, address, 16, text⟩ := fun s hs => List.mem_singleton.1 hs
  have hw : (textImage text address).WellFormed := {
    plain := by
      intro s hs
      rw [hone s hs]
      show Elf.IsPlainName ".text"
      decide
    uncompressed := by
      intro s hs
      rw [hone s hs]
      show Nat.testBit 6 11 = false
      decide
    few := show 1 + 2 < 0xFF00 by decide
    headerFits := fieldsFit_textImage haddress (by omega)
    headersFit := by
      rw [headers_textImage]
      simp only [FieldsFit, Elf.SectionHeader.fields, List.forall_mem_cons, List.not_mem_nil,
        false_implies, implies_true, and_true]
      have hbytes : (textImage text address).wordSize.bytes = 8 := rfl
      rw [hbytes]
      omega
    inReach := hreach }
  have hcode : (textImage text address).sections.filter (·.isCode) =
      (textImage text address).sections := by
    apply List.filter_eq_self.2
    intro s hs
    rw [hone s hs]
    show (Nat.testBit 6 2 && Elf.Storage.stored == .stored) = true
    decide
  have hload := Elf.load_sectionImage (textImage text address) hw path
  rw [hcode] at hload
  exact hload

/-- **Wherever an image of one code section is cut off, the loss is told.** Its text and its
address are free, up to the room that the file header has. -/
theorem tellsLoss_cut_textImage {text : Bytes} {address : Nat} (haddress : address < 2 ^ 64)
    (hroom : text.size + 88 < 2 ^ 64) {k : Nat} (hk : k < (textImage text address).file.size) :
    TellsLoss ((textImage text address).file.slice 0 k) :=
  (textImage text address).tellsLoss_cut (show 1 + 2 < 0xFF00 by decide)
    (fieldsFit_textImage haddress hroom) hk

/-- The image of a return instruction, without its last byte. -/
theorem tellsLoss_cut_return :
    (textImage #[0xC3] 0x401000).file.size = 280 ∧
      TellsLoss ((textImage #[0xC3] 0x401000).file.slice 0 279) := by
  have hsize : (textImage #[0xC3] 0x401000).file.size = 280 := by decide +kernel
  exact ⟨hsize, tellsLoss_cut_textImage (by decide) (by decide) (by rw [hsize]; decide)⟩

end SigScan
