/-
# Writing the headers of a PE file

The writing side of the PE readers: the DOS header, the NT headers and the section table as rows of
fields, and what the readers make of a file that holds them. What no reader looks at is free where
`Preamble` has it, and fixed otherwise.

* `ntOffset_of_holds`, `checkSignature_of_holds`, `FileHeader.read_of_holds`,
  `OptionalHeader.read_of_holds`: the headers, one by one;
* `SectionHeader.ofBytes_eq`: an entry of the section table;
* `sectionHeaders_of_holds`: the walk over the section table;
* `nameOf_nameField`: a name, padded to its field;
* `load_pe`: a file whose headers are read is loaded.
-/
import SigScan.Proofs.Pe.Names

namespace SigScan

/-- A number that can be read is read with bytes past the end counting as zero, too. -/
theorem Bytes.paddedUint_of_uint {data : Bytes} {offset width n : Nat}
    (h : data.uint .little offset width = .ok n) : data.paddedUint offset width = n := by
  simp only [Bytes.uint] at h
  split at h
  · cases h
    rfl
  · cases h

namespace Pe

open Elf (IsPlainName asciiBytes asciiBytes_eq_encode)

/-! ## The headers in front of the section table -/

/-- What the headers tell that does not matter for the code. -/
structure Preamble where
  machine : Nat
  characteristics : Nat
  codeSize : Nat
  dataSize : Nat
  entry : Nat
  codeAddress : Nat
  imageSize : Nat
  headersSize : Nat
  subsystem : Nat
  deriving DecidableEq, Repr

/-- The fields of a DOS header that the NT headers follow at once. -/
def dosFields : List (Nat × Nat) := [(2, 0x5A4D), (58, 0), (4, dosHeaderSize)]

/-- The width of an optional header with 64-bit addresses and all its directories. -/
def optionalHeaderSize : Nat := 240

/-- The fields of the NT signature and the file header. -/
def FileHeader.fields (h : FileHeader) (pre : Preamble) : List (Nat × Nat) :=
  [(4, ntSignature), (2, pre.machine), (2, h.sectionCount), (4, 0), (4, 0), (4, 0),
    (2, h.optionalHeaderSize), (2, pre.characteristics)]

/-- The fields of an optional header with 64-bit addresses; its directories are empty. -/
def OptionalHeader.fields (o : OptionalHeader) (pre : Preamble) : List (Nat × Nat) :=
  [(2, wideMagic), (1, 0), (1, 0), (4, pre.codeSize), (4, pre.dataSize), (4, 0), (4, pre.entry),
    (4, pre.codeAddress), (8, o.imageBase), (4, o.sectionAlignment), (4, o.fileAlignment), (2, 6),
    (2, 0), (2, 0), (2, 0), (2, 6), (2, 0), (4, 0), (4, pre.imageSize), (4, pre.headersSize), (4, 0),
    (2, pre.subsystem), (2, 0), (8, 0x100000), (8, 0x1000), (8, 0x100000), (8, 0x1000), (4, 0),
    (4, 16), (128, 0)]

/-- The DOS header is as wide as it should be. -/
theorem length_dosFields : (ByteOrder.little.fields dosFields).length = dosHeaderSize := rfl

/-- The signature and the file header are 24 bytes wide. -/
theorem FileHeader.length_fields (h : FileHeader) (pre : Preamble) :
    (ByteOrder.little.fields (h.fields pre)).length = 24 := rfl

/-- The optional header is as wide as it should be. -/
theorem OptionalHeader.length_fields (o : OptionalHeader) (pre : Preamble) :
    (ByteOrder.little.fields (o.fields pre)).length = optionalHeaderSize := by
  rw [ByteOrder.length_fields, fields, optionalHeaderSize]
  simp only [List.map_cons, List.map_nil, List.sum_cons, List.sum_nil, Nat.reduceAdd]

/-- The magic at the start of the DOS header tells the format. -/
theorem ofHead?_of_holds {file : Bytes}
    (h : file.Holds 0 (ByteOrder.little.fields dosFields)) : Format.ofHead? file = some .pe := by
  rw [Format.ofHead?_eq_pe_iff, Format.starts, List.isPrefixOf_iff_prefix, Bytes.toList_slice,
    List.prefix_take_iff]
  refine ⟨?_, by decide⟩
  exact List.IsPrefix.trans (by decide) h

/-- The NT headers are found behind the DOS header. -/
theorem ntOffset_of_holds {file : Bytes}
    (h : file.Holds 0 (ByteOrder.little.fields dosFields)) :
    ntOffset file = .ok dosHeaderSize := by
  have hsize : 64 ≤ file.size := h.length_le
  have hreads := h.reads (by decide)
  simp only [dosFields, Bytes.Reads, Nat.reduceAdd] at hreads
  obtain ⟨hmagic, -, hoffset, -⟩ := hreads
  have hmagic' := Bytes.paddedUint_of_uint hmagic
  have hoffset' := Bytes.paddedUint_of_uint hoffset
  rw [ntOffset, hmagic', hoffset', if_neg (by rw [dosHeaderSize]; omega), if_neg (by decide),
    if_neg (by decide), if_neg (by rw [dosHeaderSize]; omega)]

/-- The signature is accepted. -/
theorem checkSignature_of_holds {file : Bytes} {nt : Nat} {header : FileHeader} {pre : Preamble}
    (hfit : FieldsFit (header.fields pre))
    (h : file.Holds nt (ByteOrder.little.fields (header.fields pre))) :
    checkSignature file nt = .ok () := by
  have hsize : 24 ≤ file.size - nt := h.length_le
  have hsignature := Bytes.paddedUint_of_uint (h.reads hfit).1
  rw [checkSignature, hsignature, if_neg]
  · rfl
  · rintro (hshort | hzero)
    · omega
    · exact absurd hzero (by decide)

/-- The file header is read back. -/
theorem FileHeader.read_of_holds {file : Bytes} {nt : Nat} {header : FileHeader} {pre : Preamble}
    (hfit : FieldsFit (header.fields pre))
    (h : file.Holds nt (ByteOrder.little.fields (header.fields pre))) :
    FileHeader.read file nt = .ok header := by
  have hsize : 24 ≤ file.size - nt := h.length_le
  have hreads := h.reads hfit
  simp only [fields, Bytes.Reads, Nat.add_assoc, Nat.reduceAdd] at hreads
  obtain ⟨-, -, hcount, -, -, -, hoptional, -⟩ := hreads
  rw [FileHeader.read, if_neg (by omega), Bytes.paddedUint_of_uint hcount,
    Bytes.paddedUint_of_uint hoptional]

/-- The optional header is read back. -/
theorem OptionalHeader.read_of_holds {file : Bytes} {start : Nat} {o : OptionalHeader}
    {pre : Preamble} (hfit : FieldsFit (o.fields pre))
    (h : file.Holds start (ByteOrder.little.fields (o.fields pre))) :
    OptionalHeader.read file start = .ok o := by
  have hsize : 240 ≤ file.size - start := h.length_le
  have hreads := h.reads hfit
  simp only [fields, Bytes.Reads, Nat.add_assoc, Nat.reduceAdd] at hreads
  obtain ⟨hmagic, -, -, -, -, -, -, -, hbase, hsection, hfile, -⟩ := hreads
  have hwide : (file.paddedUint start 2 == wideMagic) = true := by
    rw [Bytes.paddedUint_of_uint hmagic]
    rfl
  have hroom : ¬ file.size < start + leastOptionalHeader true := by
    show ¬ file.size < start + 73
    omega
  rw [OptionalHeader.read]
  simp only [hwide, if_neg hroom, if_true, Bytes.paddedUint_of_uint hbase,
    Bytes.paddedUint_of_uint hsection, Bytes.paddedUint_of_uint hfile]

/-! ## The section table -/

namespace SectionHeader

/-- The fields of a section header behind its name. -/
def fields (s : SectionHeader) : List (Nat × Nat) :=
  [(4, s.virtualSize), (4, s.virtualAddress), (4, s.rawSize), (4, s.rawOffset), (4, 0), (4, 0),
    (2, 0), (2, 0), (4, s.characteristics)]

/-- The bytes of a section header. -/
def bytes (s : SectionHeader) : List UInt8 := s.nameBytes ++ ByteOrder.little.fields s.fields

/-- A section header that can be written: its name fills its field and is not empty, and its other
fields have room for their numbers. -/
structure Fits (s : SectionHeader) : Prop where
  name_length : s.nameBytes.length = 8
  named : ∃ b ∈ s.nameBytes, b ≠ 0
  fields_fit : FieldsFit s.fields

/-- A section header makes sense in a file of a given size. -/
structure Sensible (o : OptionalHeader) (fileSize : Nat) (s : SectionHeader) : Prop where
  inside : s.rawSize + s.rawOffset ≤ fileSize
  small : s.virtualSize ≤ sensibleBound
  low : s.virtualAddress ≤ sensibleBound
  aligned : o.fileAlignment ∣ s.rawOffset

/-- A section header is as wide as it should be. -/
theorem length_bytes {s : SectionHeader} (h : s.nameBytes.length = 8) :
    s.bytes.length = sectionHeaderSize := by
  rw [bytes, List.length_append, h, ByteOrder.length_fields]
  rfl

/-- **A written section header is read back.** -/
theorem ofBytes_eq {s : SectionHeader} {data : Bytes} (hs : s.Fits) (h : data.toList = s.bytes) :
    ofBytes data = s := by
  have hholds : data.Holds 0 (s.nameBytes ++ ByteOrder.little.fields s.fields) := by
    show s.bytes <+: data.toList
    rw [h]
  rw [Bytes.holds_append, hs.name_length] at hholds
  obtain ⟨hname, hfields⟩ := hholds
  have hname' : (data.slice 0 8).toList = s.nameBytes := by
    rw [← hs.name_length]
    exact hname.toList_slice
  have hreads := hfields.reads hs.fields_fit
  simp only [fields, Bytes.Reads, Nat.reduceAdd] at hreads
  obtain ⟨hsize, haddress, hraw, hoffset, -, -, -, -, hcharacteristics, -⟩ := hreads
  rw [ofBytes, hname', Bytes.paddedUint_of_uint hsize, Bytes.paddedUint_of_uint haddress,
    Bytes.paddedUint_of_uint hraw, Bytes.paddedUint_of_uint hoffset,
    Bytes.paddedUint_of_uint hcharacteristics]

/-- A section header that makes sense has no oddity at all. -/
theorem Sensible.not_isSenseless {o : OptionalHeader} {fileSize : Nat} {s : SectionHeader}
    (h : s.Sensible o fileSize) : s.isSenseless o fileSize = false := by
  obtain ⟨hinside, hsmall, hlow, haligned⟩ := h
  have hoffset := roundDown_le sectorSize s.rawOffset
  have haddress := roundDown_le o.addressAlignment s.virtualAddress
  have hmod : s.rawOffset % o.fileAlignment = 0 := Nat.mod_eq_zero_of_dvd haligned
  have hodd : s.oddities o fileSize = [false, false, false, false, false] := by
    rw [oddities, hmod, decide_eq_false (by omega), decide_eq_false (by omega),
      decide_eq_false (by omega), decide_eq_false (by omega)]
    simp
  rw [isSenseless, hodd]
  rfl

end SectionHeader

/-- **A written section table is read back**, entry by entry. -/
theorem sectionHeaders_of_holds {file : Bytes} {o : OptionalHeader} {headers : List SectionHeader}
    {offset : Nat} (hfits : ∀ s ∈ headers, s.Fits)
    (hsensible : ∀ s ∈ headers, s.Sensible o file.size)
    (h : file.Holds offset (headers.map SectionHeader.bytes).flatten) :
    sectionHeaders file o headers.length offset = .ok headers := by
  induction headers generalizing offset with
  | nil => rfl
  | cons s rest ih =>
    have hs := hfits s List.mem_cons_self
    have hlength := SectionHeader.length_bytes hs.name_length
    rw [List.map_cons, List.flatten_cons, Bytes.holds_append, hlength] at h
    obtain ⟨hfirst, hmore⟩ := h
    have hrest := ih (fun t ht => hfits t (List.mem_cons_of_mem s ht))
      (fun t ht => hsensible t (List.mem_cons_of_mem s ht)) hmore
    have hlist : (file.slice offset sectionHeaderSize).toList = s.bytes := by
      rw [← hlength]
      exact hfirst.toList_slice
    have hsize : (file.slice offset sectionHeaderSize).size = sectionHeaderSize := by
      rw [← Array.length_toList, hlist, hlength]
    have hempty : (file.slice offset sectionHeaderSize).isEmpty = false := by
      rw [Array.isEmpty_eq_false_iff_exists_mem.2]
      obtain ⟨b, hb, -⟩ := hs.named
      exact ⟨b, by rw [← Array.mem_toList_iff, hlist]; exact List.mem_append_left _ hb⟩
    have hzero : (file.slice offset sectionHeaderSize).all (· = 0) = false := by
      rw [← Bool.not_eq_true, Array.all_eq_true']
      intro hall
      obtain ⟨b, hb, hne⟩ := hs.named
      have hmem : b ∈ file.slice offset sectionHeaderSize := by
        rw [← Array.mem_toList_iff, hlist]
        exact List.mem_append_left _ hb
      exact hne (of_decide_eq_true (hall b hmem))
    have hfull : ¬ (file.slice offset sectionHeaderSize).size < sectionHeaderSize := by omega
    rw [List.length_cons, sectionHeaders]
    simp only [hempty, if_neg hfull, hzero, SectionHeader.ofBytes_eq hs hlist,
      (hsensible s List.mem_cons_self).not_isSenseless, Bool.false_eq_true, if_false, hrest]
    rfl

/-! ## Names -/

/-- The bytes of a name in a section header, padded with zeros. -/
def nameField (name : String) : List UInt8 :=
  asciiBytes name.toList ++ List.replicate (8 - name.length) 0

/-- A name of at most eight characters fills its field. -/
theorem length_nameField {name : String} (h : name.length ≤ 8) : (nameField name).length = 8 := by
  rw [nameField, List.length_append, asciiBytes, List.length_map, String.length_toList,
    List.length_replicate]
  omega

/-- The field of a name that is not empty is not all zeros. -/
theorem exists_ne_zero_of_nameField {name : String} (h : IsPlainName name) (hne : name ≠ "") :
    ∃ b ∈ nameField name, b ≠ 0 := by
  have hchars : name.toList ≠ [] := fun hnil => hne (String.toList_inj.1 hnil)
  obtain ⟨c, hc⟩ := List.exists_mem_of_ne_nil name.toList hchars
  have hb : UInt8.ofNat c.toNat ∈ asciiBytes name.toList := List.mem_map_of_mem hc
  exact ⟨_, List.mem_append_left _ hb, h.ne_zero _ hb⟩

/-- **A name in a section header is read back.** -/
theorem nameOf_nameField {name : String} (h : IsPlainName name) :
    nameOf (nameField name) = name := by
  have htrimmed : IsTrimmed name :=
    ⟨fun hfirst => absurd (h _ (List.mem_of_mem_head? hfirst)).1 (by decide),
      fun hlast => absurd (h _ (List.mem_of_getLast? hlast)).1 (by decide)⟩
  refine nameOf_padded htrimmed ⟨8 - name.length, ?_⟩
  rw [nameField, asciiBytes_eq_encode fun c hc => (h c hc).2, Text.Utf8.toUTF8_eq_encode]

/-! ## Loading -/

/-- A file whose headers are read is loaded as PE, with the code that its section table tells. -/
theorem load_pe {file : Bytes} {image : Image} (path : Path)
    (hformat : Format.ofHead? file = some .pe) (hread : Image.read file = .ok image) :
    load path (.file file) [] = .ok (some (.pe, image.codeOf file)) := by
  have hall : loadAll path (.file file) = .ok (some (.pe, image.codeOf file)) := by
    show SigScan.codeOf file = _
    rw [SigScan.codeOf, hformat]
    simp only [Format.codeOf, hread, Except.mapError, Except.map]
  rw [load, hall]
  rfl

end Pe

end SigScan
