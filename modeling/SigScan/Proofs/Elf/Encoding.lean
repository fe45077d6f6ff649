/-
# Written ELF headers

The headers of an ELF file as rows of fields, and what the readers make of them. A header that
is written with numbers that fit their fields is read back as it was, in either word size and
either byte order. What the fields say that no reader looks at is free: see `Preamble` and the
alignments.

* `Header.read_of_holds`: the file header;
* `sectionHeader_of_holds`, `segmentHeader_of_holds`: an entry of a table;
* `readAt_of_holds`, `nameAt_of_holds`: the content of a section, and its name;
* `collect_table`: a walk over a table whose entries are known;
* `load_elf`: a file whose headers and tables are read is loaded.
-/
import SigScan.Load
import SigScan.Proofs.Layout
import SigScan.Proofs.Text.Utf8

namespace SigScan

/-- The bits of a natural number are those of the number as an integer. -/
theorem hasBit_natCast (n bit : Nat) : hasBit n bit = n.testBit bit := by
  have h : (n : Int) >>> bit % 2 = 1 ↔ n / 2 ^ bit % 2 = 1 := by
    rw [Int.shiftRight_eq_div_pow]
    exact_mod_cast Iff.rfl
  rw [hasBit, Nat.testBit_eq_decide_div_mod_eq]
  exact decide_eq_decide.2 h

/-- The bits of an integer are those of its two's complement. -/
theorem hasBit_eq_testBit (n : Int) (bit : Nat) : hasBit n bit = n.testBit bit := by
  cases n with
  | ofNat m => exact hasBit_natCast m bit
  | negSucc m =>
    have hshift : Int.negSucc m >>> bit = Int.negSucc (m >>> bit) := rfl
    have hflip : Int.negSucc (m >>> bit) % 2 = 1 ↔ ¬m >>> bit % 2 = 1 := by omega
    rw [hasBit, hshift, Int.testBit, Nat.testBit_eq_decide_div_mod_eq, ← Nat.shiftRight_eq_div_pow,
      ← decide_not]
    exact decide_eq_decide.2 hflip

namespace Elf

/-! ## The file header -/

/-- The class byte of a word size. -/
def WordSize.classByte : WordSize → UInt8
  | .bits32 => 1
  | .bits64 => 2

/-- The data byte of a byte order. -/
def dataByte : ByteOrder → UInt8
  | .little => 1
  | .big => 2

/-- What a file header tells that does not matter for the code. -/
structure Preamble where
  type : Nat
  version : Nat
  entry : Nat
  flags : Nat
  deriving DecidableEq, Repr

namespace Header

/-- The identification bytes behind the magic, the class byte and the data byte. -/
def identTail : List UInt8 := 1 :: List.replicate 9 0

/-- The fields behind the identification bytes. -/
def fields (h : Header) (pre : Preamble) : List (Nat × Nat) :=
  let w := h.wordSize.bytes
  [(2, pre.type), (2, h.machine), (4, pre.version), (w, pre.entry), (w, h.segmentTable),
    (w, h.sectionTable), (4, pre.flags), (2, size h.wordSize), (2, h.segmentEntrySize),
    (2, h.segmentCount), (2, h.sectionEntrySize), (2, h.sectionCount), (2, h.nameTableIndex)]

/-- The bytes of a file header. -/
def bytes (h : Header) (pre : Preamble) : List UInt8 :=
  Format.elf.magic ++ ([h.wordSize.classByte] ++ ([dataByte h.order] ++
    (identTail ++ h.order.fields (h.fields pre))))

/-- A file header is as wide as its word size says. -/
theorem length_bytes (h : Header) (pre : Preamble) : (h.bytes pre).length = size h.wordSize := by
  simp only [bytes, List.length_append, ByteOrder.length_fields, fields, Format.magic, identTail,
    List.length_cons, List.length_nil, List.length_replicate, List.map_cons, List.map_nil,
    List.sum_cons, List.sum_nil, size]
  omega

/-- The identification bytes are there in a file that is long enough. -/
theorem checkIdent_of_le_size (file : Bytes) (h : 16 ≤ file.size) : checkIdent file = .ok () := by
  have hread : ∀ p width, 0 < width → p + width ≤ 16 →
      (discard (file.uint .little p width) : Except Shortfall Unit) = .ok () := by
    intro p width hw hp
    obtain ⟨n, hn⟩ := (@Bytes.uint_isOk_iff file .little p width hw).2 (Nat.le_trans hp h)
    rw [hn]
    rfl
  have hrow : ∀ l : List Nat, (∀ i ∈ l, i + 1 ≤ 16) →
      (l.forM fun i => discard (file.uint .little i 1)) = (.ok () : Except Shortfall Unit) := by
    intro l
    induction l with
    | nil => intro _; rfl
    | cons i rest ih =>
      intro hl
      show (discard (file.uint .little i 1) >>= fun _ => rest.forM _) = _
      rw [hread i 1 (by decide) (hl i (by simp))]
      exact ih fun j hj => hl j (List.mem_cons_of_mem i hj)
  rw [checkIdent, hrow _ (by decide), hread identFields 7 (by decide) (by decide)]
  rfl

/-- The fields of a written file header are read back. -/
theorem readFields_of_holds (file : Bytes) (h : Header) (pre : Preamble)
    (hfit : FieldsFit (h.fields pre)) (hident : 16 ≤ file.size)
    (hh : file.Holds 16 (h.order.fields (h.fields pre))) :
    readFields file h.wordSize h.order = .ok h := by
  have hr := hh.reads hfit
  obtain ⟨w, order, machine, segmentTable, sectionTable, segmentEntrySize, segmentCount,
    sectionEntrySize, sectionCount, nameTableIndex⟩ := h
  cases w <;>
    simp only [fields, Bytes.Reads, WordSize.bytes, Nat.reduceAdd] at hr ⊢ <;>
    simp only [readFields, checkIdent_of_le_size file hident, WordSize.bytes, Nat.reduceAdd,
      Nat.reduceMul, hr, bind, Except.bind, pure, Except.pure]

/-- **A written file header is read back.** -/
theorem read_of_holds (file : Bytes) (h : Header) (pre : Preamble)
    (hfit : FieldsFit (h.fields pre)) (hh : file.Holds 0 (h.bytes pre)) :
    read file = .ok h := by
  have hsize : 16 ≤ file.size := by
    have hle := hh.length_le
    rw [length_bytes, size] at hle
    omega
  simp only [bytes, Bytes.holds_append] at hh
  obtain ⟨hmagic, hclass, hdata, -, hfields⟩ := hh
  have hstarts : Format.elf.starts file = true := by
    have hslice : (file.slice 0 4).toList = Format.elf.magic := hmagic.toList_slice
    rw [Format.starts, hslice]
    decide
  have hclass' : (file.slice 4 1).toList = [h.wordSize.classByte] := hclass.toList_slice
  have hdata' : (file.slice 5 1).toList = [dataByte h.order] := hdata.toList_slice
  have hw : WordSize.ofClass? [h.wordSize.classByte] = some h.wordSize := by
    cases h.wordSize <;> rfl
  have horder : byteOrder? [dataByte h.order] = some h.order := by
    cases h.order <;> rfl
  rw [read, hstarts, hclass', hdata', hw, horder]
  simp only [Bool.not_true, Bool.false_eq_true, if_false]
  rw [readFields_of_holds file h pre hfit hsize hfields]
  rfl

end Header

/-! ## Section headers -/

/-- The fields of a section header. -/
def SectionHeader.fields (w : WordSize) (alignment : Nat) (s : SectionHeader) : List (Nat × Nat) :=
  [(4, s.nameOffset), (4, s.type), (w.bytes, s.flags), (w.bytes, s.address), (w.bytes, s.offset),
    (w.bytes, s.size), (4, s.link), (4, s.info), (w.bytes, alignment), (w.bytes, s.entrySize)]

/-- A section header is as wide as its fields together. -/
theorem SectionHeader.length_fields (order : ByteOrder) (w : WordSize) (alignment : Nat)
    (s : SectionHeader) : (order.fields (s.fields w alignment)).length = width w := by
  rw [ByteOrder.length_fields]
  cases w <;> rfl

/-- The fields of a written section header are read back. -/
theorem SectionHeader.readAt_of_holds (file : Bytes) (h : Header) (p alignment : Nat)
    (s : SectionHeader) (hfit : FieldsFit (s.fields h.wordSize alignment))
    (hh : file.Holds p (h.order.fields (s.fields h.wordSize alignment))) :
    readAt file h p = .ok s := by
  have hr := hh.reads hfit
  rw [readAt]
  cases hw : h.wordSize <;>
    simp only [hw, fields, Bytes.Reads, WordSize.bytes, Nat.add_assoc, Nat.reduceAdd] at hr <;>
    simp only [uint, WordSize.bytes, Nat.add_assoc, Nat.reduceAdd, Nat.reduceMul, hr,
      Except.mapError, bind, Except.bind, pure, Except.pure]

/-- **A written entry of the section table is read back.** -/
theorem sectionHeader_of_holds (file : Bytes) (h : Header) (index alignment : Nat)
    (s : SectionHeader) (hsize : SectionHeader.width h.wordSize ≤ h.sectionEntrySize)
    (hfit : FieldsFit (s.fields h.wordSize alignment))
    (hh : file.Holds (h.sectionHeaderAt index) (h.order.fields (s.fields h.wordSize alignment))) :
    sectionHeader file h index = .ok s := by
  have hin : ¬ file.size < h.sectionHeaderAt index := by
    have hle := hh.length_le
    rw [SectionHeader.length_fields, SectionHeader.width] at hle
    omega
  rw [sectionHeader, if_neg (fun hc => by omega), if_neg hin]
  exact SectionHeader.readAt_of_holds file h _ alignment s hfit hh

/-! ## Segment headers -/

/-- The fields of a segment header; the room in memory is the size in the file. -/
def SegmentHeader.fields (w : WordSize) (alignment : Nat) (s : SegmentHeader) : List (Nat × Nat) :=
  match w with
  | .bits32 =>
    [(4, s.type), (4, s.offset), (4, s.address), (4, s.address), (4, s.size), (4, s.size),
      (4, s.flags), (4, alignment)]
  | .bits64 =>
    [(4, s.type), (4, s.flags), (8, s.offset), (8, s.address), (8, s.address), (8, s.size),
      (8, s.size), (8, alignment)]

/-- A segment header is as wide as its fields together. -/
theorem SegmentHeader.length_fields (order : ByteOrder) (w : WordSize) (alignment : Nat)
    (s : SegmentHeader) : (order.fields (s.fields w alignment)).length = width w := by
  rw [ByteOrder.length_fields]
  cases w <;> rfl

/-- The fields of a written segment header are read back. -/
theorem SegmentHeader.readAt_of_holds (file : Bytes) (h : Header) (p alignment : Nat)
    (s : SegmentHeader) (hfit : FieldsFit (s.fields h.wordSize alignment))
    (hh : file.Holds p (h.order.fields (s.fields h.wordSize alignment))) :
    readAt file h p = .ok s := by
  have hr := hh.reads hfit
  rw [readAt]
  -- the two word sizes have their fields in different orders
  cases hw : h.wordSize <;>
    simp only [hw, fields, Bytes.Reads, Nat.add_assoc, Nat.reduceAdd] at hr <;>
    simp only [uint, hr, Except.mapError, bind, Except.bind, pure, Except.pure]

/-- **A written entry of the segment table is read back.** -/
theorem segmentHeader_of_holds (file : Bytes) (h : Header) (index alignment : Nat)
    (s : SegmentHeader) (hsize : SegmentHeader.width h.wordSize ≤ h.segmentEntrySize)
    (hreach : h.segmentTable + index * h.segmentEntrySize < reach)
    (hfit : FieldsFit (s.fields h.wordSize alignment))
    (hh : file.Holds (h.segmentTable + index * h.segmentEntrySize)
      (h.order.fields (s.fields h.wordSize alignment))) :
    segmentHeader file h index = .ok s := by
  rw [segmentHeader, if_neg (fun hc => by omega)]
  simp only [seek, if_pos hreach, bind, Except.bind]
  exact SegmentHeader.readAt_of_holds file h _ alignment s hfit hh

/-! ## Content and names -/

/-- Content that a file holds is read back. -/
theorem readAt_of_holds (file content : Bytes) (p : Nat) (hreach : file.size < reach)
    (hp : p ≤ file.size) (h : file.Holds p content.toList) :
    readAt file p content.size = .ok content := by
  have hle := h.length_le
  rw [Array.length_toList] at hle
  have hposition : p < reach := by omega
  have hlength : content.size < reach := by omega
  rw [readAt, seek, if_pos hposition, h.slice_eq]
  simp only [bind, Except.bind, if_pos hlength]

/-- Characters that a name in the file can have: ASCII ones other than zero. -/
def IsPlainName (name : String) : Prop := ∀ c ∈ name.toList, 0 < c.toNat ∧ c.toNat < 0x80

instance (name : String) : Decidable (IsPlainName name) := List.decidableBAll _ _

/-- The bytes of ASCII characters. -/
def asciiBytes (chars : List Char) : List UInt8 := chars.map fun c => UInt8.ofNat c.toNat

/-- The bytes of a name in the table of names, with the zero byte that ends it. -/
def nameBytes (name : String) : List UInt8 := asciiBytes name.toList ++ [0]

/-- A name of plain characters has no zero byte. -/
theorem IsPlainName.ne_zero {name : String} (h : IsPlainName name) :
    ∀ b ∈ asciiBytes name.toList, b ≠ 0 := by
  intro b hb hzero
  obtain ⟨c, hc, rfl⟩ := List.mem_map.1 hb
  obtain ⟨hpos, hlt⟩ := h c hc
  have hval := congrArg UInt8.toNat hzero
  rw [UInt8.toNat_ofNat', UInt8.toNat_zero] at hval
  omega

/-- ASCII bytes are their characters in UTF-8. -/
theorem asciiBytes_eq_encode {chars : List Char} (h : ∀ c ∈ chars, c.toNat < 0x80) :
    asciiBytes chars = Text.Utf8.encode chars := by
  rw [asciiBytes, Text.Utf8.encode, List.map_eq_flatMap]
  apply List.flatMap_congr
  intro c hc
  rw [Text.Utf8.utf8EncodeChar_eq, if_pos (Nat.le_of_lt_succ (h c hc))]

/-- **A name that a file holds is read back.** -/
theorem nameAt_of_holds (file : Bytes) (name : String) (p : Nat) (hreach : file.size < reach)
    (hname : IsPlainName name) (h : file.Holds p (nameBytes name)) :
    nameAt file p = .ok name := by
  have hle := h.length_le
  rw [nameBytes, List.length_append, List.length_singleton] at hle
  have hposition : p < reach := by omega
  have hslice : (file.slice p (asciiBytes name.toList).length).toList = asciiBytes name.toList :=
    ((Bytes.holds_append file p _ _).1 h).1.toList_slice
  have hdecoded : Text.Utf8.decodeReplacing (asciiBytes name.toList) = name := by
    rw [Text.Utf8.decodeReplacing, asciiBytes_eq_encode fun c hc => (hname c hc).2,
      Text.Utf8.decode_encode, String.ofList_toList]
  rw [nameAt, seek, if_pos hposition, Bytes.Holds.zeroFrom? h hname.ne_zero]
  simp only [bind, Except.bind, pure, Except.pure, Nat.add_sub_cancel_left, hslice, hdecoded]

/-! ## Walks over known tables -/

/-- The entries of a list, looked up by their indices. -/
theorem filterMap_range'_getElem? {α β : Type} (entries : List α) (keep : α → Option β) :
    (List.range' 0 entries.length).filterMap (fun i => entries[i]?.bind keep) =
      entries.filterMap keep := by
  have hmap : (List.range' 0 entries.length).map (fun i => entries[i]?) = entries.map some := by
    apply List.ext_getElem?
    intro i
    by_cases hi : i < entries.length
    · rw [List.getElem?_map, List.getElem?_map, List.getElem?_range' hi]
      simp [hi]
    · rw [List.getElem?_eq_none (by simpa using hi), List.getElem?_eq_none (by simpa using hi)]
  rw [← Function.comp_def (fun o : Option α => o.bind keep), ← List.filterMap_map, hmap,
    List.filterMap_map]
  rfl

/-- **A walk over a table whose entries are known** keeps what is kept of each. -/
theorem collect_table {α β : Type} (read : Nat → Walk (Option β)) (entries : List α)
    (keep : α → Option β) (h : ∀ i e, entries[i]? = some e → read i = .ok (keep e)) :
    collect read entries.length 0 [] = .ok (entries.filterMap keep) := by
  have hread : ∀ i, 0 ≤ i → i < 0 + entries.length → read i = .ok (entries[i]?.bind keep) := by
    intro i _ hi
    rw [Nat.zero_add] at hi
    have he : entries[i]? = some entries[i] := List.getElem?_eq_getElem hi
    rw [h i entries[i] he, he]
    rfl
  rw [collect_eq_ok hread, List.reverse_nil, List.nil_append, filterMap_range'_getElem?]

/-! ## Loading -/

/-- A file whose header and tables are read is loaded as ELF, with the code that the tables tell. -/
theorem load_elf (path : Path) (file : Bytes) (h : Header) (sections : List Section)
    (hh : Header.read file = .ok h) (hcode : Elf.codeOf file h = .ok sections) :
    load path (.file file) [] = .ok (some (.elf, sections)) := by
  have hformat : Format.ofHead? file = some .elf :=
    Format.ofHead?_eq_elf_iff.2 (Header.read_magic hh)
  have hall : loadAll path (.file file) = .ok (some (.elf, sections)) := by
    show SigScan.codeOf file = _
    rw [SigScan.codeOf, hformat]
    simp only [Format.codeOf, hh, hcode, Except.mapError, bind, Except.bind, Except.map]
  rw [load, hall]
  rfl

end Elf

end SigScan
