/-
# Which code an ELF image has

The sections of an image hold its code, or, where none of them does, its segments. Either way the
code is listed entry by entry: an entry without code is left out, but it keeps its place in the
table. A segment is named by its place, and the decimal text of a number tells the number; so no two
segments share a name, and a name selects the segment it was made for.

* `ListsKept`: a list that stands for the kept entries of a table;
* `listsKept_ofSections`, `listsKept_ofSegments`: the lists of code are such lists;
* `segmentName_injective`, `nodup_names_ofSegments`: segments have different names;
* `keepNamed_ofSegments`, `keepNamed_ofSegments_eq_nil`: what the name for a place selects;
* `codeSections_choosesCode`: the code of an image as a whole;
* `exists_codeSections_of_codeOf`: the code that is read from a file;
* `exists_header_of_mem_codeOf`: what the headers in the file tell of it.
-/
import SigScan.Image.Elf.File
import SigScan.Proofs.Elf.Encoding
import SigScan.Proofs.Fallible

namespace SigScan.Elf

/-! ## Entries with code -/

/-- Has the section code that the file holds? It is executable, and takes up space in the file. -/
def SectionEntry.IsCode (e : SectionEntry) : Prop :=
  e.flags.testBit 2 = true ∧ e.type ≠ .named "SHT_NOBITS"

/-- Has the segment code? It is loaded, and executable. -/
def SegmentEntry.IsCode (e : SegmentEntry) : Prop :=
  (e.type = .named "PT_LOAD" ∨ e.type = .numbered 1) ∧ e.flags.testBit 0 = true

/-- The sections that are taken for code are those that have it. -/
theorem isCodeSection_iff (e : SectionEntry) : isCodeSection e.flags e.type = true ↔ e.IsCode := by
  rw [isCodeSection, SectionEntry.IsCode, hasBit_eq_testBit, Bool.and_eq_true, bne_iff_ne]

/-- The segments that are taken for code are those that have it. -/
theorem isCodeSegment_iff (e : SegmentEntry) : isCodeSegment e.type e.flags = true ↔ e.IsCode := by
  rw [isCodeSegment, SegmentEntry.IsCode, hasBit_eq_testBit, Bool.and_eq_true, Bool.or_eq_true,
    beq_iff_eq, beq_iff_eq]

/-- A section as it is listed, with the empty name where it has none. -/
def SectionEntry.listed (e : SectionEntry) : Section := ⟨e.name.getD "", e.content, e.address⟩

/-- A segment as it is listed, named by its place. -/
def SegmentEntry.listed (index : Nat) (e : SegmentEntry) : Section :=
  ⟨segmentName index, e.content, e.address⟩

/-! ## Lists of entries -/

/-- Does a list stand for the kept entries of a table, one by one and in their order? Each is shown
as its place in the table and the entry there tell. -/
def ListsKept {α : Type} (kept : α → Prop) (shown : Nat → α → Section) (table : List α)
    (listed : List Section) : Prop :=
  ∃ places : List Nat, places.Pairwise (· < ·) ∧
    (∀ i, i ∈ places ↔ ∃ e, table[i]? = some e ∧ kept e) ∧
    List.Forall₂ (fun i s => ∃ e, table[i]? = some e ∧ s = shown i e) places listed

/-- The places of the kept entries ascend. -/
theorem pairwise_places {α : Type} (keep : α → Bool) (table : List α) :
    ((table.zipIdx.filter fun e => keep e.1).map (·.2)).Pairwise (· < ·) := by
  have hall : (table.zipIdx.map (·.2)).Pairwise (· < ·) := by
    rw [show table.zipIdx.map (·.2) = _ from List.zipIdx_map_snd 0 table]
    exact List.pairwise_lt_range'
  exact hall.sublist (List.filter_sublist.map _)

/-- **The entries of a table that pass a test, with their places, are the kept ones.** -/
theorem listsKept_zipIdx {α : Type} {kept : α → Prop} {keep : α → Bool}
    (h : ∀ e, keep e = true ↔ kept e) (shown : Nat → α → Section) (table : List α) :
    ListsKept kept shown table
      ((table.zipIdx.filter fun e => keep e.1).map fun e => shown e.2 e.1) := by
  refine ⟨(table.zipIdx.filter fun e => keep e.1).map (·.2), pairwise_places keep table, ?_, ?_⟩
  · intro i
    rw [List.mem_map]
    constructor
    · rintro ⟨⟨e, j⟩, he, rfl⟩
      obtain ⟨htable, hkeep⟩ := List.mem_filter.1 he
      exact ⟨e, List.mem_zipIdx_iff_getElem?.1 htable, (h e).1 hkeep⟩
    · rintro ⟨e, htable, hkept⟩
      have hmem : (e, i) ∈ table.zipIdx := List.mem_zipIdx_iff_getElem?.2 htable
      exact ⟨(e, i), List.mem_filter.2 ⟨hmem, (h e).2 hkept⟩, rfl⟩
  · rw [List.forall₂_map_left_iff, List.forall₂_map_right_iff, List.forall₂_same]
    intro e he
    exact ⟨e.1, List.mem_zipIdx_iff_getElem?.1 (List.mem_filter.1 he).1, rfl⟩

/-- The sections with code, told with their places, as the segments are. -/
theorem ofSections_eq_placed (sections : List SectionEntry) :
    ofSections sections =
      (sections.zipIdx.filter fun e => isCodeSection e.1.flags e.1.type).map (·.1.listed) := by
  conv_lhs => rw [← List.zipIdx_map_fst 0 sections]
  rw [ofSections, List.filter_map, List.map_map]
  rfl

/-- The code in sections is that of the sections that have some. -/
theorem listsKept_ofSections (sections : List SectionEntry) :
    ListsKept SectionEntry.IsCode (fun _ => SectionEntry.listed) sections
      (ofSections sections) := by
  rw [ofSections_eq_placed]
  exact listsKept_zipIdx isCodeSection_iff (fun _ => SectionEntry.listed) sections

/-- The code in segments is that of the segments that have some. -/
theorem listsKept_ofSegments (segments : List SegmentEntry) :
    ListsKept SegmentEntry.IsCode SegmentEntry.listed segments (ofSegments segments) :=
  listsKept_zipIdx isCodeSegment_iff SegmentEntry.listed segments

/-- Sections hold no code just if none of them does. -/
theorem ofSections_eq_nil_iff {sections : List SectionEntry} :
    ofSections sections = [] ↔ ∀ e ∈ sections, ¬e.IsCode := by
  simp only [ofSections, List.map_eq_nil_iff, List.filter_eq_nil_iff, isCodeSection_iff]

/-! ## The names of segments -/

/-- Different places make different names. -/
theorem segmentName_injective : Function.Injective segmentName := by
  intro i j h
  have hdecimal : "LOAD[" ++ toString i ++ "]" = "LOAD[" ++ toString j ++ "]" := h
  have hrepr : toString i = toString j := by simpa using hdecimal
  exact Nat.repr_injective hrepr

/-- **No two segments in the list share a name.** -/
theorem nodup_names_ofSegments (segments : List SegmentEntry) :
    ((ofSegments segments).map (·.name)).Nodup := by
  have hnames : (ofSegments segments).map (·.name) =
      ((segments.zipIdx.filter fun e => isCodeSegment e.1.type e.1.flags).map (·.2)).map
        segmentName := by
    rw [ofSegments, List.map_map, List.map_map]
    rfl
  have hplaces := pairwise_places (fun e : SegmentEntry => isCodeSegment e.type e.flags) segments
  rw [hnames]
  exact List.Nodup.map segmentName_injective (hplaces.imp Nat.ne_of_lt)

/-- What is listed stands for a segment with code. -/
theorem mem_ofSegments {segments : List SegmentEntry} {s : Section} :
    s ∈ ofSegments segments ↔
      ∃ (i : Nat) (e : SegmentEntry), segments[i]? = some e ∧ e.IsCode ∧ e.listed i = s := by
  rw [ofSegments, List.mem_map]
  constructor
  · rintro ⟨⟨e, i⟩, he, rfl⟩
    obtain ⟨htable, hcode⟩ := List.mem_filter.1 he
    exact ⟨i, e, List.mem_zipIdx_iff_getElem?.1 htable, (isCodeSegment_iff e).1 hcode, rfl⟩
  · rintro ⟨i, e, htable, hcode, rfl⟩
    have hmem : (e, i) ∈ segments.zipIdx := List.mem_zipIdx_iff_getElem?.2 htable
    exact ⟨(e, i), List.mem_filter.2 ⟨hmem, (isCodeSegment_iff e).2 hcode⟩, rfl⟩

/-- **The name of a segment with code selects that segment.** -/
theorem keepNamed_ofSegments {segments : List SegmentEntry} {i : Nat} {e : SegmentEntry}
    (h : segments[i]? = some e) (hcode : e.IsCode) :
    Section.keepNamed [segmentName i] (ofSegments segments) = [e.listed i] := by
  have hlisted : e.listed i ∈ ofSegments segments := mem_ofSegments.2 ⟨i, e, h, hcode, rfl⟩
  exact Section.keepNamed_of_nodup (nodup_names_ofSegments segments) hlisted

/-- The name of any other place selects nothing. -/
theorem keepNamed_ofSegments_eq_nil {segments : List SegmentEntry} {i : Nat}
    (h : ∀ e, segments[i]? = some e → ¬e.IsCode) :
    Section.keepNamed [segmentName i] (ofSegments segments) = [] := by
  rw [List.eq_nil_iff_forall_not_mem]
  intro s hs
  obtain ⟨hlisted, hname⟩ := Section.mem_keepNamed.1 hs
  obtain ⟨j, e, htable, hcode, rfl⟩ := mem_ofSegments.1 hlisted
  have hsame : segmentName j = segmentName i := by simpa [SegmentEntry.listed] using hname
  rw [segmentName_injective hsame] at htable
  exact h e htable hcode

/-! ## The code of an image -/

/-- How a list has the code of an image with these sections and segments. -/
structure ChoosesCode (sections : List SectionEntry) (segments : List SegmentEntry)
    (listed : List Section) : Prop where
  /-- Where a section has code, the sections with code are listed, and no segment. -/
  fromSections : (∃ e ∈ sections, e.IsCode) →
    ListsKept SectionEntry.IsCode (fun _ => SectionEntry.listed) sections listed
  /-- Otherwise the segments with code are listed, named by their places among all segments. -/
  fromSegments : (∀ e ∈ sections, ¬e.IsCode) →
    ListsKept SegmentEntry.IsCode SegmentEntry.listed segments listed
  /-- Then no two names are the same. -/
  distinct : (∀ e ∈ sections, ¬e.IsCode) → (listed.map (·.name)).Nodup
  /-- Then the name for a place selects the segment there, if it has code. -/
  selected : (∀ e ∈ sections, ¬e.IsCode) → ∀ (i : Nat) (e : SegmentEntry),
    segments[i]? = some e → e.IsCode →
      Section.keepNamed [s!"LOAD[{i}]"] listed = [⟨s!"LOAD[{i}]", e.content, e.address⟩]
  /-- And it selects nothing if no segment is there, or one without code. -/
  unselected : (∀ e ∈ sections, ¬e.IsCode) → ∀ i : Nat,
    (∀ e, segments[i]? = some e → ¬e.IsCode) → Section.keepNamed [s!"LOAD[{i}]"] listed = []

/-- **The code of an image is that of its sections, or else that of its segments**, whose names tell
them apart. -/
theorem codeSections_choosesCode (sections : List SectionEntry) (segments : List SegmentEntry) :
    ChoosesCode sections segments (codeSections sections segments) := by
  have hstand : (∀ e ∈ sections, ¬e.IsCode) →
      codeSections sections segments = ofSegments segments :=
    fun h => codeSections_eq_ofSegments (ofSections_eq_nil_iff.2 h)
  constructor
  case fromSections =>
    rintro ⟨e, he, hcode⟩
    have hsome : ofSections sections ≠ [] := fun hnil => ofSections_eq_nil_iff.1 hnil e he hcode
    rw [codeSections_eq_ofSections hsome]
    exact listsKept_ofSections sections
  case fromSegments =>
    intro h
    rw [hstand h]
    exact listsKept_ofSegments segments
  case distinct =>
    intro h
    rw [hstand h]
    exact nodup_names_ofSegments segments
  case selected =>
    intro h i e htable hcode
    rw [hstand h]
    exact keepNamed_ofSegments htable hcode
  case unselected =>
    intro h i hother
    rw [hstand h]
    exact keepNamed_ofSegments_eq_nil hother

/-- A section without space in the file does not count, a segment that is not loaded does; and a
segment is named by its place among all of them. -/
example :
    let segments : List SegmentEntry :=
      [⟨.named "PT_NOTE", 5, 0, #[1]⟩, ⟨.numbered 1, 5, 64, #[2]⟩, ⟨.named "PT_LOAD", -1, 96, #[3]⟩]
    codeSections [⟨none, 6, .named "SHT_NOBITS", 32, #[]⟩] segments =
        [⟨"LOAD[1]", #[2], 64⟩, ⟨"LOAD[2]", #[3], 96⟩] ∧
      codeSections [⟨none, -1, .numbered 7, 32, #[]⟩] segments = [⟨"", #[], 32⟩] := by
  decide +kernel

/-! ## The code of a file -/

/-- What the extraction of code looks at in the section at an index. -/
def sectionEntryAt (file : Bytes) (h : Header) (index : Nat) : Walk SectionEntry := do
  let (s, name) ← namedSection file h index
  return ⟨some name, s.flags, sectionType h.machine s.type, s.address, file.slice s.offset s.size⟩

/-- What the extraction of code looks at in the segment at an index. -/
def segmentEntryAt (file : Bytes) (h : Header) (index : Nat) : Walk SegmentEntry := do
  let s ← segmentHeader file h index
  return ⟨.numbered s.type, s.flags, s.address, file.slice s.offset s.size⟩

/-- The entries of the section table. -/
def sectionEntries (file : Bytes) (h : Header) : Walk (List SectionEntry) := do
  (List.range' 0 (← sectionCount file h)).mapM (sectionEntryAt file h)

/-- The entries of the segment table. -/
def segmentEntries (file : Bytes) (h : Header) : Walk (List SegmentEntry) := do
  (List.range' 0 (← segmentCount file h)).mapM (segmentEntryAt file h)

/-- Code that is kept, or not, is read at its place in the file. -/
theorem eq_of_keepCode {file : Bytes} {isCode : Bool} {position length : Nat} {name : String}
    {base : Int} {found : Option Section}
    (h : (if isCode = true then do
        let content ← readAt file position length
        return some ⟨name, content, base⟩
      else return none : Walk (Option Section)) = .ok found) :
    found = if isCode then some ⟨name, file.slice position length, base⟩ else none := by
  split at h
  · next hcode =>
    obtain ⟨content, hcontent, hpure⟩ := bind_eq_ok_iff.1 h
    cases hpure
    rw [if_pos hcode, readAt_eq_ok hcontent]
  · next hcode =>
    cases h
    rw [if_neg hcode]

/-- **A walk over a table that succeeds has read all its entries**, and lists those that are kept,
as their places and the entries tell. -/
theorem exists_entries_of_collect {α : Type} {read : Nat → Walk (Option Section)}
    {entryAt : Nat → Walk α} {keep : α → Bool} {shown : Nat → α → Section}
    (hstep : ∀ i found, read i = .ok found →
      ∃ e, entryAt i = .ok e ∧ found = if keep e then some (shown i e) else none)
    {count index : Nat} {kept listed : List Section}
    (h : collect read count index kept = .ok listed) :
    ∃ entries, (List.range' index count).mapM entryAt = .ok entries ∧
      listed = kept.reverse ++
        ((entries.zipIdx index).filter fun e => keep e.1).map fun e => shown e.2 e.1 := by
  induction count generalizing index kept with
  | zero =>
    cases h
    exact ⟨[], rfl, (List.append_nil _).symm⟩
  | succ count ih =>
    rw [collect] at h
    split at h
    · next found hfound =>
      obtain ⟨e, he, rfl⟩ := hstep index found hfound
      obtain ⟨rest, hrest, rfl⟩ := ih h
      refine ⟨e :: rest, ?_, ?_⟩
      · rw [List.range'_succ, List.mapM_cons]
        exact bind_eq_ok_iff.2 ⟨e, he, bind_eq_ok_iff.2 ⟨rest, hrest, rfl⟩⟩
      · rw [List.zipIdx_cons]
        cases hkeep : keep e <;> simp [hkeep]
    · cases h

/-- The code that is read from sections is that of their entries. -/
theorem exists_sectionEntries {file : Bytes} {h : Header} {listed : List Section}
    (hlisted : sectionsOf file h = .ok listed) :
    ∃ sections, sectionEntries file h = .ok sections ∧ listed = ofSections sections := by
  obtain ⟨count, hcount, hwalk⟩ := bind_eq_ok_iff.1 hlisted
  have hstep : ∀ i found, codeSectionAt file h i = .ok found →
      ∃ e, sectionEntryAt file h i = .ok e ∧
        found = if isCodeSection e.flags e.type then some e.listed else none := by
    intro i found hfound
    obtain ⟨⟨s, name⟩, hnamed, hkept⟩ := bind_eq_ok_iff.1 hfound
    exact ⟨_, bind_eq_ok_iff.2 ⟨(s, name), hnamed, rfl⟩, eq_of_keepCode hkept⟩
  obtain ⟨sections, hsections, rfl⟩ := exists_entries_of_collect hstep hwalk
  refine ⟨sections, bind_eq_ok_iff.2 ⟨count, hcount, hsections⟩, ?_⟩
  rw [ofSections_eq_placed]
  rfl

/-- The code that is read from segments is that of their entries. -/
theorem exists_segmentEntries {file : Bytes} {h : Header} {listed : List Section}
    (hlisted : segmentsOf file h = .ok listed) :
    ∃ segments, segmentEntries file h = .ok segments ∧ listed = ofSegments segments := by
  obtain ⟨count, hcount, hwalk⟩ := bind_eq_ok_iff.1 hlisted
  have hstep : ∀ i found, codeSegmentAt file h i = .ok found →
      ∃ e, segmentEntryAt file h i = .ok e ∧
        found = if isCodeSegment e.type e.flags then some (e.listed i) else none := by
    intro i found hfound
    obtain ⟨s, hheader, hkept⟩ := bind_eq_ok_iff.1 hfound
    exact ⟨_, bind_eq_ok_iff.2 ⟨s, hheader, rfl⟩, eq_of_keepCode hkept⟩
  obtain ⟨segments, hsegments, rfl⟩ := exists_entries_of_collect hstep hwalk
  exact ⟨segments, bind_eq_ok_iff.2 ⟨count, hcount, hsegments⟩, rfl⟩

/-- **The code that is read from a file is the code of an image with its sections and segments.**
The segments are read only where no section has code. -/
theorem exists_codeSections_of_codeOf {file : Bytes} {h : Header} {listed : List Section}
    (hcode : codeOf file h = .ok listed) :
    ∃ sections segments, sectionEntries file h = .ok sections ∧
      (ofSections sections = [] → segmentEntries file h = .ok segments) ∧
      listed = codeSections sections segments := by
  obtain ⟨found, hfound, hrest⟩ := bind_eq_ok_iff.1 hcode
  obtain ⟨sections, hsections, rfl⟩ := exists_sectionEntries hfound
  split at hrest
  · next hempty =>
    have hnone : ofSections sections = [] := List.isEmpty_iff.1 hempty
    obtain ⟨segments, hsegments, rfl⟩ := exists_segmentEntries hrest
    exact ⟨sections, segments, hsections, fun _ => hsegments,
      (codeSections_eq_ofSegments hnone).symm⟩
  · next hempty =>
    cases hrest
    have hsome : ofSections sections ≠ [] := fun hnil => hempty (List.isEmpty_iff.2 hnil)
    exact ⟨sections, [], hsections, fun hnil => absurd hnil hsome,
      (codeSections_eq_ofSections hsome).symm⟩

/-- **Code that is read from a file has a header there**, which tells its place and its address. -/
theorem exists_header_of_mem_codeOf {file : Bytes} {h : Header} {listed : List Section}
    (hcode : codeOf file h = .ok listed) {s : Section} (hs : s ∈ listed) :
    (∃ i header name, namedSection file h i = .ok (header, name) ∧
        s.content = file.slice header.offset header.size ∧ s.base = header.address) ∨
      ∃ i header, segmentHeader file h i = .ok header ∧
        s.content = file.slice header.offset header.size ∧ s.base = header.address := by
  obtain ⟨sections, segments, hsections, hsegments, rfl⟩ := exists_codeSections_of_codeOf hcode
  by_cases hnone : ofSections sections = []
  · rw [codeSections_eq_ofSegments hnone] at hs
    obtain ⟨_, e, htable, -, rfl⟩ := mem_ofSegments.1 hs
    obtain ⟨_, -, hread⟩ := bind_eq_ok_iff.1 (hsegments hnone)
    obtain ⟨i, -, hentry⟩ := exists_of_mem_mapM hread (List.mem_of_getElem? htable)
    obtain ⟨header, hheader, hpure⟩ := bind_eq_ok_iff.1 hentry
    cases hpure
    exact .inr ⟨i, header, hheader, rfl, rfl⟩
  · rw [codeSections_eq_ofSections hnone] at hs
    obtain ⟨e, he, rfl⟩ := List.mem_map.1 hs
    obtain ⟨_, -, hread⟩ := bind_eq_ok_iff.1 hsections
    obtain ⟨i, -, hentry⟩ := exists_of_mem_mapM hread (List.mem_filter.1 he).1
    obtain ⟨⟨header, name⟩, hheader, hpure⟩ := bind_eq_ok_iff.1 hentry
    cases hpure
    exact .inl ⟨i, header, name, hheader, rfl, rfl⟩

end SigScan.Elf
