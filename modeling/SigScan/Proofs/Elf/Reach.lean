/-
# Numbers out of reach

The headers of a 64-bit ELF file can name positions and lengths that no file has. A walk that
meets one ends for good. Said here is which numbers these are, and that nothing else ends a walk
so:

* the place of a name: where the table of names starts, and the offset of the name in it;
* the place and the size of a code section or a code segment;
* the place of a segment header.

A section's name is looked up before anything else is made of the section, and the checks of a
table about symbols look up the names of the sections it belongs to: `Consults`.

* `namedSection_eq_unreachable_iff`, `codeSectionAt_eq_unreachable_iff`: one section;
* `codeSegmentAt_eq_unreachable_iff`: one segment;
* `codeOf_eq_unreachable_iff`: the whole file;
* `wordSize_of_codeBeyond`: this happens in 64-bit files only.
-/
import SigScan.Image.Elf.File
import SigScan.Proofs.Fallible

namespace SigScan.Elf

/-! ## Steps that stay in reach -/

/-- The step does not meet a number out of reach. -/
def InReach {α : Type} (x : Walk α) : Prop := ∀ u, x ≠ .error (.unreachable u)

/-- A refusal is told. -/
theorem inReach_refuse {α : Type} (f : TableFault) : InReach (Walk.refuse f : Walk α) := by
  intro u h
  cases h

/-- Steps in reach stay so one after the other. -/
theorem inReach_bind {α β : Type} {x : Walk α} {f : α → Walk β} (hx : InReach x)
    (hf : ∀ a, InReach (f a)) : InReach (x >>= f) := by
  intro u h
  rcases bind_eq_error_iff.1 h with hx' | ⟨a, -, ha⟩
  · exact hx u hx'
  · exact hf a u ha

/-- A field is read, or the file is cut short. -/
theorem inReach_uint (file : Bytes) (h : Header) (p width : Nat) :
    InReach (uint file h p width) := by
  intro u hu
  obtain ⟨s, -, hs⟩ := mapError_eq_error_iff.1 hu
  cases hs

/-- The fields of a section header are read, or the file is cut short. -/
theorem inReach_sectionHeader_readAt (file : Bytes) (h : Header) (p : Nat) :
    InReach (SectionHeader.readAt file h p) := by
  unfold SectionHeader.readAt
  iterate 10
    refine inReach_bind (inReach_uint file h _ _) fun _ => ?_
  intro u hu
  cases hu

/-- The fields of a segment header are read, or the file is cut short. -/
theorem inReach_segmentHeader_readAt (file : Bytes) (h : Header) (p : Nat) :
    InReach (SegmentHeader.readAt file h p) := by
  unfold SegmentHeader.readAt
  cases h.wordSize <;>
  · iterate 8
      refine inReach_bind (inReach_uint file h _ _) fun _ => ?_
    intro u hu
    cases hu

/-- No section header lies out of reach: what lies behind the end of the file is told. -/
theorem inReach_sectionHeader (file : Bytes) (h : Header) (index : Nat) :
    InReach (sectionHeader file h index) := by
  unfold sectionHeader
  split
  · exact inReach_refuse _
  · split
    · exact inReach_refuse _
    · exact inReach_sectionHeader_readAt file h _

/-- The section that is taken for the table of names. -/
def openNames (file : Bytes) (h : Header) (index : Nat) : Walk SectionHeader :=
  match sectionHeader file h index with
  | .error (.table f) => if f.isStructural then .refuse .noNameTable else .refuse f
  | result => result

/-- The table of names is the section that the file header tells, or else the first section. -/
theorem nameTable_eq_openNames (file : Bytes) (h : Header) :
    nameTable file h =
      if h.nameTableIndex = indexEscape then
        sectionHeader file h 0 >>= fun s => openNames file h s.link
      else openNames file h h.nameTableIndex := by
  unfold nameTable
  split
  · rfl
  · rfl

/-- What is taken for the table of names is a section of the file. -/
theorem sectionHeader_of_openNames {file : Bytes} {h : Header} {index : Nat}
    {names : SectionHeader} (hopen : openNames file h index = .ok names) :
    sectionHeader file h index = .ok names := by
  unfold openNames at hopen
  split at hopen
  · split at hopen
    · cases hopen
    · cases hopen
  · exact hopen

/-- The table of names is found, or its lack is told. -/
theorem inReach_nameTable (file : Bytes) (h : Header) : InReach (nameTable file h) := by
  have hopen : ∀ index, InReach (openNames file h index) := by
    intro index
    unfold openNames
    split
    · split
      · exact inReach_refuse _
      · exact inReach_refuse _
    · exact inReach_sectionHeader file h index
  rw [nameTable_eq_openNames]
  split
  · exact inReach_bind (inReach_sectionHeader file h 0) fun s => hopen s.link
  · exact hopen h.nameTableIndex

/-- The sections are counted, or the first header is refused. -/
theorem inReach_sectionCount (file : Bytes) (h : Header) : InReach (sectionCount file h) := by
  unfold sectionCount
  split
  · intro u hu
    cases hu
  · split
    · intro u hu
      exact inReach_sectionHeader file h 0 u (map_eq_error_iff.1 hu)
    · intro u hu
      cases hu

/-- What follows a step in reach is what can meet a number out of reach. -/
theorem bind_eq_unreachable_iff {α β : Type} {x : Walk α} {f : α → Walk β} {u : Unreachable}
    (hx : InReach x) :
    x >>= f = .error (.unreachable u) ↔ ∃ a, x = .ok a ∧ f a = .error (.unreachable u) := by
  rw [bind_eq_error_iff]
  constructor
  · rintro (h | h)
    · exact absurd h (hx u)
    · exact h
  · intro h
    exact .inr h

/-! ## Names -/

/-- The place of a section's name is out of reach. -/
def NameBeyond (file : Bytes) (h : Header) (s : SectionHeader) : Prop :=
  ∃ names, nameTable file h = .ok names ∧ reach ≤ names.offset + s.nameOffset

/-- A text is read wherever its place is in reach. -/
theorem nameAt_of_lt {p : Nat} (file : Bytes) (hp : p < reach) :
    ∃ name, nameAt file p = .ok name := by
  unfold nameAt seek
  rw [if_pos hp]
  cases hzero : file.zeroFrom? p with
  | none => exact ⟨_, rfl⟩
  | some stop => exact ⟨_, rfl⟩

/-- No text is read at a place out of reach. -/
theorem nameAt_of_le {p : Nat} (file : Bytes) (hp : reach ≤ p) :
    nameAt file p = .error (.unreachable .position) := by
  unfold nameAt seek
  rw [if_neg (Nat.not_lt.2 hp)]
  rfl

/-- Where there is a table of names, the name of a section is read, or its place is out of
reach. -/
theorem sectionName_or {file : Bytes} {h : Header} {names : SectionHeader}
    (hnames : nameTable file h = .ok names) (s : SectionHeader) :
    (∃ name, sectionName file h s = .ok name) ∨
      NameBeyond file h s ∧ sectionName file h s = .error (.unreachable .position) := by
  unfold sectionName
  rcases Nat.lt_or_ge (names.offset + s.nameOffset) reach with hlt | hge
  · obtain ⟨name, hname⟩ := nameAt_of_lt file hlt
    exact .inl ⟨name, bind_eq_ok_iff.2 ⟨names, hnames, hname⟩⟩
  · exact .inr ⟨⟨names, hnames, hge⟩,
      bind_eq_error_iff.2 (.inr ⟨names, hnames, nameAt_of_le file hge⟩)⟩

/-- A name ends the walk when its place is out of reach. -/
theorem sectionName_eq_unreachable_iff {file : Bytes} {h : Header} {s : SectionHeader}
    {u : Unreachable} :
    sectionName file h s = .error (.unreachable u) ↔ u = .position ∧ NameBeyond file h s := by
  constructor
  · intro hname
    obtain ⟨names, hnames, -⟩ := (bind_eq_unreachable_iff (inReach_nameTable file h)).1 hname
    rcases sectionName_or hnames s with ⟨name, hok⟩ | ⟨hbeyond, herror⟩
    · rw [hok] at hname
      cases hname
    · rw [herror] at hname
      cases hname
      exact ⟨rfl, hbeyond⟩
  · rintro ⟨rfl, hbeyond⟩
    obtain ⟨names, hnames, hle⟩ := hbeyond
    exact bind_eq_error_iff.2 (.inr ⟨names, hnames, nameAt_of_le file hle⟩)

/-! ## Tables about symbols -/

/-- A section belongs to another one whose name is looked up for its sake: a symbol table to its
strings, and a table about symbols to its symbol table. -/
def LinksTo (file : Bytes) (h : Header) (s t : SectionHeader) : Prop :=
  sectionHeader file h s.link = .ok t ∧
    (s.type ∈ symbolTableTypes ∧ t.type = stringTableType ∨
      s.type = symbolInfoType ∧ t.type ∈ linkableSymbolTypes)

/-- The sections whose names are looked up for a section: its own, and on along the links. -/
inductive Consults (file : Bytes) (h : Header) : SectionHeader → SectionHeader → Prop where
  | self (s : SectionHeader) : Consults file h s s
  | link {s t v : SectionHeader} (hlink : LinksTo file h s t) (hrest : Consults file h t v) :
    Consults file h s v

/-- No table about symbols is a symbol table itself. -/
theorem ne_symbolInfo_of_symbols {s : SectionHeader} (hs : s.type ∈ symbolTableTypes) :
    s.type ≠ symbolInfoType := by
  intro hinfo
  rw [hinfo] at hs
  exact absurd hs (by decide)

/-- A string table belongs to no other section. -/
theorem Consults.eq_of_strings {file : Bytes} {h : Header} {s t : SectionHeader}
    (hc : Consults file h s t) (hs : s.type = stringTableType) : t = s := by
  cases hc with
  | self => rfl
  | link hlink _ =>
    obtain ⟨-, ⟨hsymbols, -⟩ | ⟨hinfo, -⟩⟩ := hlink
    · rw [hs] at hsymbols
      exact absurd hsymbols (by decide)
    · rw [hs] at hinfo
      exact absurd hinfo (by decide)

/-- A section whose name is read has its name in reach. -/
theorem not_nameBeyond_of_ok {file : Bytes} {h : Header} {s : SectionHeader} {name : String}
    (hname : sectionName file h s = .ok name) : ¬ NameBeyond file h s := by
  intro hbeyond
  have herror := sectionName_eq_unreachable_iff.2 ⟨rfl, hbeyond⟩
  rw [hname] at herror
  cases herror

/-- Behind a symbol table whose own name is read, the name out of reach is that of its strings. -/
theorem Consults.strings_of_symbols {file : Bytes} {h : Header} {s v : SectionHeader}
    {name : String} (hc : Consults file h s v) (hs : s.type ∈ symbolTableTypes)
    (hname : sectionName file h s = .ok name) (hbeyond : NameBeyond file h v) :
    ∃ t, sectionHeader file h s.link = .ok t ∧ t.type = stringTableType ∧
      NameBeyond file h t := by
  cases hc with
  | self => exact absurd hbeyond (not_nameBeyond_of_ok hname)
  | link hlink hrest =>
    -- the one link of a symbol table leads to its strings, and there it ends
    obtain ⟨ht, ⟨-, htype⟩ | ⟨hinfo, -⟩⟩ := hlink
    · rw [hrest.eq_of_strings htype] at hbeyond
      exact ⟨_, ht, htype, hbeyond⟩
    · exact absurd hinfo (ne_symbolInfo_of_symbols hs)

/-- The check of a symbol table ends the walk when the place of the name of its strings is out of
reach. -/
theorem checkSymbolTable_eq_unreachable_iff {file : Bytes} {h : Header} {s : SectionHeader}
    {name : String} {u : Unreachable} :
    checkSymbolTable file h s name = .error (.unreachable u) ↔
      u = .position ∧ ∃ t, sectionHeader file h s.link = .ok t ∧ t.type = stringTableType ∧
        NameBeyond file h t := by
  unfold checkSymbolTable
  rw [bind_eq_unreachable_iff (inReach_sectionHeader file h s.link)]
  constructor
  · rintro ⟨t, ht, hrest⟩
    by_cases htype : t.type = stringTableType
    · simp only [htype, ne_eq, not_true_eq_false, if_false] at hrest
      rcases bind_eq_error_iff.1 hrest with hname | ⟨strings, -, hentries⟩
      · obtain ⟨hu, hbeyond⟩ := sectionName_eq_unreachable_iff.1 hname
        exact ⟨hu, t, ht, htype, hbeyond⟩
      · -- the size of the entries is told when it is bad
        split at hentries
        · cases hentries
        · split at hentries
          · cases hentries
          · cases hentries
    · simp only [ne_eq, htype, not_false_eq_true, if_true] at hrest
      cases hrest
  · rintro ⟨rfl, t, ht, htype, hbeyond⟩
    refine ⟨t, ht, ?_⟩
    simp only [htype, ne_eq, not_true_eq_false, if_false]
    exact bind_eq_error_iff.2 (.inl (sectionName_eq_unreachable_iff.2 ⟨rfl, hbeyond⟩))

/-- The check of a table about symbols ends the walk when the place of a name is out of reach: that
of its symbol table, or of the strings of that. -/
theorem checkSymbolInfo_eq_unreachable_iff {file : Bytes} {h : Header} {s : SectionHeader}
    {u : Unreachable} :
    checkSymbolInfo file h s = .error (.unreachable u) ↔
      u = .position ∧ ∃ t v, sectionHeader file h s.link = .ok t ∧
        t.type ∈ linkableSymbolTypes ∧ Consults file h t v ∧ NameBeyond file h v := by
  unfold checkSymbolInfo
  rw [bind_eq_unreachable_iff (inReach_sectionHeader file h s.link)]
  constructor
  · rintro ⟨t, ht, hrest⟩
    by_cases htype : t.type ∈ linkableSymbolTypes
    · have hcontains : linkableSymbolTypes.contains t.type = true := List.contains_iff_mem.2 htype
      simp only [hcontains, Bool.not_true, Bool.false_eq_true, if_false] at hrest
      rcases bind_eq_error_iff.1 hrest with hname | ⟨name, -, hstrings⟩
      · obtain ⟨hu, hbeyond⟩ := sectionName_eq_unreachable_iff.1 hname
        exact ⟨hu, t, t, ht, htype, .self t, hbeyond⟩
      · obtain ⟨hu, v, hv, hvtype, hbeyond⟩ := checkSymbolTable_eq_unreachable_iff.1 hstrings
        have hlink : LinksTo file h t v :=
          ⟨hv, .inl ⟨List.mem_append_left _ htype, hvtype⟩⟩
        exact ⟨hu, t, v, ht, htype, .link hlink (.self v), hbeyond⟩
    · have hcontains : linkableSymbolTypes.contains t.type = false := by simpa using htype
      simp only [hcontains, Bool.not_false, if_true] at hrest
      cases hrest
  · rintro ⟨rfl, t, v, ht, htype, hconsults, hbeyond⟩
    have hcontains : linkableSymbolTypes.contains t.type = true := List.contains_iff_mem.2 htype
    refine ⟨t, ht, ?_⟩
    simp only [hcontains, Bool.not_true, Bool.false_eq_true, if_false]
    -- all names are looked up in one table, so with one of them it is there for the others
    obtain ⟨names, hnames, hle⟩ := hbeyond
    rcases sectionName_or hnames t with ⟨name, hok⟩ | ⟨-, herror⟩
    · refine bind_eq_error_iff.2 (.inr ⟨name, hok, ?_⟩)
      exact checkSymbolTable_eq_unreachable_iff.2
        ⟨rfl, hconsults.strings_of_symbols (List.mem_append_left _ htype) hok ⟨names, hnames, hle⟩⟩
    · exact bind_eq_error_iff.2 (.inl herror)

/-! ## Sections -/

/-- The check that the type of a section asks for. -/
def checkType (file : Bytes) (h : Header) (s : SectionHeader) (name : String) : Walk Unit :=
  if s.type ∈ symbolTableTypes then checkSymbolTable file h s name
  else if s.type = symbolInfoType then checkSymbolInfo file h s
  else .ok ()

/-- A section is read in three steps: its header, its name, and the check of its type. -/
theorem namedSection_eq (file : Bytes) (h : Header) (index : Nat) :
    namedSection file h index =
      sectionHeader file h index >>= fun s =>
        sectionName file h s >>= fun name =>
          checkType file h s name >>= fun _ => .ok (s, name) := by
  unfold namedSection
  congr 1
  funext s
  congr 1
  funext name
  unfold checkType
  by_cases hsymbols : s.type ∈ symbolTableTypes
  · have hinfo := ne_symbolInfo_of_symbols hsymbols
    rw [if_pos hsymbols, if_pos (List.contains_iff_mem.2 hsymbols)]
    simp only [hinfo, if_false]
    rfl
  · have hcontains : symbolTableTypes.contains s.type ≠ true := by
      intro hcontains
      exact hsymbols (List.contains_iff_mem.1 hcontains)
    rw [if_neg hsymbols, if_neg hcontains]
    split
    · rfl
    · rfl

/-- The check of a section's type ends the walk when a name that is looked up for it is out of
reach. -/
theorem checkType_eq_unreachable_iff {file : Bytes} {h : Header} {s : SectionHeader}
    {name : String} {u : Unreachable} :
    checkType file h s name = .error (.unreachable u) ↔
      u = .position ∧ ∃ t v, LinksTo file h s t ∧ Consults file h t v ∧ NameBeyond file h v := by
  unfold checkType
  split
  · next hsymbols =>
    rw [checkSymbolTable_eq_unreachable_iff]
    constructor
    · rintro ⟨hu, t, ht, htype, hbeyond⟩
      exact ⟨hu, t, t, ⟨ht, .inl ⟨hsymbols, htype⟩⟩, .self t, hbeyond⟩
    · rintro ⟨hu, t, v, ⟨ht, ⟨-, htype⟩ | ⟨hinfo, -⟩⟩, hconsults, hbeyond⟩
      · rw [hconsults.eq_of_strings htype] at hbeyond
        exact ⟨hu, t, ht, htype, hbeyond⟩
      · exact absurd hinfo (ne_symbolInfo_of_symbols hsymbols)
  · next hsymbols =>
    split
    · next hinfo =>
      rw [checkSymbolInfo_eq_unreachable_iff]
      constructor
      · rintro ⟨hu, t, v, ht, htype, hconsults, hbeyond⟩
        exact ⟨hu, t, v, ⟨ht, .inr ⟨hinfo, htype⟩⟩, hconsults, hbeyond⟩
      · rintro ⟨hu, t, v, ⟨ht, ⟨hs, -⟩ | ⟨-, htype⟩⟩, hconsults, hbeyond⟩
        · exact absurd hs hsymbols
        · exact ⟨hu, t, v, ht, htype, hconsults, hbeyond⟩
    · next hinfo =>
      constructor
      · intro hdone
        cases hdone
      · rintro ⟨-, t, v, ⟨-, ⟨hs, -⟩ | ⟨hs, -⟩⟩, -⟩
        · exact absurd hs hsymbols
        · exact absurd hs hinfo

/-- A name that is looked up for the section at an index is out of reach. -/
def NamesBeyond (file : Bytes) (h : Header) (index : Nat) : Prop :=
  ∃ s v, sectionHeader file h index = .ok s ∧ Consults file h s v ∧ NameBeyond file h v

/-- **A named section ends the walk** just when a name that is looked up for it is out of
reach. -/
theorem namedSection_eq_unreachable_iff {file : Bytes} {h : Header} {index : Nat}
    {u : Unreachable} :
    namedSection file h index = .error (.unreachable u) ↔
      u = .position ∧ NamesBeyond file h index := by
  rw [namedSection_eq, bind_eq_unreachable_iff (inReach_sectionHeader file h index)]
  constructor
  · rintro ⟨s, hs, hrest⟩
    rcases bind_eq_error_iff.1 hrest with hname | ⟨name, -, hchecks⟩
    · obtain ⟨hu, hbeyond⟩ := sectionName_eq_unreachable_iff.1 hname
      exact ⟨hu, s, s, hs, .self s, hbeyond⟩
    · rcases bind_eq_error_iff.1 hchecks with hcheck | ⟨_, -, hdone⟩
      · obtain ⟨hu, t, v, hlink, hrest, hbeyond⟩ := checkType_eq_unreachable_iff.1 hcheck
        exact ⟨hu, s, v, hs, .link hlink hrest, hbeyond⟩
      · cases hdone
  · rintro ⟨rfl, s, v, hs, hconsults, hbeyond⟩
    refine ⟨s, hs, bind_eq_error_iff.2 ?_⟩
    have ⟨names, hnames, _⟩ := hbeyond
    rcases sectionName_or hnames s with ⟨name, hok⟩ | ⟨-, herror⟩
    · refine .inr ⟨name, hok, bind_eq_error_iff.2 (.inl ?_)⟩
      -- the name of the section itself is read, so there is a link to follow
      cases hconsults with
      | self => exact absurd hbeyond (not_nameBeyond_of_ok hok)
      | link hlink hrest =>
        exact checkType_eq_unreachable_iff.2 ⟨rfl, _, v, hlink, hrest, hbeyond⟩
    · exact .inl herror

/-- The first number out of reach of a stretch of the file: its place, or else its length. -/
def StretchBeyond (position length : Nat) : Unreachable → Prop
  | .position => reach ≤ position
  | .length => position < reach ∧ reach ≤ length

/-- A stretch of the file ends the walk when its place or its length is out of reach. -/
theorem readAt_eq_unreachable_iff {file : Bytes} {position length : Nat} {u : Unreachable} :
    readAt file position length = .error (.unreachable u) ↔ StretchBeyond position length u := by
  unfold readAt seek StretchBeyond
  rcases Nat.lt_or_ge position reach with hp | hp
  · rw [if_pos hp]
    show (if length < reach then _ else _ : Walk Bytes) = _ ↔ _
    rcases Nat.lt_or_ge length reach with hl | hl
    · rw [if_pos hl]
      cases u <;> simp <;> omega
    · rw [if_neg (Nat.not_lt.2 hl)]
      cases u <;> simp <;> omega
  · rw [if_neg (Nat.not_lt.2 hp)]
    cases u <;> simp [bind, Except.bind] <;> omega

/-- Code that is kept with its content ends the walk when its place or its length is out of
reach. -/
theorem keepCode_eq_unreachable_iff {file : Bytes} {isCode : Bool} {position length : Nat}
    {make : Bytes → Section} {u : Unreachable} :
    (if isCode = true then do
        let content ← readAt file position length
        return some (make content)
      else return none : Walk (Option Section)) = .error (.unreachable u) ↔
      isCode = true ∧ StretchBeyond position length u := by
  split
  · next hcode =>
    rw [bind_eq_error_iff, readAt_eq_unreachable_iff]
    constructor
    · rintro (hbeyond | ⟨content, -, hdone⟩)
      · exact ⟨hcode, hbeyond⟩
      · cases hdone
    · rintro ⟨-, hbeyond⟩
      exact .inl hbeyond
  · next hcode =>
    constructor
    · intro hdone
      cases hdone
    · rintro ⟨htrue, -⟩
      exact absurd htrue hcode

/-- The section at an index has a number out of reach: the place of a name that is looked up for
it, or the place or the length of its code. -/
def SectionBeyond (file : Bytes) (h : Header) (index : Nat) (u : Unreachable) : Prop :=
  u = .position ∧ NamesBeyond file h index ∨
    ∃ s name, namedSection file h index = .ok (s, name) ∧
      isCodeSection s.flags (sectionType h.machine s.type) = true ∧
      StretchBeyond s.offset s.size u

/-- **A section ends the walk** just when it has a number out of reach. -/
theorem codeSectionAt_eq_unreachable_iff {file : Bytes} {h : Header} {index : Nat}
    {u : Unreachable} :
    codeSectionAt file h index = .error (.unreachable u) ↔ SectionBeyond file h index u := by
  unfold codeSectionAt SectionBeyond
  rw [bind_eq_error_iff, namedSection_eq_unreachable_iff]
  apply or_congr_right
  constructor
  · rintro ⟨⟨s, name⟩, hnamed, hcontent⟩
    exact ⟨s, name, hnamed, keepCode_eq_unreachable_iff.1 hcontent⟩
  · rintro ⟨s, name, hnamed, hcode⟩
    exact ⟨(s, name), hnamed, keepCode_eq_unreachable_iff.2 hcode⟩

/-! ## Segments -/

/-- The place of a segment header is out of reach. -/
def SegmentHeaderBeyond (h : Header) (index : Nat) : Prop :=
  ¬ (0 < h.segmentTable ∧ h.segmentEntrySize < SegmentHeader.width h.wordSize) ∧
    reach ≤ h.segmentTable + index * h.segmentEntrySize

/-- A segment header ends the walk when its place is out of reach. -/
theorem segmentHeader_eq_unreachable_iff {file : Bytes} {h : Header} {index : Nat}
    {u : Unreachable} :
    segmentHeader file h index = .error (.unreachable u) ↔
      u = .position ∧ SegmentHeaderBeyond h index := by
  unfold segmentHeader SegmentHeaderBeyond
  split
  · next hsmall =>
    -- entries that are too small are refused before the place is looked at
    constructor
    · intro hrefused
      cases hrefused
    · rintro ⟨-, hnot, -⟩
      exact absurd hsmall hnot
  · next hsmall =>
    rcases Nat.lt_or_ge (h.segmentTable + index * h.segmentEntrySize) reach with hp | hp
    · simp only [seek, if_pos hp]
      constructor
      · intro hread
        exact absurd hread (inReach_segmentHeader_readAt file h _ u)
      · rintro ⟨-, -, hle⟩
        omega
    · simp only [seek, if_neg (Nat.not_lt.2 hp)]
      constructor
      · intro hseek
        cases hseek
        exact ⟨rfl, hsmall, hp⟩
      · rintro ⟨rfl, -, -⟩
        rfl

/-- The segment at an index has a number out of reach: the place of its header, or the place or the
length of its code. -/
def SegmentBeyond (file : Bytes) (h : Header) (index : Nat) (u : Unreachable) : Prop :=
  u = .position ∧ SegmentHeaderBeyond h index ∨
    ∃ s, segmentHeader file h index = .ok s ∧
      isCodeSegment (.numbered s.type) s.flags = true ∧ StretchBeyond s.offset s.size u

/-- **A segment ends the walk** just when it has a number out of reach. -/
theorem codeSegmentAt_eq_unreachable_iff {file : Bytes} {h : Header} {index : Nat}
    {u : Unreachable} :
    codeSegmentAt file h index = .error (.unreachable u) ↔ SegmentBeyond file h index u := by
  unfold codeSegmentAt SegmentBeyond
  rw [bind_eq_error_iff, segmentHeader_eq_unreachable_iff]
  apply or_congr_right
  constructor
  · rintro ⟨s, hs, hcontent⟩
    exact ⟨s, hs, keepCode_eq_unreachable_iff.1 hcontent⟩
  · rintro ⟨s, hs, hcode⟩
    exact ⟨s, hs, keepCode_eq_unreachable_iff.2 hcode⟩

/-! ## The whole walk -/

/-- The first entry of a table that is not read is `beyond`. -/
def FirstBeyond {α : Type} (read : Nat → Walk α) (count : Nat) (beyond : Nat → Prop) : Prop :=
  ∃ i, i < count ∧ (∀ j, j < i → ∃ entry, read j = .ok entry) ∧ beyond i

/-- A walk over a table fails where its first entry fails that is not read. -/
theorem collect_eq_error_iff {α : Type} {read : Nat → Walk (Option α)} {f : WalkFault}
    {count index : Nat} {kept : List α} :
    collect read count index kept = .error f ↔
      ∃ i, index ≤ i ∧ i < index + count ∧ (∀ j, index ≤ j → j < i → ∃ e, read j = .ok e) ∧
        read i = .error f := by
  -- on the entries still to come; what was kept of those in front does not matter
  induction count generalizing index kept with
  | zero =>
    constructor
    · intro h
      cases h
    · rintro ⟨i, hle, hlt, -, -⟩
      omega
  | succ count ih =>
    rw [collect]
    cases hread : read index with
    | error g =>
      show Except.error g = Except.error f ↔ _
      constructor
      · intro h
        cases h
        exact ⟨index, Nat.le_refl _, by omega, fun j _ _ => by omega, hread⟩
      · rintro ⟨i, hle, -, hbefore, hi⟩
        -- no entry behind the one that fails is looked at
        rcases Nat.eq_or_lt_of_le hle with rfl | hlt
        · have hsame := hread.symm.trans hi
          cases hsame
          rfl
        · obtain ⟨e, he⟩ := hbefore index (Nat.le_refl _) hlt
          rw [hread] at he
          cases he
    | ok entry =>
      show collect read count (index + 1) (entry.toList ++ kept) = .error f ↔ _
      rw [ih]
      constructor
      · rintro ⟨i, hle, hlt, hbefore, hi⟩
        refine ⟨i, by omega, by omega, ?_, hi⟩
        intro j hj hji
        rcases Nat.eq_or_lt_of_le hj with rfl | hlt'
        · exact ⟨entry, hread⟩
        · exact hbefore j hlt' hji
      · rintro ⟨i, hle, hlt, hbefore, hi⟩
        rcases Nat.eq_or_lt_of_le hle with rfl | hlt'
        · rw [hread] at hi
          cases hi
        · exact ⟨i, hlt', by omega, fun j hj hji => hbefore j (by omega) hji, hi⟩

/-- A walk over a whole table ends out of reach where its first entry does that is not read. -/
theorem collect_eq_unreachable_iff {α : Type} {read : Nat → Walk (Option α)} {u : Unreachable}
    {count : Nat} {beyond : Nat → Prop}
    (hbeyond : ∀ i, read i = .error (.unreachable u) ↔ beyond i) :
    collect read count 0 [] = .error (.unreachable u) ↔ FirstBeyond read count beyond := by
  rw [collect_eq_error_iff]
  constructor
  · rintro ⟨i, -, hlt, hbefore, hi⟩
    exact ⟨i, by omega, fun j hj => hbefore j (Nat.zero_le j) hj, (hbeyond i).1 hi⟩
  · rintro ⟨i, hlt, hbefore, hi⟩
    exact ⟨i, Nat.zero_le i, by omega, fun j _ hj => hbefore j hj, (hbeyond i).2 hi⟩

/-- The section table has a number out of reach. -/
def SectionTableBeyond (file : Bytes) (h : Header) (u : Unreachable) : Prop :=
  ∃ count, sectionCount file h = .ok count ∧
    FirstBeyond (codeSectionAt file h) count (SectionBeyond file h · u)

/-- The segment table has a number out of reach; the first section counts where it holds the
number of segments. -/
def SegmentTableBeyond (file : Bytes) (h : Header) (u : Unreachable) : Prop :=
  (h.segmentCount = indexEscape ∧ u = .position ∧ NamesBeyond file h 0) ∨
    ∃ count, segmentCount file h = .ok count ∧
      FirstBeyond (codeSegmentAt file h) count (SegmentBeyond file h · u)

/-- The tables of a file have a number out of reach. The segments count where no section has
code. -/
def CodeBeyond (file : Bytes) (h : Header) (u : Unreachable) : Prop :=
  SectionTableBeyond file h u ∨ sectionsOf file h = .ok [] ∧ SegmentTableBeyond file h u

/-- The sections end the walk just when their table has a number out of reach. -/
theorem sectionsOf_eq_unreachable_iff {file : Bytes} {h : Header} {u : Unreachable} :
    sectionsOf file h = .error (.unreachable u) ↔ SectionTableBeyond file h u := by
  unfold sectionsOf
  rw [bind_eq_unreachable_iff (inReach_sectionCount file h)]
  simp only [collect_eq_unreachable_iff fun _ => codeSectionAt_eq_unreachable_iff]
  exact Iff.rfl

/-- The segments end the walk just when their table has a number out of reach. -/
theorem segmentsOf_eq_unreachable_iff {file : Bytes} {h : Header} {u : Unreachable} :
    segmentsOf file h = .error (.unreachable u) ↔ SegmentTableBeyond file h u := by
  have hcount : segmentCount file h = .error (.unreachable u) ↔
      h.segmentCount = indexEscape ∧ u = .position ∧ NamesBeyond file h 0 := by
    unfold segmentCount
    split
    · next hescape =>
      rw [← namedSection_eq_unreachable_iff]
      exact map_eq_error_iff.trans (by simp [hescape])
    · next hescape => simp [hescape]
  unfold segmentsOf
  rw [bind_eq_error_iff, hcount]
  simp only [collect_eq_unreachable_iff fun _ => codeSegmentAt_eq_unreachable_iff]
  exact Iff.rfl

/-- **The walk through a file ends for good** just when its tables have a number out of reach. -/
theorem codeOf_eq_unreachable_iff {file : Bytes} {h : Header} {u : Unreachable} :
    codeOf file h = .error (.unreachable u) ↔ CodeBeyond file h u := by
  unfold codeOf CodeBeyond
  rw [bind_eq_error_iff, sectionsOf_eq_unreachable_iff]
  apply or_congr_right
  constructor
  · rintro ⟨sections, hsections, hrest⟩
    cases sections with
    | nil => exact ⟨hsections, segmentsOf_eq_unreachable_iff.1 hrest⟩
    | cons s rest => cases hrest
  · rintro ⟨hsections, hsegments⟩
    exact ⟨[], hsections, segmentsOf_eq_unreachable_iff.2 hsegments⟩

end SigScan.Elf
