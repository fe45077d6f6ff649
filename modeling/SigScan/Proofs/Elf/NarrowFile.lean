/-
# 32-bit files stay in reach

A field is below the power of 256 that its width gives, so nothing that a 32-bit ELF file says
adds up to a number out of reach: only 64-bit files can end a walk for good.

* `sectionHeader_narrow`, `segmentHeader_narrow`: the bounds of an entry of a table;
* `wordSize_of_codeBeyond`: a file with a number out of reach is a 64-bit file.
-/
import SigScan.Proofs.Elf.Reach
import SigScan.Proofs.Numbers

namespace SigScan

namespace Elf

/-! ## Fields -/

/-- A field is below the power of 256 that its width gives. -/
theorem uint_lt {file : Bytes} {h : Header} {p width n : Nat}
    (hn : uint file h p width = .ok n) : n < 256 ^ width :=
  Bytes.uint_lt (mapError_eq_ok_iff.1 hn)

/-- The numbers of a 32-bit file header that say where the segments are. -/
theorem Header.read_narrow {file : Bytes} {h : Header} (hread : Header.read file = .ok h)
    (hw : h.wordSize = .bits32) :
    h.segmentTable < 2 ^ 32 ∧ h.segmentEntrySize < 2 ^ 16 ∧ h.segmentCount < 2 ^ 16 := by
  unfold Header.read at hread
  split at hread
  · cases hread
  · split at hread
    · cases hread
    · next w _ =>
      split at hread
      · cases hread
      · next order _ =>
        have hfields := mapError_eq_ok_iff.1 hread
        clear hread
        unfold Header.readFields at hfields
        simp only [bind_eq_ok_iff] at hfields
        obtain ⟨_, -, _, -, _, -, _, -, _, -, table, htable, _, -, _, -, _, -, entrySize,
          hentrySize, count, hcount, _, -, _, -, _, -, hdone⟩ := hfields
        cases hdone
        cases hw
        exact ⟨Bytes.uint_lt htable, Bytes.uint_lt hentrySize, Bytes.uint_lt hcount⟩

/-- The numbers of a section header in a 32-bit file that say where something is. -/
def SectionHeader.Narrow (s : SectionHeader) : Prop :=
  s.nameOffset < 2 ^ 32 ∧ s.offset < 2 ^ 32 ∧ s.size < 2 ^ 32 ∧ s.info < 2 ^ 32

/-- **A section header in a 32-bit file is narrow.** -/
theorem sectionHeader_narrow {file : Bytes} {h : Header} {index : Nat} {s : SectionHeader}
    (hw : h.wordSize = .bits32) (hs : sectionHeader file h index = .ok s) : s.Narrow := by
  unfold sectionHeader at hs
  split at hs
  · cases hs
  · split at hs
    · cases hs
    · unfold SectionHeader.readAt at hs
      simp only [bind_eq_ok_iff, hw] at hs
      obtain ⟨name, hname, _, -, _, -, _, -, offset, hoffset, size, hsize, _, -, info, hinfo, _, -,
        _, -, hdone⟩ := hs
      cases hdone
      exact ⟨uint_lt hname, uint_lt hoffset, uint_lt hsize, uint_lt hinfo⟩

/-- **The place and the size of a segment in a 32-bit file are narrow.** -/
theorem segmentHeader_narrow {file : Bytes} {h : Header} {index : Nat} {s : SegmentHeader}
    (hw : h.wordSize = .bits32) (hs : segmentHeader file h index = .ok s) :
    s.offset < 2 ^ 32 ∧ s.size < 2 ^ 32 := by
  unfold segmentHeader at hs
  split at hs
  · cases hs
  · obtain ⟨_, -, hread⟩ := bind_eq_ok_iff.1 hs
    unfold SegmentHeader.readAt at hread
    simp only [bind_eq_ok_iff, hw] at hread
    obtain ⟨_, -, offset, hoffset, _, -, _, -, size, hsize, _, -, _, -, _, -, hdone⟩ := hread
    cases hdone
    exact ⟨uint_lt hoffset, uint_lt hsize⟩

/-! ## Walks -/

/-- The table of names is a section of the file. -/
theorem exists_sectionHeader_of_nameTable {file : Bytes} {h : Header} {names : SectionHeader}
    (hnames : nameTable file h = .ok names) : ∃ index, sectionHeader file h index = .ok names := by
  rw [nameTable_eq_openNames] at hnames
  split at hnames
  · obtain ⟨s, -, hs⟩ := bind_eq_ok_iff.1 hnames
    exact ⟨s.link, sectionHeader_of_openNames hs⟩
  · exact ⟨h.nameTableIndex, sectionHeader_of_openNames hnames⟩

/-- A named section is a section of the file. -/
theorem sectionHeader_of_namedSection {file : Bytes} {h : Header} {index : Nat}
    {s : SectionHeader} {name : String} (hs : namedSection file h index = .ok (s, name)) :
    sectionHeader file h index = .ok s := by
  rw [namedSection_eq] at hs
  obtain ⟨t, ht, hrest⟩ := bind_eq_ok_iff.1 hs
  obtain ⟨n, -, hchecks⟩ := bind_eq_ok_iff.1 hrest
  obtain ⟨_, -, hdone⟩ := bind_eq_ok_iff.1 hchecks
  cases hdone
  exact ht

/-- What is consulted for a section of the file is a section of the file. -/
theorem Consults.exists_sectionHeader {file : Bytes} {h : Header} {s t : SectionHeader}
    (hc : Consults file h s t) (hs : ∃ index, sectionHeader file h index = .ok s) :
    ∃ index, sectionHeader file h index = .ok t := by
  induction hc with
  | self => exact hs
  | link hlink _ ih => exact ih ⟨_, hlink.1⟩

/-- A number below `2 ^ 32` is in reach as a place or a length. -/
theorem not_stretchBeyond {position length : Nat} {u : Unreachable} (hp : position < 2 ^ 32)
    (hl : length < 2 ^ 32) : ¬ StretchBeyond position length u := by
  intro hbeyond
  cases u with
  | position =>
    have hle : reach ≤ position := hbeyond
    unfold reach at hle
    omega
  | length =>
    obtain ⟨-, hle⟩ : position < reach ∧ reach ≤ length := hbeyond
    unfold reach at hle
    omega

/-- The names that are looked up in a 32-bit file are in reach. -/
theorem not_namesBeyond {file : Bytes} {h : Header} (hw : h.wordSize = .bits32) (index : Nat) :
    ¬ NamesBeyond file h index := by
  rintro ⟨s, t, hs, hconsults, names, hnames, hle⟩
  obtain ⟨i, ht⟩ := hconsults.exists_sectionHeader ⟨index, hs⟩
  obtain ⟨j, hj⟩ := exists_sectionHeader_of_nameTable hnames
  obtain ⟨hname, -⟩ := sectionHeader_narrow hw ht
  obtain ⟨-, hoffset, -⟩ := sectionHeader_narrow hw hj
  unfold reach at hle
  omega

/-- The sections of a 32-bit file are in reach. -/
theorem not_sectionBeyond {file : Bytes} {h : Header} (hw : h.wordSize = .bits32) (index : Nat)
    (u : Unreachable) : ¬ SectionBeyond file h index u := by
  rintro (⟨-, hnames⟩ | ⟨s, name, hs, -, hstretch⟩)
  · exact not_namesBeyond hw index hnames
  · obtain ⟨-, hoffset, hsize, -⟩ := sectionHeader_narrow hw (sectionHeader_of_namedSection hs)
    exact not_stretchBeyond hoffset hsize hstretch

/-- The segments of a 32-bit file can be counted in four bytes. -/
theorem segmentCount_lt {file : Bytes} {h : Header} {count : Nat} (hw : h.wordSize = .bits32)
    (hheader : h.segmentCount < 2 ^ 16) (hcount : segmentCount file h = .ok count) :
    count < 2 ^ 32 := by
  unfold segmentCount at hcount
  split at hcount
  · obtain ⟨⟨s, name⟩, hs, rfl⟩ := map_eq_ok_iff.1 hcount
    obtain ⟨-, -, -, hinfo⟩ := sectionHeader_narrow hw (sectionHeader_of_namedSection hs)
    exact hinfo
  · cases hcount
    omega

/-- The segment headers of a 32-bit file are in reach. -/
theorem not_segmentHeaderBeyond {h : Header} {index : Nat} (htable : h.segmentTable < 2 ^ 32)
    (hentry : h.segmentEntrySize < 2 ^ 16) (hindex : index < 2 ^ 32) :
    ¬ SegmentHeaderBeyond h index := by
  rintro ⟨-, hle⟩
  have hmul : index * h.segmentEntrySize ≤ 2 ^ 32 * 2 ^ 16 :=
    Nat.mul_le_mul (Nat.le_of_lt hindex) (Nat.le_of_lt hentry)
  unfold reach at hle
  omega

/-- **Only a 64-bit file has a number out of reach.** -/
theorem wordSize_of_codeBeyond {file : Bytes} {h : Header} {u : Unreachable}
    (hread : Header.read file = .ok h) (hbeyond : CodeBeyond file h u) : h.wordSize = .bits64 := by
  cases hw : h.wordSize with
  | bits64 => rfl
  | bits32 =>
    exfalso
    obtain ⟨htable, hentry, hheader⟩ := Header.read_narrow hread hw
    rcases hbeyond with ⟨count, -, i, -, -, hsection⟩ | ⟨-, hsegments⟩
    · exact not_sectionBeyond hw i u hsection
    · rcases hsegments with ⟨-, -, hnames⟩ | ⟨count, hcount, i, hi, -, hsegment⟩
      · exact not_namesBeyond hw 0 hnames
      · have hlt := segmentCount_lt hw hheader hcount
        rcases hsegment with ⟨-, hplace⟩ | ⟨s, hs, -, hstretch⟩
        · exact not_segmentHeaderBeyond htable hentry (Nat.lt_trans hi hlt) hplace
        · obtain ⟨hoffset, hsize⟩ := segmentHeader_narrow hw hs
          exact not_stretchBeyond hoffset hsize hstretch

end Elf

end SigScan
