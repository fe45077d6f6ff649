/-
# The section table of a PE file

Sections are taken from the table until an empty entry, the end of the file or an entry that
makes no sense in several ways at once.

`roundDown_le` and `roundDown_of_dvd` say what rounding down to an alignment does.
-/
import SigScan.Image.Pe.Code
import SigScan.Image.Pe.Headers

namespace SigScan.Pe

/-- What a section header tells. -/
structure SectionHeader where
  nameBytes : List UInt8
  virtualSize : Nat
  virtualAddress : Nat
  rawSize : Nat
  rawOffset : Nat
  characteristics : Nat
  deriving DecidableEq, Repr

/-- The width of a section header. -/
def sectionHeaderSize : Nat := 40

/-- The section header in its bytes. -/
def SectionHeader.ofBytes (bytes : Bytes) : SectionHeader where
  nameBytes := (bytes.slice 0 8).toList
  virtualSize := bytes.paddedUint 8 4
  virtualAddress := bytes.paddedUint 12 4
  rawSize := bytes.paddedUint 16 4
  rawOffset := bytes.paddedUint 20 4
  characteristics := bytes.paddedUint 36 4

/-- A number rounded down to a multiple of the alignment; no alignment leaves it as it is. -/
def roundDown (alignment n : Nat) : Nat := if alignment = 0 then n else n - n % alignment

/-- Rounding down does not go up. -/
theorem roundDown_le (alignment n : Nat) : roundDown alignment n ≤ n := by
  unfold roundDown
  split
  · exact Nat.le_refl _
  · exact Nat.sub_le _ _

/-- A multiple of the alignment stays as it is. -/
theorem roundDown_of_dvd {alignment n : Nat} (h : alignment ∣ n) : roundDown alignment n = n := by
  simp [roundDown, Nat.mod_eq_zero_of_dvd h]

/-- The alignment of file offsets that loaders use. -/
def sectorSize : Nat := 0x200

/-- The greatest sensible size and address of a section. -/
def sensibleBound : Nat := 0x10000000

namespace SectionHeader

/-- What makes no sense about a section in a file of a given size. -/
def oddities (o : OptionalHeader) (fileSize : Nat) (s : SectionHeader) : List Bool :=
  [fileSize < s.rawSize + s.rawOffset,
    fileSize < roundDown sectorSize s.rawOffset,
    sensibleBound < s.virtualSize,
    sensibleBound < roundDown o.addressAlignment s.virtualAddress,
    o.fileAlignment ≠ 0 && s.rawOffset % o.fileAlignment ≠ 0]

/-- Does the section make no sense in three ways or more? -/
def isSenseless (o : OptionalHeader) (fileSize : Nat) (s : SectionHeader) : Bool :=
  3 ≤ (s.oddities o fileSize).count true

/-- Where the content of a section starts in the file. -/
def contentOffset (o : OptionalHeader) (s : SectionHeader) : Nat :=
  if !o.isPaged ∧ s.rawOffset = s.virtualAddress then s.rawOffset
  else roundDown sectorSize s.rawOffset

/-- The content of a section, as far as the file has it. -/
def content (file : Bytes) (o : OptionalHeader) (s : SectionHeader) : Bytes :=
  file.slice (s.contentOffset o) s.rawSize

/-- The entry of a section. -/
def entry (file : Bytes) (o : OptionalHeader) (s : SectionHeader) : SectionEntry where
  nameBytes := s.nameBytes
  characteristics := s.characteristics
  address := s.virtualAddress
  content := s.content file o

end SectionHeader

/-- The greatest number of sections that are read. -/
def sectionLimit : Nat := 0x800

/-- The section headers from an offset on, at most `count` of them. -/
def sectionHeaders (file : Bytes) (o : OptionalHeader) :
    Nat → Nat → Except Fault (List SectionHeader)
  | 0, _ => .ok []
  | count + 1, offset =>
    let bytes := file.slice offset sectionHeaderSize
    if bytes.isEmpty then .ok []
    else if bytes.size < sectionHeaderSize then .error .sectionHeaderCut
    else if bytes.all (· = 0) then .ok []
    else if (SectionHeader.ofBytes bytes).isSenseless o file.size then .ok []
    else do
      let rest ← sectionHeaders file o count (offset + sectionHeaderSize)
      return SectionHeader.ofBytes bytes :: rest

end SigScan.Pe
