/-
# Code of a PE image

A PE image has code in its sections with the execute characteristic, in the order of the section
table. A name is padded with zero bytes, and damaged bytes in it are left out.

`mem_codeSections` says which sections are listed.
-/
import SigScan.Section
import SigScan.Text.Utf8

namespace SigScan.Pe

/-- What the extraction of code looks at in a section. -/
structure SectionEntry where
  nameBytes : List UInt8
  characteristics : Int
  address : Int
  content : Bytes
  deriving DecidableEq, Repr

/-- Does a section with these characteristics hold code to execute? -/
def isCode (characteristics : Int) : Bool := hasBit characteristics 29

/-- Text without the zero characters at both ends. -/
def trimZeros (text : List Char) : List Char :=
  ((text.dropWhile (·.toNat = 0)).reverse.dropWhile (·.toNat = 0)).reverse

/-- The name in a section header. -/
def nameOf (nameBytes : List UInt8) : String :=
  String.ofList (trimZeros (Text.Utf8.decode none nameBytes))

/-- The section of an image that is loaded at `imageBase`. -/
def SectionEntry.toSection (imageBase : Int) (e : SectionEntry) : Section :=
  ⟨nameOf e.nameBytes, e.content, imageBase + e.address⟩

/-- The code sections of an image that is loaded at `imageBase`. -/
def codeSections (imageBase : Int) (entries : List SectionEntry) : List Section :=
  (entries.filter fun e => isCode e.characteristics).map (·.toSection imageBase)

/-- The listed sections are those of the executable entries. -/
theorem mem_codeSections {imageBase : Int} {entries : List SectionEntry} {s : Section} :
    s ∈ codeSections imageBase entries ↔
      ∃ e ∈ entries, isCode e.characteristics = true ∧ e.toSection imageBase = s := by
  simp only [codeSections, List.mem_map, List.mem_filter]
  exact ⟨fun ⟨e, ⟨hm, hc⟩, hs⟩ => ⟨e, hm, hc, hs⟩, fun ⟨e, hm, hc, hs⟩ => ⟨e, ⟨hm, hc⟩, hs⟩⟩

end SigScan.Pe
