/-
# The segment table of an ELF file

What is read of a segment: its header, whose fields stand in an order of their own in either
word size, and its content if it is loaded code.

`segmentCount_of_ne` gives the number of segments in the usual case.
-/
import SigScan.Image.Elf.SectionTable

namespace SigScan.Elf

/-! ## Segment headers -/

/-- What a segment header tells about its segment. -/
structure SegmentHeader where
  type : Nat
  flags : Nat
  offset : Nat
  address : Nat
  size : Nat
  deriving DecidableEq, Repr

/-- The width of a segment header. -/
def SegmentHeader.width : WordSize → Nat
  | .bits32 => 32
  | .bits64 => 56

/-- Reads the segment header at a position; the flags stand where the word size puts them. -/
def SegmentHeader.readAt (file : Bytes) (h : Header) (p : Nat) : Walk SegmentHeader :=
  match h.wordSize with
  | .bits32 => do
    let type ← uint file h p 4
    let offset ← uint file h (p + 4) 4
    let address ← uint file h (p + 8) 4
    let _physical ← uint file h (p + 12) 4
    let size ← uint file h (p + 16) 4
    let _memory ← uint file h (p + 20) 4
    let flags ← uint file h (p + 24) 4
    let _alignment ← uint file h (p + 28) 4
    return { type, flags, offset, address, size }
  | .bits64 => do
    let type ← uint file h p 4
    let flags ← uint file h (p + 4) 4
    let offset ← uint file h (p + 8) 8
    let address ← uint file h (p + 16) 8
    let _physical ← uint file h (p + 24) 8
    let size ← uint file h (p + 32) 8
    let _memory ← uint file h (p + 40) 8
    let _alignment ← uint file h (p + 48) 8
    return { type, flags, offset, address, size }

/-- Reads the segment header at an index of the table. -/
def segmentHeader (file : Bytes) (h : Header) (index : Nat) : Walk SegmentHeader :=
  if 0 < h.segmentTable ∧ h.segmentEntrySize < SegmentHeader.width h.wordSize then
    .refuse (.smallSegmentEntry h.segmentEntrySize)
  else do
    let position := h.segmentTable + index * h.segmentEntrySize
    seek position
    SegmentHeader.readAt file h position

/-! ## Segments -/

/-- The segment at an index, if it has code. -/
def codeSegmentAt (file : Bytes) (h : Header) (index : Nat) : Walk (Option Section) := do
  let s ← segmentHeader file h index
  if isCodeSegment (.numbered s.type) s.flags then
    let content ← readAt file s.offset s.size
    return some ⟨segmentName index, content, s.address⟩
  else return none

/-- The number of segments; the first section holds it if it does not fit the file header. -/
def segmentCount (file : Bytes) (h : Header) : Walk Nat :=
  if h.segmentCount = indexEscape then (·.1.info) <$> namedSection file h 0
  else .ok h.segmentCount

/-- A number of segments that fits the file header is taken from there. -/
theorem segmentCount_of_ne {file : Bytes} {h : Header} (hc : h.segmentCount ≠ indexEscape) :
    segmentCount file h = .ok h.segmentCount := by
  simp [segmentCount, hc]

end SigScan.Elf
