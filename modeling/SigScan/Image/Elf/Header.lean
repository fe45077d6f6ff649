/-
# The ELF file header

The header tells the word size and byte order of the image, and where its section and segment
tables are. Its fields are read in file order, so a file that ends inside the header is refused
with the first field that is cut short.

`Header.size` is the width of the header, `Header.read_magic` its first condition.
-/
import SigScan.Image.Format
import SigScan.Text.Quoted

namespace SigScan.Elf

/-- The width of addresses and file offsets. -/
inductive WordSize where
  | bits32
  | bits64
  deriving DecidableEq, Repr

/-- The number of bytes in a word. -/
def WordSize.bytes : WordSize → Nat
  | .bits32 => 4
  | .bits64 => 8

/-- The word size that the class byte gives. -/
def WordSize.ofClass? (bytes : List UInt8) : Option WordSize :=
  if bytes = [1] then some .bits32 else if bytes = [2] then some .bits64 else none

/-- The byte order that the data byte gives. -/
def byteOrder? (bytes : List UInt8) : Option ByteOrder :=
  if bytes = [1] then some .little else if bytes = [2] then some .big else none

/-- Why a file header is refused. -/
inductive HeaderFault where
  /-- The file does not start with the magic. -/
  | badMagic
  /-- The class byte is no word size, or missing. -/
  | badClass (found : List UInt8)
  /-- The data byte is no byte order, or missing. -/
  | badByteOrder (found : List UInt8)
  /-- The file ends inside a field. -/
  | cut (s : Shortfall)
  deriving DecidableEq, Repr

/-- The message for a field that is cut short. -/
def shortfallMessage (s : Shortfall) : String := s!"expected {s.expected}, found {s.found}"

/-- The message for a refused header. -/
def HeaderFault.message : HeaderFault → String
  | .badMagic => "Magic number does not match"
  | .badClass found => s!"Invalid EI_CLASS {Text.quotedBytes found}"
  | .badByteOrder found => s!"Invalid EI_DATA {Text.quotedBytes found}"
  | .cut s => shortfallMessage s

/-- What the header tells about the image. -/
structure Header where
  wordSize : WordSize
  order : ByteOrder
  machine : Nat
  /-- Where the segment table starts. -/
  segmentTable : Nat
  /-- Where the section table starts. -/
  sectionTable : Nat
  segmentEntrySize : Nat
  segmentCount : Nat
  sectionEntrySize : Nat
  sectionCount : Nat
  /-- The index of the section that holds the section names. -/
  nameTableIndex : Nat
  deriving DecidableEq, Repr

namespace Header

/-- The number of identification bytes that are fields of their own. -/
def identFields : Nat := 9

/-- The width of the header. -/
def size (w : WordSize) : Nat := 40 + 3 * w.bytes

/-- Checks that the identification bytes are there, one by one and the padding as a whole. -/
def checkIdent (file : Bytes) : Except Shortfall Unit := do
  (List.range identFields).forM fun i => discard (file.uint .little i 1)
  discard (file.uint .little identFields 7)

/-- Reads the header fields of a known layout, in file order. -/
def readFields (file : Bytes) (w : WordSize) (order : ByteOrder) : Except Shortfall Header := do
  checkIdent file
  let _type ← file.uint order 16 2
  let machine ← file.uint order 18 2
  let _version ← file.uint order 20 4
  let _entry ← file.uint order 24 w.bytes
  let segmentTable ← file.uint order (24 + w.bytes) w.bytes
  let sectionTable ← file.uint order (24 + 2 * w.bytes) w.bytes
  let _flags ← file.uint order (24 + 3 * w.bytes) 4
  let _size ← file.uint order (28 + 3 * w.bytes) 2
  let segmentEntrySize ← file.uint order (30 + 3 * w.bytes) 2
  let segmentCount ← file.uint order (32 + 3 * w.bytes) 2
  let sectionEntrySize ← file.uint order (34 + 3 * w.bytes) 2
  let sectionCount ← file.uint order (36 + 3 * w.bytes) 2
  let nameTableIndex ← file.uint order (38 + 3 * w.bytes) 2
  return { wordSize := w, order, machine, segmentTable, sectionTable, segmentEntrySize,
           segmentCount, sectionEntrySize, sectionCount, nameTableIndex }

/-- Reads the file header. -/
def read (file : Bytes) : Except HeaderFault Header :=
  if !Format.elf.starts file then .error .badMagic
  else
    match WordSize.ofClass? (file.slice 4 1).toList with
    | none => .error (.badClass (file.slice 4 1).toList)
    | some w =>
      match byteOrder? (file.slice 5 1).toList with
      | none => .error (.badByteOrder (file.slice 5 1).toList)
      | some order => (readFields file w order).mapError .cut

/-- A file without the magic has no header. -/
theorem read_magic {file : Bytes} {h : Header} (hr : read file = .ok h) :
    Format.elf.starts file = true := by
  cases hs : Format.elf.starts file
  · simp [read, hs] at hr
  · rfl

end Header

end SigScan.Elf
