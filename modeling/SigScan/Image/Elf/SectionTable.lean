/-
# The section table of an ELF file

What is read of a section, in this order: its header, its name in the table of names, what its
type asks for, and its content if it has code.

`SectionHeader.width_eq` gives the widths of a section header.
-/
import SigScan.Image.Elf.Walk
import SigScan.Text.Utf8

namespace SigScan.Elf

/-! ## Section headers -/

/-- What a section header tells about its section. -/
structure SectionHeader where
  nameOffset : Nat
  type : Nat
  flags : Nat
  address : Nat
  offset : Nat
  size : Nat
  link : Nat
  info : Nat
  entrySize : Nat
  deriving DecidableEq, Repr

/-- The width of a section header. -/
def SectionHeader.width (w : WordSize) : Nat := 16 + 6 * w.bytes

/-- A section header is 40 bytes wide in 32-bit files, and 64 in 64-bit files. -/
theorem SectionHeader.width_eq :
    SectionHeader.width .bits32 = 40 ∧ SectionHeader.width .bits64 = 64 := by
  decide

/-- Reads the section header at a position, field by field. -/
def SectionHeader.readAt (file : Bytes) (h : Header) (p : Nat) : Walk SectionHeader := do
  let w := h.wordSize.bytes
  let nameOffset ← uint file h p 4
  let type ← uint file h (p + 4) 4
  let flags ← uint file h (p + 8) w
  let address ← uint file h (p + 8 + w) w
  let offset ← uint file h (p + 8 + 2 * w) w
  let size ← uint file h (p + 8 + 3 * w) w
  let link ← uint file h (p + 8 + 4 * w) 4
  let info ← uint file h (p + 12 + 4 * w) 4
  let _alignment ← uint file h (p + 16 + 4 * w) w
  let entrySize ← uint file h (p + 16 + 5 * w) w
  return { nameOffset, type, flags, address, offset, size, link, info, entrySize }

/-- The position of the section header at an index. -/
def Header.sectionHeaderAt (h : Header) (index : Nat) : Nat :=
  h.sectionTable + index * h.sectionEntrySize

/-- Reads the section header at an index of the table. -/
def sectionHeader (file : Bytes) (h : Header) (index : Nat) : Walk SectionHeader :=
  if 0 < h.sectionTable ∧ h.sectionEntrySize < SectionHeader.width h.wordSize then
    .refuse (.smallSectionEntry h.sectionEntrySize)
  else if file.size < h.sectionHeaderAt index then
    .refuse (.pastEnd index (h.sectionHeaderAt index) file.size)
  else SectionHeader.readAt file h (h.sectionHeaderAt index)

/-! ## Names -/

/-- The index that says that the first section header holds the number instead. -/
def indexEscape : Nat := 0xFFFF

/-- The header of the section that holds the section names. -/
def nameTable (file : Bytes) (h : Header) : Walk SectionHeader := do
  let index ←
    if h.nameTableIndex = indexEscape then
      pure (← sectionHeader file h 0).link
    else pure h.nameTableIndex
  match sectionHeader file h index with
  | .error (.table f) => if f.isStructural then .refuse .noNameTable else .refuse f
  | result => result

/-- The text at a position up to the next zero byte; empty if there is none. -/
def nameAt (file : Bytes) (position : Nat) : Walk String := do
  seek position
  match file.zeroFrom? position with
  | some stop => return Text.Utf8.decodeReplacing (file.slice position (stop - position)).toList
  | none => return ""

/-- The name of a section. -/
def sectionName (file : Bytes) (h : Header) (s : SectionHeader) : Walk String := do
  let names ← nameTable file h
  nameAt file (names.offset + s.nameOffset)

/-! ## Symbol tables -/

/-- The section types of symbol tables that tables about symbols may belong to. -/
def linkableSymbolTypes : List Nat := [2, 11]

/-- The section type of local dynamic symbols. -/
def localSymbolsType : Nat := 0x6FFFFFF3

/-- The section types of symbol tables. -/
def symbolTableTypes : List Nat := linkableSymbolTypes ++ [localSymbolsType]

/-- The section type of a table about the symbols of another one. -/
def symbolInfoType : Nat := 0x6FFFFFFC

/-- The section type of string tables. -/
def stringTableType : Nat := 3

/-- Checks what a symbol table asks for: strings to name its symbols, and whole entries. -/
def checkSymbolTable (file : Bytes) (h : Header) (s : SectionHeader) (name : String) :
    Walk Unit := do
  let strings ← sectionHeader file h s.link
  if strings.type ≠ stringTableType then
    Walk.refuse (.linkToOtherType s.link (sectionType h.machine strings.type))
  let _name ← sectionName file h strings
  if s.entrySize = 0 then Walk.refuse (.noEntrySize name)
  if s.size % s.entrySize ≠ 0 then Walk.refuse (.unevenEntries name)

/-- Checks what a table about symbols asks for: a symbol table that is good itself. -/
def checkSymbolInfo (file : Bytes) (h : Header) (s : SectionHeader) : Walk Unit := do
  let symbols ← sectionHeader file h s.link
  if !linkableSymbolTypes.contains symbols.type then
    Walk.refuse (.linkToNoSymbols s.link (sectionType h.machine symbols.type))
  let name ← sectionName file h symbols
  checkSymbolTable file h symbols name

/-! ## Sections -/

/-- A section header with its name, after the checks of its type. -/
def namedSection (file : Bytes) (h : Header) (index : Nat) : Walk (SectionHeader × String) := do
  let s ← sectionHeader file h index
  let name ← sectionName file h s
  if symbolTableTypes.contains s.type then checkSymbolTable file h s name
  if s.type = symbolInfoType then checkSymbolInfo file h s
  return (s, name)

/-- The section at an index, if it has code. The flag for compressed sections is left out of
account: such a section, too, has the bytes that the file holds for it, and nothing unpacks them. -/
def codeSectionAt (file : Bytes) (h : Header) (index : Nat) : Walk (Option Section) := do
  let (s, name) ← namedSection file h index
  if isCodeSection s.flags (sectionType h.machine s.type) then
    let content ← readAt file s.offset s.size
    return some ⟨name, content, s.address⟩
  else return none

/-- The number of sections; the first section header holds it if the file header has none. -/
def sectionCount (file : Bytes) (h : Header) : Walk Nat :=
  if h.sectionTable = 0 then .ok 0
  else if h.sectionCount = 0 then (·.size) <$> sectionHeader file h 0
  else .ok h.sectionCount

end SigScan.Elf
