/-
# Walking the tables of an ELF file

The section and segment tables are walked entry by entry, and each entry is dealt with before
the next is looked at, so of several faults the first one counts.

A file position, and a length to read, is below 2^63. One that is not ends the walk for good:
`WalkFault.unreachable` is kept apart from the faults of the table itself.

* `readAt_eq_ok`: what is read is a stretch of the file;
* `collect_eq_ok`: a walk over good entries keeps what is kept of each.
-/
import SigScan.Image.Elf.Header
import SigScan.Image.Elf.SectionType

namespace SigScan.Elf

/-! ## Faults -/

/-- What is wrong with a table. -/
inductive TableFault where
  /-- The file ends inside a field. -/
  | cut (s : Shortfall)
  /-- A section header starts behind the end of the file. -/
  | pastEnd (index position size : Nat)
  /-- There is no table of section names. -/
  | noNameTable
  /-- The entries of the section table are too small for a header. -/
  | smallSectionEntry (size : Nat)
  /-- The entries of the segment table are too small for a header. -/
  | smallSegmentEntry (size : Nat)
  /-- A symbol table names a section that holds no strings. -/
  | linkToOtherType (index : Nat) (type : EntryType)
  /-- A table about symbols names a section that is no table of them. -/
  | linkToNoSymbols (index : Nat) (type : EntryType)
  /-- A symbol table has entries without a size. -/
  | noEntrySize (name : String)
  /-- A symbol table has room for no whole number of entries. -/
  | unevenEntries (name : String)
  deriving DecidableEq, Repr

/-- The message for a bad table. -/
def TableFault.message : TableFault → String
  | .cut s => shortfallMessage s
  | .pastEnd index position size =>
    s!"Reading section {index} at offset {position} past EOF {size}"
  | .noNameTable => "String Table not found"
  | .smallSectionEntry size => s!"Too small e_shentsize: {size}"
  | .smallSegmentEntry size => s!"Too small e_phentsize: {size}"
  | .linkToOtherType index type =>
    s!"SHT_SYMTAB section points at section {index} of type {type.text}, expected SHT_STRTAB"
  | .linkToNoSymbols index type =>
    s!"Section points at section {index} of type {type.text}, expected SHT_SYMTAB/SHT_DYNSYM"
  | .noEntrySize name => s!"Expected entry size of section {Text.quoted name} to be > 0"
  | .unevenEntries name =>
    s!"Expected section size to be a multiple of entry size in section {Text.quoted name}"

/-- Does the fault lie in the bytes of the tables, rather than in what they say? -/
def TableFault.isStructural : TableFault → Bool
  | .cut _ | .pastEnd .. | .noNameTable => true
  | _ => false

/-- A number that no file position or length can have. -/
inductive Unreachable where
  /-- A position of 2^63 or more. -/
  | position
  /-- A length of 2^63 or more. -/
  | length
  deriving DecidableEq, Repr

/-- The message for a number out of reach. -/
def Unreachable.message : Unreachable → String
  | .position => "Python int too large to convert to C ssize_t"
  | .length => "cannot fit 'int' into an index-sized integer"

/-- Why a walk ends early. -/
inductive WalkFault where
  | table (f : TableFault)
  | unreachable (u : Unreachable)
  deriving DecidableEq, Repr

/-- The outcome of a step of a walk. -/
abbrev Walk (α : Type) := Except WalkFault α

/-- A walk that has met a bad table. -/
def Walk.refuse {α : Type} (f : TableFault) : Walk α := .error (.table f)

/-! ## Reading -/

/-- The bound that positions and lengths stay below: 2^63. -/
def reach : Nat := 0x8000000000000000

/-- Moves to a position in the file. -/
def seek (position : Nat) : Walk Unit :=
  if position < reach then .ok () else .error (.unreachable .position)

/-- The bytes at a position, as far as the file has them. -/
def readAt (file : Bytes) (position length : Nat) : Walk Bytes := do
  seek position
  if length < reach then .ok (file.slice position length) else .error (.unreachable .length)

/-- What is read is a stretch of the file. -/
theorem readAt_eq_ok {file : Bytes} {position length : Nat} {content : Bytes}
    (h : readAt file position length = .ok content) : content = file.slice position length := by
  simp only [readAt, seek] at h
  by_cases hp : position < reach <;> by_cases hl : length < reach <;>
    simp_all [bind, Except.bind]

/-- A number field of a table entry. -/
def uint (file : Bytes) (h : Header) (position width : Nat) : Walk Nat :=
  (file.uint h.order position width).mapError fun s => .table (.cut s)

/-- The entries from `index` on, `count` of them, that `read` keeps. -/
def collect {α : Type} (read : Nat → Walk (Option α)) : Nat → Nat → List α → Walk (List α)
  | 0, _, kept => .ok kept.reverse
  | count + 1, index, kept =>
    match read index with
    | .ok entry => collect read count (index + 1) (entry.toList ++ kept)
    | .error f => .error f

/-- A walk that succeeds has read every entry, and keeps what was kept of each. -/
theorem collect_eq_ok {α : Type} {read : Nat → Walk (Option α)} {entry : Nat → Option α}
    {count index : Nat} {kept : List α}
    (h : ∀ i, index ≤ i → i < index + count → read i = .ok (entry i)) :
    collect read count index kept =
      .ok (kept.reverse ++ (List.range' index count).filterMap entry) := by
  induction count generalizing index kept with
  | zero => simp [collect]
  | succ count ih =>
    have hi : read index = .ok (entry index) := h index (Nat.le_refl _) (by omega)
    rw [collect, hi]
    simp only
    rw [ih fun i hl hu => h i (by omega) (by omega), List.range'_succ, List.filterMap_cons]
    cases entry index <;> simp

end SigScan.Elf
