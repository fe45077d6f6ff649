/-
# Image formats

An image tells its format by its first bytes.

`ofHead?_eq_pe_iff` and `ofHead?_eq_elf_iff` say which.
-/
import SigScan.Bytes

namespace SigScan

/-- An executable image format. -/
inductive Format where
  | pe
  | elf
  deriving DecidableEq, Repr

namespace Format

/-- The name of a format in reports. -/
def name : Format → String
  | .pe => "pe"
  | .elf => "elf"

/-- The bytes that an image of the format starts with. -/
def magic : Format → List UInt8
  | .pe => [0x4D, 0x5A]
  | .elf => [0x7F, 0x45, 0x4C, 0x46]

/-- Do the bytes start like an image of the format? -/
def starts (f : Format) (head : Bytes) : Bool := f.magic.isPrefixOf (head.slice 0 4).toList

/-- The format that the first bytes of an image tell. -/
def ofHead? (head : Bytes) : Option Format := [Format.pe, Format.elf].find? (·.starts head)

/-- No bytes start both formats. -/
theorem starts_elf_of_starts_pe {head : Bytes} (h : Format.pe.starts head = true) :
    Format.elf.starts head = false := by
  unfold starts at *
  generalize (head.slice 0 4).toList = bytes at *
  match bytes with
  | [] => simp [magic] at h
  | b :: rest =>
    simp only [magic, List.isPrefixOf, Bool.and_eq_true, beq_iff_eq] at h
    simp [magic, List.isPrefixOf, ← h.1]

/-- An image is PE when it starts with the PE magic. -/
theorem ofHead?_eq_pe_iff {head : Bytes} :
    ofHead? head = some .pe ↔ Format.pe.starts head = true := by
  cases hp : Format.pe.starts head <;> cases he : Format.elf.starts head <;>
    simp [ofHead?, hp, he]

/-- An image is ELF when it starts with the ELF magic. -/
theorem ofHead?_eq_elf_iff {head : Bytes} :
    ofHead? head = some .elf ↔ Format.elf.starts head = true := by
  cases hp : Format.pe.starts head
  · cases he : Format.elf.starts head <;> simp [ofHead?, hp, he]
  · simp [ofHead?, hp, starts_elf_of_starts_pe hp]

end Format

end SigScan
