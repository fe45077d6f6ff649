/-
# The headers of a PE file

A PE file starts with a DOS header, which tells where the NT headers are: a signature, the file
header with the number of sections, and the optional header with the addresses. Each of them
can be cut short or be of another kind.

* `ntOffset_le`: the NT headers start inside the file;
* `OptionalHeader.addressAlignment_of_isPaged`: sections are aligned to the section alignment if
  that is a page or more.
-/
import SigScan.Bytes
import SigScan.Image.Pe.Fault

namespace SigScan.Pe

/-! ## DOS header, NT signature and file header -/

/-- The width of the DOS header. -/
def dosHeaderSize : Nat := 64

/-- Where the NT headers start. -/
def ntOffset (file : Bytes) : Except Fault Nat :=
  if file.size < dosHeaderSize then .error .dosHeaderCut
  else if file.paddedUint 0 2 = 0x4D5A then .error .zmExecutable
  else if file.paddedUint 0 2 ≠ 0x5A4D then .error .noDosMagic
  else if file.size < file.paddedUint 0x3C 4 then .error .badNtOffset
  else .ok (file.paddedUint 0x3C 4)

/-- The signature of a PE file. -/
def ntSignature : Nat := 0x4550

/-- Checks the signature at the start of the NT headers. -/
def checkSignature (file : Bytes) (nt : Nat) : Except Fault Unit :=
  if file.size < nt + 4 ∨ file.paddedUint nt 4 = 0 then .error .noNtHeaders
  else
    match OtherKind.ofSignature? (file.paddedUint nt 4) with
    | some k => .error (.otherKind k)
    | none => if file.paddedUint nt 4 = ntSignature then .ok () else .error .badNtSignature

/-- What the file header tells. -/
structure FileHeader where
  sectionCount : Nat
  optionalHeaderSize : Nat
  deriving DecidableEq, Repr

/-- Reads the file header, which follows the signature. -/
def FileHeader.read (file : Bytes) (nt : Nat) : Except Fault FileHeader :=
  if file.size < nt + 24 then .error .noFileHeader
  else .ok ⟨file.paddedUint (nt + 6) 2, file.paddedUint (nt + 20) 2⟩

/-! ## Optional header -/

/-- What the optional header tells. -/
structure OptionalHeader where
  imageBase : Nat
  sectionAlignment : Nat
  fileAlignment : Nat
  deriving DecidableEq, Repr

/-- The magic of an optional header with 64-bit addresses. -/
def wideMagic : Nat := 0x20B

/-- The least number of bytes of an optional header; what lacks to the full one is zero. -/
def leastOptionalHeader (wide : Bool) : Nat := if wide then 73 else 69

/-- Reads the optional header at an offset. -/
def OptionalHeader.read (file : Bytes) (start : Nat) : Except Fault OptionalHeader :=
  let wide := file.paddedUint start 2 == wideMagic
  if file.size < start + leastOptionalHeader wide then .error .noOptionalHeader
  else
    .ok {
      imageBase := if wide then file.paddedUint (start + 24) 8 else file.paddedUint (start + 28) 4
      sectionAlignment := file.paddedUint (start + 32) 4
      fileAlignment := file.paddedUint (start + 36) 4 }

/-- The size of a page, below which sections are not aligned in memory. -/
def pageSize : Nat := 0x1000

/-- Are sections aligned to pages in memory? -/
def OptionalHeader.isPaged (o : OptionalHeader) : Bool := pageSize ≤ o.sectionAlignment

/-- The alignment of section addresses. -/
def OptionalHeader.addressAlignment (o : OptionalHeader) : Nat :=
  if o.isPaged then o.sectionAlignment else o.fileAlignment

/-! ## First consequences -/

/-- The NT headers start inside the file. -/
theorem ntOffset_le {file : Bytes} {nt : Nat} (h : ntOffset file = .ok nt) : nt ≤ file.size := by
  unfold ntOffset at h
  repeat' split at h
  all_goals try contradiction
  cases h
  omega

/-- Sections that are aligned to pages keep to the section alignment. -/
theorem OptionalHeader.addressAlignment_of_isPaged {o : OptionalHeader} (h : o.isPaged = true) :
    o.addressAlignment = o.sectionAlignment := by
  simp [addressAlignment, h]

end SigScan.Pe
