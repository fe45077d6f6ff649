/-
# Why PE headers are refused

A PE file can be cut short, or be an executable of another kind, at each of its headers.
-/
namespace SigScan.Pe

/-- An executable of another kind than PE. -/
inductive OtherKind where
  | ne
  | le
  | lx
  | te
  deriving DecidableEq, Repr

/-- The name of the other kind. -/
def OtherKind.name : OtherKind → String
  | .ne => "NE"
  | .le => "LE"
  | .lx => "LX"
  | .te => "TE"

/-- The number in the low half of the signature of the other kind. -/
def OtherKind.signature : OtherKind → Nat
  | .ne => 0x454E
  | .le => 0x454C
  | .lx => 0x584C
  | .te => 0x5A56

/-- The other kind that a signature tells. -/
def OtherKind.ofSignature? (signature : Nat) : Option OtherKind :=
  [.ne, .le, .lx, .te].find? fun k : OtherKind => signature % 0x10000 = k.signature

/-- Why the headers are refused. -/
inductive Fault where
  /-- The file is shorter than the DOS header. -/
  | dosHeaderCut
  /-- The DOS header is that of a ZM executable. -/
  | zmExecutable
  /-- The DOS header has no magic. -/
  | noDosMagic
  /-- The NT headers would start behind the end of the file. -/
  | badNtOffset
  /-- There is no NT signature, or it is zero. -/
  | noNtHeaders
  /-- The NT signature is that of another kind of executable. -/
  | otherKind (k : OtherKind)
  /-- The NT signature is unknown. -/
  | badNtSignature
  /-- The file header is cut short. -/
  | noFileHeader
  /-- The optional header is cut short. -/
  | noOptionalHeader
  /-- A section header is cut short. -/
  | sectionHeaderCut
  deriving DecidableEq, Repr

/-- The message for refused headers. -/
def Fault.message : Fault → String
  | .dosHeaderCut => "Unable to read the DOS Header, possibly a truncated file."
  | .zmExecutable => "Probably a ZM Executable (not a PE file)."
  | .noDosMagic => "DOS Header magic not found."
  | .badNtOffset => "Invalid e_lfanew value, probably not a PE file"
  | .noNtHeaders => "NT Headers not found."
  | .otherKind k => s!"Invalid NT Headers signature. Probably a {k.name} file"
  | .badNtSignature => "Invalid NT Headers signature."
  | .noFileHeader => "File Header missing"
  | .noOptionalHeader => "No Optional Header found, invalid PE32 or PE32+ file."
  | .sectionHeaderCut => "Data length less than expected header length."

end SigScan.Pe
