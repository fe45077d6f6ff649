/-
# Architectures

The three instruction sets whose signatures are known, in the order in which they are scanned.

`ofName?_name` says that names are read back.
-/
import SigScan.Text.Quoted

namespace SigScan

/-- An instruction set. -/
inductive Arch where
  | x64
  | x86
  | ppcBE
  deriving DecidableEq, Repr

namespace Arch

/-- All architectures, in scan order. -/
def all : List Arch := [.x64, .x86, .ppcBE]

/-- Every architecture is scanned. -/
theorem mem_all (a : Arch) : a ∈ all := by
  cases a <;> decide

/-- The name of an architecture in options, logs and reports. -/
def name : Arch → String
  | .x64 => "x64"
  | .x86 => "x86"
  | .ppcBE => "ppc-be"

/-- The symbol that stands for an architecture in lists of signatures. -/
def symbol : Arch → String
  | .x64 => "X64"
  | .x86 => "X86"
  | .ppcBE => "PPC_BE"

/-- The architecture of a name. -/
def ofName? (name : String) : Option Arch := all.find? (·.name == name)

/-- A name is read back as the architecture it names. -/
theorem ofName?_name (a : Arch) : ofName? a.name = some a := by
  cases a <;> decide

end Arch

/-- A name that no architecture has. -/
structure UnknownArch where
  name : String
  deriving DecidableEq, Repr

/-- The message for an unknown name. -/
def UnknownArch.message (e : UnknownArch) : String :=
  s!"{Text.quoted e.name} is not a valid Arch"

/-- Reads the name of an architecture. -/
def Arch.read (name : String) : Except UnknownArch Arch :=
  match Arch.ofName? name with
  | some a => .ok a
  | none => .error ⟨name⟩

end SigScan
