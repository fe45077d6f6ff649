/-
# Signatures

A signature describes the instructions of one architecture that load the module data address:
a byte pattern, and where in it the operands stand. `Signature.check` accepts the signatures
whose patterns are well-formed and whose operands lie inside the pattern.

`checkOperand_eq_ok_iff` says which operands are accepted.
-/
import SigScan.Arch
import SigScan.Pattern.Grammar

namespace SigScan

/-- An instruction that adds a displacement to the address of the next instruction. -/
structure Signature.X64 where
  /-- Where the 32-bit displacement stands in a match. -/
  displacementAt : Int
  /-- Where the instruction ends from which the displacement counts. -/
  nextInstructionAt : Int
  pattern : String
  deriving DecidableEq, Repr

/-- An instruction with an absolute address, told apart by a loop that follows it closely. -/
structure Signature.X86 where
  /-- Where the 32-bit address stands in a match. -/
  addressAt : Int
  pattern : String
  /-- The loop starts less than this many bytes after the instruction. -/
  loopDistance : Int
  loopPattern : String
  deriving DecidableEq, Repr

/-- Two instructions that build an address from a high and a signed low half. -/
structure Signature.PpcBE where
  /-- Where the 16-bit high half stands in a match. -/
  highAt : Int
  /-- Where the 16-bit low half stands in a match. -/
  lowAt : Int
  pattern : String
  deriving DecidableEq, Repr

/-- A signature of one of the architectures. -/
inductive Signature where
  | x64 (s : Signature.X64)
  | x86 (s : Signature.X86)
  | ppcBE (s : Signature.PpcBE)
  deriving DecidableEq, Repr

namespace Signature

/-- The architecture that a signature is for. -/
def arch : Signature → Arch
  | .x64 _ => .x64
  | .x86 _ => .x86
  | .ppcBE _ => .ppcBE

/-! ## Acceptance -/

/-- Accepts an operand that starts in the pattern and does not end behind it. -/
def checkOperand (pattern : String) (offset width : Int) : Except PatternError Unit :=
  if offset < 0 ∨ (Pattern.size pattern : Int) < offset + width then
    .error (.operandOutside offset width pattern)
  else .ok ()

/-- The accepted operands. -/
theorem checkOperand_eq_ok_iff {pattern : String} {offset width : Int} :
    checkOperand pattern offset width = .ok () ↔
      0 ≤ offset ∧ offset + width ≤ Pattern.size pattern := by
  unfold checkOperand
  split
  · simp
    omega
  · simp
    omega

/-- Accepts a well-formed pattern with its displacement inside, and a next instruction that
starts no later than the pattern ends. -/
def X64.check (s : X64) : Except PatternError Unit := do
  Pattern.check s.pattern
  checkOperand s.pattern s.displacementAt 4
  checkOperand s.pattern 0 s.nextInstructionAt

/-- Accepts two well-formed patterns with the address inside the first. -/
def X86.check (s : X86) : Except PatternError Unit := do
  Pattern.check s.pattern
  Pattern.check s.loopPattern
  checkOperand s.pattern s.addressAt 4

/-- Accepts a well-formed pattern with both halves inside. -/
def PpcBE.check (s : PpcBE) : Except PatternError Unit := do
  Pattern.check s.pattern
  checkOperand s.pattern s.highAt 2
  checkOperand s.pattern s.lowAt 2

/-- Accepts the signatures that can be resolved. -/
def check : Signature → Except PatternError Unit
  | .x64 s => s.check
  | .x86 s => s.check
  | .ppcBE s => s.check

/-! ## Text -/

/-- The signature with its fields, on one line. -/
def describe : Signature → String
  | .x64 s =>
    s!"X64Signature(ptr_loc={s.displacementAt}, next_ip_loc={s.nextInstructionAt}, " ++
      s!"pattern={Text.quoted s.pattern})"
  | .x86 s =>
    s!"X86Signature(ptr_loc={s.addressAt}, pattern={Text.quoted s.pattern}, " ++
      s!"loop_max_distance={s.loopDistance}, loop_pattern={Text.quoted s.loopPattern})"
  | .ppcBE s =>
    s!"PPCSignature(ptr_hi_loc={s.highAt}, ptr_lo_loc={s.lowAt}, " ++
      s!"pattern={Text.quoted s.pattern})"

end Signature

end SigScan
