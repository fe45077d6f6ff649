/-
# Matches of a signature

Where the pattern of a signature occurs in the code, the operands there tell the address of the
module data:

* x64: the displacement, counted from the next instruction, modulo 2^64;
* x86: the address itself, once for each loop that starts close enough;
* big-endian PowerPC: the high half times 2^16 plus the signed low half, modulo 2^64.

`resolve` lists the matches in the order of their offsets.
-/
import SigScan.Pattern.Occurrence
import SigScan.Signature.BuiltIn

namespace SigScan

/-- A place in the code that loads the module data, and the address it loads. -/
structure Match where
  arch : Arch
  /-- Where the pattern starts, counted from the start of the scanned code. -/
  offset : Int
  /-- The address of the module data. -/
  address : Int
  deriving DecidableEq, Repr

/-- Why code cannot be scanned. An accepted signature never meets either fault. -/
inductive ScanFault where
  /-- A character of the pattern is no hexadecimal digit. -/
  | badDigit (e : Text.IntegerError)
  /-- An operand does not lie inside the code. -/
  | operandOutside (offset : Int) (width : Nat)
  deriving DecidableEq, Repr

/-- The message for code that cannot be scanned. -/
def ScanFault.message : ScanFault → String
  | .badDigit e => e.message
  | .operandOutside offset width => s!"no operand of {width} bytes at offset {offset}"

namespace Signature

/-- The number of values of a 64-bit address: 2^64. -/
def addressSpace : Int := 0x10000000000000000

/-- The unsigned operand of `width` bytes at `offset`. -/
def operand (code : Bytes) (order : ByteOrder) (offset : Int) (width : Nat) :
    Except ScanFault Nat :=
  if offset < 0 then .error (.operandOutside offset width)
  else
    match code.uint order offset.toNat width with
    | .ok n => .ok n
    | .error _ => .error (.operandOutside offset width)

/-- Where a pattern occurs in a window of the code, counted from the start of the window. -/
def offsetsIn (pattern : String) (code : Bytes) (start : Nat) (stop : Option Int) :
    Except ScanFault (List Nat) :=
  (Pattern.offsets pattern code start stop).mapError .badDigit

/-- The match at an offset of the pattern. -/
def X64.matchAt (s : X64) (code : Bytes) (base : Int) (offset : Nat) :
    Except ScanFault Match := do
  let displacement ← operand code .little (offset + s.displacementAt) 4
  return ⟨.x64, offset,
    (signed 4 displacement + (offset + s.nextInstructionAt) + base) % addressSpace⟩

/-- All matches, for code at the address `base`. -/
def X64.resolve (s : X64) (code : Bytes) (base : Int) : Except ScanFault (List Match) := do
  let offsets ← offsetsIn s.pattern code 0 none
  offsets.mapM (s.matchAt code base)

/-- The width of the window that has room for just those loops that start close enough. -/
def X86.window (s : X86) : Int := s.loopDistance - 1 + Pattern.size s.loopPattern

/-- The matches at an offset of the pattern, one for each loop. -/
def X86.matchesAt (s : X86) (code : Bytes) (offset : Nat) : Except ScanFault (List Match) := do
  let loops ← offsetsIn s.loopPattern code offset (some (offset + s.window))
  (loops.filter fun (loop : Nat) => (loop : Int) < s.loopDistance).mapM fun _ => do
    let address ← operand code .little (offset + s.addressAt) 4
    return ⟨.x86, offset, address⟩

/-- All matches; the addresses do not depend on where the code stands. -/
def X86.resolve (s : X86) (code : Bytes) : Except ScanFault (List Match) := do
  let offsets ← offsetsIn s.pattern code 0 none
  let found ← offsets.mapM (s.matchesAt code)
  return found.flatten

/-- The match at an offset of the pattern. -/
def PpcBE.matchAt (s : PpcBE) (code : Bytes) (offset : Nat) : Except ScanFault Match := do
  let high ← operand code .big (offset + s.highAt) 2
  let low ← operand code .big (offset + s.lowAt) 2
  return ⟨.ppcBE, offset, (high * 0x10000 + signed 2 low) % addressSpace⟩

/-- All matches; the addresses do not depend on where the code stands. -/
def PpcBE.resolve (s : PpcBE) (code : Bytes) : Except ScanFault (List Match) := do
  let offsets ← offsetsIn s.pattern code 0 none
  offsets.mapM (s.matchAt code)

/-- All matches of a signature in code at the address `base`, in the order of their offsets. -/
def resolve (s : Signature) (code : Bytes) (base : Int) : Except ScanFault (List Match) :=
  match s with
  | .x64 s => s.resolve code base
  | .x86 s => s.resolve code
  | .ppcBE s => s.resolve code

end Signature

end SigScan
