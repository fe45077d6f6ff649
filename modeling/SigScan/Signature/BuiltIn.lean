/-
# The built-in signatures

One signature for each architecture, as the module initialisation of the runtime is compiled.

    x64     48 8D 0D 8F DA 26 00     lea   rcx, [rip + displacement]
            EB 0D                    jmp
            48 8B 89 30 02 00 00     mov   rcx, [rcx + 230h]
            66 0F 1F 44 00 00        nop

    x86     8D 05 60 49 6A 00        lea   eax, [address]
            EB 1A                    jmp
            ...
            8B 80 18 01 00 00        mov   eax, [eax + 118h]
            8B 54 24 20              mov   edx, [esp + 20h]
            85 C0                    test  eax, eax
            75 E2                    jnz

    ppc-be  3C 80 00 2C              lis   r4, high
            38 84 80 00              addi  r4, r4, low
            48 00 00 08              b
            E8 84 02 30              ld    r4, 0x230(r4)
            7C 24 00 00              cmpd  r4, r0
            41 82 01 A8              beq

`check_builtIn` says that all three are accepted.
-/
import SigScan.Signature.Basic

namespace SigScan.Signature

/-- The built-in signature for x86-64. -/
def builtInX64 : X64 where
  displacementAt := 3
  nextInstructionAt := 7
  pattern := "48 8D 0? ?? ?? ?? ?? EB ?? 48 8? 8? ?? 02 00 00 66 0F 1F 44 00 00"

/-- The built-in signature for x86. -/
def builtInX86 : X86 where
  addressAt := 2
  pattern := "8D ?? ?? ?? ?? ?? EB 1A"
  loopDistance := 50
  loopPattern := "8B ?? ?? ?? ?? ?? 8B ?? 24 20 85 ?? 75 E2"

/-- The built-in signature for big-endian PowerPC. -/
def builtInPpcBE : PpcBE where
  highAt := 2
  lowAt := 6
  pattern := "3? 80 00 2C 3? ?? 80 00 48 ?? ?? 08 E? ?? 02 30 7C ?? 00 00 41 82 ?? ??"

/-- The built-in signature of an architecture. -/
def builtIn : Arch → Signature
  | .x64 => .x64 builtInX64
  | .x86 => .x86 builtInX86
  | .ppcBE => .ppcBE builtInPpcBE

/-- The built-in signature of an architecture is for that architecture. -/
@[simp]
theorem arch_builtIn (a : Arch) : (builtIn a).arch = a := by
  cases a <;> rfl

/-- The built-in signatures are accepted. -/
theorem check_builtIn (a : Arch) : (builtIn a).check = .ok () := by
  cases a <;> rfl

end SigScan.Signature
