/-
# Which signatures are accepted

A signature is well-formed when its patterns are of the grammar, its operands lie inside the pattern
and, on x64, the next instruction starts inside the pattern or where it ends. `Signature.WellFormed`
lists these conditions for each architecture.

Every well-formed signature is accepted, and on x86 and PowerPC no other. On x64 the check takes the
place of the next instruction for a width, counted from the start of the pattern, and a width may be
negative: a next instruction in front of the pattern is let through (`Signature.NextInFront`).

* `X64.check_eq_ok_iff`, `X86.check_eq_ok_iff`, `PpcBE.check_eq_ok_iff`: what is checked;
* `Signature.accepted_iff_wellFormed`: the accepted signatures;
* `Signature.check_frontX64`: one that is accepted and not well-formed.
-/
import SigScan.Proofs.Pattern.Grammar
import SigScan.Signature.BuiltIn

namespace SigScan.Signature

open Pattern (Grammatical)

/-! ## Well-formed signatures -/

/-- An operand of so many bytes lies inside the pattern. -/
def Inside (pattern : String) (place width : Int) : Prop :=
  0 ≤ place ∧ place + width ≤ Pattern.size pattern

/-- The displacement lies inside the pattern, and the next instruction starts no later than the
pattern ends. -/
structure X64.WellFormed (s : X64) : Prop where
  pattern : Grammatical s.pattern.toList
  displacement : Inside s.pattern s.displacementAt 4
  nextInstruction : 0 ≤ s.nextInstructionAt ∧ s.nextInstructionAt ≤ Pattern.size s.pattern

/-- The address lies inside the first pattern. -/
structure X86.WellFormed (s : X86) : Prop where
  pattern : Grammatical s.pattern.toList
  loopPattern : Grammatical s.loopPattern.toList
  address : Inside s.pattern s.addressAt 4

/-- Both halves of the address lie inside the pattern. -/
structure PpcBE.WellFormed (s : PpcBE) : Prop where
  pattern : Grammatical s.pattern.toList
  high : Inside s.pattern s.highAt 2
  low : Inside s.pattern s.lowAt 2

/-- Are the patterns of the grammar, and all places inside? -/
def WellFormed : Signature → Prop
  | .x64 s => s.WellFormed
  | .x86 s => s.WellFormed
  | .ppcBE s => s.WellFormed

/-- An x64 signature that would be well-formed if its next instruction, which stands in front of the
pattern, stood at its start. -/
def NextInFront : Signature → Prop
  | .x64 s => s.nextInstructionAt < 0 ∧ X64.WellFormed { s with nextInstructionAt := 0 }
  | .x86 _ => False
  | .ppcBE _ => False

/-! ## Accepted signatures -/

/-- The check of an x64 signature: the next instruction has no lower bound. -/
theorem X64.check_eq_ok_iff {s : X64} :
    s.check = .ok () ↔ Grammatical s.pattern.toList ∧ Inside s.pattern s.displacementAt 4 ∧
      s.nextInstructionAt ≤ Pattern.size s.pattern := by
  rw [X64.check, check_bind_eq_ok_iff, check_bind_eq_ok_iff, Pattern.check_eq_ok_iff_grammatical,
    checkOperand_eq_ok_iff, checkOperand_eq_ok_iff, Inside]
  refine and_congr_right fun _ => and_congr_right fun _ => ?_
  omega

/-- The check of an x86 signature. -/
theorem X86.check_eq_ok_iff {s : X86} :
    s.check = .ok () ↔ Grammatical s.pattern.toList ∧ Grammatical s.loopPattern.toList ∧
      Inside s.pattern s.addressAt 4 := by
  rw [X86.check, check_bind_eq_ok_iff, check_bind_eq_ok_iff, Pattern.check_eq_ok_iff_grammatical,
    Pattern.check_eq_ok_iff_grammatical, checkOperand_eq_ok_iff, Inside]

/-- The check of a PowerPC signature. -/
theorem PpcBE.check_eq_ok_iff {s : PpcBE} :
    s.check = .ok () ↔ Grammatical s.pattern.toList ∧ Inside s.pattern s.highAt 2 ∧
      Inside s.pattern s.lowAt 2 := by
  rw [PpcBE.check, check_bind_eq_ok_iff, check_bind_eq_ok_iff,
    Pattern.check_eq_ok_iff_grammatical, checkOperand_eq_ok_iff, checkOperand_eq_ok_iff, Inside,
    Inside]

/-- An x64 signature with a next instruction that starts no later than the pattern ends is
well-formed, or is one whose next instruction stands in front. -/
theorem X64.wellFormed_or_nextInFront_iff {s : X64} :
    ((Signature.x64 s).WellFormed ∨ (Signature.x64 s).NextInFront) ↔
      Grammatical s.pattern.toList ∧ Inside s.pattern s.displacementAt 4 ∧
        s.nextInstructionAt ≤ Pattern.size s.pattern := by
  constructor
  · rintro (hwell | ⟨hfront, hwell⟩)
    · exact ⟨hwell.pattern, hwell.displacement, hwell.nextInstruction.2⟩
    · exact ⟨hwell.pattern, hwell.displacement, by omega⟩
  · rintro ⟨hpattern, hdisplacement, hnext⟩
    by_cases hfront : s.nextInstructionAt < 0
    · have hzero : (0 : Int) ≤ 0 ∧ (0 : Int) ≤ Pattern.size s.pattern := by omega
      exact .inr ⟨hfront, hpattern, hdisplacement, hzero⟩
    · exact .inl ⟨hpattern, hdisplacement, by omega, hnext⟩

/-- **The accepted signatures** are the well-formed ones, and the x64 signatures that would be if
their next instruction stood at the start of the pattern and not in front of it. Every other
signature is refused with an error. -/
theorem accepted_iff_wellFormed (s : Signature) :
    (s.check = .ok () ↔ s.WellFormed ∨ s.NextInFront) ∧
      ((∃ e, s.check = .error e) ↔ ¬(s.WellFormed ∨ s.NextInFront)) := by
  have haccepted : s.check = .ok () ↔ s.WellFormed ∨ s.NextInFront := by
    cases s with
    | x64 s =>
      rw [X64.wellFormed_or_nextInFront_iff]
      exact X64.check_eq_ok_iff
    | x86 s =>
      refine X86.check_eq_ok_iff.trans ⟨?_, ?_⟩
      · rintro ⟨hpattern, hloop, haddress⟩
        exact .inl ⟨hpattern, hloop, haddress⟩
      · rintro (hwell | hfront)
        · exact ⟨hwell.pattern, hwell.loopPattern, hwell.address⟩
        · exact hfront.elim
    | ppcBE s =>
      refine PpcBE.check_eq_ok_iff.trans ⟨?_, ?_⟩
      · rintro ⟨hpattern, hhigh, hlow⟩
        exact .inl ⟨hpattern, hhigh, hlow⟩
      · rintro (hwell | hfront)
        · exact ⟨hwell.pattern, hwell.high, hwell.low⟩
        · exact hfront.elim
  refine ⟨haccepted, ?_⟩
  rw [← haccepted]
  cases s.check with
  | error e => simp
  | ok u => simp

/-- A displacement and nothing else, counted from one byte in front of it. -/
def frontX64 : X64 where
  displacementAt := 0
  nextInstructionAt := -1
  pattern := "?? ?? ?? ??"

/-- **A next instruction in front of the pattern is accepted.** -/
theorem check_frontX64 :
    (Signature.x64 frontX64).check = .ok () ∧ ¬(Signature.x64 frontX64).WellFormed := by
  refine ⟨rfl, fun hwell => ?_⟩
  have hnonneg : (0 : Int) ≤ -1 := hwell.nextInstruction.1
  omega

end SigScan.Signature
