/-
# Loops without a window

An x86 match needs a loop that starts close enough behind its instruction. The loops are looked for
in a window that starts with the instruction, and ends where the last loop that is close enough would
end, or with the code. What is found can be told without it: wherever the instruction occurs, there is
one match for each loop that starts at the instruction or behind it, by less than the distance, and
has its whole pattern in the code.

So a scan for loops up to the end of the code would find no others, once those that start too far
behind are left out, and no loop that is found in the window has to be left out.

* `loopsToEnd_eq`, `loopsInWindow_eq`: both scans find the loops that are close enough;
* `windowless_eq_nil`: no loop is close enough if the distance is not positive;
* `resolve_windowless`: what an accepted x86 signature finds in any code.
-/
import SigScan.Proofs.Signature.Acceptance

namespace SigScan.Signature.X86

/-! ## Scans for loops -/

/-- The loops in the window behind an offset. -/
def loopsInWindow (s : X86) (code : Bytes) (offset : Nat) : Except ScanFault (List Nat) :=
  offsetsIn s.loopPattern code offset (some (offset + s.window))

/-- The loops behind an offset up to the end of the code, but for those that start too far behind. -/
def loopsToEnd (s : X86) (code : Bytes) (offset : Nat) : Except ScanFault (List Nat) :=
  (offsetsIn s.loopPattern code offset none).map fun found =>
    found.filter fun (k : Nat) => (k : Int) < s.loopDistance

/-- The loops that are close enough, in ascending order. -/
theorem mem_loops {s : X86} {code : Bytes} {offset k : Nat} :
    k ∈ s.loops code offset ↔
      (k : Int) < s.loopDistance ∧ Pattern.OccursIn s.loopPattern code (offset + k) := by
  rw [loops, List.mem_filter, List.mem_range, decide_eq_true_iff]
  refine and_iff_right_of_imp ?_
  rintro ⟨-, hle, -⟩
  omega

/-- The window holds the loops that are close enough. -/
theorem loopsInWindow_eq {s : X86} (h : s.check = .ok ()) (code : Bytes) (offset : Nat) :
    s.loopsInWindow code offset = .ok (s.loops code offset) := by
  obtain ⟨⟨⟩, -, hrest⟩ := bind_eq_ok_iff.1 h
  obtain ⟨⟨⟩, hloop, -⟩ := bind_eq_ok_iff.1 hrest
  obtain ⟨found, hfound⟩ := offsetsIn_of_check hloop code offset (some (offset + s.window))
  rw [loopsInWindow, hfound, (filter_loops hfound).1]

/-- A scan to the end of the code finds them, too. -/
theorem loopsToEnd_eq {s : X86} (h : s.check = .ok ()) (code : Bytes) (offset : Nat) :
    s.loopsToEnd code offset = .ok (s.loops code offset) := by
  obtain ⟨⟨⟩, -, hrest⟩ := bind_eq_ok_iff.1 h
  obtain ⟨⟨⟩, hloop, -⟩ := bind_eq_ok_iff.1 hrest
  obtain ⟨found, hfound⟩ := offsetsIn_of_check hloop code offset none
  have hclose : (found.filter fun (k : Nat) => (k : Int) < s.loopDistance) =
      s.loops code offset := by
    rw [eq_filter_of_offsetsIn hfound, List.filter_filter, loops]
    simp only [Bool.decide_and]
  rw [loopsToEnd, hfound, ← hclose]
  rfl

/-! ## Matches -/

/-- What is to be found, told without a window: the matches offset by offset, and at each offset one
for each loop. -/
def windowless (s : X86) (code : Bytes) : List Match :=
  ((List.range (code.size + 1)).filter (Pattern.OccursIn s.pattern code ·)).flatMap fun offset =>
    (s.loops code offset).map fun _ => ⟨.x86, offset, s.address code offset⟩

/-- The matches are those of the listing, for code at any address. -/
theorem windowless_eq_listing (s : X86) (code : Bytes) (base : Int) :
    s.windowless code = (Signature.x86 s).listing code base := by
  rw [windowless, flatMap_filter, listing]
  refine List.flatMap_congr fun offset _ => ?_
  rw [startingAt, addresses, List.map_map]
  rfl

/-- Nothing is found if the distance is not positive. -/
theorem windowless_eq_nil {s : X86} (h : s.loopDistance ≤ 0) (code : Bytes) :
    s.windowless code = [] := by
  rw [windowless, List.flatMap_eq_nil_iff]
  intro offset _
  rw [List.map_eq_nil_iff, List.eq_nil_iff_forall_not_mem]
  intro k hk
  have hclose := (mem_loops.1 hk).1
  omega

/-- What holds of a signature whose loops are looked for in a window. -/
structure Windowless (s : X86) (code : Bytes) : Prop where
  /-- The matches are those without a window, wherever the code stands. -/
  found : ∀ base, (Signature.x86 s).resolve code base = .ok (s.windowless code)
  /-- The window neither loses nor adds a loop. -/
  window : ∀ offset : Nat, ∃ loops, s.loopsInWindow code offset = .ok loops ∧
    s.loopsToEnd code offset = .ok loops
  /-- No loop in the window starts too far behind. -/
  close : ∀ (offset : Nat) (loops : List Nat), s.loopsInWindow code offset = .ok loops →
    ∀ k ∈ loops, (k : Int) < s.loopDistance
  /-- The address of a match stands in the code as a little-endian number of 32 bits. -/
  address : ∀ offset : Nat, Pattern.OccursIn s.pattern code offset → ∃ n : Nat,
    operand code .little (offset + s.addressAt) 4 = .ok n ∧ s.address code offset = n

/-- **What an accepted x86 signature finds is what is to be found without a window**, whatever the
distance, the code and its address. -/
theorem resolve_windowless {s : X86} (h : s.check = .ok ()) (code : Bytes) : s.Windowless code where
  found := by
    intro base
    have hcheck : (Signature.x86 s).check = .ok () := h
    rw [resolve_eq_listing hcheck, windowless_eq_listing s code base]
  window := fun offset => ⟨_, loopsInWindow_eq h code offset, loopsToEnd_eq h code offset⟩
  close := by
    intro offset loops hloops k hk
    rw [loopsInWindow_eq h] at hloops
    cases hloops
    exact (mem_loops.1 hk).1
  address := by
    intro offset hoccurs
    obtain ⟨⟨⟩, -, hrest⟩ := bind_eq_ok_iff.1 h
    obtain ⟨⟨⟩, -, haddress⟩ := bind_eq_ok_iff.1 hrest
    obtain ⟨n, hn⟩ := operand_of_checkOperand (by decide) haddress hoccurs.1
    exact ⟨n, hn, by rw [X86.address, eq_wordAt_of_operand hn]⟩

/-- Overlapping instructions share loops that overlap them and each other. A loop that starts at the
distance is too far. -/
theorem resolve_windowless_overlap :
    (X86.mk 1 "8D ?? ?? ?? ??" 3 "?D 8?").check = .ok () ∧
      (Signature.x86 ⟨1, "8D ?? ?? ?? ??", 3, "?D 8?"⟩).resolve
        #[0x8D, 0x8D, 0x8D, 0x8D, 0x80, 0x01, 0x0D] (-1) =
          .ok [⟨.x86, 0, 0x808D8D8D⟩, ⟨.x86, 0, 0x808D8D8D⟩, ⟨.x86, 0, 0x808D8D8D⟩,
            ⟨.x86, 1, 0x01808D8D⟩, ⟨.x86, 1, 0x01808D8D⟩, ⟨.x86, 1, 0x01808D8D⟩,
            ⟨.x86, 2, 0x0D01808D⟩, ⟨.x86, 2, 0x0D01808D⟩] ∧
      (X86.mk 1 "8D ?? ?? ?? ??" 3 "?D 8?").Windowless
        #[0x8D, 0x8D, 0x8D, 0x8D, 0x80, 0x01, 0x0D] :=
  ⟨rfl, by decide +kernel, resolve_windowless rfl _⟩

end SigScan.Signature.X86
