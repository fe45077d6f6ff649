/-
# Match lines tell their matches

A match line has four columns: the architecture and the name of the section, each filled with spaces to
a width, the offset behind a plus sign, and the address behind an equals sign. The name may have any
characters, also those of the other columns, and may be longer than its column.

The line is read from both ends. The architecture fills its column exactly. The numbers at the end
have no equals sign and no plus sign in them, so the last ones of the line are those of the columns.
What is left between is the name, if the spaces that fill its column are not its own.

* `append_cons_inj`: a text falls apart at the last place where a character stands;
* `padRight_inj`: filled columns tell their texts;
* `matchLine_eq_iff`: match lines tell their matches.
-/
import Mathlib
import SigScan.Proofs.Text.Hexadecimal
import SigScan.Report

namespace SigScan.Report

/-! ## Columns -/

/-- **A text falls apart at the last place of a character.** -/
theorem append_cons_inj {α : Type} {c : α} {front front' behind behind' : List α} (h : c ∉ behind)
    (h' : c ∉ behind') (heq : front ++ c :: behind = front' ++ c :: behind') :
    front = front' ∧ behind = behind' := by
  rcases List.append_eq_append_iff.1 heq with ⟨between, rfl, hrest⟩ | ⟨between, rfl, hrest⟩
  · rcases between with - | ⟨d, between⟩
    · exact ⟨(List.append_nil front).symm, (List.cons.inj hrest).2⟩
    · refine absurd ?_ h
      rw [(List.cons.inj hrest).2]
      exact List.mem_append_right between List.mem_cons_self
  · rcases between with - | ⟨d, between⟩
    · exact ⟨List.append_nil front', (List.cons.inj hrest).2.symm⟩
    · refine absurd ?_ h'
      rw [(List.cons.inj hrest).2]
      exact List.mem_append_right between List.mem_cons_self

/-- Does the text not end in a space? -/
def EndsPlain (s : String) : Prop := s.toList.getLast? ≠ some ' '

instance (s : String) : Decidable (EndsPlain s) := inferInstanceAs (Decidable (_ ≠ _))

/-- The characters of a filled column. -/
theorem toList_padRight (width : Nat) (s : String) :
    (padRight width s).toList = s.toList ++ List.replicate (width - s.length) ' ' := by
  rw [padRight, String.toList_append, String.toList_ofList]

/-- Without the spaces at its end a filled column is its text. -/
theorem rdropWhile_padRight (width : Nat) {s : String} (h : EndsPlain s) :
    (padRight width s).toList.rdropWhile (· = ' ') = s.toList := by
  rw [toList_padRight]
  induction width - s.length with
  | zero =>
    rw [List.replicate_zero, List.append_nil, List.rdropWhile_eq_self_iff]
    intro hne hspace
    apply h
    rw [List.getLast?_eq_some_getLast hne]
    exact congrArg some (of_decide_eq_true hspace)
  | succ k ih =>
    rw [List.replicate_succ', ← List.append_assoc, List.rdropWhile_concat_pos _ _ _ (by decide), ih]

/-- **Filled columns tell their texts**, if the spaces at the end are not those of the texts. -/
theorem padRight_inj {width : Nat} {s t : String} (hs : EndsPlain s) (ht : EndsPlain t)
    (h : padRight width s = padRight width t) : s = t := by
  rw [← String.toList_inj, ← rdropWhile_padRight width hs, h, rdropWhile_padRight width ht]

/-- The name of an architecture fills its column exactly, and is told by it. -/
theorem length_padRight_name (a : Arch) : (padRight 7 a.name).toList.length = 7 := by
  cases a <;> decide

/-- The names of architectures do not end in a space. -/
theorem endsPlain_name (a : Arch) : EndsPlain a.name := by
  cases a <;> decide

/-- Different architectures have different names. -/
theorem name_inj {a b : Arch} (h : a.name = b.name) : a = b := by
  have hname := Arch.ofName?_name a
  rw [h, Arch.ofName?_name] at hname
  exact (Option.some.inj hname).symm

/-! ## Lines -/

/-- The columns of a match line, and what stands between them. -/
theorem matchLine_eq (m : Match × String) :
    matchLine m = padRight 7 m.1.arch.name ++ " " ++ padRight 12 m.2 ++ " +" ++
      Text.paddedHex 10 m.1.offset ++ "  " ++ ("moduledata=" ++ Text.hex m.1.address) := rfl

/-- The columns in front of the offset. -/
def lineHead (m : Match × String) : List Char :=
  (padRight 7 m.1.arch.name).toList ++ ' ' :: ((padRight 12 m.2).toList ++ [' '])

/-- A match line: the columns in front of the offset, the offset, and the address. -/
theorem toList_matchLine (m : Match × String) :
    (matchLine m).toList = lineHead m ++ '+' :: (Text.paddedHex 10 m.1.offset).toList ++
      "  moduledata".toList ++ '=' :: (Text.hex m.1.address).toList := by
  rw [matchLine_eq, lineHead]
  simp

/-- The columns in front of the offset tell the architecture and the name. -/
theorem lineHead_inj {m n : Match × String} (hm : EndsPlain m.2) (hn : EndsPlain n.2)
    (h : lineHead m = lineHead n) : m.1.arch = n.1.arch ∧ m.2 = n.2 := by
  obtain ⟨harch, hrest⟩ := List.append_inj h (by rw [length_padRight_name, length_padRight_name])
  constructor
  · apply name_inj
    exact padRight_inj (endsPlain_name _) (endsPlain_name _) (String.toList_inj.1 harch)
  · apply padRight_inj hm hn
    exact String.toList_inj.1 (List.append_cancel_right (List.cons.inj hrest).2)

/-- **Match lines tell their matches**: two lines are the same only if architecture, name, offset and
address are, whatever stands in the names, as long as no space ends them. -/
theorem matchLine_eq_iff {m n : Match × String} (hm : EndsPlain m.2) (hn : EndsPlain n.2) :
    matchLine m = matchLine n ↔ m = n := by
  constructor
  · intro h
    rw [← String.toList_inj, toList_matchLine, toList_matchLine] at h
    -- the last equals sign is the one in front of the address
    have hequals : ∀ z : Int, '=' ∉ (Text.hex z).toList := Text.not_mem_hex (by decide)
    obtain ⟨hfront, haddress⟩ := append_cons_inj (hequals _) (hequals _) h
    -- and in front of that, the last plus sign is the one in front of the offset
    have hplus : ∀ z : Int, '+' ∉ (Text.paddedHex 10 z).toList :=
      Text.not_mem_paddedHex (by decide) 10
    obtain ⟨hhead, hoffset⟩ :=
      append_cons_inj (hplus _) (hplus _) (List.append_cancel_right hfront)
    obtain ⟨harch, hname⟩ := lineHead_inj hm hn hhead
    rcases m with ⟨⟨arch, offset, address⟩, name⟩
    rcases n with ⟨⟨arch', offset', address'⟩, name'⟩
    obtain rfl : arch = arch' := harch
    obtain rfl : name = name' := hname
    obtain rfl : offset = offset' := Text.paddedHex_injective (String.toList_inj.1 hoffset)
    obtain rfl : address = address' := Text.hex_injective (String.toList_inj.1 haddress)
    rfl
  · rintro rfl
    rfl

/-- The name of a section imitates the end of a line, and the line still tells it from the match that
it imitates. -/
theorem matchLine_eq_iff_imitated :
    EndsPlain ".text        +0x00000010  moduledata=0x40" ∧ EndsPlain ".text" ∧
      matchLine (⟨.x86, 16, 64⟩, ".text        +0x00000010  moduledata=0x40") =
        "x86     .text        +0x00000010  moduledata=0x40 +0x00000010  moduledata=0x40" ∧
      matchLine (⟨.x86, 16, 64⟩, ".text") = "x86     .text        +0x00000010  moduledata=0x40" ∧
      (matchLine (⟨.x86, 16, 64⟩, ".text        +0x00000010  moduledata=0x40") =
        matchLine (⟨.x86, 16, 64⟩, ".text") ↔
          ((⟨.x86, 16, 64⟩, ".text        +0x00000010  moduledata=0x40") : Match × String) =
            (⟨.x86, 16, 64⟩, ".text")) := by
  have himitating : EndsPlain ".text        +0x00000010  moduledata=0x40" := by decide
  have hplain : EndsPlain ".text" := by decide
  exact ⟨himitating, hplain, by decide +kernel, by decide +kernel,
    matchLine_eq_iff himitating hplain⟩

/-- A space at the end of a name is lost in the column. -/
example : matchLine (⟨.x64, 0, 7⟩, ".text ") = matchLine (⟨.x64, 0, 7⟩, ".text") := by
  decide +kernel

end SigScan.Report
