/-
# Other spellings of a written integer

An integer in hexadecimal is read back also where people have spelled it in another way: with
letters in upper case, with single underscores between digits or behind the `0x`, with a plus sign
in front where it is not negative, and with blanks around it.

The changes are made to the whole text that was written, one kind after the other, at any choice of
places. Sign and base marker stand in front of the digits, where only the letter of the marker can
change and only one underscore can be put in; behind them, each kind of change leaves the number
that the digits stand for.

* `digits?_capitalizes`, `digits?_separates`: the number of digits that were changed;
* `capitalizes_written`, `separates_written`: what stands in front of them;
* `readInteger_respelled`: a written integer is read back in every spelling.
-/
import Mathlib
import SigScan.Proofs.Text.Hexadecimal

namespace SigScan.Text

/-! ## Changes -/

/-- Is a text another one with some letters in upper case? -/
def Capitalizes (text capitals : List Char) : Prop :=
  List.Forall₂ (fun c d => d = c ∨ d = c.toUpper) text capitals

/-- May an underscore stand between two characters? The second one has to be a digit, the first one
a digit or the letter of the base marker. -/
def MayPart (c d : Char) : Prop :=
  ((digitValue? 16 c).isSome ∨ c = 'x' ∨ c = 'X') ∧ (digitValue? 16 d).isSome

instance (c d : Char) : Decidable (MayPart c d) := inferInstanceAs (Decidable (_ ∧ _))

/-- Is a text another one with underscores put in, at most one at a place? -/
inductive Separates : List Char → List Char → Prop
  | nil : Separates [] []
  | keep (c : Char) {text parted : List Char} (h : Separates text parted) :
      Separates (c :: text) (c :: parted)
  | part {c d : Char} {text parted : List Char} (hpart : MayPart c d)
      (h : Separates (d :: text) parted) : Separates (c :: d :: text) (c :: '_' :: parted)

/-- The first character stays the first one. -/
theorem Separates.head {c : Char} {text parted : List Char} (h : Separates (c :: text) parted) :
    ∃ more, parted = c :: more := by
  cases h with
  | keep _ _ => exact ⟨_, rfl⟩
  | part _ _ => exact ⟨_, rfl⟩

/-- An empty text stays empty. -/
theorem Separates.eq_nil {parted : List Char} (h : Separates [] parted) : parted = [] := by
  cases h
  rfl

/-! ## Digits -/

/-- A character that is no digit is not read, whatever follows. -/
theorem digits?_cons_of_none {base : Nat} {c : Char} (h : digitValue? base c = none) (value : Nat)
    (rest : List Char) : digits? base value (c :: rest) = none := by
  rw [digits?, h]

/-- An underscore behind a digit is passed over. -/
theorem digits?_underscore {base d : Nat} {c : Char} (h : digitValue? base c = some d) (value : Nat)
    (rest : List Char) :
    digits? base value (c :: '_' :: rest) = digits? base (value * base + d) rest := by
  simp only [digits?, h]

/-- **Underscores between digits do not change their number.** -/
theorem digits?_separates {base : Nat} {text parted : List Char} (h : Separates text parted)
    (hplain : '_' ∉ text) (value : Nat) :
    digits? base value parted = digits? base value text := by
  induction h generalizing value with
  | nil => rfl
  | @keep c text parted h ih =>
    have hrest := List.not_mem_of_not_mem_cons hplain
    cases hc : digitValue? base c with
    | none => rw [digits?_cons_of_none hc, digits?_cons_of_none hc]
    | some e =>
      rcases text with - | ⟨d, text⟩
      · rw [h.eq_nil]
      · obtain ⟨more, rfl⟩ := h.head
        have hd : d ≠ '_' := fun hd => hrest (hd ▸ List.mem_cons_self)
        rw [digits?_cons hc hd, digits?_cons hc hd, ih hrest]
  | @part c d text parted _ h ih =>
    have hrest := List.not_mem_of_not_mem_cons hplain
    have hd : d ≠ '_' := fun hd => hrest (hd ▸ List.mem_cons_self)
    cases hc : digitValue? base c with
    | none => rw [digits?_cons_of_none hc, digits?_cons_of_none hc]
    | some e => rw [digits?_underscore hc, digits?_cons hc hd, ih hrest]

/-- Are these characters digits as they are written? -/
def AreDigits (digits : List Char) : Prop := ∀ c ∈ digits, ∃ d < 16, c = Nat.digitChar d

/-- A digit in upper case has the same value, and is no underscore. -/
theorem digitValue?_capital {d : Nat} (h : d < 16) {c : Char}
    (hc : c = Nat.digitChar d ∨ c = (Nat.digitChar d).toUpper) :
    digitValue? 16 c = some d ∧ c ≠ '_' := by
  have hall : ∀ d < 16, (digitValue? 16 (Nat.digitChar d) = some d ∧ Nat.digitChar d ≠ '_') ∧
      digitValue? 16 (Nat.digitChar d).toUpper = some d ∧ (Nat.digitChar d).toUpper ≠ '_' := by
    decide
  rcases hc with rfl | rfl
  · exact (hall d h).1
  · exact (hall d h).2

/-- **Digits in upper case have the same number.** -/
theorem digits?_capitalizes {digits capitals : List Char} (h : Capitalizes digits capitals)
    (hdigits : AreDigits digits) (value : Nat) :
    digits? 16 value capitals = digits? 16 value digits := by
  induction h generalizing value with
  | nil => rfl
  | @cons c c' digits capitals hc h ih =>
    obtain ⟨hfirst, hrest⟩ := List.forall_mem_cons.1 hdigits
    obtain ⟨d, hd, rfl⟩ := hfirst
    obtain ⟨hvalue, -⟩ := digitValue?_capital hd (.inl rfl)
    obtain ⟨hvalue', -⟩ := digitValue?_capital hd hc
    cases h with
    | nil => rw [digits?, digits?, hvalue, hvalue']
    | @cons y y' more more' hy h =>
      obtain ⟨e, he, rfl⟩ := hrest y List.mem_cons_self
      obtain ⟨-, hne⟩ := digitValue?_capital he (.inl rfl)
      obtain ⟨-, hne'⟩ := digitValue?_capital he hy
      rw [digits?_cons hvalue hne, digits?_cons hvalue' hne', ih hrest]

/-- Digits in upper case have no underscore among them. -/
theorem underscore_not_mem_capitals {digits capitals : List Char} (h : Capitalizes digits capitals)
    (hdigits : AreDigits digits) : '_' ∉ capitals := by
  induction h with
  | nil => exact List.not_mem_nil
  | @cons c c' digits capitals hc h ih =>
    obtain ⟨⟨d, hd, rfl⟩, hrest⟩ := List.forall_mem_cons.1 hdigits
    obtain ⟨-, hne⟩ := digitValue?_capital hd hc
    exact List.not_mem_cons_of_ne_of_not_mem (Ne.symm hne) (ih hrest)

/-! ## Written integers -/

/-- Is a text one that an integer is written as, with or without zeros that fill a width? -/
def IsWritten (n : Int) (text : String) : Prop :=
  text = hex n ∨ ∃ width, text = paddedHex width n

/-- The sign of an integer, where it is written. -/
def signOf (n : Int) : List Char := if n < 0 then ['-'] else []

/-- A written integer has its sign, the base marker and digits of its number. -/
theorem exists_digits_of_isWritten {n : Int} {text : String} (h : IsWritten n text) :
    ∃ digits, text.toList = signOf n ++ '0' :: 'x' :: digits ∧ AreDigits digits ∧
      digits? 16 0 digits = some n.natAbs := by
  have hlead : ∀ digits, hexLead n ++ digits = signOf n ++ '0' :: 'x' :: digits := by
    intro digits
    rw [hexLead, List.append_assoc]
    rfl
  rcases h with rfl | ⟨width, rfl⟩
  · refine ⟨hexDigits n.natAbs, ?_, exists_digit_of_mem_hexDigits _, digits?_hexDigits _⟩
    rw [hex, String.toList_ofList, hlead]
  · refine ⟨_, ?_, ?_, digits?_hexDigitsAtLeast (width - (hexLead n).length) n.natAbs⟩
    · rw [paddedHex, String.toList_ofList, hlead]
    · intro c hc
      rcases List.mem_append.1 hc with hzero | hdigit
      · exact ⟨0, by decide, List.eq_of_mem_replicate hzero⟩
      · exact exists_digit_of_mem_hexDigits _ c hdigit

/-- The sign that is written is a minus sign. -/
theorem eq_of_mem_signOf {n : Int} {c : Char} (h : c ∈ signOf n) : c = '-' := by
  unfold signOf at h
  split at h
  · exact List.mem_singleton.1 h
  · cases h

/-- Characters without another upper case stay in front. -/
theorem capitalizes_append {front text capitals : List Char} (hfront : ∀ c ∈ front, c.toUpper = c)
    (h : Capitalizes (front ++ text) capitals) :
    ∃ more, capitals = front ++ more ∧ Capitalizes text more := by
  induction front generalizing capitals with
  | nil => exact ⟨capitals, rfl, h⟩
  | cons c front ih =>
    obtain ⟨hc, hrest⟩ := List.forall_mem_cons.1 hfront
    obtain ⟨d, body, hd, hbody, rfl⟩ := List.forall₂_cons_left_iff.1 h
    rw [hc, or_self] at hd
    obtain ⟨more, rfl, hmore⟩ := ih hrest hbody
    exact ⟨more, by rw [hd, List.cons_append], hmore⟩

/-- In front of the digits, only the letter of the base marker can be in upper case. -/
theorem capitalizes_written {n : Int} {digits capitals : List Char}
    (h : Capitalizes (signOf n ++ '0' :: 'x' :: digits) capitals) :
    ∃ marker more, capitals = signOf n ++ '0' :: marker :: more ∧ (marker = 'x' ∨ marker = 'X') ∧
      Capitalizes digits more := by
  have hfixed : ∀ c ∈ signOf n ++ ['0'], c.toUpper = c := by
    intro c hc
    rcases List.mem_append.1 hc with hsign | hzero
    · rw [eq_of_mem_signOf hsign]
      rfl
    · rw [List.mem_singleton.1 hzero]
      rfl
  rw [List.append_cons] at h
  obtain ⟨body, rfl, hbody⟩ := capitalizes_append hfixed h
  obtain ⟨marker, more, hmarker, hmore, rfl⟩ := List.forall₂_cons_left_iff.1 hbody
  exact ⟨marker, more, by rw [← List.append_cons], hmarker, hmore⟩

/-- No underscore stands behind a character where none may stand. -/
theorem Separates.tail {c : Char} {text parted : List Char} (h : Separates (c :: text) parted)
    (hpart : ∀ d ∈ text.head?, ¬MayPart c d) :
    ∃ more, parted = c :: more ∧ Separates text more := by
  cases h with
  | keep _ h => exact ⟨_, rfl, h⟩
  | part hmay _ => exact absurd hmay (hpart _ rfl)

/-- Characters behind which none may stand stay in front. -/
theorem separates_append {front text parted : List Char} (hfront : ∀ c ∈ front, ∀ d, ¬MayPart c d)
    (h : Separates (front ++ text) parted) :
    ∃ more, parted = front ++ more ∧ Separates text more := by
  induction front generalizing parted with
  | nil => exact ⟨parted, rfl, h⟩
  | cons c front ih =>
    obtain ⟨hc, hrest⟩ := List.forall_mem_cons.1 hfront
    obtain ⟨body, rfl, hbody⟩ := h.tail fun d _ => hc d
    obtain ⟨more, rfl, hmore⟩ := ih hrest hbody
    exact ⟨more, rfl, hmore⟩

/-- In front of the digits, one underscore can be put in: behind the base marker. -/
theorem separates_written {n : Int} {marker : Char} (hmarker : marker = 'x' ∨ marker = 'X')
    {capitals parted : List Char} (h : Separates (signOf n ++ '0' :: marker :: capitals) parted) :
    ∃ more digits, parted = signOf n ++ '0' :: marker :: more ∧
      (more = digits ∨ more = '_' :: digits) ∧ Separates capitals digits := by
  have hsign : ∀ c ∈ signOf n, ∀ d, ¬MayPart c d := by
    intro c hc d hpart
    rw [eq_of_mem_signOf hc] at hpart
    exact absurd hpart.1 (by decide)
  have hzero : ¬MayPart '0' marker := by
    rcases hmarker with rfl | rfl <;> decide
  obtain ⟨body, rfl, hbody⟩ := separates_append hsign h
  obtain ⟨rest, rfl, hrest⟩ := hbody.tail fun d hd => by cases hd; exact hzero
  cases hrest with
  | keep _ hmore => exact ⟨_, _, rfl, .inl rfl, hmore⟩
  | part _ hmore => exact ⟨_, _, rfl, .inr rfl, hmore⟩

/-! ## Characters -/

/-- What is written is read as it stands, also in upper case. -/
theorem isLiteralChar_of_capitalizes {text capitals : List Char} (h : Capitalizes text capitals)
    (hchars : ∀ c ∈ text, c ∈ hexChars) : ∀ c ∈ capitals, IsLiteralChar c := by
  have hall : hexChars.all
      (fun c => decide (IsLiteralChar c ∧ IsLiteralChar c.toUpper)) = true := by
    decide
  induction h with
  | nil => exact fun _ hc => absurd hc List.not_mem_nil
  | @cons c c' text capitals hc h ih =>
    obtain ⟨hfirst, hrest⟩ := List.forall_mem_cons.1 hchars
    obtain ⟨hplain, hupper⟩ := of_decide_eq_true (List.all_eq_true.1 hall c hfirst)
    refine List.forall_mem_cons.2 ⟨?_, ih hrest⟩
    rcases hc with rfl | rfl
    · exact hplain
    · exact hupper

/-- Underscores are read as they stand. -/
theorem isLiteralChar_of_separates {text parted : List Char} (h : Separates text parted)
    (hchars : ∀ c ∈ text, IsLiteralChar c) : ∀ c ∈ parted, IsLiteralChar c := by
  induction h with
  | nil => exact hchars
  | keep c h ih =>
    obtain ⟨hfirst, hrest⟩ := List.forall_mem_cons.1 hchars
    exact List.forall_mem_cons.2 ⟨hfirst, ih hrest⟩
  | part hpart h ih =>
    obtain ⟨hfirst, hrest⟩ := List.forall_mem_cons.1 hchars
    exact List.forall_mem_cons.2 ⟨hfirst, List.forall_mem_cons.2 ⟨by decide, ih hrest⟩⟩

/-- The characters of a written integer. -/
theorem mem_hexChars_of_isWritten {n : Int} {text : String} (h : IsWritten n text) {c : Char}
    (hc : c ∈ text.toList) : c ∈ hexChars := by
  rcases h with rfl | ⟨width, rfl⟩
  · exact mem_hexChars_of_mem_hex hc
  · exact mem_hexChars_of_mem_paddedHex hc

/-! ## Spellings -/

/-- The literal in a spelling: sign, base sixteen, and the digits without an underscore in front. -/
theorem signed_spelling {n : Int} {plus more digits : List Char} {marker : Char}
    (hplus : plus = [] ∨ 0 ≤ n ∧ plus = ['+']) (hmarker : marker = 'x' ∨ marker = 'X')
    (hmore : more = digits ∨ more = '_' :: digits) (hhead : digits.head? ≠ some '_') :
    Literal.signed .marked (plus ++ (signOf n ++ '0' :: marker :: more)) =
      ⟨decide (n < 0), 16, digits⟩ := by
  have hbase : markedBase? .marked marker = some 16 := by
    rcases hmarker with rfl | rfl <;> rfl
  have hdigits : (if more.head? = some '_' then more.tail else more) = digits := by
    rcases hmore with rfl | rfl
    · exact if_neg hhead
    · exact if_pos rfl
  have hunsigned : ∀ negative, Literal.unsigned .marked negative ('0' :: marker :: more) =
      ⟨negative, 16, digits⟩ := by
    intro negative
    simp only [Literal.unsigned, hbase, hdigits]
  by_cases hn : n < 0
  · obtain rfl : plus = [] := hplus.resolve_right fun h => absurd h.1 (by omega)
    simpa [signOf, hn, Literal.signed] using hunsigned true
  · rcases hplus with rfl | ⟨-, rfl⟩ <;> simpa [signOf, hn, Literal.signed] using hunsigned false

/-- **A written integer is read back in every spelling**: with letters in upper case, single
underscores between digits and behind the base marker, a plus sign if it is not negative, and blanks
around it. -/
theorem readInteger_respelled {n : Int} {text : String} (htext : IsWritten n text)
    {capitals parted plus front behind : List Char} (hcapitals : Capitalizes text.toList capitals)
    (hparted : Separates capitals parted) (hplus : plus = [] ∨ 0 ≤ n ∧ plus = ['+'])
    (hfront : ∀ c ∈ front, Unicode.isAsciiBlank c = true)
    (hbehind : ∀ c ∈ behind, Unicode.isAsciiBlank c = true) :
    readInteger .marked text = .ok n ∧
      readInteger .marked (String.ofList (front ++ (plus ++ parted) ++ behind)) = .ok n := by
  have hplain : readInteger .marked text = .ok n := by
    rcases htext with rfl | ⟨width, rfl⟩
    · exact readInteger_hex n
    · exact readInteger_paddedHex width n
  have hchars : ∀ c ∈ plus ++ parted, IsLiteralChar c := by
    have hwritten := isLiteralChar_of_separates hparted
      (isLiteralChar_of_capitalizes hcapitals fun c hc => mem_hexChars_of_isWritten htext hc)
    intro c hc
    rcases List.mem_append.1 hc with hc | hc
    · rcases hplus with rfl | ⟨-, rfl⟩
      · cases hc
      · rw [List.mem_singleton.1 hc]
        decide
    · exact hwritten c hc
  -- the written text falls apart into sign, marker and digits, and each change with it
  obtain ⟨digits, hlist, hdigits, hvalue⟩ := exists_digits_of_isWritten htext
  rw [hlist] at hcapitals
  obtain ⟨marker, upper, rfl, hmarker, hupper⟩ := capitalizes_written hcapitals
  obtain ⟨more, spelled, rfl, hmore, hspelled⟩ := separates_written hmarker hparted
  have hread : digits? 16 0 spelled = some n.natAbs := by
    rw [digits?_separates hspelled (underscore_not_mem_capitals hupper hdigits),
      digits?_capitalizes hupper hdigits, hvalue]
  refine ⟨hplain, readInteger_of_ofText ?_ hread⟩
  rw [String.toList_ofList, Literal.ofText, trimBlanks_surrounded hfront hchars hbehind]
  exact signed_spelling hplus hmarker hmore (head?_ne_underscore hread)

/-- A negative number that fills its width, with every change at once except the plus sign, which it
cannot have. -/
theorem readInteger_respelled_negative :
    IsWritten (-0xAB) "-0x00000ab" ∧
      Capitalizes "-0x00000ab".toList "-0X00000aB".toList ∧
      Separates "-0X00000aB".toList "-0X_0000_0a_B".toList ∧
      readInteger .marked "-0x00000ab" = .ok (-0xAB) ∧
      readInteger .marked " \t-0X_0000_0a_B\n" = .ok (-0xAB) := by
  have hwritten : IsWritten (-0xAB) "-0x00000ab" := .inr ⟨10, by decide +kernel⟩
  have hcapitals : Capitalizes "-0x00000ab".toList "-0X00000aB".toList := by
    simp [Capitalizes]
  have hseparates : Separates "-0X00000aB".toList "-0X_0000_0a_B".toList :=
    .keep '-' <| .keep '0' <| .part (by decide) <| .keep '0' <| .keep '0' <| .keep '0' <|
      .part (by decide) <| .keep '0' <| .part (by decide) <| .keep 'B' .nil
  have hfront : ∀ c ∈ [' ', '\t'], Unicode.isAsciiBlank c = true :=
    List.all_eq_true.1 (by decide)
  have hbehind : ∀ c ∈ ['\n'], Unicode.isAsciiBlank c = true :=
    List.all_eq_true.1 (by decide)
  obtain ⟨hplain, hspelled⟩ :=
    readInteger_respelled hwritten hcapitals hseparates (.inl rfl) hfront hbehind
  exact ⟨hwritten, hcapitals, hseparates, hplain, hspelled⟩

end SigScan.Text
