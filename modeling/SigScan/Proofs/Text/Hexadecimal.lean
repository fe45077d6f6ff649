/-
# Reading hexadecimal text back

What `hex` writes is an integer literal, and its value is the number that was written.

A run of digits is read from the left, and the digits of a number are those of its sixteenth part
followed by one more: so reading follows the recursion of writing. Zeros that fill the width are read
in front of the digits, and change nothing.

* `digits?_hexDigits`: the digits of a number are read as that number;
* `trimBlanks_surrounded`: blanks around a literal are taken away;
* `readInteger_of_ofText`: a literal with the sign and the digits of an integer is read as it;
* `readInteger_hex`, `readInteger_paddedHex`: an integer in hexadecimal is read as that integer;
* `mem_hexChars_of_mem_hex`, `mem_hexChars_of_mem_paddedHex`: the characters that are written;
* `hex_injective`, `paddedHex_injective`: different integers are written differently.
-/
import SigScan.Text.IntegerLiteral

namespace SigScan.Text

/-! ## The digits -/

/-- A number below sixteen has one digit. -/
theorem hexDigits_of_lt {n : Nat} (h : n < 16) : hexDigits n = [Nat.digitChar n] :=
  Nat.toDigits_of_lt_base h

/-- The digits of a greater number are those of its sixteenth part and the last one. -/
theorem hexDigits_of_le {n : Nat} (h : 16 ≤ n) :
    hexDigits n = hexDigits (n / 16) ++ [Nat.digitChar (n % 16)] :=
  Nat.toDigits_of_base_le (by decide) h

/-- Only the sixteen digits are written. -/
theorem exists_digit_of_mem_hexDigits (n : Nat) :
    ∀ c ∈ hexDigits n, ∃ d < 16, c = Nat.digitChar d := by
  induction n using Nat.strongRecOn with
  | ind n ih =>
    intro c hc
    rcases Nat.lt_or_ge n 16 with hn | hn
    · rw [hexDigits_of_lt hn, List.mem_singleton] at hc
      exact ⟨n, hn, hc⟩
    · rw [hexDigits_of_le hn, List.mem_append, List.mem_singleton] at hc
      rcases hc with hfront | hlast
      · exact ih (n / 16) (by omega) c hfront
      · exact ⟨n % 16, Nat.mod_lt n (by decide), hlast⟩

/-- A digit that is written is read as its value. -/
theorem digitValue?_digitChar {d : Nat} (h : d < 16) :
    digitValue? 16 (Nat.digitChar d) = some d := by
  have hall : ∀ d < 16, digitValue? 16 (Nat.digitChar d) = some d := by decide
  exact hall d h

/-- A digit in front of others is read first. -/
theorem digits?_cons {base d : Nat} {c y : Char} (hd : digitValue? base c = some d) (hy : y ≠ '_')
    (value : Nat) (more : List Char) :
    digits? base value (c :: y :: more) = digits? base (value * base + d) (y :: more) := by
  simp [digits?, hd, hy]

/-- One more digit at the end makes the number `base` times as large and adds the digit. -/
theorem digits?_append_singleton {base n d : Nat} {c : Char} (hd : digitValue? base c = some d)
    {front : List Char} (hf : '_' ∉ front) {value : Nat}
    (hn : digits? base value front = some n) :
    digits? base value (front ++ [c]) = some (n * base + d) := by
  have hc : c ≠ '_' := by
    rintro rfl
    cases hd
  induction front generalizing value with
  | nil => cases hn
  | cons x rest ih =>
    cases hx : digitValue? base x with
    | none => simp [digits?, hx] at hn
    | some e =>
      -- What follows `x` is the end of the front part, or a digit: never an underscore.
      cases rest with
      | nil =>
        simp only [digits?, hx, Option.some.injEq] at hn
        subst hn
        simp [digits?, hx, hd, hc]
      | cons y more =>
        have hy : y ≠ '_' := by
          rintro rfl
          exact hf (by simp)
        rw [digits?_cons hx hy] at hn
        show digits? base value (x :: y :: (more ++ [c])) = some (n * base + d)
        rw [digits?_cons hx hy]
        exact ih (fun h => hf (List.mem_cons_of_mem x h)) hn

/-- No underscore stands between the digits that are written. -/
theorem underscore_not_mem_hexDigits (n : Nat) : '_' ∉ hexDigits n := by
  intro h
  have hdigit : ∀ d < 16, '_' ≠ Nat.digitChar d := by decide
  obtain ⟨d, hd, heq⟩ := exists_digit_of_mem_hexDigits n '_' h
  exact hdigit d hd heq

/-- **The digits of a number are read as that number.** -/
theorem digits?_hexDigits (n : Nat) : digits? 16 0 (hexDigits n) = some n := by
  induction n using Nat.strongRecOn with
  | ind n ih =>
    rcases Nat.lt_or_ge n 16 with hn | hn
    · rw [hexDigits_of_lt hn, digits?_singleton]
      exact digitValue?_digitChar hn
    · have hlast := digitValue?_digitChar (Nat.mod_lt n (by decide : 0 < 16))
      rw [hexDigits_of_le hn,
        digits?_append_singleton hlast (underscore_not_mem_hexDigits (n / 16))
          (ih (n / 16) (by omega))]
      congr 1
      omega

/-- A zero in front of digits does not change their number. -/
theorem digits?_zero_cons {n : Nat} {digits : List Char} (h : digits? 16 0 digits = some n) :
    digits? 16 0 ('0' :: digits) = some n := by
  cases digits with
  | nil => cases h
  | cons c more =>
    have hc : c ≠ '_' := by
      rintro rfl
      cases h
    rw [digits?_cons (show digitValue? 16 '0' = some 0 by decide) hc]
    exact h

/-- **The digits are read as that number** also where zeros fill the width. -/
theorem digits?_hexDigitsAtLeast (width n : Nat) :
    digits? 16 0 (hexDigitsAtLeast width n) = some n := by
  unfold hexDigitsAtLeast
  induction width - (hexDigits n).length with
  | zero => exact digits?_hexDigits n
  | succ k ih => exact digits?_zero_cons ih

/-! ## The characters -/

/-- The characters that numbers in hexadecimal are written with. -/
def hexChars : List Char :=
  ['-', 'x', '0', '1', '2', '3', '4', '5', '6', '7', '8', '9', 'a', 'b', 'c', 'd', 'e', 'f']

/-- The characters of the digits. -/
theorem mem_hexChars_of_mem_hexDigits {n : Nat} {c : Char} (h : c ∈ hexDigits n) : c ∈ hexChars := by
  have hall : ∀ d < 16, Nat.digitChar d ∈ hexChars := by decide
  obtain ⟨d, hd, rfl⟩ := exists_digit_of_mem_hexDigits n c h
  exact hall d hd

/-- The characters of what stands before the digits. -/
theorem mem_hexChars_of_mem_hexLead {n : Int} {c : Char} (h : c ∈ hexLead n) : c ∈ hexChars := by
  have hall : (['-'] ++ ['0', 'x'] : List Char) ⊆ hexChars := by decide
  apply hall
  unfold hexLead at h
  split at h
  · exact h
  · exact List.mem_append_right _ h

/-- The characters of an integer in hexadecimal. -/
theorem mem_hexChars_of_mem_hex {n : Int} {c : Char} (h : c ∈ (hex n).toList) : c ∈ hexChars := by
  rw [hex, String.toList_ofList] at h
  rcases List.mem_append.1 h with hlead | hdigit
  · exact mem_hexChars_of_mem_hexLead hlead
  · exact mem_hexChars_of_mem_hexDigits hdigit

/-- Zeros that fill the width are among those characters. -/
theorem mem_hexChars_of_mem_paddedHex {width : Nat} {n : Int} {c : Char}
    (h : c ∈ (paddedHex width n).toList) : c ∈ hexChars := by
  rw [paddedHex, String.toList_ofList, hexDigitsAtLeast] at h
  rcases List.mem_append.1 h with hlead | hdigits
  · exact mem_hexChars_of_mem_hexLead hlead
  · rcases List.mem_append.1 hdigits with hzero | hdigit
    · rw [List.eq_of_mem_replicate hzero]
      decide
    · exact mem_hexChars_of_mem_hexDigits hdigit

/-- Another character is not written. -/
theorem not_mem_hex {c : Char} (h : c ∉ hexChars) (n : Int) : c ∉ (hex n).toList :=
  fun hc => h (mem_hexChars_of_mem_hex hc)

/-- Nor where zeros fill the width. -/
theorem not_mem_paddedHex {c : Char} (h : c ∉ hexChars) (width : Nat) (n : Int) :
    c ∉ (paddedHex width n).toList :=
  fun hc => h (mem_hexChars_of_mem_paddedHex hc)

/-! ## The literal -/

/-- A character that stays as it is where literals are read: ASCII, and no blank. -/
def IsLiteralChar (c : Char) : Prop :=
  c.toNat < 0x80 ∧ Unicode.isAsciiBlank c = false

instance (c : Char) : Decidable (IsLiteralChar c) :=
  inferInstanceAs (Decidable (_ ∧ _))

/-- A text that starts with no blank keeps its start. -/
theorem dropWhile_isAsciiBlank {text : List Char} (h : ∀ c ∈ text, IsLiteralChar c) :
    text.dropWhile Unicode.isAsciiBlank = text := by
  cases text with
  | nil => rfl
  | cons c rest => exact List.dropWhile_cons_of_neg (by simp [(h c List.mem_cons_self).2])

/-- A blank is read as it stands. -/
theorem asciiForm_of_isAsciiBlank {c : Char} (h : Unicode.isAsciiBlank c = true) :
    asciiForm c = c := by
  apply if_pos
  simp only [Unicode.isAsciiBlank, Bool.or_eq_true, Bool.and_eq_true, decide_eq_true_eq] at h
  omega

/-- **Blanks around a text are taken away**, and nothing else of it. -/
theorem trimBlanks_surrounded {front text behind : List Char}
    (hfront : ∀ c ∈ front, Unicode.isAsciiBlank c = true) (htext : ∀ c ∈ text, IsLiteralChar c)
    (hbehind : ∀ c ∈ behind, Unicode.isAsciiBlank c = true) :
    trimBlanks ((front ++ text ++ behind).map asciiForm) = text := by
  have hform : (front ++ text ++ behind).map asciiForm = (front ++ text ++ behind).map id := by
    apply List.map_congr_left
    intro c hc
    rcases List.mem_append.1 hc with hc | hc
    · rcases List.mem_append.1 hc with hc | hc
      · exact asciiForm_of_isAsciiBlank (hfront c hc)
      · exact if_pos (htext c hc).1
    · exact asciiForm_of_isAsciiBlank (hbehind c hc)
  rw [hform, List.map_id, trimBlanks, List.append_assoc, List.dropWhile_append_of_pos hfront]
  rcases text with - | ⟨c, text⟩
  · have hnone : (behind ++ []).dropWhile Unicode.isAsciiBlank = [] :=
      List.dropWhile_append_of_pos hbehind
    rw [List.append_nil] at hnone
    rw [List.nil_append, hnone]
    rfl
  · have hkept : (c :: text ++ behind).dropWhile Unicode.isAsciiBlank = c :: text ++ behind :=
      List.dropWhile_cons_of_neg (by simp [(htext c List.mem_cons_self).2])
    have hreverse : ∀ d ∈ (c :: text).reverse, IsLiteralChar d :=
      fun d hd => htext d (List.mem_reverse.1 hd)
    rw [hkept, List.reverse_append,
      List.dropWhile_append_of_pos fun d hd => hbehind d (List.mem_reverse.1 hd),
      dropWhile_isAsciiBlank hreverse, List.reverse_reverse]

/-- Nothing of a text without blanks is changed or taken away. -/
theorem trimBlanks_map_asciiForm {text : List Char} (h : ∀ c ∈ text, IsLiteralChar c) :
    trimBlanks (text.map asciiForm) = text := by
  have hnone : ∀ c ∈ ([] : List Char), Unicode.isAsciiBlank c = true := fun _ hc => by cases hc
  simpa using trimBlanks_surrounded hnone h hnone

/-- What is written of an integer is read as it stands. -/
theorem isLiteralChar_of_mem_hexChars {c : Char} (h : c ∈ hexChars) : IsLiteralChar c := by
  have hall : hexChars.all (fun c => decide (IsLiteralChar c)) = true := by decide
  exact of_decide_eq_true (List.all_eq_true.1 hall c h)

/-- The literal that is written: the sign, the base sixteen and the digits. -/
theorem ofText_hexLead {n : Int} {digits : List Char}
    (hchars : ∀ c ∈ hexLead n ++ digits, c ∈ hexChars) (hhead : digits.head? ≠ some '_') :
    Literal.ofText .marked (hexLead n ++ digits) = ⟨decide (n < 0), 16, digits⟩ := by
  have hunsigned : ∀ negative, Literal.unsigned .marked negative ('0' :: 'x' :: digits) =
      ⟨negative, 16, digits⟩ := by
    intro negative
    simp [Literal.unsigned, markedBase?, hhead]
  unfold Literal.ofText
  rw [trimBlanks_map_asciiForm fun c hc => isLiteralChar_of_mem_hexChars (hchars c hc)]
  by_cases hn : n < 0
  · simpa [hexLead, hn, Literal.signed] using hunsigned true
  · simpa [hexLead, hn, Literal.signed] using hunsigned false

/-- No underscore starts digits that are read. -/
theorem head?_ne_underscore {base value n : Nat} {digits : List Char}
    (h : digits? base value digits = some n) : digits.head? ≠ some '_' := by
  cases digits with
  | nil => cases h
  | cons c rest =>
    rintro hc
    cases Option.some.inj hc
    cases h

/-- A literal of base sixteen with the sign of an integer, and digits of the number without sign, is
read as that integer. -/
theorem readInteger_of_ofText {n : Int} {text : String} {digits : List Char}
    (htext : Literal.ofText .marked text.toList = ⟨decide (n < 0), 16, digits⟩)
    (hdigits : digits? 16 0 digits = some n.natAbs) : readInteger .marked text = .ok n := by
  have hsign : (if decide (n < 0) = true then -(n.natAbs : Int) else n.natAbs) = n := by
    by_cases hn : n < 0
    · rw [decide_eq_true hn, if_pos rfl]
      omega
    · rw [decide_eq_false hn, if_neg Bool.false_ne_true]
      omega
  have hvalue : Literal.value? ⟨decide (n < 0), 16, digits⟩ = some n := by
    unfold Literal.value? Literal.magnitude?
    rw [hdigits]
    exact congrArg some hsign
  have hexcess : Literal.excess? ⟨decide (n < 0), 16, digits⟩ = none :=
    Literal.excess?_of_base_ne (show 16 ≠ 10 by decide)
  unfold readInteger
  rw [htext]
  simp only [hexcess, hvalue]

/-- Behind the sign and `0x`, digits of the number without sign are read as the integer. -/
theorem readInteger_hexLead {n : Int} {digits : List Char}
    (hchars : ∀ c ∈ hexLead n ++ digits, c ∈ hexChars)
    (hdigits : digits? 16 0 digits = some n.natAbs) :
    readInteger .marked (String.ofList (hexLead n ++ digits)) = .ok n := by
  apply readInteger_of_ofText _ hdigits
  rw [String.toList_ofList]
  exact ofText_hexLead hchars (head?_ne_underscore hdigits)

/-- **An integer in hexadecimal is read as that integer.** -/
theorem readInteger_hex (n : Int) : readInteger .marked (hex n) = .ok n := by
  apply readInteger_hexLead _ (digits?_hexDigits n.natAbs)
  intro c hc
  exact mem_hexChars_of_mem_hex (by rwa [hex, String.toList_ofList])

/-- **So is one that is filled with zeros.** -/
theorem readInteger_paddedHex (width : Nat) (n : Int) :
    readInteger .marked (paddedHex width n) = .ok n := by
  apply readInteger_hexLead _ (digits?_hexDigitsAtLeast _ n.natAbs)
  intro c hc
  exact mem_hexChars_of_mem_paddedHex (by rwa [paddedHex, String.toList_ofList])

/-- Different integers are written differently. -/
theorem hex_injective {m n : Int} (h : hex m = hex n) : m = n := by
  have hread := readInteger_hex m
  rw [h, readInteger_hex] at hread
  exact (Except.ok.inj hread).symm

/-- Different integers are written differently also where zeros fill the width. -/
theorem paddedHex_injective {width : Nat} {m n : Int} (h : paddedHex width m = paddedHex width n) :
    m = n := by
  have hread := readInteger_paddedHex width m
  rw [h, readInteger_paddedHex] at hread
  exact (Except.ok.inj hread).symm

end SigScan.Text
