/-
# The grammar of patterns

A pattern is one byte or more. A byte is written with two characters, each a hexadecimal digit or the
wildcard, and one space stands between two bytes. `Grammatical` is this grammar, byte by byte.

`check` looks at the length of a text and at each position apart, and accepts just the texts of the
grammar. Their masks can always be read, since a hexadecimal digit has a value.

* `check_eq_ok_iff_grammatical`: the accepted texts;
* `byteMasks_of_check`: a well-formed pattern has masks;
* `offsets_of_check`: its occurrences are found.
-/
import SigScan.Pattern.Grammar
import SigScan.Proofs.Pattern.Expression

namespace SigScan.Pattern

/-! ## The grammar -/

/-- The characters of a pattern. -/
inductive Grammatical : List Char → Prop
  /-- The last byte. -/
  | last {high low : Char} (hhigh : isNibble high = true) (hlow : isNibble low = true) :
      Grammatical [high, low]
  /-- A byte in front of others, with a space between. -/
  | next {high low : Char} {rest : List Char} (hhigh : isNibble high = true)
      (hlow : isNibble low = true) (hrest : Grammatical rest) :
      Grammatical (high :: low :: separator :: rest)

/-- Where no character is out of place, the first one fits and so do the rest. -/
theorem firstMisfit?_cons_eq_none {index : Nat} {c : Char} {rest : List Char} :
    firstMisfit? index (c :: rest) = none ↔
      fits index c = true ∧ firstMisfit? (index + 1) rest = none := by
  rw [firstMisfit?]
  split
  · next hfits => simp [hfits]
  · next hfits => simp [hfits]

/-- What fits in front of a byte and in the middle of it: half a byte. -/
theorem fits_of_ne {index : Nat} (h : index % 3 ≠ 2) (c : Char) : fits index c = isNibble c := by
  rw [fits, if_neg h]

/-- What fits behind a byte: the separator. -/
theorem fits_iff_of_eq {index : Nat} (h : index % 3 = 2) (c : Char) :
    fits index c = true ↔ c = separator := by
  rw [fits, if_pos h, beq_iff_eq]

/-- Characters of a fitting number, none of them out of place, are of the grammar. -/
theorem grammatical_of_firstMisfit? {chars : List Char} {index : Nat} (hindex : index % 3 = 0)
    (hlength : (chars.length + 1) % 3 = 0) (h : firstMisfit? index chars = none) :
    Grammatical chars := by
  -- the recursion of the masks goes byte by byte
  fun_induction byteMasksOf chars generalizing index with
  | case1 high low c rest ih =>
    simp only [firstMisfit?_cons_eq_none] at h
    obtain ⟨hhigh, hlow, hc, hrest⟩ := h
    rw [fits_of_ne (by omega)] at hhigh hlow
    rw [fits_iff_of_eq (by omega)] at hc
    subst hc
    simp only [List.length_cons] at hlength
    exact .next hhigh hlow (ih (by omega) (by omega) hrest)
  | case2 high low =>
    simp only [firstMisfit?_cons_eq_none] at h
    obtain ⟨hhigh, hlow, -⟩ := h
    rw [fits_of_ne (by omega)] at hhigh hlow
    exact .last hhigh hlow
  | case3 chars hlong hshort =>
    -- no other number of characters is one short of a multiple of three
    rcases chars with _ | ⟨a, _ | ⟨b, _ | ⟨c, rest⟩⟩⟩
    · simp at hlength
    · simp at hlength
    · exact absurd rfl (hshort a b)
    · exact absurd rfl (hlong a b c rest)

/-- Texts of the grammar are not empty, and their lengths fit. -/
theorem Grammatical.length {chars : List Char} (h : Grammatical chars) :
    chars.length ≠ 0 ∧ (chars.length + 1) % 3 = 0 := by
  induction h with
  | last hhigh hlow => simp
  | next hhigh hlow hrest ih =>
    simp only [List.length_cons]
    omega

/-- No character of the grammar is out of place. -/
theorem Grammatical.firstMisfit?_eq_none {chars : List Char} (h : Grammatical chars) {index : Nat}
    (hindex : index % 3 = 0) : firstMisfit? index chars = none := by
  induction h generalizing index with
  | last hhigh hlow =>
    simp only [firstMisfit?_cons_eq_none]
    rw [fits_of_ne (by omega), fits_of_ne (by omega)]
    exact ⟨hhigh, hlow, rfl⟩
  | next hhigh hlow hrest ih =>
    simp only [firstMisfit?_cons_eq_none]
    rw [fits_of_ne (by omega), fits_of_ne (by omega), fits_iff_of_eq (by omega)]
    exact ⟨hhigh, hlow, rfl, ih (by omega)⟩

/-- **The accepted texts are those of the grammar.** -/
theorem check_eq_ok_iff_grammatical {text : String} :
    check text = .ok () ↔ Grammatical text.toList := by
  rw [check_eq_ok_iff, ← String.length_toList]
  constructor
  · rintro ⟨-, hlength, hmisfit⟩
    exact grammatical_of_firstMisfit? (Nat.zero_mod 3) hlength hmisfit
  · intro h
    exact ⟨h.length.1, h.length.2, h.firstMisfit?_eq_none (Nat.zero_mod 3)⟩

/-! ## The masks of a well-formed pattern -/

/-- A character lies between two others when its code point does. -/
theorem le_iff_toNat_le (c d : Char) : c ≤ d ↔ c.toNat ≤ d.toNat := by
  rw [Char.le_def, UInt32.le_iff_toNat_le]
  exact Iff.rfl

/-- A hexadecimal digit has a value. -/
theorem nibble?_of_isHexDigit {c : Char} (h : isHexDigit c = true) :
    ∃ d, Text.nibble? c = some d := by
  simp only [isHexDigit, Bool.or_eq_true, Bool.and_eq_true, decide_eq_true_eq,
    le_iff_toNat_le, Char.reduceToNat] at h
  have hascii : Text.asciiForm c = c := by
    unfold Text.asciiForm
    exact if_pos (by omega)
  unfold Text.nibble? Text.digitValue? Text.alphanumericValue?
  rw [hascii]
  simp only [le_iff_toNat_le, Char.reduceToNat]
  -- In each of the three ranges the value is the place in the range, after those in front.
  rcases h with (⟨hlow, hhigh⟩ | ⟨hlow, hhigh⟩) | ⟨hlow, hhigh⟩
  · refine ⟨c.toNat - 0x30, ?_⟩
    rw [if_pos (by omega), Option.filter_some, if_pos (by simp; omega)]
  · refine ⟨c.toNat - 0x41 + 10, ?_⟩
    rw [if_neg (by omega), if_neg (by omega), if_pos (by omega), Option.filter_some,
      if_pos (by simp; omega)]
  · refine ⟨c.toNat - 0x61 + 10, ?_⟩
    rw [if_neg (by omega), if_pos (by omega), Option.filter_some, if_pos (by simp; omega)]

/-- A character that may stand for half a byte asks something of it. -/
theorem nibble_of_isNibble {c : Char} (h : isNibble c = true) : ∃ n, nibble c = .ok n := by
  unfold nibble
  by_cases hw : c = wildcard
  · exact ⟨⟨0, 0⟩, if_pos hw⟩
  · obtain ⟨d, hd⟩ : ∃ d, Text.nibble? c = some d := by
      apply nibble?_of_isHexDigit
      simpa [isNibble, hw] using h
    refine ⟨⟨d, 15⟩, ?_⟩
    rw [if_neg hw, hd]

/-- Two characters that may stand for half a byte each describe a byte. -/
theorem byteMask_of_isNibble {high low : Char} (hh : isNibble high = true)
    (hl : isNibble low = true) : ∃ m, byteMask high low = .ok m := by
  obtain ⟨h, hh⟩ := nibble_of_isNibble hh
  obtain ⟨l, hl⟩ := nibble_of_isNibble hl
  exact ⟨_, bind_eq_ok_iff.2 ⟨h, hh, bind_eq_ok_iff.2 ⟨l, hl, rfl⟩⟩⟩

/-- Characters of the grammar describe bytes. -/
theorem Grammatical.byteMasksOf {chars : List Char} (h : Grammatical chars) :
    ∃ masks, byteMasksOf chars = .ok masks := by
  induction h with
  | last hhigh hlow =>
    obtain ⟨m, hm⟩ := byteMask_of_isNibble hhigh hlow
    exact ⟨[m], bind_eq_ok_iff.2 ⟨m, hm, rfl⟩⟩
  | next hhigh hlow hrest ih =>
    obtain ⟨m, hm⟩ := byteMask_of_isNibble hhigh hlow
    obtain ⟨masks, hmasks⟩ := ih
    exact ⟨m :: masks, bind_eq_ok_iff.2 ⟨m, hm, bind_eq_ok_iff.2 ⟨masks, hmasks, rfl⟩⟩⟩

/-- A well-formed pattern has masks. -/
theorem byteMasks_of_check {text : String} (h : check text = .ok ()) :
    ∃ masks, byteMasks text = .ok masks :=
  (check_eq_ok_iff_grammatical.1 h).byteMasksOf

/-- The occurrences of a well-formed pattern in a window are found. -/
theorem offsets_of_check {text : String} (h : check text = .ok ()) (data : Bytes) (start : Int)
    (stop : Option Int) : ∃ found, offsets text data start stop = .ok found := by
  rw [offsets_eq]
  split
  · exact ⟨[], rfl⟩
  · obtain ⟨masks, hmasks⟩ := byteMasks_of_check h
    exact ⟨_, bind_eq_ok_iff.2 ⟨masks, hmasks, rfl⟩⟩

end SigScan.Pattern
