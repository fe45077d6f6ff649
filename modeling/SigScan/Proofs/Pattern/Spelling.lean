/-
# How masks are spelled

A pattern asks of each byte for both halves, the high one, the low one, or neither, and the value is
zero where nothing is asked: `ByteMask.CountsHalves`. This holds of all masks that can be read from a
text, also from one that is no pattern.

Each row of such masks is spelled by a pattern in upper case, and every other pattern for the same
masks is that one in upper case. So patterns and masks go together, up to the case of the letters.

* `countsHalves_of_mem_byteMasksOf`: the masks that can be read;
* `byteMasksOf_spell`: what is spelled for masks is read as these masks;
* `spell_of_byteMasksOf`: a pattern in upper case is what is spelled for its masks;
* `texts_spellMasks`: what the check accepts and refuses, and how texts and masks go together.
-/
import SigScan.Proofs.Pattern.Refusal

namespace SigScan

/-! ## Masks by their halves -/

/-- Does each half of the byte count as a whole or not at all, and is its value zero where it does
not? -/
def ByteMask.CountsHalves (m : ByteMask) : Prop :=
  m.mask ∈ [0x00, 0x0F, 0xF0, 0xFF] ∧ m.value &&& ~~~m.mask = 0

instance (m : ByteMask) : Decidable m.CountsHalves := inferInstanceAs (Decidable (_ ∧ _))

/-- What a mask asks of the high half of a byte. -/
def ByteMask.high (m : ByteMask) : Pattern.Nibble := ⟨m.value.toNat / 16, m.mask.toNat / 16⟩

/-- What a mask asks of the low half of a byte. -/
def ByteMask.low (m : ByteMask) : Pattern.Nibble := ⟨m.value.toNat % 16, m.mask.toNat % 16⟩

/-- The mask that asks so of both halves. -/
def ByteMask.ofHalves (high low : Pattern.Nibble) : ByteMask :=
  ⟨UInt8.ofNat (16 * high.value + low.value), UInt8.ofNat (16 * high.mask + low.mask)⟩

/-- A mask is made of its halves. -/
theorem ByteMask.ofHalves_high_low (m : ByteMask) : ofHalves m.high m.low = m := by
  unfold ofHalves high low
  simp only [Nat.div_add_mod, UInt8.ofNat_toNat]

namespace Pattern

/-- What may be asked of half a byte: nothing, or one of its values. -/
def halves : List Nibble := ⟨0, 0⟩ :: (List.range 16).map (⟨·, 15⟩)

/-- What a character asks of half a byte. -/
theorem mem_halves_of_nibble {c : Char} {n : Nibble} (h : nibble c = .ok n) : n ∈ halves := by
  obtain ⟨value, mask⟩ := n
  obtain ⟨hvalue, hmask, hzero⟩ := nibble_proper h
  simp only [List.mem_cons, List.not_mem_nil, or_false] at hmask
  rcases hmask with rfl | rfl
  · cases hzero rfl
    exact List.mem_cons_self
  · exact List.mem_cons_of_mem _ (List.mem_map_of_mem (List.mem_range.2 hvalue))

/-- The mask that two halves make has these halves. -/
theorem ofHalves_of_mem {high low : Nibble} (hhigh : high ∈ halves) (hlow : low ∈ halves) :
    (ByteMask.ofHalves high low).CountsHalves ∧ (ByteMask.ofHalves high low).high = high ∧
      (ByteMask.ofHalves high low).low = low := by
  have hall : ∀ high ∈ halves, ∀ low ∈ halves, (ByteMask.ofHalves high low).CountsHalves ∧
      (ByteMask.ofHalves high low).high = high ∧ (ByteMask.ofHalves high low).low = low := by
    decide +kernel
  exact hall high hhigh low hlow

/-- The halves of a mask that counts halves. -/
theorem mem_halves_of_countsHalves {m : ByteMask} (h : m.CountsHalves) :
    m.high ∈ halves ∧ m.low ∈ halves := by
  have hall : ∀ mask ∈ ([0x00, 0x0F, 0xF0, 0xFF] : List UInt8), ∀ v < 256,
      UInt8.ofNat v &&& ~~~mask = 0 →
        (ByteMask.mk (UInt8.ofNat v) mask).high ∈ halves ∧
          (ByteMask.mk (UInt8.ofNat v) mask).low ∈ halves := by
    decide +kernel
  have hmask := hall m.mask h.1 m.value.toNat m.value.toNat_lt
  rw [UInt8.ofNat_toNat] at hmask
  exact hmask h.2

/-- The halves of the mask that two characters describe. -/
theorem halves_of_byteMask {high low : Char} {m : ByteMask} (h : byteMask high low = .ok m) :
    m.CountsHalves ∧ nibble high = .ok m.high ∧ nibble low = .ok m.low := by
  obtain ⟨n, hhigh, hrest⟩ := bind_eq_ok_iff.1 h
  obtain ⟨k, hlow, hpure⟩ := bind_eq_ok_iff.1 hrest
  cases hpure
  obtain ⟨hcounts, hn, hk⟩ :=
    ofHalves_of_mem (mem_halves_of_nibble hhigh) (mem_halves_of_nibble hlow)
  refine ⟨hcounts, ?_, ?_⟩
  · rw [hhigh]
    exact congrArg Except.ok hn.symm
  · rw [hlow]
    exact congrArg Except.ok hk.symm

/-- **The masks that can be read from characters**, of a pattern or not. -/
theorem countsHalves_of_mem_byteMasksOf {chars : List Char} {masks : List ByteMask}
    (h : byteMasksOf chars = .ok masks) : ∀ m ∈ masks, m.CountsHalves := by
  intro m hm
  obtain ⟨high, low, hmask⟩ := exists_byteMask_of_mem h hm
  exact (halves_of_byteMask hmask).1

/-! ## Characters for halves -/

/-- The character for half a byte, in upper case. -/
def Nibble.char (n : Nibble) : Char :=
  if n.mask = 0 then wildcard else (Nat.digitChar n.value).toUpper

/-- The character for half a byte may stand in a pattern, and asks for it. -/
theorem nibble_char {n : Nibble} (h : n ∈ halves) :
    isNibble n.char = true ∧ nibble n.char = .ok n := by
  have hall : ∀ n ∈ halves, isNibble n.char = true ∧ nibble n.char = .ok n := by decide +kernel
  exact hall n h

/-- What holds of the ASCII characters that may stand for half a byte holds of all that may. -/
theorem of_isNibble {P : Char → Prop}
    (h : ∀ n < 128, isNibble (Char.ofNat n) = true → P (Char.ofNat n)) {c : Char}
    (hc : isNibble c = true) : P c := by
  have hascii : c.toNat < 128 := by
    simp only [isNibble, isHexDigit, Bool.or_eq_true, beq_iff_eq, Bool.and_eq_true,
      decide_eq_true_eq, le_iff_toNat_le, Char.reduceToNat] at hc
    rcases hc with rfl | hdigit
    · decide
    · omega
  have hchar := h c.toNat hascii
  rw [Char.ofNat_toNat] at hchar
  exact hchar hc

/-- A character asks for the same in upper case. -/
theorem nibble_toUpper {c : Char} (h : isNibble c = true) : nibble c.toUpper = nibble c := by
  refine of_isNibble (P := fun c => nibble c.toUpper = nibble c) ?_ h
  decide +kernel

/-- A character in upper case is the one for what it asks. -/
theorem char_of_nibble {c : Char} (h : isNibble c = true) {n : Nibble} (hn : nibble c = .ok n) :
    n.char = c.toUpper := by
  have hchar : (nibble c).map Nibble.char = .ok c.toUpper := by
    refine of_isNibble (P := fun c => (nibble c).map Nibble.char = .ok c.toUpper) ?_ h
    decide +kernel
  rw [hn] at hchar
  exact Except.ok.inj hchar

/-! ## Patterns for masks -/

/-- The pattern for masks, in upper case. -/
def spell (masks : List ByteMask) : List Char :=
  [separator].intercalate (masks.map fun m => [m.high.char, m.low.char])

/-- The pattern for one mask. -/
theorem spell_singleton (m : ByteMask) : spell [m] = [m.high.char, m.low.char] := rfl

/-- The pattern for one mask more. -/
theorem spell_cons (m : ByteMask) {masks : List ByteMask} (h : masks ≠ []) :
    spell (m :: masks) = m.high.char :: m.low.char :: separator :: spell masks := by
  rw [spell, List.map_cons, List.intercalate_cons_of_ne_nil (by simpa using h), ← spell]
  rfl

/-- What is spelled for masks is a pattern. -/
theorem grammatical_spell {masks : List ByteMask} (hne : masks ≠ [])
    (h : ∀ m ∈ masks, m.CountsHalves) : Grammatical (spell masks) := by
  refine grammatical_iff_joined.2
    ⟨masks.map fun m => (m.high.char, m.low.char), by simpa using hne, ?_, ?_⟩
  · intro g hg
    obtain ⟨m, hm, rfl⟩ := List.mem_map.1 hg
    obtain ⟨hhigh, hlow⟩ := mem_halves_of_countsHalves (h m hm)
    exact ⟨(nibble_char hhigh).1, (nibble_char hlow).1⟩
  · rw [spell, List.map_map]
    rfl

/-- The characters that are spelled for a mask describe it. -/
theorem byteMask_char {m : ByteMask} (h : m.CountsHalves) :
    byteMask m.high.char m.low.char = .ok m := by
  obtain ⟨hhigh, hlow⟩ := mem_halves_of_countsHalves h
  unfold byteMask
  rw [(nibble_char hhigh).2, (nibble_char hlow).2]
  exact congrArg Except.ok m.ofHalves_high_low

/-- **What is spelled for masks is read as these masks.** -/
theorem byteMasksOf_spell {masks : List ByteMask} (h : ∀ m ∈ masks, m.CountsHalves) :
    byteMasksOf (spell masks) = .ok masks := by
  induction masks with
  | nil => rfl
  | cons m masks ih =>
    obtain ⟨hm, hrest⟩ := List.forall_mem_cons.1 h
    by_cases hne : masks = []
    · subst hne
      rw [spell_singleton, byteMasksOf, byteMask_char hm]
      rfl
    · rw [spell_cons m hne, byteMasksOf, byteMask_char hm, ih hrest]
      rfl

/-- **A pattern in upper case is what is spelled for its masks.** -/
theorem spell_of_byteMasksOf {chars : List Char} (h : Grammatical chars) {masks : List ByteMask}
    (hmasks : byteMasksOf chars = .ok masks) : spell masks = chars.map Char.toUpper := by
  induction h generalizing masks with
  | last hhigh hlow =>
    obtain ⟨m, hm, hpure⟩ := bind_eq_ok_iff.1 hmasks
    cases hpure
    obtain ⟨-, hh, hl⟩ := halves_of_byteMask hm
    rw [spell_singleton, char_of_nibble hhigh hh, char_of_nibble hlow hl]
    rfl
  | next hhigh hlow hrest ih =>
    obtain ⟨m, hm, hmore⟩ := bind_eq_ok_iff.1 hmasks
    obtain ⟨more, hread, hpure⟩ := bind_eq_ok_iff.1 hmore
    cases hpure
    obtain ⟨-, hh, hl⟩ := halves_of_byteMask hm
    have hne : more ≠ [] := by
      rintro rfl
      have hlength := length_of_byteMasksOf hread
      have hrestLength := hrest.length
      rw [List.length_nil, sizeOfLength] at hlength
      omega
    rw [spell_cons m hne, char_of_nibble hhigh hh, char_of_nibble hlow hl, ih hread]
    rfl

/-- A pattern has the same masks in upper case. -/
theorem byteMasksOf_map_toUpper {chars : List Char} (h : Grammatical chars) :
    byteMasksOf (chars.map Char.toUpper) = byteMasksOf chars := by
  induction h with
  | last hhigh hlow =>
    rw [List.map_cons, List.map_cons, List.map_nil, byteMasksOf, byteMasksOf, byteMask, byteMask,
      nibble_toUpper hhigh, nibble_toUpper hlow]
  | next hhigh hlow hrest ih =>
    rw [List.map_cons, List.map_cons, List.map_cons, byteMasksOf, byteMasksOf, byteMask, byteMask,
      nibble_toUpper hhigh, nibble_toUpper hlow, ih]

/-- **Two patterns have the same masks just if they are the same in upper case.** -/
theorem byteMasks_eq_iff {text other : String} (h : check text = .ok ())
    (hother : check other = .ok ()) :
    byteMasks text = byteMasks other ↔ text.toUpper = other.toUpper := by
  have hgrammar := check_eq_ok_iff_grammatical.1 h
  have hgrammar' := check_eq_ok_iff_grammatical.1 hother
  obtain ⟨masks, hmasks⟩ := byteMasks_of_check h
  obtain ⟨others, hothers⟩ := byteMasks_of_check hother
  rw [← String.toList_inj, String.toUpper, String.toUpper, String.toList_map, String.toList_map]
  constructor
  · intro hsame
    rw [hmasks, hothers] at hsame
    cases hsame
    rw [← spell_of_byteMasksOf hgrammar hmasks, ← spell_of_byteMasksOf hgrammar' hothers]
  · intro hupper
    rw [byteMasks, byteMasks, ← byteMasksOf_map_toUpper hgrammar, hupper,
      byteMasksOf_map_toUpper hgrammar']

/-! ## Texts that are no patterns -/

/-- A character that cannot be read is told. -/
theorem eq_of_nibble_error {c : Char} {e : Text.IntegerError} (h : nibble c = .error e) :
    e = .noLiteral .sixteen (String.singleton c) := by
  unfold nibble at h
  split at h
  · cases h
  · split at h
    · cases h
    · cases h
      rfl

/-- Where a byte cannot be read, one of its characters cannot. -/
theorem exists_of_byteMask_error {high low : Char} {e : Text.IntegerError}
    (h : byteMask high low = .error e) : ∃ c ∈ [high, low], nibble c = .error e := by
  rcases bind_eq_error_iff.1 h with hhigh | ⟨n, -, hrest⟩
  · exact ⟨high, by simp, hhigh⟩
  · rcases bind_eq_error_iff.1 hrest with hlow | ⟨k, -, hpure⟩
    · exact ⟨low, by simp, hlow⟩
    · cases hpure

/-- Where masks cannot be read, one of the characters cannot. -/
theorem exists_of_byteMasksOf_error {chars : List Char} {e : Text.IntegerError}
    (h : byteMasksOf chars = .error e) : ∃ c ∈ chars, nibble c = .error e := by
  fun_induction byteMasksOf chars with
  | case1 high low c rest ih =>
    rcases bind_eq_error_iff.1 h with hfirst | ⟨m, -, hrest⟩
    · obtain ⟨d, hd, herror⟩ := exists_of_byteMask_error hfirst
      exact ⟨d, List.mem_append_left (c :: rest) hd, herror⟩
    · rcases bind_eq_error_iff.1 hrest with hmore | ⟨masks, -, hpure⟩
      · obtain ⟨d, hd, herror⟩ := ih hmore
        exact ⟨d, List.mem_append_right [high, low, c] hd, herror⟩
      · cases hpure
  | case2 high low =>
    rcases bind_eq_error_iff.1 h with hfirst | ⟨m, -, hpure⟩
    · exact exists_of_byteMask_error hfirst
    · cases hpure
  | case3 => cases h

/-! ## Texts and masks -/

/-- How texts and masks go together. -/
structure SpellMasks (text other : String) (masks : List ByteMask) : Prop where
  /-- The accepted texts are groups of two characters, joined by single spaces. -/
  accepted : check text = .ok () ↔ IsJoined text.toList
  /-- Every other text is refused for what is wrong with it. -/
  refused : ∀ e, check text = .error e ↔ Wrong text e e.message
  /-- An accepted text has masks, as many as its size says. -/
  read : check text = .ok () → ∃ found, byteMasks text = .ok found ∧ found.length = size text
  /-- Two accepted texts with the same masks are the same in upper case. -/
  same : check text = .ok () → check other = .ok () →
    (byteMasks text = byteMasks other ↔ text.toUpper = other.toUpper)
  /-- Each row of masks that count halves is that of an accepted text. -/
  spelled : masks ≠ [] → (∀ m ∈ masks, m.CountsHalves) →
    ∃ pattern, check pattern = .ok () ∧ byteMasks pattern = .ok masks
  /-- Any text has masks that count halves, or has a character that is no digit. -/
  loose : (∃ c ∈ text.toList, byteMasks text = .error (.noLiteral .sixteen (String.singleton c))) ∨
    ∃ found, byteMasks text = .ok found ∧ ∀ m ∈ found, m.CountsHalves

/-- **Texts spell masks**: the accepted ones spell all rows of masks that count halves, each in one
way up to the case of the letters, and no text spells others. -/
theorem texts_spellMasks (text other : String) (masks : List ByteMask) :
    SpellMasks text other masks where
  accepted := check_eq_ok_iff_grammatical.trans grammatical_iff_joined
  refused := fun _ => check_eq_error_iff
  read := by
    intro h
    obtain ⟨found, hfound⟩ := byteMasks_of_check h
    exact ⟨found, hfound, length_of_byteMasks hfound⟩
  same := byteMasks_eq_iff
  spelled := by
    intro hne h
    refine ⟨String.ofList (spell masks), ?_, ?_⟩
    · rw [check_eq_ok_iff_grammatical, String.toList_ofList]
      exact grammatical_spell hne h
    · rw [byteMasks, String.toList_ofList]
      exact byteMasksOf_spell h
  loose := by
    cases h : byteMasks text with
    | error e =>
      obtain ⟨c, hc, herror⟩ := exists_of_byteMasksOf_error h
      exact .inl ⟨c, hc, by rw [eq_of_nibble_error herror]⟩
    | ok found => exact .inr ⟨found, rfl, countsHalves_of_mem_byteMasksOf h⟩

/-- A digit of another script is read, but not accepted; of two characters out of place the first is
told. -/
example : byteMasks "٣?" = .ok [⟨0x30, 0xF0⟩] ∧ check "٣?" = .error (.badNibble '٣' 0 "٣?") ∧
    check "aF_?x" = .error (.noSeparator 2 "aF_?x") := by
  decide +kernel

end Pattern

end SigScan
