/-
# Why a text is no pattern

The check of a text accepts groups of two characters with a space between two groups, each character
a hexadecimal digit or the wildcard. Every other text is refused, and the reason is the first of
these that applies: there is no character at all; the number of characters does not fit; a character
is out of place, and then the reason tells the first one that is.

The first character out of place is where the text stops being the start of a pattern: the characters
in front of it can be completed to one, and together with it they cannot (`BreaksAt`).

* `grammatical_iff_joined`: the grammar, group by group;
* `extends_iff`: the starts of patterns have no character out of place;
* `check_eq_error_iff`: which texts are refused, and with which reason.
-/
import SigScan.Proofs.Pattern.Grammar

namespace SigScan.Pattern

/-! ## Groups -/

/-- Are the characters those of one group or more, joined by single spaces? -/
def IsJoined (chars : List Char) : Prop :=
  ∃ groups : List (Char × Char), groups ≠ [] ∧
    (∀ g ∈ groups, isNibble g.1 = true ∧ isNibble g.2 = true) ∧
      chars = [' '].intercalate (groups.map fun g => [g.1, g.2])

/-- **The grammar, group by group.** -/
theorem grammatical_iff_joined {chars : List Char} : Grammatical chars ↔ IsJoined chars := by
  constructor
  · intro h
    induction h with
    | @last high low hhigh hlow =>
      refine ⟨[(high, low)], List.cons_ne_nil _ _, ?_, rfl⟩
      intro g hg
      rw [List.mem_singleton] at hg
      subst hg
      exact ⟨hhigh, hlow⟩
    | @next high low rest hhigh hlow hrest ih =>
      obtain ⟨groups, hne, hgroups, rfl⟩ := ih
      refine ⟨(high, low) :: groups, List.cons_ne_nil _ _, ?_, ?_⟩
      · exact List.forall_mem_cons.2 ⟨⟨hhigh, hlow⟩, hgroups⟩
      · rw [List.map_cons, List.intercalate_cons_of_ne_nil (by simpa using hne)]
        rfl
  · rintro ⟨groups, hne, hgroups, rfl⟩
    induction groups with
    | nil => exact absurd rfl hne
    | cons g groups ih =>
      obtain ⟨⟨hhigh, hlow⟩, hrest⟩ := List.forall_mem_cons.1 hgroups
      cases groups with
      | nil => exact .last hhigh hlow
      | cons g' groups =>
        rw [List.map_cons, List.intercalate_cons_of_ne_nil (by simp)]
        exact .next hhigh hlow (ih (List.cons_ne_nil _ _) hrest)

/-! ## Starts of patterns -/

/-- Can the characters be completed to a pattern? -/
def Extends (chars : List Char) : Prop := ∃ rest, Grammatical (chars ++ rest)

/-- The position at which the characters stop being the start of a pattern. -/
def BreaksAt (chars : List Char) (i : Nat) : Prop :=
  Extends (chars.take i) ∧ ¬Extends (chars.take (i + 1))

/-- In joined texts no character is out of place where none is in either of them. -/
theorem firstMisfit?_append_eq_none {index : Nat} {front behind : List Char} :
    firstMisfit? index (front ++ behind) = none ↔
      firstMisfit? index front = none ∧ firstMisfit? (index + front.length) behind = none := by
  induction front generalizing index with
  | nil => simp [firstMisfit?]
  | cons c front ih =>
    rw [List.cons_append, firstMisfit?_cons_eq_none, firstMisfit?_cons_eq_none, ih, and_assoc,
      List.length_cons, Nat.add_assoc, Nat.add_comm 1]

/-- **Wildcards complete any start**: they fill the last group, or are one where the text ends behind a
space. -/
theorem exists_completion (index : Nat) :
    ∃ rest, (index + rest.length + 1) % 3 = 0 ∧ firstMisfit? index rest = none := by
  have hfits : ∀ {i : Nat}, i % 3 ≠ 2 → fits i wildcard = true := by
    intro i hi
    rw [fits_of_ne hi]
    rfl
  have hcases : index % 3 = 0 ∨ index % 3 = 1 ∨ index % 3 = 2 := by omega
  rcases hcases with hmod | hmod | hmod
  · refine ⟨[wildcard, wildcard], by simp; omega, ?_⟩
    rw [firstMisfit?_cons_eq_none, firstMisfit?_cons_eq_none]
    exact ⟨hfits (by omega), hfits (by omega), rfl⟩
  · refine ⟨[wildcard], by simp; omega, ?_⟩
    rw [firstMisfit?_cons_eq_none]
    exact ⟨hfits (by omega), rfl⟩
  · exact ⟨[], by simp; omega, rfl⟩

/-- **The starts of patterns have no character out of place**, and no other texts. -/
theorem extends_iff {chars : List Char} : Extends chars ↔ firstMisfit? 0 chars = none := by
  constructor
  · rintro ⟨rest, h⟩
    exact (firstMisfit?_append_eq_none.1 (h.firstMisfit?_eq_none (Nat.zero_mod 3))).1
  · intro h
    obtain ⟨rest, hlength, hrest⟩ := exists_completion chars.length
    refine ⟨rest, grammatical_of_firstMisfit? (Nat.zero_mod 3) ?_ ?_⟩
    · rwa [List.length_append]
    · rw [firstMisfit?_append_eq_none, Nat.zero_add]
      exact ⟨h, hrest⟩

/-- The first character that is out of place, with the characters in front of it. -/
theorem firstMisfit?_eq_some_iff {index i : Nat} {chars : List Char} {c : Char} :
    firstMisfit? index chars = some (i, c) ↔ ∃ front behind, chars = front ++ c :: behind ∧
      i = index + front.length ∧ firstMisfit? index front = none ∧ fits i c = false := by
  induction chars generalizing index with
  | nil => simp [firstMisfit?]
  | cons d chars ih =>
    rw [firstMisfit?]
    constructor
    · intro h
      split at h
      · next hfits =>
        obtain ⟨front, behind, rfl, rfl, hfront, hc⟩ := ih.1 h
        refine ⟨d :: front, behind, rfl, by rw [List.length_cons]; omega, ?_, hc⟩
        exact firstMisfit?_cons_eq_none.2 ⟨hfits, hfront⟩
      · next hfits =>
        cases h
        exact ⟨[], chars, rfl, rfl, rfl, Bool.not_eq_true _ ▸ hfits⟩
    · rintro ⟨front, behind, hchars, hi, hfront, hc⟩
      cases front with
      | nil =>
        cases hchars
        rw [hi, List.length_nil, Nat.add_zero] at hc
        rw [hc, hi]
        rfl
      | cons e front =>
        cases hchars
        obtain ⟨hfits, hrest⟩ := firstMisfit?_cons_eq_none.1 hfront
        rw [if_pos hfits, ih]
        exact ⟨front, behind, rfl, by rw [hi, List.length_cons]; omega, hrest, hc⟩

/-- **Where a text stops being the start of a pattern** is its first character out of place. -/
theorem breaksAt_iff {chars : List Char} {i : Nat} :
    BreaksAt chars i ↔ ∃ c, firstMisfit? 0 chars = some (i, c) := by
  rw [BreaksAt, extends_iff, extends_iff]
  constructor
  · rintro ⟨hfront, hbreak⟩
    have hi : i < chars.length := by
      by_contra hge
      rw [List.take_of_length_le (by omega)] at hfront hbreak
      exact hbreak hfront
    refine ⟨chars[i], firstMisfit?_eq_some_iff.2 ⟨chars.take i, chars.drop (i + 1), ?_, ?_, hfront, ?_⟩⟩
    · rw [← List.drop_eq_getElem_cons hi, List.take_append_drop]
    · rw [List.length_take]
      omega
    · rw [List.take_succ_eq_append_getElem hi, firstMisfit?_append_eq_none, List.length_take,
        Nat.min_eq_left (by omega), firstMisfit?_cons_eq_none, Nat.zero_add] at hbreak
      rw [← Bool.not_eq_true]
      exact fun hfits => hbreak ⟨hfront, hfits, rfl⟩
  · rintro ⟨c, h⟩
    obtain ⟨front, behind, rfl, rfl, hfront, hc⟩ := firstMisfit?_eq_some_iff.1 h
    rw [Nat.zero_add] at hc ⊢
    have htake : (front ++ c :: behind).take (front.length + 1) = front ++ [c] := by
      rw [List.take_length_add_append]
      rfl
    rw [List.take_left, htake, firstMisfit?_append_eq_none, firstMisfit?_cons_eq_none, Nat.zero_add,
      hc]
    exact ⟨hfront, fun h => Bool.false_ne_true h.2.1⟩

/-! ## Reasons -/

/-- What is wrong with a text that is no pattern, and the message for it. -/
inductive Wrong (text : String) : PatternError → String → Prop
  /-- There is no character. -/
  | empty (h : text = "") : Wrong text .empty "empty pattern"
  /-- The number of characters is that of no number of groups with a space between two. -/
  | badLength (hne : text ≠ "") (h : ∀ n, text.length + 1 ≠ 3 * n) :
      Wrong text (.badLength text) s!"bad pattern length {text.length}: {Text.quoted text}"
  /-- The first character out of place stands between two groups. -/
  | noSeparator {n i : Nat} (hlength : text.length + 1 = 3 * n) (hbreak : BreaksAt text.toList i)
      (hi : i % 3 = 2) :
      Wrong text (.noSeparator i text) s!"expected separator at {i}: {Text.quoted text}"
  /-- The first character out of place stands in a group. -/
  | badNibble {n i : Nat} {c : Char} (hlength : text.length + 1 = 3 * n)
      (hbreak : BreaksAt text.toList i) (hi : i % 3 ≠ 2) (hc : text.toList[i]? = some c) :
      Wrong text (.badNibble c i text)
        s!"bad nibble {Text.quoted (String.singleton c)} at {i}: {Text.quoted text}"

/-- The character at the position that is told. -/
theorem getElem?_of_firstMisfit? {chars : List Char} {i : Nat} {c : Char}
    (h : firstMisfit? 0 chars = some (i, c)) : chars[i]? = some c := by
  obtain ⟨front, behind, rfl, rfl, -, -⟩ := firstMisfit?_eq_some_iff.1 h
  rw [Nat.zero_add, List.getElem?_append_right (Nat.le_refl _), Nat.sub_self]
  rfl

/-- A text that is refused is wrong in the way that is told. -/
theorem wrong_of_check {text : String} {e : PatternError} (h : check text = .error e) :
    Wrong text e e.message := by
  unfold check at h
  split at h
  · next hlength =>
    cases h
    exact .empty (String.length_eq_zero_iff.1 hlength)
  · next hlength =>
    have hne : text ≠ "" := fun hnil => hlength (String.length_eq_zero_iff.2 hnil)
    split at h
    · next hmod =>
      cases h
      exact .badLength hne fun n => by omega
    · next hmod =>
      have hgroups : text.length + 1 = 3 * ((text.length + 1) / 3) := by omega
      split at h
      · next i c hmisfit =>
        cases h
        have hbreak := breaksAt_iff.2 ⟨c, hmisfit⟩
        rw [misfit]
        split
        · next hi => exact .noSeparator hgroups hbreak hi
        · next hi => exact .badNibble hgroups hbreak hi (getElem?_of_firstMisfit? hmisfit)
      · cases h

/-- A text with a first character out of place is refused for it. -/
theorem check_of_breaksAt {text : String} {n i : Nat} (hlength : text.length + 1 = 3 * n)
    (hbreak : BreaksAt text.toList i) :
    ∃ c, text.toList[i]? = some c ∧ check text = .error (misfit text i c) := by
  obtain ⟨c, hmisfit⟩ := breaksAt_iff.1 hbreak
  refine ⟨c, getElem?_of_firstMisfit? hmisfit, ?_⟩
  rw [check, if_neg (by omega), if_neg (by omega), hmisfit]

/-- **Which texts are refused, and with which reason and message.** -/
theorem check_eq_error_iff {text : String} {e : PatternError} :
    check text = .error e ↔ Wrong text e e.message := by
  constructor
  · exact wrong_of_check
  · intro h
    cases h with
    | empty h => rw [check, h]; rfl
    | badLength hne h =>
      have hsome : text.length ≠ 0 := fun hnil => hne (String.length_eq_zero_iff.1 hnil)
      have hmod : (text.length + 1) % 3 ≠ 0 := fun hdvd => h ((text.length + 1) / 3) (by omega)
      rw [check, if_neg hsome, if_pos hmod]
    | noSeparator hlength hbreak hi =>
      obtain ⟨c, -, hcheck⟩ := check_of_breaksAt hlength hbreak
      rw [hcheck, misfit, if_pos hi]
    | badNibble hlength hbreak hi hc =>
      obtain ⟨d, hd, hcheck⟩ := check_of_breaksAt hlength hbreak
      rw [hc] at hd
      cases hd
      rw [hcheck, misfit, if_neg hi]

end SigScan.Pattern
