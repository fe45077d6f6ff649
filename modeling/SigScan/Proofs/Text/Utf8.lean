/-
# Damage stays where it is

A character in UTF-8 starts with a byte that continues no other one. Whatever bytes stand in front
of it, an open character among them ends there as a damaged place, and the character is read as it
is. It ends with the last of its bytes, so what stands behind it is read as from the start. The
characters of a text between damaged bytes are therefore those of the text, and the bytes on either
side are decoded as if they stood alone.

* `foldl_feed_continuation`: a number is read from the bytes that continue it;
* `feed_of_not_continues`: a byte that continues nothing closes an open character;
* `foldl_feed_encoded`, `foldl_feed_encode`: a character, and a text, is read between characters;
* `decode_encode_between`: a text between any bytes;
* `decode_encode`: a text by itself.
-/
import Mathlib
import SigScan.Text.Utf8

namespace SigScan.Text.Utf8

/-! ## Bytes that continue a character -/

/-- Is a byte one of those that stand behind the first byte of a character? -/
def Continues (b : Nat) : Prop := 0x80 ≤ b ∧ b ≤ 0xBF

/-- Does an open character wait for no other bytes? -/
def Pending.Sound (p : Pending) : Prop := 0x80 ≤ p.low ∧ p.high ≤ 0xBF

/-- The first byte of a character leaves it waiting for bytes that continue it. -/
theorem sound_of_first {b : Nat} {p : Pending} (h : first b = .more p) : p.Sound := by
  unfold first at h
  unfold Pending.Sound
  split_ifs at h <;> cases h <;> dsimp only <;> omega

/-- So does each byte that continues it, except the last one. -/
theorem sound_of_next {p q : Pending} {b : Nat} (h : p.next b = .more q) : q.Sound := by
  unfold Pending.next at h
  split_ifs at h
  cases h
  exact ⟨Nat.le_refl 0x80, Nat.le_refl 0xBF⟩

/-- Does a decoder wait for no other bytes than those that continue a character? -/
def Decoder.Sound (d : Decoder) : Prop := ∀ p ∈ d.pending, p.Sound

/-- A decoder between two characters waits for nothing. -/
theorem Decoder.sound_none (decoded : List Char) : Decoder.Sound ⟨none, decoded⟩ := by
  rintro p ⟨⟩

/-- Opening a character keeps the decoder sound. -/
theorem Decoder.sound_open (damage : Option Char) (decoded : List Char) (b : Nat) :
    (Decoder.open damage decoded b).Sound := by
  unfold Decoder.open
  cases h : first b with
  | done c => exact sound_none _
  | more p =>
    rintro q ⟨⟩
    exact sound_of_first h
  | refused => exact sound_none _

/-- Each byte keeps the decoder sound. -/
theorem Decoder.sound_feed (damage : Option Char) (d : Decoder) (b : UInt8) :
    (d.feed damage b).Sound := by
  obtain ⟨pending, decoded⟩ := d
  cases pending with
  | none => exact sound_open damage decoded b.toNat
  | some p =>
    unfold Decoder.feed
    dsimp only
    cases h : p.next b.toNat with
    | done c => exact sound_none _
    | more q =>
      rintro r ⟨⟩
      exact sound_of_next h
    | refused => exact sound_open damage _ b.toNat

/-- **A decoder that was fed any bytes is sound.** -/
theorem Decoder.sound_foldl_feed (damage : Option Char) (bytes : List UInt8) {d : Decoder}
    (h : d.Sound) : (bytes.foldl (Decoder.feed damage) d).Sound := by
  induction bytes generalizing d with
  | nil => exact h
  | cons b rest ih => exact ih (sound_feed damage d b)

/-! ## Damaged places -/

/-- The decoder once an open character has ended as a damaged place. -/
def Decoder.closed (damage : Option Char) (d : Decoder) : Decoder :=
  ⟨none, (d.finish damage).reverse⟩

/-- A decoder between two characters has nothing to close. -/
theorem Decoder.closed_none (damage : Option Char) (decoded : List Char) :
    Decoder.closed damage ⟨none, decoded⟩ = ⟨none, decoded⟩ := by
  rw [closed, finish, List.reverse_reverse]

/-- **A byte that continues nothing closes an open character**, and is read as from the start. -/
theorem Decoder.feed_of_not_continues (damage : Option Char) {d : Decoder} (hd : d.Sound)
    {b : UInt8} (hb : ¬Continues b.toNat) : d.feed damage b = (d.closed damage).feed damage b := by
  obtain ⟨pending, decoded⟩ := d
  cases pending with
  | none => rw [closed_none]
  | some p =>
    have hrefused : p.next b.toNat = .refused := by
      obtain ⟨hlow, hhigh⟩ := hd p rfl
      apply if_neg
      rintro ⟨hle, hge⟩
      exact hb ⟨Nat.le_trans hlow hle, Nat.le_trans hge hhigh⟩
    rw [closed, finish, List.reverse_reverse]
    simp only [feed, hrefused]

/-- What was decoded before stands in front of the rest. -/
theorem Decoder.finish_after (damage : Option Char) (d : Decoder) (earlier : List Char) :
    (d.after earlier).finish damage = earlier.reverse ++ d.finish damage := by
  obtain ⟨pending, decoded⟩ := d
  cases pending <;> simp [finish, after]

/-- Between two characters, the rest of the bytes is decoded as from the start. -/
theorem Decoder.finish_foldl_feed (damage : Option Char) (decoded : List Char)
    (bytes : List UInt8) :
    (bytes.foldl (Decoder.feed damage) ⟨none, decoded⟩).finish damage =
      decoded.reverse ++ decode damage bytes := by
  have hstart : (⟨none, decoded⟩ : Decoder) = start.after decoded := rfl
  rw [hstart, foldl_feed_after, finish_after, decode]

/-! ## Characters -/

/-- The last `k` bytes that continue the character with a code point: six bits in each. -/
def continuation : Nat → Nat → List UInt8
  | 0, _ => []
  | k + 1, v => UInt8.ofNat (v / 64 ^ k % 64 + 128) :: continuation k v

/-- Six bits fit the byte that continues a character. -/
theorem toNat_continuation (n : Nat) : (UInt8.ofNat (n % 64 + 128)).toNat = n % 64 + 128 := by
  have hbyte : n % 64 + 128 < 256 := by omega
  exact UInt8.toNat_ofNat_of_lt' hbyte

/-- **The bits of a number are read from the bytes that continue it**: where `k + 1` bytes are owed,
and the first one may come next, the number is put together behind the bits there are. -/
theorem Decoder.foldl_feed_continuation (damage : Option Char) (decoded : List Char) (v k : Nat)
    (p : Pending) (howed : p.owed = k + 1) (hlow : p.low ≤ v / 64 ^ k % 64 + 128)
    (hhigh : v / 64 ^ k % 64 + 128 ≤ p.high) :
    (continuation (k + 1) v).foldl (Decoder.feed damage) ⟨some p, decoded⟩ =
      ⟨none, Char.ofNat (p.bits * 64 ^ (k + 1) + v % 64 ^ (k + 1)) :: decoded⟩ := by
  induction k generalizing p with
  | zero =>
    have hnext : p.next (v / 64 ^ 0 % 64 + 128) = .done (Char.ofNat (p.bits * 64 + v % 64)) := by
      rw [Pending.next, if_pos ⟨hlow, hhigh⟩, if_pos (by omega), Nat.add_sub_cancel, Nat.pow_zero,
        Nat.div_one]
    simp only [continuation, List.foldl_cons, List.foldl_nil, feed, toNat_continuation, hnext]
    rfl
  | succ k ih =>
    have hnext : p.next (v / 64 ^ (k + 1) % 64 + 128) =
        .more ⟨k + 1, 0x80, 0xBF, p.bits * 64 + v / 64 ^ (k + 1) % 64⟩ := by
      rw [Pending.next, if_pos ⟨hlow, hhigh⟩, if_neg (by omega), Nat.add_sub_cancel, howed,
        Nat.add_sub_cancel]
    have hmore := ih ⟨k + 1, 0x80, 0xBF, p.bits * 64 + v / 64 ^ (k + 1) % 64⟩ rfl
      (Nat.le_add_left _ _) (by dsimp only; omega)
    rw [continuation, List.foldl_cons]
    simp only [feed, toNat_continuation, hnext, hmore]
    rw [Nat.mod_pow_succ (k := k + 1)]
    congr 3
    ring

/-- **A character is read from its first byte and those that continue it**, if they tell its code
point together. -/
theorem Decoder.foldl_feed_lead (damage : Option Char) (decoded : List Char) {n v k : Nat}
    {p : Pending} (hn : n < 256) (hfirst : first n = .more p) (howed : p.owed = k + 1)
    (hlow : p.low ≤ v / 64 ^ k % 64 + 128) (hhigh : v / 64 ^ k % 64 + 128 ≤ p.high)
    (hbits : p.bits * 64 ^ (k + 1) + v % 64 ^ (k + 1) = v) :
    (UInt8.ofNat n :: continuation (k + 1) v).foldl (Decoder.feed damage) ⟨none, decoded⟩ =
      ⟨none, Char.ofNat v :: decoded⟩ := by
  have hopen : Decoder.feed damage ⟨none, decoded⟩ (UInt8.ofNat n) = ⟨some p, decoded⟩ := by
    simp only [feed, Decoder.open, UInt8.toNat_ofNat_of_lt' hn, hfirst]
  rw [List.foldl_cons, hopen, foldl_feed_continuation damage decoded v k p howed hlow hhigh, hbits]

/-- The bytes of a character: one of ASCII, or a first one and those that continue it. -/
theorem utf8EncodeChar_eq (c : Char) :
    String.utf8EncodeChar c =
      if c.toNat ≤ 0x7F then [UInt8.ofNat c.toNat]
      else if c.toNat ≤ 0x7FF then UInt8.ofNat (c.toNat / 64 % 32 + 192) :: continuation 1 c.toNat
      else if c.toNat ≤ 0xFFFF then
        UInt8.ofNat (c.toNat / 4096 % 16 + 224) :: continuation 2 c.toNat
      else UInt8.ofNat (c.toNat / 262144 % 8 + 240) :: continuation 3 c.toNat := by
  simp [String.utf8EncodeChar, continuation]

/-- The first byte of two. -/
theorem first_two {n : Nat} (h : n < 32) (h' : 2 ≤ n) :
    first (n + 192) = .more ⟨1, 0x80, 0xBF, n⟩ := by
  rw [first, if_neg (by omega), if_neg (by omega), if_pos (by omega), Nat.add_sub_cancel]

/-- The first byte of three. -/
theorem first_three {n : Nat} (h : n < 16) :
    first (n + 224) =
      .more ⟨2, if n = 0 then 0xA0 else 0x80, if n = 13 then 0x9F else 0xBF, n⟩ := by
  have hleast : n + 224 = 0xE0 ↔ n = 0 := by omega
  have hsurrogate : n + 224 = 0xED ↔ n = 13 := by omega
  rw [first, if_neg (by omega), if_neg (by omega), if_neg (by omega), if_pos (by omega),
    Nat.add_sub_cancel]
  simp only [hleast, hsurrogate]

/-- The first byte of four. -/
theorem first_four {n : Nat} (h : n < 5) :
    first (n + 240) =
      .more ⟨3, if n = 0 then 0x90 else 0x80, if n = 4 then 0x8F else 0xBF, n⟩ := by
  have hleast : n + 240 = 0xF0 ↔ n = 0 := by omega
  have hgreatest : n + 240 = 0xF4 ↔ n = 4 := by omega
  rw [first, if_neg (by omega), if_neg (by omega), if_neg (by omega), if_neg (by omega),
    if_pos (by omega), Nat.add_sub_cancel]
  simp only [hleast, hgreatest]

/-- **A character is read wherever it stands between characters.** -/
theorem Decoder.foldl_feed_encoded (damage : Option Char) (decoded : List Char) (c : Char) :
    (String.utf8EncodeChar c).foldl (Decoder.feed damage) ⟨none, decoded⟩ =
      ⟨none, c :: decoded⟩ := by
  have hvalid : c.toNat < 0xD800 ∨ 0xDFFF < c.toNat ∧ c.toNat < 0x110000 := c.valid
  have hchar : Char.ofNat c.toNat = c := Char.ofNat_toNat c
  rw [utf8EncodeChar_eq]
  generalize c.toNat = v at hvalid hchar ⊢
  subst hchar
  split_ifs with hone htwo hthree
  · have hfirst : first v = .done (Char.ofNat v) := if_pos (by omega)
    have hbyte : v < 256 := by omega
    simp only [List.foldl_cons, List.foldl_nil, feed, Decoder.open,
      UInt8.toNat_ofNat_of_lt' hbyte, hfirst]
  · have hfirst := first_two (n := v / 64 % 32) (by omega) (by omega)
    refine foldl_feed_lead damage decoded (by omega) hfirst rfl ?_ ?_ ?_ <;> dsimp only <;> omega
  · -- the second byte keeps out code points that fit two bytes, and surrogates
    have hfirst := first_three (n := v / 4096 % 16) (by omega)
    refine foldl_feed_lead damage decoded (by omega) hfirst rfl ?_ ?_ ?_ <;> dsimp only
    · split_ifs <;> omega
    · split_ifs <;> omega
    · omega
  · -- the second byte keeps out code points that fit three bytes, and those that are too great
    have hfirst := first_four (n := v / 262144 % 8) (by omega)
    refine foldl_feed_lead damage decoded (by omega) hfirst rfl ?_ ?_ ?_ <;> dsimp only
    · split_ifs <;> omega
    · split_ifs <;> omega
    · omega

/-- **A character starts with a byte that continues no other one.** -/
theorem exists_lead (c : Char) :
    ∃ b rest, String.utf8EncodeChar c = b :: rest ∧ ¬Continues b.toNat := by
  have hlead : ∀ {n : Nat}, n < 0x80 ∨ 0xC0 ≤ n ∧ n < 256 → ¬Continues (UInt8.ofNat n).toNat := by
    intro n hn
    rw [UInt8.toNat_ofNat', Continues]
    omega
  rw [utf8EncodeChar_eq]
  split_ifs
  · exact ⟨_, _, rfl, hlead (by omega)⟩
  · exact ⟨_, _, rfl, hlead (by omega)⟩
  · exact ⟨_, _, rfl, hlead (by omega)⟩
  · exact ⟨_, _, rfl, hlead (by omega)⟩

/-! ## Texts -/

/-- The bytes of a text. -/
def encode (text : List Char) : List UInt8 := text.flatMap String.utf8EncodeChar

/-- They are those of the text as a string. -/
theorem toUTF8_eq_encode (s : String) : s.toUTF8.data.toList = encode s.toList := by
  conv_lhs => rw [← String.ofList_toList (s := s)]
  rw [String.toUTF8_eq_toByteArray, String.toByteArray_ofList, List.utf8Encode,
    List.data_toByteArray, encode]

/-- A text is read wherever it stands between characters. -/
theorem Decoder.foldl_feed_encode (damage : Option Char) (decoded text : List Char) :
    (encode text).foldl (Decoder.feed damage) ⟨none, decoded⟩ =
      ⟨none, text.reverse ++ decoded⟩ := by
  induction text generalizing decoded with
  | nil => rfl
  | cons c rest ih =>
    rw [encode, List.flatMap_cons, List.foldl_append, foldl_feed_encoded, ← encode, ih,
      List.reverse_cons, List.append_assoc]
    rfl

/-- **A text is read behind any bytes**: an open character in front of it ends as a damaged
place. -/
theorem Decoder.foldl_feed_encode_of_sound (damage : Option Char) {d : Decoder} (hd : d.Sound)
    {text : List Char} (h : text ≠ []) :
    (encode text).foldl (Decoder.feed damage) d =
      ⟨none, text.reverse ++ (d.finish damage).reverse⟩ := by
  have hclosed : (encode text).foldl (Decoder.feed damage) d =
      (encode text).foldl (Decoder.feed damage) (d.closed damage) := by
    obtain ⟨c, rest, rfl⟩ := List.exists_cons_of_ne_nil h
    obtain ⟨b, bytes, hbytes, hb⟩ := exists_lead c
    rw [encode, List.flatMap_cons, hbytes, List.cons_append, List.foldl_cons, List.foldl_cons,
      feed_of_not_continues damage hd hb]
  rw [hclosed, closed, foldl_feed_encode]

/-- **A text between any bytes is read as it is**, and the bytes on either side as if they stood
alone. -/
theorem decode_encode_between (damage : Option Char) (front behind : List UInt8) {text : List Char}
    (h : text ≠ []) :
    decode damage (front ++ encode text ++ behind) =
      decode damage front ++ text ++ decode damage behind := by
  have hsound : (front.foldl (Decoder.feed damage) Decoder.start).Sound :=
    Decoder.sound_foldl_feed damage front (Decoder.sound_none [])
  rw [decode, List.foldl_append, List.foldl_append,
    Decoder.foldl_feed_encode_of_sound damage hsound h, Decoder.finish_foldl_feed,
    List.reverse_append, List.reverse_reverse, List.reverse_reverse]
  rfl

/-- A text by itself is read as it is. -/
theorem decode_encode (damage : Option Char) (text : List Char) :
    decode damage (encode text) = text := by
  rw [decode, Decoder.start, Decoder.foldl_feed_encode, Decoder.finish, List.append_nil,
    List.reverse_reverse]

/-- An open character ends where the next one starts, whether that one is damaged or not. -/
example : decode none [0xE2, 0x82, 0x41, 0xED, 0xA0, 0x80, 0xC3, 0xA9, 0xF0] = ['A', 'é'] := by
  decide +kernel

end SigScan.Text.Utf8
