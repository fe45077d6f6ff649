/-
# JSON documents read back

Every document is read back from its text, `read?_render`: so no two documents have the same text.
A value is read back in front of anything but a digit, which a number would go on with; and what
stands behind a value in a document is a comma, a bracket, a new line or nothing.

The argument is one for lists and records, `blockEnd?_block`: items that are read back one by one
are read back between their brackets. Values are nested, so the induction is on their items.

* `Json.induct`: the induction on a value and its items;
* `value?_chars`: a value is read back;
* `isPlainText_render`: the text of a document has only line feeds and printable ASCII characters.
-/
import SigScan.Proofs.Text.JsonReader

namespace SigScan.Text.Json

/-! ## Values and their items -/

/-- What holds of a value when it holds of its items holds of every value. -/
theorem induct {P : Json → Prop} (null : P .null) (integer : ∀ n, P (.integer n))
    (text : ∀ s, P (.text s)) (list : ∀ items : List Json, (∀ v ∈ items, P v) → P (.list items))
    (record : ∀ fields : List (String × Json), (∀ f ∈ fields, P f.2) → P (.record fields)) :
    ∀ v, P v
  | .null => null
  | .integer n => integer n
  | .text s => text s
  | .list items => list items fun v _ => induct null integer text list record v
  | .record fields => record fields fun f hf =>
    have : sizeOf f.2 < sizeOf fields := by
      have hmem := List.sizeOf_lt_of_mem hf
      have hpart : sizeOf f = 1 + sizeOf f.1 + sizeOf f.2 := rfl
      omega
    induct null integer text list record f.2

/-- The line of a field. -/
def fieldChars (level : Nat) (f : String × Json) : List Char :=
  stringChars f.1 ++ ':' :: ' ' :: chars level f.2

/-- Each item of a list has its line. -/
theorem itemLines_eq (level : Nat) (items : List Json) :
    itemLines level items = items.map (chars level) := by
  induction items with
  | nil => rfl
  | cons v rest ih => rw [itemLines, ih, List.map_cons]

/-- Each field of a record has its line. -/
theorem fieldLines_eq (level : Nat) (fields : List (String × Json)) :
    fieldLines level fields = fields.map (fieldChars level) := by
  induction fields with
  | nil => rfl
  | cons f rest ih => rw [fieldLines, ih, List.map_cons, fieldChars]

/-! ## Blanks and brackets -/

/-- The blanks of a new line are skipped. -/
theorem skipBlanks_newLine (level : Nat) (input : List Char) :
    skipBlanks (newLine level ++ input) = skipBlanks input := by
  have hblank : ∀ c ∈ newLine level, isBlank c = true := by
    intro c hc
    rcases List.mem_cons.1 hc with rfl | hspace
    · rfl
    · rw [List.eq_of_mem_replicate hspace]
      rfl
  exact List.dropWhile_append_of_pos hblank

/-- Nothing is skipped in front of another character. -/
theorem skipBlanks_cons {c : Char} (hc : isBlank c = false) (rest : List Char) :
    skipBlanks (c :: rest) = c :: rest := by
  apply List.dropWhile_cons_of_neg
  rw [hc]
  exact Bool.false_ne_true

/-- The text starts with a character that is neither a blank nor the closing bracket. -/
def Starts (closing : Char) (input : List Char) : Prop :=
  ∃ c rest, input = c :: rest ∧ isBlank c = false ∧ c ≠ closing

/-- Text with such a start is not skipped. -/
theorem Starts.skipBlanks_append {closing : Char} {input : List Char} (h : Starts closing input)
    (rest : List Char) : skipBlanks (input ++ rest) = input ++ rest := by
  obtain ⟨c, more, rfl, hc, -⟩ := h
  exact skipBlanks_cons hc (more ++ rest)

/-- A block starts with its opening bracket. -/
theorem block_cons (opening closing : Char) (level : Nat) (lines : List (List Char)) :
    ∃ more, block opening closing level lines = opening :: more := by
  cases lines <;> exact ⟨_, rfl⟩

/-- A line is shorter than the block that it stands in. -/
theorem length_lt_block {opening closing : Char} {level : Nat} {lines : List (List Char)}
    {line : List Char} (h : line ∈ lines) :
    line.length < (block opening closing level lines).length := by
  cases lines with
  | nil => cases h
  | cons first rest =>
    simp only [block, List.length_append, List.length_cons, List.length_nil]
    rcases List.mem_cons.1 h with rfl | hrest
    · omega
    · have hpart : line.length ≤
          (rest.flatMap fun l => ',' :: newLine (level + 1) ++ l).length := by
        obtain ⟨front, back, rfl⟩ := List.append_of_mem hrest
        simp only [List.flatMap_append, List.flatMap_cons, List.length_append, List.length_cons]
        omega
      omega

/-! ## Lists of items -/

section Items

variable {α : Type} {closing : Char} {item? : Reader α} {write : α → List Char}

/-- An item is read back in front of anything but a digit. -/
def ReadsBack (item? : Reader α) (write : α → List Char) (a : α) : Prop :=
  ∀ rest, NoDigit rest → item? (write a ++ rest) = some (a, rest)

/-- Items on lines of their own are read back up to the closing bracket. -/
theorem items?_lines (hblank : isBlank closing = false) (hcomma : closing ≠ ',') (level below : Nat)
    (rest : List Char) (l : List α) {a : α} {count : Nat} (hcount : l.length < count)
    (hitems : ∀ b ∈ a :: l, ReadsBack item? write b ∧ Starts closing (write b)) :
    items? closing item? count (newLine level ++ (write a ++
      (l.flatMap (fun b => ',' :: newLine level ++ write b) ++
        (newLine below ++ closing :: rest)))) = some (a :: l, rest) := by
  induction l generalizing a count with
  | nil =>
    obtain ⟨count, rfl⟩ : ∃ n, count = n + 1 := ⟨count - 1, by simp at hcount; omega⟩
    obtain ⟨hread, hstart⟩ := hitems a List.mem_cons_self
    have hdigit : NoDigit (newLine below ++ closing :: rest) := by
      rintro c ⟨⟩
      rfl
    rw [List.flatMap_nil, List.nil_append, items?, skipBlanks_newLine, hstart.skipBlanks_append,
      hread _ hdigit]
    simp only [Option.bind_eq_bind, Option.bind_some, skipBlanks_newLine, skipBlanks_cons hblank,
      if_true, Option.pure_def]
  | cons b l ih =>
    obtain ⟨count, rfl⟩ : ∃ n, count = n + 1 := ⟨count - 1, by simp at hcount; omega⟩
    obtain ⟨hread, hstart⟩ := hitems a List.mem_cons_self
    have hothers := ih (Nat.lt_of_succ_lt_succ hcount) fun c hc =>
      hitems c (List.mem_cons_of_mem a hc)
    have hshape : (b :: l).flatMap (fun b => ',' :: newLine level ++ write b) ++
        (newLine below ++ closing :: rest) = ',' :: (newLine level ++ (write b ++
          (l.flatMap (fun b => ',' :: newLine level ++ write b) ++
            (newLine below ++ closing :: rest)))) := by
      simp only [List.flatMap_cons, List.cons_append, List.append_assoc]
    have hdigit : ∀ more, NoDigit (',' :: more) := by
      rintro more c ⟨⟩
      rfl
    rw [hshape, items?, skipBlanks_newLine, hstart.skipBlanks_append, hread _ (hdigit _)]
    simp only [Option.bind_eq_bind, Option.bind_some,
      skipBlanks_cons (show isBlank ',' = false from rfl), if_neg hcomma.symm, if_true, hothers,
      Option.pure_def]

/-- **Items are read back between their brackets.** -/
theorem blockEnd?_block (opening : Char) (hblank : isBlank closing = false)
    (hcomma : closing ≠ ',') (level : Nat) (l : List α) (rest : List Char)
    (hitems : ∀ a ∈ l, ReadsBack item? write a ∧ Starts closing (write a)) :
    ∃ input, block opening closing level (l.map write) ++ rest = opening :: input ∧
      blockEnd? closing item? input = some (l, rest) := by
  cases l with
  | nil =>
    refine ⟨closing :: rest, rfl, ?_⟩
    rw [blockEnd?, skipBlanks_cons hblank, if_pos List.head?_cons, List.tail_cons]
  | cons a l =>
    refine ⟨newLine (level + 1) ++ (write a ++
      (l.flatMap (fun b => ',' :: newLine (level + 1) ++ write b) ++
        (newLine level ++ closing :: rest))), ?_, ?_⟩
    · simp only [List.map_cons, block, List.flatMap_map, List.cons_append, List.append_assoc,
        List.nil_append]
    · obtain ⟨c, more, hwrite, hc, hother⟩ := (hitems a List.mem_cons_self).2
      have hopen : ∀ more', (skipBlanks (newLine (level + 1) ++ (write a ++ more'))).head? ≠
          some closing := by
        intro more'
        rw [skipBlanks_newLine, hwrite, List.cons_append, skipBlanks_cons hc]
        exact fun h => hother (Option.some.inj h)
      rw [blockEnd?, if_neg (hopen _)]
      apply items?_lines hblank hcomma (level + 1) level rest l _ hitems
      have hlen : l.length ≤ (l.flatMap fun b => ',' :: newLine (level + 1) ++ write b).length :=
        length_le_length_flatMap fun b _ => List.cons_ne_nil _ _
      simp only [List.length_append, List.length_cons]
      omega

end Items

/-! ## Values -/

/-- The text of an integer starts with its sign or with a digit. -/
theorem toString_cons (n : Int) :
    ∃ c more, (toString n).toList = c :: more ∧ (c = '-' ∨ c.isDigit = true) := by
  rw [toList_toString]
  split
  · obtain ⟨c, more, hdigits⟩ := List.exists_cons_of_ne_nil (@Nat.toDigits_ne_nil n.toNat 10)
    refine ⟨c, more, hdigits, .inr ?_⟩
    apply Nat.isDigit_of_mem_toDigits (b := 10) (n := n.toNat) (by decide) (by decide)
    rw [hdigits]
    exact List.mem_cons_self
  · exact ⟨'-', _, rfl, .inl rfl⟩

/-- A character that numbers start with is none that other parts of a document start with. -/
theorem ne_of_number {c d : Char} (hc : c = '-' ∨ c.isDigit = true)
    (hd : d ≠ '-' ∧ d.isDigit = false) : c ≠ d := by
  rintro rfl
  rcases hc with rfl | hdigit
  · exact hd.1 rfl
  · rw [hd.2] at hdigit
    cases hdigit

/-- The text of a value starts with no blank and with no closing bracket. -/
theorem starts_chars (level : Nat) (v : Json) {closing : Char}
    (hclosing : closing = ']' ∨ closing = '\x7d') : Starts closing (chars level v) := by
  have hother : ∀ c, c ≠ ']' → c ≠ '\x7d' → c ≠ closing := by
    rintro c hlist hrecord rfl
    rcases hclosing with h | h
    · exact hlist h
    · exact hrecord h
  cases v with
  | null => exact ⟨'n', _, rfl, rfl, hother _ (by decide) (by decide)⟩
  | integer n =>
    obtain ⟨c, more, htext, hc⟩ := toString_cons n
    have hblank : isBlank c = false := by
      have hne : ∀ d, d ≠ '-' ∧ d.isDigit = false → c ≠ d := fun d => ne_of_number hc
      simp [isBlank, hne ' ' (by decide), hne '\t' (by decide), hne '\n' (by decide),
        hne '\r' (by decide)]
    exact ⟨c, more, htext, hblank, hother c (ne_of_number hc (by decide))
      (ne_of_number hc (by decide))⟩
  | text s => exact ⟨doubleQuote, _, rfl, rfl, hother _ (by decide) (by decide)⟩
  | list items =>
    obtain ⟨more, hmore⟩ := block_cons '[' ']' level (itemLines (level + 1) items)
    exact ⟨'[', more, hmore, rfl, hother _ (by decide) (by decide)⟩
  | record fields =>
    obtain ⟨more, hmore⟩ := block_cons '\x7b' '\x7d' level (fieldLines (level + 1) fields)
    exact ⟨'\x7b', more, hmore, rfl, hother _ (by decide) (by decide)⟩

/-- A field is read back if its value is. -/
theorem field?_fieldChars {depth level : Nat} {f : String × Json}
    (hvalue : ReadsBack (value? depth) (chars level) f.2) :
    ReadsBack (field? (value? depth)) (fieldChars level) f := by
  intro rest hrest
  have hshape : fieldChars level f ++ rest =
      stringChars f.1 ++ ':' :: ' ' :: (chars level f.2 ++ rest) := by
    rw [fieldChars, List.append_assoc]
    rfl
  have hspace : skipBlanks (' ' :: (chars level f.2 ++ rest)) = chars level f.2 ++ rest :=
    (starts_chars level f.2 (.inl rfl)).skipBlanks_append rest
  rw [hshape, field?, string?_append]
  simp only [Option.bind_eq_bind, Option.bind_some,
    skipBlanks_cons (show isBlank ':' = false from rfl), if_true, hspace, hvalue rest hrest,
    Option.pure_def]

/-- A text that has room for a value is not empty. -/
theorem exists_succ_of_chars {level depth : Nat} {v : Json}
    (hdepth : (chars level v).length ≤ depth) : ∃ n, depth = n + 1 := by
  obtain ⟨c, more, htext, -⟩ := starts_chars level v (.inl rfl)
  rw [htext, List.length_cons] at hdepth
  exact ⟨depth - 1, by omega⟩

/-- **A value is read back** in front of anything but a digit. -/
theorem value?_chars (v : Json) (level depth : Nat) (hdepth : (chars level v).length ≤ depth) :
    ReadsBack (value? depth) (chars level) v := by
  intro rest hrest
  induction v using induct generalizing level depth rest with
  | null =>
    obtain ⟨depth, rfl⟩ := exists_succ_of_chars hdepth
    rfl
  | integer n =>
    obtain ⟨depth, rfl⟩ := exists_succ_of_chars hdepth
    obtain ⟨c, more, htext, hc⟩ := toString_cons n
    have hne : ∀ d, d ≠ '-' ∧ d.isDigit = false → c ≠ d := fun d => ne_of_number hc
    have hread := integer?_toString n hrest
    rw [chars]
    rw [htext, List.cons_append] at hread ⊢
    rw [value?, if_neg (hne _ (by decide)), if_neg (hne _ (by decide)),
      if_neg (hne _ (by decide)), if_neg (hne _ (by decide)), hread]
    rfl
  | text s =>
    obtain ⟨depth, rfl⟩ := exists_succ_of_chars hdepth
    have hread := string?_append s rest
    rw [chars]
    rw [stringChars, List.cons_append, List.cons_append] at hread ⊢
    rw [value?, if_pos rfl, hread]
    rfl
  | list items ih =>
    obtain ⟨depth, rfl⟩ := exists_succ_of_chars hdepth
    rw [chars, itemLines_eq] at hdepth ⊢
    have hitems : ∀ v ∈ items,
        ReadsBack (value? depth) (chars (level + 1)) v ∧ Starts ']' (chars (level + 1) v) := by
      intro v hv
      have hlt : (chars (level + 1) v).length <
          (block '[' ']' level (items.map (chars (level + 1)))).length :=
        length_lt_block (List.mem_map_of_mem hv)
      exact ⟨ih v hv (level + 1) depth (by omega), starts_chars (level + 1) v (.inl rfl)⟩
    obtain ⟨input, hinput, hread⟩ :=
      blockEnd?_block '[' (show isBlank ']' = false from rfl) (by decide) level items rest hitems
    rw [hinput, value?, if_neg (by decide), if_pos rfl, hread]
    rfl
  | record fields ih =>
    obtain ⟨depth, rfl⟩ := exists_succ_of_chars hdepth
    rw [chars, fieldLines_eq] at hdepth ⊢
    have hfields : ∀ f ∈ fields, ReadsBack (field? (value? depth)) (fieldChars (level + 1)) f ∧
        Starts '\x7d' (fieldChars (level + 1) f) := by
      intro f hf
      have hlt : (fieldChars (level + 1) f).length <
          (block '\x7b' '\x7d' level (fields.map (fieldChars (level + 1)))).length :=
        length_lt_block (List.mem_map_of_mem hf)
      have hpart : (chars (level + 1) f.2).length ≤ (fieldChars (level + 1) f).length := by
        simp only [fieldChars, List.length_append, List.length_cons]
        omega
      refine ⟨field?_fieldChars (ih f hf (level + 1) depth (by omega)), ?_⟩
      exact ⟨doubleQuote, _, rfl, rfl, by decide⟩
    obtain ⟨input, hinput, hread⟩ := blockEnd?_block '\x7b'
      (show isBlank '\x7d' = false from rfl) (by decide) level fields rest hfields
    rw [hinput, value?, if_neg (by decide), if_neg (by decide), if_pos rfl, hread]
    rfl

/-- **Every document is read back from its text.** -/
theorem read?_render (v : Json) : read? v.render = some v := by
  have hstart : Starts ']' (chars 0 v) := starts_chars 0 v (.inl rfl)
  have hread := value?_chars v 0 _ (Nat.le_refl _) [] (by rintro c ⟨⟩)
  have hskip := hstart.skipBlanks_append []
  rw [List.append_nil] at hread hskip
  rw [read?, render, String.toList_ofList, hskip, hread]
  rfl

/-- Text that goes on behind a comma, or behind a document, is refused. -/
example : (read? "[1,]").isNone = true ∧ (read? "null null").isNone = true := by decide

/-- Different documents have different texts. -/
theorem render_injective : Function.Injective render := by
  intro v w h
  have hread := read?_render v
  rw [h, read?_render] at hread
  exact (Option.some.inj hread).symm

/-! ## The characters of documents -/

/-- A line feed, or a printable ASCII character. -/
def IsPlain (c : Char) : Prop := c = '\n' ∨ (0x20 ≤ c.toNat ∧ c.toNat < 0x7F)

instance (c : Char) : Decidable (IsPlain c) := inferInstanceAs (Decidable (_ ∨ _))

/-- A text of such characters. -/
def IsPlainText (input : List Char) : Prop := ∀ c ∈ input, IsPlain c

instance (input : List Char) : Decidable (IsPlainText input) := List.decidableBAll _ _

/-- A text is plain if its first character and the rest are. -/
theorem isPlainText_cons {c : Char} {input : List Char} :
    IsPlainText (c :: input) ↔ IsPlain c ∧ IsPlainText input := List.forall_mem_cons

/-- A text is plain if its parts are. -/
theorem isPlainText_append {front back : List Char} :
    IsPlainText (front ++ back) ↔ IsPlainText front ∧ IsPlainText back := List.forall_mem_append

/-- Parts that are made one by one are plain together. -/
theorem isPlainText_flatMap {α : Type} {l : List α} {f : α → List Char}
    (h : ∀ a ∈ l, IsPlainText (f a)) : IsPlainText (l.flatMap f) := by
  intro c hc
  obtain ⟨a, ha, hmem⟩ := List.mem_flatMap.1 hc
  exact h a ha c hmem

/-- A repeated plain character is plain text. -/
theorem isPlainText_replicate {c : Char} (hc : IsPlain c) (n : Nat) :
    IsPlainText (List.replicate n c) := by
  intro d hd
  rw [List.eq_of_mem_replicate hd]
  exact hc

/-- Decimal digits are plain. -/
theorem isPlainText_toDigits (n : Nat) : IsPlainText (Nat.toDigits 10 n) := by
  intro c hc
  have hdigit := Nat.isDigit_of_mem_toDigits (by decide) (by decide) hc
  rw [Char.isDigit, Bool.and_eq_true, decide_eq_true_eq, decide_eq_true_eq] at hdigit
  have hlow : 48 ≤ c.toNat := hdigit.1
  have hhigh : c.toNat ≤ 57 := hdigit.2
  exact .inr ⟨by omega, by omega⟩

/-- Hexadecimal digits are plain. -/
theorem isPlainText_hexDigits (width n : Nat) : IsPlainText (hexDigitsAtLeast width n) := by
  have hdigit : ∀ d < 16, IsPlain (Nat.digitChar d) := by decide
  refine isPlainText_append.2 ⟨isPlainText_replicate (by decide) _, ?_⟩
  intro c hc
  obtain ⟨d, hd, rfl⟩ := exists_digit_of_mem_hexDigits n c hc
  exact hdigit d hd

/-- Escaped units are plain. -/
theorem isPlainText_unitEscapes (n : Nat) : IsPlainText (unitEscapes n) := by
  have hunit : ∀ n, IsPlainText (unitEscape n) := by
    intro n
    rw [unitEscape, isPlainText_cons, isPlainText_cons]
    exact ⟨by decide, by decide, isPlainText_hexDigits 4 n⟩
  rw [unitEscapes]
  split
  · exact hunit n
  · exact isPlainText_append.2 ⟨hunit _, hunit _⟩

/-- What is written for a character is plain. -/
theorem isPlainText_stringChar (c : Char) : IsPlainText (stringChar c) := by
  unfold stringChar
  split_ifs with hmark hfeed hreturn htab hback hform hplain
  · simp only [Bool.or_eq_true, decide_eq_true_eq] at hmark
    rcases hmark with rfl | rfl <;> decide
  iterate 5
    · decide
  · simp only [Bool.and_eq_true, decide_eq_true_eq] at hplain
    exact isPlainText_cons.2 ⟨.inr hplain, by decide⟩
  · exact isPlainText_unitEscapes c.toNat

/-- The text of a string is plain. -/
theorem isPlainText_stringChars (s : String) : IsPlainText (stringChars s) := by
  rw [stringChars, List.cons_append, isPlainText_cons, isPlainText_append]
  exact ⟨by decide, isPlainText_flatMap fun c _ => isPlainText_stringChar c, by decide⟩

/-- The text of an integer is plain. -/
theorem isPlainText_toString (n : Int) : IsPlainText (toString n).toList := by
  rw [toList_toString]
  split
  · exact isPlainText_toDigits _
  · exact isPlainText_cons.2 ⟨by decide, isPlainText_toDigits _⟩

/-- A new line is plain. -/
theorem isPlainText_newLine (level : Nat) : IsPlainText (newLine level) :=
  isPlainText_cons.2 ⟨by decide, isPlainText_replicate (by decide) _⟩

/-- A block of plain lines between plain brackets is plain. -/
theorem isPlainText_block {opening closing : Char} (hopening : IsPlain opening)
    (hclosing : IsPlain closing) (level : Nat) {lines : List (List Char)}
    (hlines : ∀ line ∈ lines, IsPlainText line) :
    IsPlainText (block opening closing level lines) := by
  have hend : IsPlainText [closing] := isPlainText_cons.2 ⟨hclosing, by decide⟩
  cases lines with
  | nil => exact isPlainText_cons.2 ⟨hopening, hend⟩
  | cons line rest =>
    obtain ⟨hline, hrest⟩ := List.forall_mem_cons.1 hlines
    have hothers : IsPlainText (rest.flatMap fun l => ',' :: newLine (level + 1) ++ l) := by
      apply isPlainText_flatMap
      intro l hl
      rw [List.cons_append, isPlainText_cons, isPlainText_append]
      exact ⟨by decide, isPlainText_newLine _, hrest l hl⟩
    simp only [block, List.cons_append, isPlainText_cons, isPlainText_append]
    exact ⟨hopening, ⟨⟨⟨isPlainText_newLine _, hline⟩, hothers⟩, isPlainText_newLine _⟩,
      isPlainText_cons.1 hend⟩

/-- The text of a value is plain. -/
theorem isPlainText_chars (v : Json) (level : Nat) : IsPlainText (chars level v) := by
  induction v using induct generalizing level with
  | null =>
    show IsPlainText "null".toList
    decide
  | integer n => exact isPlainText_toString n
  | text s => exact isPlainText_stringChars s
  | list items ih =>
    rw [chars, itemLines_eq]
    apply isPlainText_block (by decide) (by decide)
    intro line hline
    obtain ⟨v, hv, rfl⟩ := List.mem_map.1 hline
    exact ih v hv (level + 1)
  | record fields ih =>
    rw [chars, fieldLines_eq]
    apply isPlainText_block (by decide) (by decide)
    intro line hline
    obtain ⟨f, hf, rfl⟩ := List.mem_map.1 hline
    rw [fieldChars, isPlainText_append, isPlainText_cons, isPlainText_cons]
    exact ⟨isPlainText_stringChars f.1, by decide, by decide, ih f hf (level + 1)⟩

/-- **A document is written in ASCII**, whatever characters its texts have. -/
theorem isPlainText_render (v : Json) : IsPlainText v.render.toList := by
  rw [render, String.toList_ofList]
  exact isPlainText_chars v 0

end SigScan.Text.Json
