/-
# Reading JSON documents

A reader of JSON text by the rules of the format, whoever wrote the text: blanks may stand between
any two parts of a list or a record, every escape is known, and a pair of surrogates is one
character. Values are those of `Json`: numbers are integers, and there are no truth values. A
document is one value with nothing behind it.

A reader takes a value off the front of a text. Strings, lists and records are read item by item,
no more of them than the text has characters; values are read to a depth that is given, and a text
is never deeper than it is long.

The readers of what stands inside a string and of numbers are met here by what is written there:

* `char?_stringChar`, `string?_append`: a character and a string are read back;
* `integer?_toString`: an integer is read back in front of anything but a digit.
-/
import Mathlib.Data.List.Basic
import Mathlib.Tactic.SplitIfs
import SigScan.Proofs.Text.Hexadecimal
import SigScan.Text.Json

namespace SigScan.Text.Json

/-- A reader takes something off the front of a text. -/
abbrev Reader (α : Type) := List Char → Option (α × List Char)

/-! ## Blanks -/

/-- May the character stand between the parts of a document? -/
def isBlank (c : Char) : Bool := c = ' ' || c = '\t' || c = '\n' || c = '\r'

/-- The text behind the blanks at its front. -/
def skipBlanks (text : List Char) : List Char := text.dropWhile isBlank

/-! ## Strings -/

/-- Reads four hexadecimal digits. -/
def unit? : Reader Nat
  | a :: b :: c :: d :: rest => do
    let a ← digitValue? 16 a
    let b ← digitValue? 16 b
    let c ← digitValue? 16 c
    let d ← digitValue? 16 d
    return (((a * 16 + b) * 16 + c) * 16 + d, rest)
  | _ => none

/-- Reads an escape of one unit, as the second one of a pair. -/
def secondUnit? : Reader Nat
  | b :: u :: rest => if b = backslash ∧ u = 'u' then unit? rest else none
  | _ => none

/-- Reads the character of a unit, or of the two units of a pair. Half a pair is no character. -/
def unitChar? (text : List Char) : Option (Char × List Char) := do
  let (high, rest) ← unit? text
  if high < 0xD800 ∨ 0xE000 ≤ high then return (Char.ofNat high, rest)
  let (low, rest) ← secondUnit? rest
  if high < 0xDC00 ∧ 0xDC00 ≤ low ∧ low < 0xE000 then
    return (Char.ofNat (0x10000 + (high - 0xD800) * 0x400 + (low - 0xDC00)), rest)
  none

/-- The character that a letter behind a backslash stands for. -/
def escaped? (c : Char) : Option Char :=
  if c = doubleQuote ∨ c = backslash ∨ c = '/' then some c
  else if c = 'b' then some '\x08'
  else if c = 'f' then some '\x0c'
  else if c = 'n' then some '\n'
  else if c = 'r' then some '\r'
  else if c = 't' then some '\t'
  else none

/-- Reads one character of a string, which may be written as an escape. -/
def char? : Reader Char
  | [] => none
  | c :: rest =>
    if c = backslash then
      match rest with
      | [] => none
      | e :: rest => if e = 'u' then unitChar? rest else (escaped? e).map (·, rest)
    else if c = doubleQuote ∨ c.toNat < 0x20 then none
    else some (c, rest)

/-- Reads fewer than so many characters of a string, and the quote behind them. -/
def stringEnd? : Nat → Reader (List Char)
  | 0, _ => none
  | count + 1, input =>
    if input.head? = some doubleQuote then some ([], input.tail)
    else do
      let (c, rest) ← char? input
      let (cs, rest) ← stringEnd? count rest
      return (c :: cs, rest)

/-- Reads a string. -/
def string? : Reader String
  | [] => none
  | c :: rest =>
    if c = doubleQuote then
      (stringEnd? rest.length rest).map fun (cs, rest) => (String.ofList cs, rest)
    else none

/-! ## Numbers -/

/-- Reads a number without sign; only zero itself starts with a zero. -/
def natural? (text : List Char) : Option (Nat × List Char) :=
  let digits := text.takeWhile Char.isDigit
  if digits = [] ∨ (digits.head? = some '0' ∧ digits ≠ ['0']) then none
  else some (Nat.ofDigitChars 10 digits 0, text.dropWhile Char.isDigit)

/-- Reads an integer. -/
def integer? : Reader Int
  | [] => none
  | c :: rest =>
    if c = '-' then (natural? rest).map fun (n, rest) => (-(n : Int), rest)
    else (natural? (c :: rest)).map fun (n, rest) => ((n : Int), rest)

/-! ## Lists and records -/

/-- Reads fewer than so many items, with commas between them, and the bracket behind them. -/
def items? {α : Type} (closing : Char) (item? : Reader α) : Nat → Reader (List α)
  | 0, _ => none
  | count + 1, input => do
    let (a, rest) ← item? (skipBlanks input)
    match skipBlanks rest with
    | [] => none
    | c :: rest =>
      if c = closing then return ([a], rest)
      else if c = ',' then
        let (others, rest) ← items? closing item? count rest
        return (a :: others, rest)
      else none

/-- Reads the items behind an opening bracket, and the closing bracket. -/
def blockEnd? {α : Type} (closing : Char) (item? : Reader α) (text : List Char) :
    Option (List α × List Char) :=
  if (skipBlanks text).head? = some closing then some ([], (skipBlanks text).tail)
  else items? closing item? text.length text

/-- Reads a name, a colon and a value. -/
def field? (value? : Reader Json) (text : List Char) : Option ((String × Json) × List Char) := do
  let (name, rest) ← string? text
  match skipBlanks rest with
  | [] => none
  | c :: rest =>
    if c = ':' then
      let (value, rest) ← value? (skipBlanks rest)
      return ((name, value), rest)
    else none

/-! ## Values -/

/-- Reads a value that is no deeper than told. -/
def value? : Nat → Reader Json
  | 0, _ => none
  | _ + 1, [] => none
  | depth + 1, c :: rest =>
    if c = doubleQuote then (string? (c :: rest)).map fun (s, rest) => (.text s, rest)
    else if c = '[' then
      (blockEnd? ']' (value? depth) rest).map fun (items, rest) => (.list items, rest)
    else if c = '\x7b' then
      (blockEnd? '\x7d' (field? (value? depth)) rest).map fun (fields, rest) =>
        (.record fields, rest)
    else if c = 'n' then if rest.take 3 = "ull".toList then some (.null, rest.drop 3) else none
    else (integer? (c :: rest)).map fun (n, rest) => (.integer n, rest)

/-- Reads a document. -/
def read? (text : String) : Option Json := do
  let (value, rest) ← value? text.toList.length (skipBlanks text.toList)
  if skipBlanks rest = [] then some value else none

/-! ## Reading characters back -/

/-- One hexadecimal digit more is that of the last four bits. -/
theorem hexDigitsAtLeast_succ {width : Nat} (hw : 0 < width) (n : Nat) :
    hexDigitsAtLeast (width + 1) n =
      hexDigitsAtLeast width (n / 16) ++ [Nat.digitChar (n % 16)] := by
  obtain ⟨k, rfl⟩ : ∃ k, width = k + 1 := ⟨width - 1, by omega⟩
  rcases Nat.lt_or_ge n 16 with hn | hn
  · have hzero : hexDigits (n / 16) = ['0'] := by
      rw [Nat.div_eq_of_lt hn]
      rfl
    rw [hexDigitsAtLeast, hexDigitsAtLeast, hzero, hexDigits_of_lt hn, Nat.mod_eq_of_lt hn]
    show List.replicate (k + 1) '0' ++ [n.digitChar] =
      List.replicate k '0' ++ ['0'] ++ [n.digitChar]
    rw [List.replicate_succ']
  · rw [hexDigitsAtLeast, hexDigitsAtLeast, hexDigits_of_le hn, List.length_append,
      List.length_singleton, Nat.add_sub_add_right, List.append_assoc]

/-- A number below 2^16 is written in four digits. -/
theorem hexDigitsAtLeast_four {n : Nat} (hn : n < 0x10000) :
    hexDigitsAtLeast 4 n = [Nat.digitChar (n / 4096), Nat.digitChar (n / 256 % 16),
      Nat.digitChar (n / 16 % 16), Nat.digitChar (n % 16)] := by
  have hone : hexDigitsAtLeast 1 (n / 4096) = [Nat.digitChar (n / 4096)] := by
    rw [hexDigitsAtLeast, hexDigits_of_lt (by omega)]
    rfl
  have hthird : n / 16 / 16 = n / 256 := Nat.div_div_eq_div_mul n 16 16
  have hfourth : n / 256 / 16 = n / 4096 := Nat.div_div_eq_div_mul n 256 16
  rw [hexDigitsAtLeast_succ (by decide), hexDigitsAtLeast_succ (by decide),
    hexDigitsAtLeast_succ (by decide), hthird, hfourth, hone]
  rfl

/-- What an escape and the text behind it start with. -/
theorem unitEscape_append (n : Nat) (rest : List Char) :
    unitEscape n ++ rest = backslash :: 'u' :: (hexDigitsAtLeast 4 n ++ rest) := rfl

/-- A unit is read back. -/
theorem unit?_hexDigits {n : Nat} (hn : n < 0x10000) (rest : List Char) :
    unit? (hexDigitsAtLeast 4 n ++ rest) = some (n, rest) := by
  have hdigit : ∀ d, digitValue? 16 (Nat.digitChar (d % 16)) = some (d % 16) := fun d =>
    digitValue?_digitChar (Nat.mod_lt d (by decide))
  have hfirst : digitValue? 16 (Nat.digitChar (n / 4096)) = some (n / 4096) :=
    digitValue?_digitChar (by omega)
  have hsum : ((n / 4096 * 16 + n / 256 % 16) * 16 + n / 16 % 16) * 16 + n % 16 = n := by omega
  rw [hexDigitsAtLeast_four hn]
  simp only [List.cons_append, List.nil_append, unit?, hfirst, hdigit, Option.bind_eq_bind,
    Option.bind_some, hsum]
  rfl

/-- The code of a character is none of a surrogate. -/
theorem toNat_not_surrogate (c : Char) :
    (c.toNat < 0xD800 ∨ 0xE000 ≤ c.toNat) ∧ c.toNat < 0x110000 := by
  have hvalid := c.valid
  rcases hvalid with hlow | ⟨hhigh, hend⟩
  · exact ⟨.inl hlow, Nat.lt_trans hlow (by decide)⟩
  · exact ⟨.inr hhigh, hend⟩

/-- An escaped unit that is no surrogate is a character. -/
theorem unitChar?_of_plain {n : Nat} (hn : n < 0x10000) (hplain : n < 0xD800 ∨ 0xE000 ≤ n)
    (rest : List Char) :
    unitChar? (hexDigitsAtLeast 4 n ++ rest) = some (Char.ofNat n, rest) := by
  simp only [unitChar?, unit?_hexDigits hn, Option.bind_eq_bind, Option.bind_some, if_pos hplain,
    Option.pure_def]

/-- Two escaped units that are a pair of surrogates are a character. -/
theorem unitChar?_of_pair {high low : Nat} (hhigh : 0xD800 ≤ high ∧ high < 0xDC00)
    (hlow : 0xDC00 ≤ low ∧ low < 0xE000) (rest : List Char) :
    unitChar? (hexDigitsAtLeast 4 high ++ (unitEscape low ++ rest)) =
      some (Char.ofNat (0x10000 + (high - 0xD800) * 0x400 + (low - 0xDC00)), rest) := by
  have hhalf : ¬ (high < 0xD800 ∨ 0xE000 ≤ high) := by omega
  have hsecond : secondUnit? (unitEscape low ++ rest) = some (low, rest) := by
    rw [unitEscape_append, secondUnit?, if_pos ⟨rfl, rfl⟩, unit?_hexDigits (by omega)]
  have hpair : high < 0xDC00 ∧ 0xDC00 ≤ low ∧ low < 0xE000 := ⟨hhigh.2, hlow⟩
  simp only [unitChar?, unit?_hexDigits (show high < 0x10000 by omega), Option.bind_eq_bind,
    Option.bind_some, if_neg hhalf, hsecond, if_pos hpair, Option.pure_def]

/-- The escape of a character is read back. -/
theorem unitChar?_unitEscapes (c : Char) (rest : List Char) :
    ∃ input, unitEscapes c.toNat ++ rest = backslash :: 'u' :: input ∧
      unitChar? input = some (c, rest) := by
  obtain ⟨hplain, hmax⟩ := toNat_not_surrogate c
  have hback : Char.ofNat c.toNat = c := Char.ofNat_toNat c
  rcases Nat.lt_or_ge c.toNat 0x10000 with hc | hc
  · refine ⟨hexDigitsAtLeast 4 c.toNat ++ rest, ?_, ?_⟩
    · rw [unitEscapes_of_lt hc, unitEscape_append]
    · rw [unitChar?_of_plain hc hplain, hback]
  · refine ⟨hexDigitsAtLeast 4 (0xD800 + (c.toNat - 0x10000) / 0x400) ++
      (unitEscape (0xDC00 + (c.toNat - 0x10000) % 0x400) ++ rest), ?_, ?_⟩
    · rw [unitEscapes, if_neg (Nat.not_lt.2 hc), List.append_assoc, unitEscape_append]
    · have hjoined : 0x10000 + (0xD800 + (c.toNat - 0x10000) / 0x400 - 0xD800) * 0x400 +
          (0xDC00 + (c.toNat - 0x10000) % 0x400 - 0xDC00) = c.toNat := by omega
      rw [unitChar?_of_pair (by omega) (by omega), hjoined, hback]

/-- **A character is read back from what is written for it.** -/
theorem char?_stringChar (c : Char) (rest : List Char) :
    char? (stringChar c ++ rest) = some (c, rest) := by
  have hcode : ∀ n, c.toNat = n → c = Char.ofNat n := by
    rintro n rfl
    exact (Char.ofNat_toNat c).symm
  unfold stringChar
  split_ifs with hmark hfeed hreturn htab hback hform hplain
  · simp only [Bool.or_eq_true, decide_eq_true_eq] at hmark
    rcases hmark with rfl | rfl <;> rfl
  · rw [hfeed]
    rfl
  · rw [hreturn]
    rfl
  · rw [htab]
    rfl
  · rw [hcode _ hback]
    rfl
  · rw [hcode _ hform]
    rfl
  · simp only [Bool.or_eq_true, decide_eq_true_eq, not_or] at hmark
    simp only [Bool.and_eq_true, decide_eq_true_eq] at hplain
    have hstop : ¬ (c = doubleQuote ∨ c.toNat < 0x20) := by
      rintro (h | h)
      · exact hmark.1 h
      · omega
    simp only [List.singleton_append, char?, if_neg hmark.2, if_neg hstop]
  · obtain ⟨input, hinput, hread⟩ := unitChar?_unitEscapes c rest
    rw [hinput]
    exact hread

/-- What is written for a character is not empty, and does not start with a quote. -/
theorem head?_stringChar (c : Char) (rest : List Char) :
    stringChar c ≠ [] ∧ (stringChar c ++ rest).head? ≠ some doubleQuote := by
  have hescape : ∀ more : List Char, backslash :: more ≠ [] ∧
      (backslash :: more ++ rest).head? ≠ some doubleQuote := fun more =>
    ⟨List.cons_ne_nil _ _, show some backslash ≠ some doubleQuote by decide⟩
  unfold stringChar
  split_ifs with hmark hfeed hreturn htab hback hform hplain
  iterate 6
    · exact hescape _
  · simp only [Bool.or_eq_true, decide_eq_true_eq, not_or] at hmark
    exact ⟨List.cons_ne_nil _ _, fun h => hmark.1 (Option.some.inj h)⟩
  · obtain ⟨input, hinput, -⟩ := unitChar?_unitEscapes c []
    rw [List.append_nil] at hinput
    rw [hinput]
    exact hescape _

/-! ## Reading strings back -/

/-- The characters of a string are read back up to the quote. -/
theorem stringEnd?_append (cs rest : List Char) {count : Nat} (hcount : cs.length < count) :
    stringEnd? count (cs.flatMap stringChar ++ doubleQuote :: rest) = some (cs, rest) := by
  induction cs generalizing count with
  | nil =>
    cases count with
    | zero => cases hcount
    | succ count => rfl
  | cons c cs ih =>
    cases count with
    | zero => cases hcount
    | succ count =>
      have hhead := (head?_stringChar c (cs.flatMap stringChar ++ doubleQuote :: rest)).2
      rw [List.flatMap_cons, List.append_assoc, stringEnd?, if_neg hhead, char?_stringChar]
      simp only [Option.bind_eq_bind, Option.bind_some, ih (Nat.lt_of_succ_lt_succ hcount),
        Option.pure_def]

/-- Parts that are not empty are together at least as long as they are many. -/
theorem length_le_length_flatMap {α β : Type} {f : α → List β} {l : List α}
    (hf : ∀ a ∈ l, f a ≠ []) : l.length ≤ (l.flatMap f).length := by
  induction l with
  | nil => exact Nat.le_refl 0
  | cons a l ih =>
    have hpos := List.length_pos_iff.2 (hf a List.mem_cons_self)
    have hrest := ih fun b hb => hf b (List.mem_cons_of_mem a hb)
    rw [List.flatMap_cons, List.length_append, List.length_cons]
    omega

/-- **A string is read back.** -/
theorem string?_append (s : String) (rest : List Char) :
    string? (stringChars s ++ rest) = some (s, rest) := by
  have hlen : s.toList.length ≤ (s.toList.flatMap stringChar).length :=
    length_le_length_flatMap fun c _ => (head?_stringChar c []).1
  have hshape : stringChars s ++ rest =
      doubleQuote :: (s.toList.flatMap stringChar ++ doubleQuote :: rest) := by
    rw [stringChars, List.append_assoc]
    rfl
  have hread : stringEnd? (s.toList.flatMap stringChar ++ doubleQuote :: rest).length
      (s.toList.flatMap stringChar ++ doubleQuote :: rest) = some (s.toList, rest) := by
    apply stringEnd?_append
    rw [List.length_append, List.length_cons]
    omega
  rw [hshape, string?, if_pos rfl, hread]
  simp

/-! ## Reading integers back -/

/-- Does the text start with no digit? -/
def NoDigit (input : List Char) : Prop := ∀ c ∈ input.head?, c.isDigit = false

/-- No digits are taken off such a text. -/
theorem takeWhile_of_noDigit {input : List Char} (h : NoDigit input) :
    input.takeWhile Char.isDigit = [] ∧ input.dropWhile Char.isDigit = input := by
  cases input with
  | nil => exact ⟨rfl, rfl⟩
  | cons c rest =>
    have hc : c.isDigit = false := h c rfl
    exact ⟨List.takeWhile_cons_of_neg (by simp [hc]), List.dropWhile_cons_of_neg (by simp [hc])⟩

/-- Only zero is written with a zero in front. -/
theorem head?_toDigits {n : Nat} (hn : n ≠ 0) : (Nat.toDigits 10 n).head? ≠ some '0' := by
  induction n using Nat.strongRecOn with
  | ind n ih =>
    rcases Nat.lt_or_ge n 10 with hlt | hge
    · have hall : ∀ d < 10, d ≠ 0 → [Nat.digitChar d].head? ≠ some '0' := by decide
      rw [Nat.toDigits_of_lt_base hlt]
      exact hall n hlt hn
    · rw [Nat.toDigits_of_base_le (by decide) hge,
        List.head?_append_of_ne_nil _ Nat.toDigits_ne_nil]
      exact ih (n / 10) (by omega) (by omega)

/-- A number is read back in front of anything but a digit. -/
theorem natural?_toDigits (n : Nat) {rest : List Char} (hrest : NoDigit rest) :
    natural? (Nat.toDigits 10 n ++ rest) = some (n, rest) := by
  have hdigits : ∀ c ∈ Nat.toDigits 10 n, c.isDigit = true := fun c hc =>
    Nat.isDigit_of_mem_toDigits (by decide) (by decide) hc
  have htake : (Nat.toDigits 10 n ++ rest).takeWhile Char.isDigit = Nat.toDigits 10 n := by
    rw [List.takeWhile_append_of_pos hdigits, (takeWhile_of_noDigit hrest).1, List.append_nil]
  have hdrop : (Nat.toDigits 10 n ++ rest).dropWhile Char.isDigit = rest := by
    rw [List.dropWhile_append_of_pos hdigits, (takeWhile_of_noDigit hrest).2]
  have hfront : ¬ (Nat.toDigits 10 n = [] ∨
      ((Nat.toDigits 10 n).head? = some '0' ∧ Nat.toDigits 10 n ≠ ['0'])) := by
    rintro (hnil | ⟨hzero, hmore⟩)
    · exact Nat.toDigits_ne_nil hnil
    · by_cases hn : n = 0
      · subst hn
        exact hmore rfl
      · exact head?_toDigits hn hzero
  simp only [natural?, htake, hdrop]
  rw [if_neg hfront, Nat.ofDigitChars_toDigits (by decide) (by decide)]

/-- The text of an integer. -/
theorem toList_toString (n : Int) : (toString n).toList =
    if 0 ≤ n then Nat.toDigits 10 n.toNat else '-' :: Nat.toDigits 10 (-n).toNat := by
  rw [show toString n = n.repr from rfl, Int.repr_eq_if]
  split
  · exact Nat.toList_repr
  · rw [String.toList_append, Nat.toList_repr]
    rfl

/-- **An integer is read back in front of anything but a digit.** -/
theorem integer?_toString (n : Int) {rest : List Char} (hrest : NoDigit rest) :
    integer? ((toString n).toList ++ rest) = some (n, rest) := by
  rw [toList_toString]
  split
  · next hn =>
    have hvalue : (n.toNat : Int) = n := Int.toNat_of_nonneg hn
    obtain ⟨c, more, hdigits⟩ := List.exists_cons_of_ne_nil (@Nat.toDigits_ne_nil n.toNat 10)
    have hc : c ≠ '-' := by
      rintro rfl
      have hdigit := Nat.isDigit_of_mem_toDigits (by decide) (by decide)
        (show '-' ∈ Nat.toDigits 10 n.toNat by rw [hdigits]; exact List.mem_cons_self)
      cases hdigit
    have hread := natural?_toDigits n.toNat hrest
    rw [hdigits, List.cons_append] at hread ⊢
    rw [integer?, if_neg hc, hread]
    exact congrArg (fun n => some (n, rest)) hvalue
  · next hn =>
    have hvalue : -((-n).toNat : Int) = n := by omega
    rw [List.cons_append, integer?, if_pos rfl, natural?_toDigits _ hrest]
    exact congrArg (fun n => some (n, rest)) hvalue

end SigScan.Text.Json
