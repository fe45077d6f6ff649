/-
# Names in PE section headers

The name field of a section header has the bytes of the name and zero bytes behind them. A name that
neither starts nor ends with a zero character is read back as it is, whatever scripts it is written
in, and selects its section. Damaged bytes around a text are left out of a name without touching the
text.

* `trimZeros_append_replicate`: zeros behind a text are taken off;
* `decode_padded`, `nameOf_padded`: a padded name is read back;
* `codeSections_between`, `codeSections_of_padded`: the code of one section among others;
* `names_survive`: what comes back of a text in a name field.
-/
import SigScan.Image.Pe.Code
import SigScan.Proofs.Elf.Encoding

namespace SigScan.Pe

open Text.Utf8

/-! ## Zeros at the ends -/

/-- Text that does not start with a zero character is not shortened at its start. -/
theorem dropWhile_zero_of_head {text : List Char} (h : ∀ c ∈ text.head?, c.toNat ≠ 0) :
    text.dropWhile (·.toNat = 0) = text := by
  cases text with
  | nil => rfl
  | cons c rest =>
    have hc : c.toNat ≠ 0 := h c rfl
    exact List.dropWhile_cons_of_neg (by simpa using hc)

/-- **Padding is taken off again**: only the zero characters behind the text go. -/
theorem trimZeros_append_replicate {text : List Char} (hfirst : ∀ c ∈ text.head?, c.toNat ≠ 0)
    (hlast : ∀ c ∈ text.getLast?, c.toNat ≠ 0) (k : Nat) :
    trimZeros (text ++ List.replicate k (Char.ofNat 0)) = text := by
  have hzeros : ∀ c ∈ List.replicate k (Char.ofNat 0), decide (c.toNat = 0) = true := by
    intro c hc
    rw [List.eq_of_mem_replicate hc]
    rfl
  cases text with
  | nil => rw [List.nil_append, trimZeros, List.dropWhile_eq_nil_iff.2 hzeros]; rfl
  | cons c rest =>
    rw [trimZeros, List.cons_append, List.dropWhile_cons_of_neg (by simpa using hfirst c rfl),
      ← List.cons_append, List.reverse_append, List.reverse_replicate,
      List.dropWhile_append_of_pos hzeros, dropWhile_zero_of_head (by rwa [List.head?_reverse]),
      List.reverse_reverse]

/-- Does a text have no zero character at either end? -/
def IsTrimmed (s : String) : Prop :=
  s.toList.head? ≠ some (Char.ofNat 0) ∧ s.toList.getLast? ≠ some (Char.ofNat 0)

/-- What is not the zero character has another code point. -/
theorem toNat_ne_zero_of_mem {end? : Option Char} (h : end? ≠ some (Char.ofNat 0)) :
    ∀ c ∈ end?, c.toNat ≠ 0 := by
  rintro c rfl hzero
  apply h
  rw [← hzero, Char.ofNat_toNat]

/-! ## Padded names -/

/-- Is the name field of a header a text with zero bytes behind it? -/
def IsPadded (field : List UInt8) (s : String) : Prop :=
  ∃ zeros, field = s.toUTF8.data.toList ++ List.replicate zeros 0

/-- A padded text is read with as many zero characters behind it as there are zero bytes. -/
theorem decode_padded (damage : Option Char) (s : String) (zeros : Nat) :
    decode damage (s.toUTF8.data.toList ++ List.replicate zeros 0) =
      s.toList ++ List.replicate zeros (Char.ofNat 0) := by
  have hzeros : List.replicate zeros 0 = encode (List.replicate zeros (Char.ofNat 0)) := by
    rw [encode, List.flatMap_replicate]
    exact List.flatten_replicate_singleton.symm
  rw [toUTF8_eq_encode, hzeros, encode, encode, ← List.flatMap_append, ← encode, decode_encode]

/-- **A padded name is read back.** -/
theorem nameOf_padded {s : String} (h : IsTrimmed s) {field : List UInt8}
    (hfield : IsPadded field s) : nameOf field = s := by
  obtain ⟨zeros, rfl⟩ := hfield
  obtain ⟨hfirst, hlast⟩ := h
  rw [nameOf, decode_padded,
    trimZeros_append_replicate (toNat_ne_zero_of_mem hfirst) (toNat_ne_zero_of_mem hlast),
    String.ofList_toList]

/-! ## Sections by name -/

/-- Is the section executable? -/
def SectionEntry.IsCode (e : SectionEntry) : Prop := e.characteristics.testBit 29 = true

/-- The code of an executable section stands between that of the sections around it. -/
theorem codeSections_between (imageBase : Int) (front behind : List SectionEntry)
    {e : SectionEntry} (h : e.IsCode) :
    codeSections imageBase (front ++ e :: behind) =
      codeSections imageBase front ++ e.toSection imageBase :: codeSections imageBase behind := by
  have hcode : isCode e.characteristics = true := by rwa [isCode, hasBit_eq_testBit]
  rw [codeSections, List.filter_append, List.filter_cons_of_pos (by simpa using hcode),
    List.map_append, List.map_cons]
  rfl

/-- The name of an executable section is the text in its name field. -/
theorem codeSections_of_padded {s : String} (h : IsTrimmed s) (imageBase : Int)
    (front behind : List SectionEntry) {e : SectionEntry} (hcode : e.IsCode)
    (hfield : IsPadded e.nameBytes s) :
    codeSections imageBase (front ++ e :: behind) =
      codeSections imageBase front ++
        ⟨s, e.content, imageBase + e.address⟩ :: codeSections imageBase behind := by
  rw [codeSections_between imageBase front behind hcode, SectionEntry.toSection,
    nameOf_padded h hfield]

/-- What comes back of a text that stands in the name field of a section header. -/
structure NameSurvives (s : String) : Prop where
  /-- With zero bytes behind it, it is the name of an executable section, wherever that one stands
  among others. -/
  named : IsTrimmed s → ∀ (imageBase : Int) (front behind : List SectionEntry)
    (e : SectionEntry), e.IsCode → IsPadded e.nameBytes s →
      codeSections imageBase (front ++ e :: behind) =
        codeSections imageBase front ++
          ⟨s, e.content, imageBase + e.address⟩ :: codeSections imageBase behind
  /-- And it selects that section. -/
  selected : IsTrimmed s → ∀ (imageBase : Int) (front behind : List SectionEntry)
    (e : SectionEntry), e.IsCode → IsPadded e.nameBytes s →
      Section.keepNamed [s] (codeSections imageBase (front ++ e :: behind)) =
        Section.keepNamed [s] (codeSections imageBase front) ++
          ⟨s, e.content, imageBase + e.address⟩ ::
            Section.keepNamed [s] (codeSections imageBase behind)
  /-- Between any bytes, it is decoded as it is, and they as if they stood alone. -/
  apart : s ≠ "" → ∀ front behind : List UInt8,
    decode none (front ++ s.toUTF8.data.toList ++ behind) =
      decode none front ++ s.toList ++ decode none behind

/-- **Names survive padding and damage.** -/
theorem names_survive (s : String) : NameSurvives s := by
  constructor
  case named =>
    intro h imageBase front behind e hcode hfield
    exact codeSections_of_padded h imageBase front behind hcode hfield
  case selected =>
    intro h imageBase front behind e hcode hfield
    rw [codeSections_of_padded h imageBase front behind hcode hfield, Section.keepNamed_singleton,
      List.filter_append, List.filter_cons_of_pos (by simp), Section.keepNamed_singleton,
      Section.keepNamed_singleton]
  case apart =>
    intro h front behind
    rw [toUTF8_eq_encode]
    exact decode_encode_between none front behind fun hnil => h (String.toList_inj.1 hnil)

/-- Cut off characters and stray bytes in a name field are left out, the characters between them
stay. -/
example : nameOf [0xF0, 0x9F, 0x2E, 0xCE, 0xBB, 0xE2, 0x82, 0x78, 0xBF, 0x00, 0x00] = ".λx" := by
  decide +kernel

end SigScan.Pe
