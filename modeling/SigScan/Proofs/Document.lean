/-
# Reports read back from their documents

The document form of a report keeps what the report tells: the sample, its format, the sections
that were scanned without their code, the matches with the sections they are in, and the error.
Read as a document, its text gives just that back, whatever characters the names, the path and the
error are made of. So the text decides what is told.

* `Contents.ofJson?_json`: what a document says is what the report tells;
* `documented`: the text of a report is a document in ASCII that says what the report tells, and
  no report that tells something else has that text.
-/
import SigScan.Proofs.Text.JsonRoundTrip
import SigScan.Report

namespace SigScan

/-! ## Parts of documents -/

namespace Text.Json

/-- The value of a text. -/
def asText? : Json → Option String
  | .text s => some s
  | _ => none

/-- The value of a number. -/
def asInteger? : Json → Option Int
  | .integer n => some n
  | _ => none

/-- The value of what may be null. -/
def asOptional? {α : Type} (of? : Json → Option α) : Json → Option (Option α)
  | .null => some none
  | v => (of? v).map some

/-- The values of a list's items. -/
def asList? {α : Type} (of? : Json → Option α) : Json → Option (List α)
  | .list items => items.mapM of?
  | _ => none

/-- The value in a field of a record. -/
def member? (name : String) : Json → Option Json
  | .record fields => fields.lookup name
  | _ => none

/-- A list whose items have values has them as its value. -/
theorem asList?_map {α β : Type} {of? : Json → Option β} {write : α → Json} {value : α → β}
    (h : ∀ a, of? (write a) = some (value a)) (l : List α) :
    asList? of? (.list (l.map write)) = some (l.map value) := by
  show (l.map write).mapM of? = _
  induction l with
  | nil => rfl
  | cons a l ih =>
    rw [List.map_cons, List.mapM_cons, h, ih]
    rfl

end Text.Json

open Text

/-! ## What reports tell -/

/-- What a report tells about a sample. -/
structure Contents where
  sample : String
  format : Option String
  /-- The name, the address and the size of each section. -/
  sections : List (String × Int × Int)
  found : List Match
  foundIn : List String
  error : Option String
  deriving DecidableEq, Repr

namespace Contents

/-- What is told of a section. -/
def ofSection (s : Section) : String × Int × Int := (s.name, s.base, s.content.size)

/-- What a document says about a section. -/
def sectionOf? (v : Json) : Option (String × Int × Int) := do
  let name ← (← v.member? "name").asText?
  let base ← (← v.member? "base").asInteger?
  let size ← (← v.member? "size").asInteger?
  return (name, base, size)

/-- What a document says about a match, and the section it is in. -/
def matchOf? (v : Json) : Option (Match × String) := do
  let arch ← Arch.ofName? (← (← v.member? "arch").asText?)
  let place ← (← v.member? "section").asText?
  let offset ← (← v.member? "offset").asInteger?
  let address ← (← v.member? "module_data_va").asInteger?
  return (⟨arch, offset, address⟩, place)

/-- What a document says about a sample. -/
def ofJson? (v : Json) : Option Contents := do
  let sample ← (← v.member? "sample").asText?
  let format ← (← v.member? "format").asOptional? Json.asText?
  let sections ← (← v.member? "sections").asList? sectionOf?
  let placed ← (← v.member? "matches").asList? matchOf?
  let error ← (← v.member? "error").asOptional? Json.asText?
  return ⟨sample, format, sections, placed.map (·.1), placed.map (·.2), error⟩

/-- A section is read back from what is said about it. -/
theorem sectionOf?_jsonSection (s : Section) :
    sectionOf? (Report.jsonSection s) = some (ofSection s) := rfl

/-- A match is read back from what is said about it. -/
theorem matchOf?_jsonMatch (m : Match × String) : matchOf? (Report.jsonMatch m) = some m := by
  show (Arch.ofName? m.1.arch.name >>= fun arch =>
    some ((⟨arch, m.1.offset, m.1.address⟩ : Match), m.2)) = some m
  rw [Arch.ofName?_name]
  rfl

/-- A text, or its lack, is read back. -/
theorem asOptional?_jsonText? (t : Option String) :
    (Report.jsonText? t).asOptional? Json.asText? = some t := by
  cases t <;> rfl

end Contents

namespace Report

/-- What the report tells about its sample. -/
def contents (r : Report) : Contents where
  sample := r.sample
  format := r.format
  sections := r.sections.map Contents.ofSection
  found := r.found
  foundIn := r.foundIn
  error := r.error

/-- **A document says what the report tells**, if every match has its section. -/
theorem ofJson?_json {r : Report} (h : r.found.length = r.foundIn.length) :
    Contents.ofJson? r.json = some r.contents := by
  have hsample : r.json.member? "sample" = some (.text r.sample) := rfl
  have hformat : r.json.member? "format" = some (jsonText? r.format) := rfl
  have hsections : r.json.member? "sections" = some (.list (r.sections.map jsonSection)) := rfl
  have hmatches : r.json.member? "matches" = some (.list (r.placedMatches.map jsonMatch)) := rfl
  have herror : r.json.member? "error" = some (jsonText? r.error) := rfl
  have hplaced : Json.asList? Contents.matchOf? (.list (r.placedMatches.map jsonMatch)) =
      some (r.placedMatches.map id) := Json.asList?_map Contents.matchOf?_jsonMatch r.placedMatches
  have hfound : r.placedMatches.map (·.1) = r.found := List.map_fst_zip (Nat.le_of_eq h)
  have hfoundIn : r.placedMatches.map (·.2) = r.foundIn := List.map_snd_zip (Nat.le_of_eq h.symm)
  simp only [Contents.ofJson?, hsample, hformat, hsections, hmatches, herror, hplaced, List.map_id,
    Contents.asOptional?_jsonText?, Json.asList?_map Contents.sectionOf?_jsonSection, Json.asText?,
    Option.bind_eq_bind, Option.bind_some, Option.pure_def, hfound, hfoundIn]
  rfl

/-- What the text of a report is good for. -/
structure Documented (r : Report) : Prop where
  /-- The text is ASCII. -/
  ascii : Json.IsPlainText r.json.render.toList
  /-- The text is a document. -/
  isDocument : Json.read? r.json.render = some r.json
  /-- The document says what the report tells. -/
  tells : (Json.read? r.json.render).bind Contents.ofJson? = some r.contents
  /-- Reports with the same text tell the same. -/
  decides : ∀ other : Report, other.found.length = other.foundIn.length →
    other.json.render = r.json.render → other.contents = r.contents

/-- **The text of a report is a document that says what the report tells.** -/
theorem documented {r : Report} (h : r.found.length = r.foundIn.length) : Documented r where
  ascii := Json.isPlainText_render r.json
  isDocument := Json.read?_render r.json
  tells := by
    rw [Json.read?_render, Option.bind_some, ofJson?_json h]
  decides := by
    intro other hother htext
    have hsame : other.json = r.json := Json.render_injective htext
    have htells := ofJson?_json hother
    rw [hsame, ofJson?_json h] at htells
    exact (Option.some.inj htells).symm

/-- A report with names, a path and an error that need escapes, and with negative addresses. -/
def escapedReport : Report where
  sample := "a\"b\\c\n𝄞"
  sections := [⟨"", #[], -1⟩, ⟨".te\txt\x7f", #[0xC3], -0x10000000000000000⟩]
  found := [⟨.ppcBE, 0, -2⟩]
  foundIn := ["\u2028"]
  error := some "\xe9"

/-- The text of `escapedReport` is a document that says what it tells. -/
theorem documented_escapedReport :
    escapedReport.found.length = escapedReport.foundIn.length ∧ Documented escapedReport :=
  ⟨rfl, documented rfl⟩

end Report

end SigScan
