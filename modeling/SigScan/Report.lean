/-
# Scan reports

What is told about one sample: the code that was scanned, the matches with the sections they
were found in, a log of the scan, and why there is nothing to tell.

* `addresses` lists the addresses of the matches, each where it comes first;
* `json` is the document form of a report.

`mem_addresses` and `nodup_addresses` say that each address is listed, and only once.
-/
import SigScan.Section
import SigScan.Signature.Match
import SigScan.Text.Json

namespace SigScan

/-- The result of scanning one sample. -/
structure Report where
  /-- The path of the sample. -/
  sample : String
  format : Option String := none
  sections : List Section := []
  found : List Match := []
  /-- The names of the sections that the matches were found in, match by match. -/
  foundIn : List String := []
  log : List String := []
  error : Option String := none
  deriving DecidableEq, Repr

namespace Report

/-- Was anything found? -/
def hasMatches (r : Report) : Bool := !r.found.isEmpty

/-- The matches, each with the section it was found in. -/
def placedMatches (r : Report) : List (Match × String) := r.found.zip r.foundIn

/-! ## Addresses -/

/-- The members of a list that are not among those seen, each where it comes first. -/
def firstSeen (seen : List Int) : List Int → List Int
  | [] => []
  | a :: rest =>
    if a ∈ seen then firstSeen seen rest else a :: firstSeen (a :: seen) rest

/-- The addresses of the matches, each where it comes first. -/
def addresses (r : Report) : List Int := firstSeen [] (r.found.map (·.address))

/-- What is listed is in the list and was not seen before. -/
theorem mem_firstSeen {seen list : List Int} {a : Int} :
    a ∈ firstSeen seen list ↔ a ∈ list ∧ a ∉ seen := by
  induction list generalizing seen with
  | nil => simp [firstSeen]
  | cons b rest ih =>
    simp only [firstSeen]
    split <;> grind

/-- Nothing is listed twice. -/
theorem nodup_firstSeen (seen list : List Int) : (firstSeen seen list).Nodup := by
  induction list generalizing seen with
  | nil => simp [firstSeen]
  | cons b rest ih =>
    simp only [firstSeen]
    split
    · exact ih seen
    · exact List.nodup_cons.2 ⟨by simp [mem_firstSeen], ih (b :: seen)⟩

/-- The addresses of the matches are listed, and no others. -/
theorem mem_addresses {r : Report} {a : Int} :
    a ∈ r.addresses ↔ ∃ m ∈ r.found, m.address = a := by
  simp [addresses, mem_firstSeen]

/-- No address is listed twice. -/
theorem nodup_addresses (r : Report) : r.addresses.Nodup := nodup_firstSeen _ _

/-! ## The document form -/

/-- A text, or null. -/
def jsonText? : Option String → Text.Json
  | none => .null
  | some s => .text s

/-- A scanned section in the document. -/
def jsonSection (s : Section) : Text.Json :=
  .record [("name", .text s.name), ("base", .integer s.base), ("size", .integer s.content.size)]

/-- A match in the document. -/
def jsonMatch (m : Match × String) : Text.Json :=
  .record [("arch", .text m.1.arch.name), ("section", .text m.2), ("offset", .integer m.1.offset),
    ("module_data_va", .integer m.1.address)]

/-- The report as a document. -/
def json (r : Report) : Text.Json :=
  .record [("sample", .text r.sample), ("format", jsonText? r.format),
    ("sections", .list (r.sections.map jsonSection)),
    ("matches", .list (r.placedMatches.map jsonMatch)), ("error", jsonText? r.error)]

/-! ## The text form -/

/-- Text followed by spaces up to a width. -/
def padRight (width : Nat) (s : String) : String :=
  s ++ String.ofList (List.replicate (width - s.length) ' ')

/-- The line for a match. -/
def matchLine (m : Match × String) : String :=
  s!"{padRight 7 m.1.arch.name} {padRight 12 m.2} +{Text.paddedHex 10 m.1.offset}  " ++
    s!"moduledata={Text.hex m.1.address}"

/-- The lines for the matches, or for their lack where nothing went wrong. -/
def lines (r : Report) : List String :=
  r.placedMatches.map matchLine ++
    if r.error.isNone && !r.hasMatches then ["No module data reference found"] else []

end Report

end SigScan
