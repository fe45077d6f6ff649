/-
# Paths

A path is a row of names between slashes, from the root or from the current directory. Empty
names and `.` say nothing and are left out; `..` stays. Two slashes at the start are a root of
their own, any other number of them is the usual root. The names are Unicode text, so their bytes
are those of its UTF-8 form.

`mem_names` says what names a path is left with.
-/
namespace SigScan

/-- A path without empty names and `.`. -/
structure Path where
  /-- The slashes that a path from a root starts with. -/
  root : String
  names : List String
  deriving DecidableEq, Repr

namespace Path

/-- The stretches of a text between the slashes. -/
def stretches : List Char → List (List Char)
  | [] => [[]]
  | c :: rest =>
    if c = '/' then [] :: stretches rest
    else
      match stretches rest with
      | [] => [[c]]
      | first :: more => (c :: first) :: more

/-- Does a name say anything? -/
def isName (name : List Char) : Bool := name != [] && name != ['.']

/-- The root that a text with so many slashes in front starts from. -/
def rootOf (slashes : Nat) : String :=
  if slashes = 0 then "" else if slashes = 2 then "//" else "/"

/-- The path that a text denotes. -/
def ofString (text : String) : Path where
  root := rootOf (text.toList.takeWhile (· = '/')).length
  names := ((stretches text.toList).filter isName).map String.ofList

/-- The text of a path; the current directory is `.`. -/
def text (p : Path) : String :=
  if p.root = "" ∧ p.names = [] then "." else p.root ++ "/".intercalate p.names

instance : ToString Path := ⟨Path.text⟩

/-- Is there a zero character in the path? No file has such a name. -/
def hasZero (p : Path) : Bool := p.names.any fun name => name.toList.contains '\x00'

/-- The names of a path are the stretches of its text that say anything. -/
theorem mem_names {s name : String} :
    name ∈ (ofString s).names ↔ name.toList ∈ stretches s.toList ∧ isName name.toList = true := by
  simp only [ofString, List.mem_map, List.mem_filter]
  constructor
  · rintro ⟨chars, h, rfl⟩
    simpa using h
  · intro h
    exact ⟨name.toList, h, by simp⟩

end Path

end SigScan
