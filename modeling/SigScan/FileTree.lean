/-
# Looking up a path

What a path leads to: a file, something else, or the reason why the system does not tell. A file
may be there that cannot be read; and where the way to a name is barred, or the name is longer than
names can be, the system does not even say whether a file is there.

A `FileTree` is the content of the current directory; what lies above it is known to be
directories, but not what else they hold.

* `lookup_single`: a name leads to the file of that name;
* `lookup_of_long`: a name that is too long leads nowhere;
* `lookup_eq_unnameable_iff`: which paths are not looked up at all.
-/
import SigScan.Bytes
import SigScan.Path
import SigScan.Text.Quoted

namespace SigScan

/-! ## Refusals -/

/-- Why the system does not do what it is asked: a number, and the words for it. -/
structure SystemError where
  number : Nat
  words : String
  deriving DecidableEq, Repr

namespace SystemError

/-- Nothing has the name. -/
def missing : SystemError := ⟨2, "No such file or directory"⟩

/-- The right to do this is not given. -/
def denied : SystemError := ⟨13, "Permission denied"⟩

/-- The path goes on behind a file. -/
def notADirectory : SystemError := ⟨20, "Not a directory"⟩

/-- A directory has no content to read. -/
def directory : SystemError := ⟨21, "Is a directory"⟩

/-- A name, or the whole path, has too many bytes. -/
def nameTooLong : SystemError := ⟨36, "File name too long"⟩

/-- The words for an error, with its number. -/
def text (e : SystemError) : String := s!"[Errno {e.number}] {e.words}"

/-- The words for an error that a path meets. -/
def textAt (e : SystemError) (path : Path) : String := s!"{e.text}: {Text.quoted path.text}"

end SystemError

/-- Why something cannot be read. -/
inductive ReadError where
  /-- It cannot be opened. -/
  | unopened (e : SystemError)
  /-- It is opened, and then not read to its end. -/
  | broken (e : SystemError)
  deriving DecidableEq, Repr

/-- The words for what cannot be read at a path; an open file no longer tells its path. -/
def ReadError.textAt (path : Path) : ReadError → String
  | .unopened e => e.textAt path
  | .broken e => e.text

/-- What reading gives. -/
inductive Reading where
  | content (bytes : Bytes)
  | failed (e : ReadError)
  deriving DecidableEq, Repr

/-! ## Paths -/

/-- What a path leads to. -/
inductive Lookup where
  | file (content : Bytes)
  /-- A file that cannot be read. -/
  | unreadable (e : ReadError)
  | directory
  /-- No file, such as a device; reading it may give something all the same. -/
  | special (r : Reading)
  /-- Nothing has the name. -/
  | missing
  /-- The path goes on behind a file. -/
  | notADirectory
  /-- The system does not tell whether something is there. -/
  | refused (e : SystemError)
  /-- The path has a zero character in it. -/
  | unnameable
  deriving DecidableEq, Repr

/-- Does the path lead to a file, if the system tells? -/
def Lookup.isFile : Lookup → Except SystemError Bool
  | .file _ | .unreadable _ => .ok true
  | .refused e => .error e
  | _ => .ok false

/-- The files and directories below the current directory, by their names from there on. -/
structure FileTree where
  directories : List (List String)
  /-- The directories that must not be searched for a name. -/
  closed : List (List String) := []
  files : List (List String × Reading)

namespace FileTree

/-- The directories that lead to a name. -/
def parents (names : List String) : List (List String) :=
  (List.range names.length).map names.take

/-- The tree with listed directories and files; of two files with one name the last counts. -/
def ofLists (directories : List String) (files : List (String × Bytes)) : FileTree :=
  let dirs := directories.map fun d => (Path.ofString d).names
  let named := files.reverse.map fun f => ((Path.ofString f.1).names, Reading.content f.2)
  { directories := [] :: dirs ++ dirs.flatMap parents ++ named.flatMap (parents ·.1)
    files := named }

/-- A place that a path passes. -/
inductive Place where
  /-- At the names below the current directory. -/
  | below (names : List String)
  /-- At a directory above the current one, or the root. -/
  | above
  deriving DecidableEq, Repr

/-- What is at a place. -/
def entryAt (t : FileTree) : Place → Lookup
  | .above => .directory
  | .below names =>
    match t.files.lookup names with
    | some (.content bytes) => .file bytes
    | some (.failed e) => .unreadable e
    | none => if t.directories.contains names then .directory else .missing

/-- The most bytes that a name may have. -/
def nameLimit : Nat := 255

/-- The most bytes that the text of a path may have. -/
def pathLimit : Nat := 4095

/-- Why a directory is not searched for a name: it is closed, or no name is that long. -/
def refusal? (t : FileTree) (place : Place) (name : String) : Option SystemError :=
  if t.closed.any (place = .below ·) then some .denied
  else if nameLimit < name.utf8ByteSize then some .nameTooLong
  else none

/-- The place that a name leads to from a directory. -/
def step : Place → String → Option Place
  | .above, name => if name = ".." then some .above else none
  | .below names, name =>
    if name ≠ ".." then some (.below (names ++ [name]))
    else if names.isEmpty then some .above
    else some (.below names.dropLast)

/-- Follows names from a place. -/
def follow (t : FileTree) (place : Place) : List String → Lookup
  | [] => t.entryAt place
  | name :: rest =>
    match t.entryAt place with
    | .directory =>
      match t.refusal? place name, step place name with
      | some e, _ => .refused e
      | none, some next => t.follow next rest
      | none, none => .missing
    | .file _ | .unreadable _ => .notADirectory
    | other => other

/-- What a path leads to. -/
def lookup (t : FileTree) (p : Path) : Lookup :=
  if p.hasZero then .unnameable
  else if pathLimit < p.text.utf8ByteSize then .refused .nameTooLong
  else t.follow (if p.root = "" then .below [] else .above) p.names

/-- A file that is alone in the current directory is found by its name. -/
theorem lookup_single {name : String} (content : Bytes)
    (hplain : Path.ofString name = ⟨"", [name]⟩) (hup : name ≠ "..")
    (hzero : (Path.mk "" [name]).hasZero = false) (hshort : name.utf8ByteSize ≤ nameLimit) :
    (ofLists [] [(name, content)]).lookup (Path.ofString name) = .file content := by
  have htext : (Path.mk "" [name]).text = name := by
    rw [Path.text, if_neg (by simp)]
    exact String.empty_append
  have hfits : ¬ pathLimit < name.utf8ByteSize := by
    simp only [nameLimit, pathLimit] at *
    omega
  have htree : ofLists [] [(name, content)] =
      { directories := [[], []], files := [([name], .content content)] } := by
    simp [ofLists, hplain, parents, List.range_succ]
  rw [hplain, htree]
  simp [lookup, hzero, htext, hfits, follow, entryAt, refusal?, Nat.not_lt.2 hshort, step, hup,
    List.lookup_cons]

/-- A name that is too long is refused, whatever comes behind it. -/
theorem lookup_of_long {t : FileTree} (hcurrent : t.entryAt (.below []) = .directory)
    (hopen : [] ∉ t.closed) {name : String} {rest : List String}
    (hzero : (Path.mk "" (name :: rest)).hasZero = false)
    (hlong : nameLimit < name.utf8ByteSize) :
    t.lookup ⟨"", name :: rest⟩ = .refused .nameTooLong := by
  have hrefusal : t.refusal? (.below []) name = some .nameTooLong := by
    simp [refusal?, hlong, hopen]
  simp [lookup, hzero, follow, hcurrent, hrefusal]

/-- What is at a place has a name. -/
theorem entryAt_ne_unnameable (t : FileTree) (place : Place) :
    t.entryAt place ≠ .unnameable := by
  unfold entryAt
  split
  · simp
  · split
    · simp
    · simp
    · split <;> simp

/-- What names lead to has a name. -/
theorem follow_ne_unnameable (t : FileTree) (names : List String) (place : Place) :
    t.follow place names ≠ .unnameable := by
  induction names generalizing place with
  | nil => exact t.entryAt_ne_unnameable place
  | cons name rest ih =>
    unfold follow
    split
    · split
      · simp
      · exact ih _
      · simp
    · simp
    · simp
    · exact t.entryAt_ne_unnameable place

/-- Only a path with a zero character is not looked up at all. -/
theorem lookup_eq_unnameable_iff (t : FileTree) (p : Path) :
    t.lookup p = .unnameable ↔ p.hasZero = true := by
  unfold lookup
  split
  · next hzero => simp [hzero]
  · next hzero =>
    split
    · simp [hzero]
    · simp [hzero, t.follow_ne_unnameable]

/-- A closed directory refuses even the way back. -/
example :
    let t : FileTree :=
      { directories := [[], ["d"]], closed := [["d"]]
        files := [(["a"], .failed (.unopened .denied)), (["d", "b"], .content #[])] }
    t.lookup ⟨"", ["a"]⟩ = .unreadable (.unopened .denied) ∧
      t.lookup ⟨"", ["d"]⟩ = .directory ∧
      t.lookup ⟨"", ["d", "..", "a"]⟩ = .refused .denied ∧
      t.lookup ⟨"", ["c", "..", "a"]⟩ = .missing := by
  decide

end FileTree

end SigScan
