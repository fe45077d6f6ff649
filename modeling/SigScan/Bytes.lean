/-
# Byte sequences and the numbers stored in them

A file, the content of a section and a field of a header are all byte sequences.
Three ways of looking into one are defined here:

* `Bytes.slice`: a stretch of bytes, cut at the end of the data;
* `Bytes.uint`: a number of a fixed width, or the account of how many of its bytes are missing;
* `Bytes.zeroFrom?`: the position of the next zero byte.

`Bytes.uint_isOk_iff` says where a number can be read, and `Bytes.getElem?_of_zeroAmong?` what is
at the position that is found.
-/
namespace SigScan

/-- A byte sequence: a file, the content of a section, a field. -/
abbrev Bytes := Array UInt8

/-- The order in which the bytes of a number are stored. -/
inductive ByteOrder where
  /-- Least significant byte first. -/
  | little
  /-- Most significant byte first. -/
  | big
  deriving DecidableEq, Repr

/-- A field that is cut short: its width and the number of bytes that are there. -/
structure Shortfall where
  expected : Nat
  found : Nat
  deriving DecidableEq, Repr

/-! ## Numbers as byte lists -/

/-- The number whose bytes are listed from the least significant one on. -/
def ofLittle : List UInt8 → Nat
  | [] => 0
  | b :: rest => b.toNat + 256 * ofLittle rest

/-- The number stored in a list of bytes. -/
def ByteOrder.number : ByteOrder → List UInt8 → Nat
  | .little, bs => ofLittle bs
  | .big, bs => ofLittle bs.reverse

/-- The two's-complement reading of an unsigned number that is `width` bytes wide. -/
def signed (width n : Nat) : Int := (BitVec.ofNat (8 * width) n).toInt

/-! ## Looking into the data -/

/-- The `length` bytes from `offset` on, as far as the data reach. -/
def Bytes.slice (data : Bytes) (offset length : Nat) : Bytes :=
  data.extract offset (offset + length)

/-- A slice is as long as asked, or ends with the data. -/
theorem Bytes.size_slice (data : Bytes) (offset length : Nat) :
    (data.slice offset length).size = min length (data.size - offset) := by
  simp only [Bytes.slice, Array.size_extract]
  omega

/-- The bytes of a slice are the bytes of the data from `offset` on. -/
theorem Bytes.toList_slice (data : Bytes) (offset length : Nat) :
    (data.slice offset length).toList = (data.toList.drop offset).take length := by
  simp [Bytes.slice, Array.toList_extract]

/-- The unsigned number of `width` bytes at `offset`. -/
def Bytes.uint (data : Bytes) (order : ByteOrder) (offset width : Nat) : Except Shortfall Nat :=
  let field := data.slice offset width
  if field.size = width then .ok (order.number field.toList) else .error ⟨width, field.size⟩

/-- A number can be read exactly where all its bytes are. -/
theorem Bytes.uint_isOk_iff {data : Bytes} {order : ByteOrder} {offset width : Nat}
    (h : 0 < width) :
    (∃ n, data.uint order offset width = .ok n) ↔ offset + width ≤ data.size := by
  simp only [Bytes.uint, Bytes.size_slice]
  split
  · simp
    omega
  · simp
    omega

/-- The little-endian number of `width` bytes at `offset`; bytes past the end count as zero. -/
def Bytes.paddedUint (data : Bytes) (offset width : Nat) : Nat :=
  ofLittle (data.slice offset width).toList

/-- The position of the first zero byte among the `count` bytes from `i` on. -/
def Bytes.zeroAmong? (data : Bytes) : Nat → Nat → Option Nat
  | 0, _ => none
  | count + 1, i => if data[i]? = some 0 then some i else Bytes.zeroAmong? data count (i + 1)

/-- The position of the first zero byte at or after `i`. -/
def Bytes.zeroFrom? (data : Bytes) (i : Nat) : Option Nat := data.zeroAmong? (data.size - i) i

/-- The position that is found holds a zero byte. -/
theorem Bytes.getElem?_of_zeroAmong? {data : Bytes} {count i j : Nat}
    (h : data.zeroAmong? count i = some j) : data[j]? = some 0 := by
  induction count generalizing i with
  | zero => simp [zeroAmong?] at h
  | succ count ih =>
    rw [zeroAmong?] at h
    split at h
    · next hi =>
      cases h
      exact hi
    · exact ih h

/-- The position that is found is not in front of the search. -/
theorem Bytes.le_of_zeroAmong? {data : Bytes} {count i j : Nat}
    (h : data.zeroAmong? count i = some j) : i ≤ j := by
  induction count generalizing i with
  | zero => simp [zeroAmong?] at h
  | succ count ih =>
    rw [zeroAmong?] at h
    split at h
    · cases h
      exact Nat.le_refl _
    · exact Nat.le_of_succ_le (ih h)

end SigScan
