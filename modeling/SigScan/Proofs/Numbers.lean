/-
# The bounds of numbers

A number is bounded by the room it is stored or written in: the bytes of a field, or the digits of
a decimal text.

* `ByteOrder.number_lt`, `Bytes.uint_lt`, `ByteOrder.number_slice_lt`: a number in so many bytes;
* `signed_eq`: a two's-complement number;
* `isWritable_iff`: an integer that is not too long in decimal.
-/
import Mathlib
import SigScan.Bytes
import SigScan.Text.Decimal

namespace SigScan

/-! ## Bytes -/

/-- A number is below the power of 256 that its width gives. -/
theorem ofLittle_lt (bs : List UInt8) : ofLittle bs < 256 ^ bs.length := by
  induction bs with
  | nil => simp [ofLittle]
  | cons b rest ih =>
    have hb : b.toNat < 256 := b.toNat_lt
    rw [ofLittle, List.length_cons, Nat.pow_succ]
    omega

/-- The bound of `ofLittle_lt` in either byte order. -/
theorem ByteOrder.number_lt (order : ByteOrder) (bs : List UInt8) :
    order.number bs < 256 ^ bs.length := by
  cases order with
  | little => exact ofLittle_lt bs
  | big =>
    have hlt := ofLittle_lt bs.reverse
    rwa [List.length_reverse] at hlt

/-- A number that is read is below the power of 256 that its width gives. -/
theorem Bytes.uint_lt {data : Bytes} {order : ByteOrder} {offset width n : Nat}
    (h : data.uint order offset width = .ok n) : n < 256 ^ width := by
  simp only [Bytes.uint] at h
  split at h
  · next hsize =>
    cases h
    have hlt := order.number_lt (data.slice offset width).toList
    rwa [Array.length_toList, hsize] at hlt
  · cases h

/-- A number that is read as far as there are bytes is below that power, too. -/
theorem ByteOrder.number_slice_lt (order : ByteOrder) (data : Bytes) (offset width : Nat) :
    order.number (data.slice offset width).toList < 256 ^ width := by
  have hsize : (data.slice offset width).toList.length ≤ width := by
    rw [Array.length_toList, Bytes.size_slice]
    exact Nat.min_le_left _ _
  exact Nat.lt_of_lt_of_le (order.number_lt _) (Nat.pow_le_pow_right (by decide) hsize)

/-- A two's-complement number is the unsigned one, less the power of 256 that its width gives where
it lies in the upper half. -/
theorem signed_eq {width n : Nat} (h : n < 256 ^ width) :
    signed width n = if 2 * n < 256 ^ width then (n : Int) else n - 256 ^ width := by
  have hpow : 2 ^ (8 * width) = 256 ^ width := Nat.pow_mul 2 8 width
  rw [signed, BitVec.toInt_eq_toNat_cond, BitVec.toNat_ofNat, hpow, Nat.mod_eq_of_lt h]
  push_cast
  rfl

/-! ## Decimal text -/

namespace Text

/-- Integers around zero, below the power of ten that the limit gives, can be written. -/
theorem isWritable_iff {n : Int} : isWritable n = true ↔ n.natAbs < 10 ^ digitLimit := by
  rw [isWritable, decide_eq_true_iff]
  exact Nat.length_toDigits_le_iff (by decide) (by decide)

end Text

end SigScan
