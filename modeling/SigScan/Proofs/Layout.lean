/-
# Laying bytes out in a file

The writing side of `SigScan.Bytes`: a number is written in so many bytes, fields are written one
after the other, and blocks of bytes are put into a file. `Bytes.Holds data p bs` says that the
data have the bytes `bs` from the position `p` on; whatever is read there is then known.

* `ByteOrder.number_bytes`, `ByteOrder.signed_number_signedBytes`: a number is read back as it was
  written;
* `Bytes.holds_append`: two blocks in a row; `Bytes.Holds.block`: a block of a row, by its index;
* `Bytes.Holds.uint`, `Bytes.Holds.slice_eq`, `Bytes.Holds.zeroFrom?`: what is read;
* `Bytes.Holds.reads`: the fields of a row are read one by one.
-/
import SigScan.Proofs.Numbers

namespace SigScan

/-! ## Numbers as bytes -/

/-- The lowest `width` bytes of a number, from the least significant one on. -/
def toLittle : Nat → Nat → List UInt8
  | 0, _ => []
  | width + 1, n => UInt8.ofNat n :: toLittle width (n / 256)

/-- The bytes of a number, as they are stored. -/
def ByteOrder.bytes : ByteOrder → Nat → Nat → List UInt8
  | .little, width, n => toLittle width n
  | .big, width, n => (toLittle width n).reverse

/-- A number is written in as many bytes as asked. -/
theorem length_toLittle (width n : Nat) : (toLittle width n).length = width := by
  induction width generalizing n with
  | zero => rfl
  | succ width ih => rw [toLittle, List.length_cons, ih]

/-- The width of a written number, in either byte order. -/
@[simp]
theorem ByteOrder.length_bytes (order : ByteOrder) (width n : Nat) :
    (order.bytes width n).length = width := by
  cases order with
  | little => exact length_toLittle width n
  | big => rw [ByteOrder.bytes, List.length_reverse, length_toLittle]

/-- A number that fits its width is read back from its bytes. -/
theorem ofLittle_toLittle (width n : Nat) (h : n < 256 ^ width) :
    ofLittle (toLittle width n) = n := by
  induction width generalizing n with
  | zero =>
    rw [Nat.pow_zero] at h
    rw [toLittle, ofLittle]
    omega
  | succ width ih =>
    have hrest : n / 256 < 256 ^ width := by
      rw [Nat.pow_succ] at h
      exact Nat.div_lt_of_lt_mul (by omega)
    rw [toLittle, ofLittle, ih (n / 256) hrest, UInt8.toNat_ofNat']
    omega

/-- **A number is read back as it was written**, in either byte order. -/
theorem ByteOrder.number_bytes (order : ByteOrder) (width n : Nat) (h : n < 256 ^ width) :
    order.number (order.bytes width n) = n := by
  cases order with
  | little => exact ofLittle_toLittle width n h
  | big =>
    rw [ByteOrder.bytes, ByteOrder.number, List.reverse_reverse]
    exact ofLittle_toLittle width n h

/-- The two's-complement bytes of an integer, as they are stored. -/
def ByteOrder.signedBytes (order : ByteOrder) (width : Nat) (z : Int) : List UInt8 :=
  order.bytes width (z % 256 ^ width).toNat

/-- **An integer is read back from its two's-complement bytes** if there is room for it. -/
theorem ByteOrder.signed_number_signedBytes (order : ByteOrder) {width : Nat} {z : Int}
    (hlow : -(256 ^ width) ≤ 2 * z) (hhigh : 2 * z < 256 ^ width) :
    signed width (order.number (order.signedBytes width z)) = z := by
  have hpos : (0 : Int) < 256 ^ width := by positivity
  have hnonneg : 0 ≤ z % 256 ^ width := Int.emod_nonneg z hpos.ne'
  have hlt : z % 256 ^ width < 256 ^ width := Int.emod_lt_of_pos z hpos
  have hfits : (z % 256 ^ width).toNat < 256 ^ width := by
    zify
    rwa [Int.toNat_of_nonneg hnonneg]
  rw [ByteOrder.signedBytes, order.number_bytes width _ hfits, signed_eq hfits]
  -- below zero the bytes are those of the number one turn further on
  rcases lt_or_ge z 0 with hneg | hneg
  · have hturn : z % 256 ^ width = z + 256 ^ width := by
      rw [← Int.add_emod_right, Int.emod_eq_of_lt (by omega) (by omega)]
    rw [if_neg (by zify; rw [Int.toNat_of_nonneg hnonneg, hturn]; omega),
      Int.toNat_of_nonneg hnonneg, hturn]
    omega
  · have hsame : z % 256 ^ width = z := Int.emod_eq_of_lt hneg (by omega)
    rw [if_pos (by zify; rw [Int.toNat_of_nonneg hnonneg, hsame]; omega),
      Int.toNat_of_nonneg hnonneg, hsame]

/-- Fields in a row, each given by its width and its value. -/
def ByteOrder.fields (order : ByteOrder) (fs : List (Nat × Nat)) : List UInt8 :=
  fs.flatMap fun f => order.bytes f.1 f.2

/-- A row of fields is as long as its widths together. -/
theorem ByteOrder.length_fields (order : ByteOrder) (fs : List (Nat × Nat)) :
    (order.fields fs).length = (fs.map (·.1)).sum := by
  induction fs with
  | nil => rfl
  | cons f rest ih =>
    rw [ByteOrder.fields, List.flatMap_cons, List.length_append, ByteOrder.length_bytes,
      ← ByteOrder.fields, ih, List.map_cons, List.sum_cons]

/-! ## What a file holds -/

/-- The data have these bytes from the position `p` on. -/
def Bytes.Holds (data : Bytes) (p : Nat) (bs : List UInt8) : Prop := bs <+: data.toList.drop p

/-- A file holds its own bytes. -/
theorem Bytes.holds_self (bs : List UInt8) : Bytes.Holds bs.toArray 0 bs := by
  show bs <+: bs
  exact List.prefix_rfl

/-- Two blocks in a row: the second starts where the first one ends. -/
theorem Bytes.holds_append (data : Bytes) (p : Nat) (bs cs : List UInt8) :
    data.Holds p (bs ++ cs) ↔ data.Holds p bs ∧ data.Holds (p + bs.length) cs := by
  constructor
  · rintro ⟨rest, h⟩
    refine ⟨⟨cs ++ rest, by rw [← h, List.append_assoc]⟩, ⟨rest, ?_⟩⟩
    rw [← List.drop_drop, ← h, List.append_assoc, List.drop_left]
  · rintro ⟨⟨rest, h⟩, ⟨more, h'⟩⟩
    rw [← List.drop_drop, ← h, List.drop_left] at h'
    exact ⟨more, by rw [← h, ← h', List.append_assoc]⟩

/-- Where a block of a row starts, counted from the start of the row. -/
def startOf (blocks : List (List UInt8)) (i : Nat) : Nat := (blocks.take i).flatten.length

/-- Blocks of one width start at the multiples of it. -/
theorem startOf_of_width (blocks : List (List UInt8)) (width i : Nat)
    (h : ∀ b ∈ blocks, b.length = width) (hi : i ≤ blocks.length) :
    startOf blocks i = i * width := by
  have hw : ∀ n ∈ (blocks.take i).map List.length, n = width := by
    intro n hn
    obtain ⟨b, hb, rfl⟩ := List.mem_map.1 hn
    exact h b (List.mem_of_mem_take hb)
  rw [startOf, List.length_flatten, List.eq_replicate_of_mem hw, List.sum_replicate_nat,
    List.length_map, List.length_take, Nat.min_eq_left hi]

/-- Blocks start at multiples of whatever divides their widths. -/
theorem dvd_startOf {blocks : List (List UInt8)} {k : Nat} (h : ∀ b ∈ blocks, k ∣ b.length)
    (i : Nat) : k ∣ startOf blocks i := by
  rw [startOf, List.length_flatten]
  refine List.dvd_sum fun n hn => ?_
  obtain ⟨b, hb, rfl⟩ := List.mem_map.1 hn
  exact h b (List.mem_of_mem_take hb)

/-- A block starts no later than the row ends. -/
theorem startOf_le (blocks : List (List UInt8)) (i : Nat) :
    startOf blocks i ≤ blocks.flatten.length := by
  have h := congrArg (fun bs => bs.flatten.length) (List.take_append_drop i blocks)
  simp only [List.flatten_append, List.length_append] at h
  rw [startOf]
  omega

/-- **A block of a row**, at its place in the file. -/
theorem Bytes.Holds.block {data : Bytes} {p : Nat} {blocks : List (List UInt8)}
    (h : data.Holds p blocks.flatten) (i : Nat) (b : List UInt8) (hb : blocks[i]? = some b) :
    data.Holds (p + startOf blocks i) b := by
  obtain ⟨hi, rfl⟩ := List.getElem?_eq_some_iff.1 hb
  have hsplit : blocks.flatten =
      (blocks.take i).flatten ++ (blocks[i] ++ (blocks.drop (i + 1)).flatten) := by
    rw [← List.flatten_cons, ← List.drop_eq_getElem_cons hi, ← List.flatten_append,
      List.take_append_drop]
  rw [hsplit, Bytes.holds_append, Bytes.holds_append] at h
  exact h.2.1

/-! ## What is read -/

/-- The bytes that a file holds end inside it. -/
theorem Bytes.Holds.length_le {data : Bytes} {p : Nat} {bs : List UInt8} (h : data.Holds p bs) :
    bs.length ≤ data.size - p := by
  have hle := List.IsPrefix.length_le h
  rwa [List.length_drop, Array.length_toList] at hle

/-- A slice is what the file holds there. -/
theorem Bytes.Holds.toList_slice {data : Bytes} {p : Nat} {bs : List UInt8}
    (h : data.Holds p bs) : (data.slice p bs.length).toList = bs := by
  rw [Bytes.toList_slice]
  exact (List.prefix_iff_eq_take.1 h).symm

/-- As many bytes that are held at the same place are the same bytes. -/
theorem Bytes.Holds.eq_of_length {data : Bytes} {p : Nat} {bs cs : List UInt8}
    (hbs : data.Holds p bs) (hcs : data.Holds p cs) (h : bs.length = cs.length) : bs = cs := by
  rw [← hbs.toList_slice, h, hcs.toList_slice]

/-- A slice of a whole block is the block. -/
theorem Bytes.Holds.slice_eq {data content : Bytes} {p : Nat} (h : data.Holds p content.toList) :
    data.slice p content.size = content := by
  apply Array.ext'
  rw [← Array.length_toList]
  exact h.toList_slice

/-- A byte of what the file holds. -/
theorem Bytes.Holds.getElem? {data : Bytes} {p : Nat} {bs : List UInt8} (h : data.Holds p bs)
    {i : Nat} (hi : i < bs.length) : data[p + i]? = bs[i]? := by
  obtain ⟨rest, h⟩ := h
  rw [← Array.getElem?_toList, ← List.getElem?_drop, ← h, List.getElem?_append_left hi]

/-- Bytes that are all there, one by one, are held. -/
theorem Bytes.holds_of_getElem? {data : Bytes} {p : Nat} {bs : List UInt8}
    (h : ∀ i < bs.length, data[p + i]? = bs[i]?) : data.Holds p bs := by
  refine List.prefix_iff_getElem?.2 fun i hi => ?_
  rw [List.getElem?_drop, Array.getElem?_toList, h i hi, List.getElem?_eq_getElem hi]

/-- What is held is held further on when the data stand between others. -/
theorem Bytes.Holds.between {data : Bytes} {p : Nat} {bs : List UInt8} (h : data.Holds p bs)
    (front behind : Bytes) : (front ++ data ++ behind).Holds (front.size + p) bs := by
  have hlist : (front ++ data ++ behind).toList.drop (front.size + p) =
      data.toList.drop p ++ behind.toList.drop (p - data.toList.length) := by
    rw [Array.append_assoc, Array.toList_append, Array.toList_append, ← Array.length_toList,
      List.drop_length_add_append, List.drop_append]
  rw [Bytes.Holds, hlist]
  exact List.IsPrefix.trans h (List.prefix_append _ _)

/-- **A written number is read back.** -/
theorem Bytes.Holds.uint {data : Bytes} {order : ByteOrder} {p width n : Nat}
    (h : data.Holds p (order.bytes width n)) (hn : n < 256 ^ width) :
    data.uint order p width = .ok n := by
  have hs := h.toList_slice
  rw [ByteOrder.length_bytes] at hs
  have hsize : (data.slice p width).size = width := by
    rw [← Array.length_toList, hs, ByteOrder.length_bytes]
  rw [Bytes.uint]
  simp only [hsize, if_true, hs, order.number_bytes width n hn]

/-- Every field has room for its number. -/
def FieldsFit (fs : List (Nat × Nat)) : Prop := ∀ f ∈ fs, f.2 < 256 ^ f.1

instance (fs : List (Nat × Nat)) : Decidable (FieldsFit fs) := List.decidableBAll _ _

/-- The fields of a row can be read, each where the one before it ends. -/
def Bytes.Reads (data : Bytes) (order : ByteOrder) : Nat → List (Nat × Nat) → Prop
  | _, [] => True
  | p, f :: rest => data.uint order p f.1 = .ok f.2 ∧ data.Reads order (p + f.1) rest

/-- **The fields of a written row are read back.** -/
theorem Bytes.Holds.reads {data : Bytes} {order : ByteOrder} {p : Nat} {fs : List (Nat × Nat)}
    (h : data.Holds p (order.fields fs)) (hfit : FieldsFit fs) : data.Reads order p fs := by
  induction fs generalizing p with
  | nil => exact trivial
  | cons f rest ih =>
    rw [ByteOrder.fields, List.flatMap_cons, ← ByteOrder.fields, Bytes.holds_append,
      ByteOrder.length_bytes] at h
    exact ⟨h.1.uint (hfit f (by simp)), ih h.2 fun g hg => hfit g (List.mem_cons_of_mem f hg)⟩

/-- The first zero byte behind bytes other than zero. -/
theorem Bytes.zeroAmong?_of_ne {data : Bytes} (count i k : Nat) (hk : k < count)
    (hne : ∀ j < k, data[i + j]? ≠ some 0) (hz : data[i + k]? = some 0) :
    data.zeroAmong? count i = some (i + k) := by
  induction count generalizing i k with
  | zero => omega
  | succ count ih =>
    rw [Bytes.zeroAmong?]
    cases k with
    | zero =>
      rw [Nat.add_zero] at hz
      rw [if_pos hz, Nat.add_zero]
    | succ k =>
      have hi : data[i]? ≠ some 0 := hne 0 (Nat.succ_pos k)
      rw [if_neg hi]
      rw [show i + (k + 1) = i + 1 + k from by omega] at hz ⊢
      refine ih (i + 1) k (by omega) (fun j hj => ?_) hz
      rw [show i + 1 + j = i + (j + 1) from by omega]
      exact hne (j + 1) (by omega)

/-- Bytes other than zero, and a zero byte that ends them. -/
theorem Bytes.Holds.zeroFrom? {data : Bytes} {p : Nat} {bs : List UInt8}
    (h : data.Holds p (bs ++ [0])) (hbs : ∀ b ∈ bs, b ≠ 0) :
    data.zeroFrom? p = some (p + bs.length) := by
  have hlen : bs.length + 1 ≤ data.size - p := by simpa using h.length_le
  refine Bytes.zeroAmong?_of_ne (data.size - p) p bs.length (by omega) (fun j hj => ?_) ?_
  · rw [h.getElem? (by simp; omega), List.getElem?_append_left hj, List.getElem?_eq_getElem hj]
    intro h0
    exact hbs _ (List.getElem_mem hj) (Option.some.inj h0)
  · rw [h.getElem? (by simp), List.getElem?_append_right (Nat.le_refl _), Nat.sub_self]
    rfl

end SigScan
