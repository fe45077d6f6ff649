/-
# Overwriting what a pattern leaves open

Bytes in the middle of the data are overwritten by as many others. The data keep their size and all
other bytes, so a pattern that asks nothing of the overwritten bytes still occurs where it did.
Bytes that a pattern asks for one by one, on the other hand, are found wherever it occurs.

* `Bytes.holds_overwrite`, `Bytes.getElem?_overwrite`: the overwritten bytes, and the others;
* `Pattern.OccursIn.overwrite`: what is left open may be overwritten;
* `Pattern.OccursIn.holds`: what is asked for is there.
-/
import SigScan.Proofs.Pattern.Occurs

namespace SigScan

/-! ## Overwriting -/

/-- The data with other bytes from the position `p` on. -/
def Bytes.overwrite (data : Bytes) (p : Nat) (bs : List UInt8) : Bytes :=
  (data.toList.take p ++ bs ++ data.toList.drop (p + bs.length)).toArray

/-- Overwriting bytes of the data keeps their size. -/
theorem Bytes.size_overwrite {data : Bytes} {p : Nat} {bs : List UInt8}
    (h : p + bs.length ≤ data.size) : (data.overwrite p bs).size = data.size := by
  rw [Bytes.overwrite, List.size_toArray, List.length_append, List.length_append, List.length_take,
    List.length_drop, Array.length_toList]
  omega

/-- The data hold what they were overwritten with. -/
theorem Bytes.holds_overwrite {data : Bytes} {p : Nat} {bs : List UInt8} (h : p ≤ data.size) :
    (data.overwrite p bs).Holds p bs := by
  have hlength : (data.toList.take p).length = p := by
    rw [List.length_take, Array.length_toList]
    omega
  show bs <+: (data.toList.take p ++ bs ++ data.toList.drop (p + bs.length)).drop p
  rw [List.append_assoc, List.drop_left' hlength]
  exact List.prefix_append _ _

/-- The bytes in front of those that are overwritten, and behind them, are kept. -/
theorem Bytes.getElem?_overwrite {data : Bytes} {p i : Nat} {bs : List UInt8}
    (h : p + bs.length ≤ data.size) (hi : i < p ∨ p + bs.length ≤ i) :
    (data.overwrite p bs)[i]? = data[i]? := by
  have hlength : (data.toList.take p).length = p := by
    rw [List.length_take, Array.length_toList]
    omega
  rw [Bytes.overwrite, List.getElem?_toArray, List.append_assoc]
  rcases hi with hfront | hbehind
  · rw [List.getElem?_append_left (by omega), List.getElem?_take_of_lt hfront,
      Array.getElem?_toList]
  · rw [List.getElem?_append_right (by omega), List.getElem?_append_right (by omega), hlength,
      List.getElem?_drop, Array.getElem?_toList]
    congr 1
    omega

/-- What the data hold elsewhere is kept. -/
theorem Bytes.Holds.overwrite {data : Bytes} {p q : Nat} {bs cs : List UInt8}
    (h : data.Holds q cs) (hroom : p + bs.length ≤ data.size)
    (hout : p + bs.length ≤ q ∨ q + cs.length ≤ p) : (data.overwrite p bs).Holds q cs := by
  refine Bytes.holds_of_getElem? fun i hi => ?_
  rw [Bytes.getElem?_overwrite hroom (by omega)]
  exact h.getElem? hi

namespace Pattern

/-! ## What a pattern leaves open -/

/-- The pattern asks nothing of the `width` bytes from the place on. -/
def OpenAt (text : String) (place width : Nat) : Prop :=
  ∃ masks, byteMasks text = .ok masks ∧ ∀ k < width, masks[place + k]? = some ⟨0, 0⟩

/-- Every byte is admitted where none of its bits count. -/
theorem admits_open (b : UInt8) : (⟨0, 0⟩ : ByteMask).admits b = true := by
  rw [ByteMask.admits_iff]
  exact UInt8.and_zero

/-- **What a pattern leaves open may be overwritten.** -/
theorem OccursIn.overwrite {text : String} {data : Bytes} {offset place width : Nat}
    {bs : List UInt8} (h : OccursIn text data offset) (hlength : bs.length = width)
    (hopen : OpenAt text place width) (hin : place + width ≤ size text) :
    OccursIn text (data.overwrite (offset + place) bs) offset := by
  subst hlength
  obtain ⟨hle, masks, hmasks, hbytes⟩ := h
  have hroom : offset + place + bs.length ≤ data.size := by omega
  refine ⟨by rwa [Bytes.size_overwrite hroom], masks, hmasks, fun k hk => ?_⟩
  by_cases hplace : place ≤ k ∧ k < place + bs.length
  · -- an overwritten byte, of which nothing is asked
    obtain ⟨others, hothers, hwild⟩ := hopen
    have hsame := hmasks.symm.trans hothers
    cases hsame
    have hmask := hwild (k - place) (by omega)
    rw [show place + (k - place) = k from by omega] at hmask
    have hlt : offset + k < (data.overwrite (offset + place) bs).size := by
      rw [Bytes.size_overwrite hroom]
      omega
    refine ⟨_, Array.getElem?_eq_getElem hlt, ?_⟩
    rw [(List.getElem_eq_iff hk).2 hmask]
    exact admits_open _
  · rw [Bytes.getElem?_overwrite hroom (by omega)]
    exact hbytes k hk

/-- An occurrence that is not overwritten stays. -/
theorem OccursIn.overwrite_outside {text : String} {data : Bytes} {offset p : Nat}
    {bs : List UInt8} (h : OccursIn text data offset) (hroom : p + bs.length ≤ data.size)
    (hout : p + bs.length ≤ offset ∨ offset + size text ≤ p) :
    OccursIn text (data.overwrite p bs) offset := by
  refine (occursIn_congr ?_ fun k hk => ?_).1 h
  · rw [Bytes.size_overwrite hroom]
  · exact (Bytes.getElem?_overwrite hroom (by omega)).symm

/-! ## What a pattern asks for -/

/-- The pattern asks for these bytes, bit by bit, from the place on. -/
def AsksFor (text : String) (place : Nat) (bs : List UInt8) : Prop :=
  ∃ masks, byteMasks text = .ok masks ∧
    ∀ k (h : k < bs.length), masks[place + k]? = some ⟨bs[k], 0xFF⟩

/-- Only one byte is admitted where all bits count. -/
theorem eq_of_admits_whole {v b : UInt8} (h : (⟨v, 0xFF⟩ : ByteMask).admits b = true) : b = v := by
  have hvalue : b &&& 0xFF = v := (ByteMask.admits_iff _ b).1 h
  have hwhole : b &&& 0xFF = b := UInt8.and_neg_one
  exact hwhole.symm.trans hvalue

/-- **What a pattern asks for is there** wherever it occurs. -/
theorem OccursIn.holds {text : String} {data : Bytes} {offset place : Nat} {bs : List UInt8}
    (h : OccursIn text data offset) (hasks : AsksFor text place bs) :
    data.Holds (offset + place) bs := by
  obtain ⟨-, masks, hmasks, hbytes⟩ := h
  obtain ⟨others, hothers, hwhole⟩ := hasks
  have hsame := hmasks.symm.trans hothers
  cases hsame
  refine Bytes.holds_of_getElem? fun k hk => ?_
  obtain ⟨hlt, hmask⟩ := List.getElem?_eq_some_iff.1 (hwhole k hk)
  obtain ⟨b, hb, hadmits⟩ := hbytes (place + k) hlt
  rw [hmask] at hadmits
  rw [Nat.add_assoc, hb, eq_of_admits_whole hadmits, List.getElem?_eq_getElem hk]

end Pattern

end SigScan
