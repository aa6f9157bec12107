import Mathlib.Data.Nat.Bitwise
import MartyCore.Lib.Bytes

/-!
# `Lib.Packed` — small entries packed into bytes

Several entries share a byte: an entry occupies a `Slot`, a run of bits inside its byte, and is read by a shift and
a mask and written by clearing the slot and or-ing the shifted value in. Everything about one byte follows from
what the bits of a written byte are (`testBit_put`): the value inside the slot and the old bits outside.

A `Layout` says which slot of its byte each entry has, for any order of the slots; `get?_put` is then the law of
arrays for whole byte strings. The two usual orders are `lsbFirst` and `msbFirst`, and for both the entries are the
digits of the byte string as a number (`get?_lsbFirst`, `get?_msbFirst`).
-/

namespace MartyCore.Packed

/-! ## One byte -/

/-- The bits `shift, …, shift + width - 1` of a byte. -/
structure Slot where
  shift : Nat
  width : Nat
  width_pos : 0 < width
  fits : shift + width ≤ 8

namespace Slot

variable (slot : Slot) (b v : UInt8)

/-- The largest value of a slot. -/
def mask : UInt8 := UInt8.ofNat (2 ^ slot.width - 1)

def get : UInt8 := (b >>> UInt8.ofNat slot.shift) &&& slot.mask

def put : UInt8 := (b &&& ~~~(slot.mask <<< UInt8.ofNat slot.shift)) ||| (v <<< UInt8.ofNat slot.shift)

theorem toNat_mask : slot.mask.toNat = 2 ^ slot.width - 1 := by
  have hle : 2 ^ slot.width ≤ 2 ^ 8 := Nat.pow_le_pow_right (by omega) (by have := slot.fits; omega)
  exact Nat.mod_eq_of_lt (by omega)

theorem toNat_shift : (UInt8.ofNat slot.shift).toNat % 8 = slot.shift := by
  have hfits := slot.fits
  have hpos := slot.width_pos
  rw [UInt8.toNat_ofNat']
  omega

theorem testBit_not (k : Nat) : (~~~b).toNat.testBit k = (decide (k < 8) && !b.toNat.testBit k) := by
  have hsize : UInt8.size - 1 - b.toNat = 2 ^ 8 - (b.toNat + 1) := by
    show 256 - 1 - b.toNat = 256 - (b.toNat + 1)
    omega
  rw [UInt8.toNat_not, hsize, Nat.testBit_two_pow_sub_succ b.toNat_lt]

theorem testBit_shiftLeft (k : Nat) : (v <<< UInt8.ofNat slot.shift).toNat.testBit k =
    (decide (k < 8) && (decide (slot.shift ≤ k) && v.toNat.testBit (k - slot.shift))) := by
  rw [UInt8.toNat_shiftLeft, toNat_shift, Nat.testBit_mod_two_pow, Nat.testBit_shiftLeft]

theorem testBit_get (k : Nat) :
    (slot.get b).toNat.testBit k = (b.toNat.testBit (slot.shift + k) && decide (k < slot.width)) := by
  rw [get, UInt8.toNat_and, UInt8.toNat_shiftRight, toNat_shift, toNat_mask, Nat.testBit_and,
    Nat.testBit_shiftRight, Nat.testBit_two_pow_sub_one]

variable {v : UInt8}

/-- A value has no bits above the width. -/
theorem testBit_eq_false (hv : v ≤ slot.mask) {k : Nat} (hk : slot.width ≤ k) :
    v.toNat.testBit k = false := by
  have hle : v.toNat ≤ slot.mask.toNat := UInt8.le_iff_toNat_le.mp hv
  have hpos := Nat.two_pow_pos slot.width
  have hpow : 2 ^ slot.width ≤ 2 ^ k := Nat.pow_le_pow_right (by omega) hk
  rw [toNat_mask] at hle
  exact Nat.testBit_lt_two_pow (by omega)

/-- **The bits of a written byte**: the value's inside the slot, the old ones outside. -/
theorem testBit_put (hv : v ≤ slot.mask) (k : Nat) :
    (slot.put b v).toNat.testBit k =
      if slot.shift ≤ k ∧ k < slot.shift + slot.width then v.toNat.testBit (k - slot.shift)
      else b.toNat.testBit k := by
  have hfits := slot.fits
  have hhigh : 8 ≤ k → b.toNat.testBit k = false := fun hk =>
    Nat.testBit_lt_two_pow (lt_of_lt_of_le b.toNat_lt (Nat.pow_le_pow_right (by omega) hk))
  rw [put, UInt8.toNat_or, Nat.testBit_or, UInt8.toNat_and, Nat.testBit_and, testBit_not, testBit_shiftLeft,
    testBit_shiftLeft, toNat_mask, Nat.testBit_two_pow_sub_one]
  by_cases hin : slot.shift ≤ k ∧ k < slot.shift + slot.width
  · rw [if_pos hin]
    have hk : k < 8 := by omega
    have hw : k - slot.shift < slot.width := by omega
    simp [hin.1, hk, hw]
  · rw [if_neg hin]
    -- below the slot nothing was shifted in, above it the value has no bits
    by_cases hlow : slot.shift ≤ k
    · have hw : slot.width ≤ k - slot.shift := by omega
      have hbit := slot.testBit_eq_false hv hw
      by_cases hk : k < 8
      · simp [hk, hw.not_gt, hbit]
      · simp [hk, hhigh (by omega)]
    · have hk : k < 8 := by omega
      simp [hlow, hk]

/-- What a slot holds is the digits of the byte above the shift. -/
theorem toNat_get : (slot.get b).toNat = b.toNat / 2 ^ slot.shift % 2 ^ slot.width := by
  rw [get, UInt8.toNat_and, UInt8.toNat_shiftRight, toNat_shift, toNat_mask, Nat.and_two_pow_sub_one_eq_mod,
    Nat.shiftRight_eq_div_pow]

/-- A slot holds what was put into it. -/
theorem get_put (hv : v ≤ slot.mask) : slot.get (slot.put b v) = v := by
  refine UInt8.toNat_inj.mp (Nat.eq_of_testBit_eq fun k => ?_)
  rw [testBit_get, testBit_put slot b hv]
  by_cases hk : k < slot.width
  · simp [hk]
  · simp [hk, slot.testBit_eq_false hv (not_lt.mp hk)]

/-- Zero is put by clearing the slot. -/
theorem put_zero : slot.put b 0 = b &&& ~~~(slot.mask <<< UInt8.ofNat slot.shift) := by
  rw [put, UInt8.zero_shiftLeft, UInt8.or_zero]

/-- The largest value is put without clearing the slot first. -/
theorem put_mask : slot.put b slot.mask = b ||| slot.mask <<< UInt8.ofNat slot.shift := by
  rw [put]
  generalize slot.mask <<< UInt8.ofNat slot.shift = m
  refine UInt8.toBitVec_inj.mp ?_
  ext k hk
  simp only [UInt8.toBitVec_or, UInt8.toBitVec_and, UInt8.toBitVec_not, BitVec.getElem_or, BitVec.getElem_and,
    BitVec.getElem_not]
  cases m.toBitVec[k] <;> simp

/-- Writing a slot leaves what another one holds. -/
theorem get_put_of_disjoint {other : Slot} (hv : v ≤ slot.mask)
    (hdisjoint : slot.shift + slot.width ≤ other.shift ∨ other.shift + other.width ≤ slot.shift) :
    other.get (slot.put b v) = other.get b := by
  refine UInt8.toNat_inj.mp (Nat.eq_of_testBit_eq fun k => ?_)
  rw [testBit_get, testBit_get, testBit_put slot b hv]
  by_cases hk : k < other.width
  · rw [if_neg (by omega)]
  · simp [hk]

end Slot

/-! ## Byte strings -/

/-- Where entries are: `perByte` of them in each byte, the `k`-th of a byte at `shift k`. -/
structure Layout where
  width : Nat
  perByte : Nat
  shift : Nat → Nat
  width_pos : 0 < width
  perByte_pos : 0 < perByte
  fits : ∀ k, k < perByte → shift k + width ≤ 8
  disjoint : ∀ k k', k < perByte → k' < perByte → k ≠ k' → shift k + width ≤ shift k' ∨ shift k' + width ≤ shift k

namespace Layout

variable (layout : Layout) (data : Bytes)

/-- The slot of entry `i` in its byte. -/
def slot (i : Nat) : Slot where
  shift := layout.shift (i % layout.perByte)
  width := layout.width
  width_pos := layout.width_pos
  fits := layout.fits _ (Nat.mod_lt i layout.perByte_pos)

/-- The largest value of an entry. -/
def mask : UInt8 := UInt8.ofNat (2 ^ layout.width - 1)

/-- Entry `i`, if the byte string has it. -/
def get? (i : Nat) : Option UInt8 := data[i / layout.perByte]?.map (layout.slot i).get

/-- The byte string with entry `i` replaced. -/
def put (i : Nat) (v : UInt8) : Bytes := data.modify (i / layout.perByte) (fun b => (layout.slot i).put b v)

/-- **Packed entries are an array**: what is put at an index is what is read there, and nothing else changes. -/
theorem get?_put {data : Bytes} {i : Nat} {v : UInt8} (hi : i / layout.perByte < data.length) (hv : v ≤ layout.mask)
    (j : Nat) : layout.get? (layout.put data i v) j = if j = i then some v else layout.get? data j := by
  rw [get?, get?, put, List.getElem?_modify]
  by_cases hbyte : i / layout.perByte = j / layout.perByte
  · -- both entries are in one byte
    rw [← hbyte, List.getElem?_eq_getElem hi]
    simp only [Option.map_eq_map, Option.map_some, if_true]
    by_cases hji : j = i
    · rw [if_pos hji, hji, (layout.slot i).get_put _ hv]
    · rw [if_neg hji]
      have hne : i % layout.perByte ≠ j % layout.perByte := by
        intro hmod
        apply hji
        rw [← Nat.div_add_mod j layout.perByte, ← Nat.div_add_mod i layout.perByte, hbyte, hmod]
      have hdisjoint : (layout.slot i).shift + (layout.slot i).width ≤ (layout.slot j).shift ∨
          (layout.slot j).shift + (layout.slot j).width ≤ (layout.slot i).shift :=
        layout.disjoint _ _ (Nat.mod_lt i layout.perByte_pos) (Nat.mod_lt j layout.perByte_pos) hne
      rw [(layout.slot i).get_put_of_disjoint _ hv hdisjoint]
  · have hji : j ≠ i := fun h => hbyte (by rw [h])
    simp [hbyte, hji]

end Layout

/-- Entries from the low end of each byte up. -/
def lsbFirst (width : Nat) (hpos : 0 < width) (hle : width ≤ 8) : Layout where
  width := width
  perByte := 8 / width
  shift k := k * width
  width_pos := hpos
  perByte_pos := Nat.div_pos hle hpos
  fits k hk := by
    have hmul : (k + 1) * width ≤ 8 / width * width := Nat.mul_le_mul_right width hk
    have hdiv : 8 / width * width ≤ 8 := Nat.div_mul_le_self 8 width
    rw [Nat.succ_mul] at hmul
    omega
  disjoint k k' hk hk' hne := by
    rcases Nat.lt_or_gt_of_ne hne with hlt | hlt
    · left
      have hmul : (k + 1) * width ≤ k' * width := Nat.mul_le_mul_right width hlt
      rwa [Nat.succ_mul] at hmul
    · right
      have hmul : (k' + 1) * width ≤ k * width := Nat.mul_le_mul_right width hlt
      rwa [Nat.succ_mul] at hmul

/-- Single bits from the high end of each byte down. -/
def msbFirst : Layout where
  width := 1
  perByte := 8
  shift k := 7 - k
  width_pos := by omega
  perByte_pos := by omega
  fits k hk := by omega
  disjoint k k' hk hk' hne := by omega

/-! ## Entries as digits -/

variable {data : Bytes}

/-- The bytes of a little-endian string are its digits to the base 256. -/
theorem leVal_digit {q : Nat} (hq : q < data.length) :
    Bytes.leVal data / 256 ^ q % 256 = data[q].toNat := by
  induction data generalizing q with
  | nil => cases hq
  | cons b rest ih =>
    have hb := b.toNat_lt
    cases q with
    | zero =>
      simp only [Bytes.leVal, Nat.pow_zero, Nat.div_one, List.getElem_cons_zero]
      omega
    | succ q =>
      have hdiv : (b.toNat + 256 * Bytes.leVal rest) / 256 = Bytes.leVal rest := by omega
      rw [Bytes.leVal, Nat.pow_succ', ← Nat.div_div_eq_div_mul, hdiv, List.getElem_cons_succ]
      exact ih (Nat.lt_of_succ_lt_succ hq)

/-- A digit of a byte is a digit of the number the byte is part of. -/
theorem digit_of_byte {n q s w : Nat} (hfits : s + w ≤ 8) :
    n / 2 ^ (8 * q + s) % 2 ^ w = n / 256 ^ q % 256 / 2 ^ s % 2 ^ w := by
  have hpow : 2 ^ (8 * q + s) = 256 ^ q * 2 ^ s := by rw [Nat.pow_add, Nat.pow_mul]
  rw [hpow, ← Nat.div_div_eq_div_mul]
  generalize n / 256 ^ q = m
  refine Nat.eq_of_testBit_eq fun k => ?_
  rw [show (256 : Nat) = 2 ^ 8 from rfl]
  simp only [Nat.testBit_mod_two_pow, Nat.testBit_div_two_pow]
  by_cases hk : k < w
  · have hlow : k + s < 8 := by omega
    simp [hlow]
  · simp [hk]

/-- Entry `i`, counted from the low end, is digit `i` of the little-endian number to the base `2 ^ width`. -/
theorem get?_lsbFirst {width : Nat} (hpos : 0 < width) (hle : width ≤ 8) (hdvd : width ∣ 8) {i : Nat}
    (hi : i / (8 / width) < data.length) :
    ((lsbFirst width hpos hle).get? data i).map UInt8.toNat =
      some (Bytes.leVal data / 2 ^ (width * i) % 2 ^ width) := by
  have hexp : width * i = 8 * (i / (8 / width)) + i % (8 / width) * width := by
    conv_lhs => rw [← Nat.div_add_mod i (8 / width), Nat.mul_add, ← Nat.mul_assoc, Nat.mul_div_cancel' hdvd]
    rw [Nat.mul_comm width]
  have hslot : i % (8 / width) * width + width ≤ 8 := ((lsbFirst width hpos hle).slot i).fits
  rw [hexp, digit_of_byte hslot, leVal_digit hi]
  show (data[i / (8 / width)]?.map ((lsbFirst width hpos hle).slot i).get).map UInt8.toNat = _
  rw [List.getElem?_eq_getElem hi, Option.map_some, Option.map_some, Slot.toNat_get]
  rfl

/-- Bit `i`, counted from the high end, is bit `8 * length - 1 - i` of the big-endian number. -/
theorem get?_msbFirst {i : Nat} (hi : i / 8 < data.length) :
    (msbFirst.get? data i).map UInt8.toNat = some (Bytes.beVal data / 2 ^ (8 * data.length - 1 - i) % 2 ^ 1) := by
  have hexp : 8 * data.length - 1 - i = 8 * (data.length - 1 - i / 8) + (7 - i % 8) := by omega
  have hq : data.length - 1 - i / 8 < data.reverse.length := by
    rw [List.length_reverse]
    omega
  have hbyte : data.reverse[data.length - 1 - i / 8] = data[i / 8] := by
    rw [List.getElem_reverse]
    congr 1
    omega
  rw [hexp, digit_of_byte (by omega), Bytes.beVal, leVal_digit hq, hbyte]
  show (data[i / 8]?.map (msbFirst.slot i).get).map UInt8.toNat = _
  rw [List.getElem?_eq_getElem hi, Option.map_some, Option.map_some, Slot.toNat_get]
  rfl

end MartyCore.Packed
