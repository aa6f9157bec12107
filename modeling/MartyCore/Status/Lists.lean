import MartyCore.Lib.Cells
import MartyCore.Lib.Packed
import MartyCore.Status.Model

/-!
# `Status.Lists` — status lists are packed arrays

Both lists are instances of `Packed.Layout`: a token status list reads and writes the slots of `lsbFirst`, a bitstring
status list those of `msbFirst`. Since the number of bytes is part of the types, a valid index is always inside the
data (`byteIndex_lt`) and no shift is too far, so `get` and `set` never panic; what they do is said by one equation
each, and whole runs of operations by `Cells.Machine.Lawful.runAll_spec`.
-/

namespace MartyCore.Status

open Exec
open Packed (Layout)

/-- What is done to a list; `V` is the type of an entry. -/
inductive Operation (V : Type) where
  | set (index : Nat) (status : V)
  | revoke (index : Nat)
  | reinstate (index : Nat)

namespace Operation

variable {V : Type}

def index : Operation V → Nat
  | .set index _ => index
  | .revoke index => index
  | .reinstate index => index

/-- The value an operation writes, given those of a revoked and of a reinstated entry. -/
def status (revoked reinstated : V) : Operation V → V
  | .set _ status => status
  | .revoke _ => revoked
  | .reinstate _ => reinstated

end Operation

/-! ## Arithmetic -/

theorem le_mul_divCeil (a : Nat) {b : Nat} (hb : 0 < b) : a ≤ b * divCeil a b := by
  have hmod := Nat.mod_lt (a + (b - 1)) hb
  have hdiv := Nat.div_add_mod (a + (b - 1)) b
  rw [divCeil]
  omega

theorem div_lt_divCeil {index size b : Nat} (hb : 0 < b) (h : index < size) : index / b < divCeil size b :=
  Nat.div_lt_of_lt_mul (lt_of_lt_of_le h (le_mul_divCeil size hb))

theorem shiftRight_of_lt {ε : Type} {byte : UInt8} {shift : Nat} (h : shift < 8) :
    (shiftRight byte shift : Exec ε UInt8) = .ok (byte >>> UInt8.ofNat shift) := if_pos h

theorem shiftLeft_of_lt {ε : Type} {byte : UInt8} {shift : Nat} (h : shift < 8) :
    (shiftLeft byte shift : Exec ε UInt8) = .ok (byte <<< UInt8.ofNat shift) := if_pos h

theorem set_eq_modify {data : Bytes} {index : Nat} (h : index < data.length) (f : UInt8 → UInt8) :
    data.set index (f data[index]) = data.modify index f := by
  refine List.ext_getElem? fun j => ?_
  by_cases hj : index = j
  · subst hj
    simp [h]
  · simp [hj]

/-! ## Token status lists -/

namespace TokenStatusList

variable (self : TokenStatusList)

theorem bits_pos : 0 < self.bits.toNat := by
  rcases self.bits_valid with h | h | h | h <;> rw [h] <;> decide

theorem bits_le : self.bits.toNat ≤ 8 := by
  rcases self.bits_valid with h | h | h | h <;> rw [h] <;> decide

theorem bits_dvd : self.bits.toNat ∣ 8 := by
  rcases self.bits_valid with h | h | h | h <;> rw [h] <;> decide

def layout : Layout := Packed.lsbFirst self.bits.toNat self.bits_pos self.bits_le

theorem mask_eq : self.mask = self.layout.mask := by
  show self.mask = UInt8.ofNat (2 ^ self.bits.toNat - 1)
  unfold mask
  rcases self.bits_valid with h | h | h | h <;> rw [h] <;> rfl

variable {index : Nat}

theorem byteIndex_lt (h : index < self.size) : index / self.layout.perByte < self.data.length := by
  rw [self.length_eq]
  exact div_lt_divCeil self.layout.perByte_pos h

theorem shift_lt (index : Nat) : index % (8 / self.bits.toNat) * self.bits.toNat < 8 := by
  have hfits := (self.layout.slot index).fits
  have hpos := (self.layout.slot index).width_pos
  show (self.layout.slot index).shift < 8
  omega

/-- The entry at an index. -/
def entry (index : Nat) : UInt8 := (self.layout.get? self.data index).getD 0

/-- The list with one entry replaced. -/
def withEntry (index : Nat) (status : UInt8) : TokenStatusList :=
  { self with
    data := self.layout.put self.data index status
    length_eq := (List.length_modify _ _ _).trans self.length_eq }

theorem get_eq (index : Nat) : self.get index =
    if index < self.size then .ok (self.entry index) else Exec.fail (.indexOutOfRange index self.size) := by
  by_cases h : index < self.size
  · have hbyte := self.byteIndex_lt h
    have hentry : self.entry index = (self.layout.slot index).get self.data[index / self.layout.perByte] := by
      rw [entry, Layout.get?, List.getElem?_eq_getElem hbyte]
      rfl
    rw [if_pos h, hentry, get, validateIndex, reject_neg_bind (by omega)]
    show (Exec.index self.data (index / self.layout.perByte) >>= _) = _
    rw [index_of_lt hbyte, Result.ok_bind, shiftRight_of_lt (self.shift_lt index), mask_eq]
    rfl
  · rw [if_neg h, get, validateIndex, reject_pos_bind (by omega)]

/-- The error a write is refused with. -/
def refusal (index : Nat) (status : UInt8) : Option StatusListError :=
  if self.size ≤ index then some (.indexOutOfRange index self.size)
  else if self.mask < status then some (.statusOutOfRange status self.bits self.mask)
  else none

variable {status : UInt8}

theorem refusal_eq_none_iff : self.refusal index status = none ↔ index < self.size ∧ status ≤ self.mask := by
  rw [refusal]
  by_cases hindex : self.size ≤ index
  · simp [hindex]
  · by_cases hstatus : self.mask < status
    · simp [hindex, hstatus]
    · simp [hindex, hstatus, Nat.lt_of_not_le hindex, UInt8.not_lt.mp hstatus]

theorem run_set_of_refusal {e : StatusListError} (h : self.refusal index status = some e) :
    Method.run (set index status) self = (.error (.err e), self) := by
  rw [refusal] at h
  rw [set, Method.run_get_bind]
  by_cases hindex : self.size ≤ index
  · rw [if_pos hindex, Option.some.injEq] at h
    rw [← h]
    exact Method.run_call_error_bind (reject_pos hindex) _ _
  · have hvalid : self.validateIndex index = .ok () := reject_neg hindex
    rw [if_neg hindex] at h
    rw [Method.run_call_bind hvalid]
    by_cases hstatus : self.mask < status
    · rw [if_pos hstatus, Option.some.injEq] at h
      rw [← h]
      exact Method.run_call_error_bind (reject_pos hstatus) _ _
    · rw [if_neg hstatus] at h
      cases h

theorem run_set (h : self.refusal index status = none) :
    Method.run (set index status) self = (.ok (), self.withEntry index status) := by
  obtain ⟨hindex, hstatus⟩ := self.refusal_eq_none_iff.mp h
  have hvalid : self.validateIndex index = .ok () := reject_neg (Nat.not_le_of_lt hindex)
  have hbyte := self.byteIndex_lt hindex
  have hread : Exec.index self.data (index / (8 / self.bits.toNat)) =
    (.ok self.data[index / self.layout.perByte] : Exec StatusListError UInt8) := index_of_lt hbyte
  have hwrite : self.withByte (index / self.layout.perByte)
      ((self.layout.slot index).put self.data[index / self.layout.perByte] status) = self.withEntry index status :=
    TokenStatusList.ext rfl (set_eq_modify hbyte (fun b => (self.layout.slot index).put b status)) rfl
  rw [set, Method.run_get_bind, Method.run_call_bind hvalid]
  rw [Method.run_call_bind (reject_neg (UInt8.not_lt.mpr hstatus)), Method.run_call_bind hread,
    Method.run_call_bind (shiftLeft_of_lt (self.shift_lt index)),
    Method.run_call_bind (shiftLeft_of_lt (self.shift_lt index)), Method.run_set, mask_eq, ← hwrite]
  rfl

theorem entry_withEntry (h : self.refusal index status = none) :
    (self.withEntry index status).entry = Function.update self.entry index status := by
  obtain ⟨hindex, hstatus⟩ := self.refusal_eq_none_iff.mp h
  have hlayout : (self.withEntry index status).layout = self.layout := rfl
  funext j
  rw [entry, hlayout, withEntry, Layout.get?_put _ (self.byteIndex_lt hindex) (self.mask_eq ▸ hstatus),
    Function.update_apply]
  split
  · rfl
  · rfl

/-- **The entries are the digits of the bytes** to the base `2 ^ bits`, the lowest first. -/
theorem entry_eq_digit (h : index < self.size) :
    self.entry index = UInt8.ofNat (Bytes.leVal self.data / 2 ^ (self.bits.toNat * index) % 2 ^ self.bits.toNat) := by
  have hdigit := Packed.get?_lsbFirst self.bits_pos self.bits_le self.bits_dvd (self.byteIndex_lt h)
  obtain ⟨value, hvalue, hnat⟩ := Option.map_eq_some_iff.mp hdigit
  rw [← hnat, UInt8.ofNat_toNat, entry, layout, hvalue]
  rfl

end TokenStatusList

/-- Token status lists under their operations. -/
def tokenMachine : Cells.Machine TokenStatusList StatusListError UInt8 (Operation UInt8) where
  apply
    | .set index status => TokenStatusList.set index status
    | .revoke index => TokenStatusList.revoke index
    | .reinstate index => TokenStatusList.reinstate index
  size := TokenStatusList.size
  view := TokenStatusList.entry
  index := Operation.index
  value := Operation.status 1 0
  refusal self operation := self.refusal operation.index (operation.status 1 0)

theorem tokenMachine_apply (operation : Operation UInt8) :
    tokenMachine.apply operation = TokenStatusList.set operation.index (operation.status 1 0) := by
  cases operation <;> rfl

theorem tokenMachine_lawful : tokenMachine.Lawful where
  refused self operation e h := by
    rw [tokenMachine_apply]
    exact self.run_set_of_refusal h
  accepted self operation h := by
    rw [tokenMachine_apply]
    exact ⟨_, self.run_set h, self.entry_withEntry h, rfl, rfl⟩

/-- No operation changes the width of the entries. -/
theorem tokenMachine_bits (operations : List (Operation UInt8)) (list : TokenStatusList) :
    (tokenMachine.runAll operations list).2.bits = list.bits := by
  refine Cells.Machine.runAll_keeps (P := fun (reached : TokenStatusList) => reached.bits = list.bits) ?_ operations rfl
  intro self operation hbits
  rw [tokenMachine_apply]
  cases h : self.refusal operation.index (operation.status 1 0) with
  | some e => rwa [self.run_set_of_refusal h]
  | none => rwa [self.run_set h]

/-! ## Bitstring status lists -/

namespace BitstringStatusList

variable (self : BitstringStatusList)

variable {index : Nat}

theorem byteIndex_lt (h : index < self.size) : index / 8 < self.data.length := by
  rw [self.length_eq]
  exact div_lt_divCeil (by omega) h

theorem shift_lt (index : Nat) : 7 - index % 8 < 8 := by omega

/-- The bit of an entry. -/
def bitOf (revoked : Bool) : UInt8 := if revoked then 1 else 0

theorem bitOf_le (revoked : Bool) : bitOf revoked ≤ Packed.msbFirst.mask := by
  cases revoked <;> decide

def entry (index : Nat) : Bool := (Packed.msbFirst.get? self.data index).getD 0 == 1

def withEntry (index : Nat) (revoked : Bool) : BitstringStatusList :=
  { self with
    data := Packed.msbFirst.put self.data index (bitOf revoked)
    length_eq := (List.length_modify _ _ _).trans self.length_eq }

theorem get_eq (index : Nat) : self.get index =
    if index < self.size then .ok (self.entry index) else Exec.fail (.indexOutOfRange index self.size) := by
  by_cases h : index < self.size
  · have hbyte := self.byteIndex_lt h
    have hentry : self.entry index = ((Packed.msbFirst.slot index).get self.data[index / 8] == 1) := by
      show (((self.data[index / 8]?.map (Packed.msbFirst.slot index).get).getD 0) == 1) = _
      rw [List.getElem?_eq_getElem hbyte]
      rfl
    rw [if_pos h, hentry, get, validateIndex, reject_neg_bind (by omega)]
    dsimp only
    rw [index_of_lt hbyte, Result.ok_bind, shiftRight_of_lt (shift_lt index)]
    rfl
  · rw [if_neg h, get, validateIndex, reject_pos_bind (by omega)]

/-- The error a write is refused with. -/
def refusal (index : Nat) : Option StatusListError :=
  if self.size ≤ index then some (.indexOutOfRange index self.size) else none

variable {revoked : Bool}

theorem run_set_of_refusal {e : StatusListError} (h : self.refusal index = some e) :
    Method.run (set index revoked) self = (.error (.err e), self) := by
  rw [refusal] at h
  by_cases hindex : self.size ≤ index
  · rw [if_pos hindex, Option.some.injEq] at h
    rw [← h]
    exact Method.run_call_error_bind (reject_pos hindex) _ _
  · rw [if_neg hindex] at h
    cases h

theorem lt_of_refusal (h : self.refusal index = none) : index < self.size := by
  by_contra hindex
  rw [refusal, if_pos (Nat.le_of_not_lt hindex)] at h
  cases h

/-- Setting a bit is or-ing it in, clearing it is and-ing its complement. -/
theorem put_bitOf (index : Nat) (byte : UInt8) (revoked : Bool) :
    (if revoked then byte ||| (1 : UInt8) <<< UInt8.ofNat (7 - index % 8)
      else byte &&& ~~~((1 : UInt8) <<< UInt8.ofNat (7 - index % 8))) =
      (Packed.msbFirst.slot index).put byte (bitOf revoked) := by
  cases revoked with
  | true => exact ((Packed.msbFirst.slot index).put_mask byte).symm
  | false => exact ((Packed.msbFirst.slot index).put_zero byte).symm

theorem run_set (h : self.refusal index = none) :
    Method.run (set index revoked) self = (.ok (), self.withEntry index revoked) := by
  have hindex := self.lt_of_refusal h
  have hvalid : self.validateIndex index = .ok () := reject_neg (Nat.not_le_of_lt hindex)
  have hbyte := self.byteIndex_lt hindex
  have hwrite : self.withByte (index / 8) ((Packed.msbFirst.slot index).put self.data[index / 8] (bitOf revoked)) =
      self.withEntry index revoked :=
    BitstringStatusList.ext
      (set_eq_modify hbyte (fun b => (Packed.msbFirst.slot index).put b (bitOf revoked))) rfl
  rw [set, Method.run_get_bind, Method.run_call_bind hvalid]
  rw [Method.run_call_bind (index_of_lt hbyte), Method.run_call_bind (shiftLeft_of_lt (shift_lt index)),
    Method.run_set, put_bitOf, hwrite]

theorem entry_withEntry (h : self.refusal index = none) :
    (self.withEntry index revoked).entry = Function.update self.entry index revoked := by
  funext j
  rw [entry, withEntry, Layout.get?_put _ (self.byteIndex_lt (self.lt_of_refusal h)) (bitOf_le revoked),
    Function.update_apply]
  split
  · cases revoked <;> rfl
  · rfl

/-- **The entries are the bits of the bytes**, the highest first. -/
theorem entry_eq_digit (h : index < self.size) :
    self.entry index = decide (Bytes.beVal self.data / 2 ^ (8 * self.data.length - 1 - index) % 2 = 1) := by
  obtain ⟨value, hvalue, hnat⟩ := Option.map_eq_some_iff.mp (Packed.get?_msbFirst (self.byteIndex_lt h))
  rw [← Nat.pow_one 2, ← hnat, entry, hvalue]
  show (value == 1) = decide (value.toNat = (1 : UInt8).toNat)
  rw [Bool.eq_iff_iff, beq_iff_eq, decide_eq_true_iff, UInt8.toNat_inj]

end BitstringStatusList

/-- Bitstring status lists under their operations. -/
def bitstringMachine : Cells.Machine BitstringStatusList StatusListError Bool (Operation Bool) where
  apply
    | .set index revoked => BitstringStatusList.set index revoked
    | .revoke index => BitstringStatusList.revoke index
    | .reinstate index => BitstringStatusList.reinstate index
  size := BitstringStatusList.size
  view := BitstringStatusList.entry
  index := Operation.index
  value := Operation.status true false
  refusal self operation := self.refusal operation.index

theorem bitstringMachine_apply (operation : Operation Bool) :
    bitstringMachine.apply operation = BitstringStatusList.set operation.index (operation.status true false) := by
  cases operation <;> rfl

theorem bitstringMachine_lawful : bitstringMachine.Lawful where
  refused self operation e h := by
    rw [bitstringMachine_apply]
    exact self.run_set_of_refusal h
  accepted self operation h := by
    rw [bitstringMachine_apply]
    exact ⟨_, self.run_set h, self.entry_withEntry h, rfl, rfl⟩

end MartyCore.Status
