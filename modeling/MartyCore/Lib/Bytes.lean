import Mathlib.Algebra.Order.Ring.Int
import Mathlib.Data.List.Basic

/-!
# `Lib.Bytes` — byte strings, fixed-size blocks and counters

Byte strings are lists. A fixed-size array is a `Block n`, which carries its length. The one arithmetic
operation is the successor of a big-endian counter that refuses to wrap: `increment` walks from the last byte
towards the first, as a carry does, and `increment_spec` says that it adds one.
-/

namespace MartyCore

abbrev Bytes := List UInt8

/-- `[u8; n]`. -/
structure Block (n : Nat) where
  bytes : Bytes
  length_eq : bytes.length = n
deriving DecidableEq

/-- `count_ones`. -/
def countOnes (byte : UInt8) : Nat := (List.range 8).countP (fun k => byte.toNat.testBit k)

def Block.zero {n : Nat} : Block n := ⟨List.replicate n 0, List.length_replicate⟩

namespace Bytes

/-- The value of a little-endian byte string. -/
def leVal : Bytes → Nat
  | [] => 0
  | b :: rest => b.toNat + 256 * leVal rest

/-- The value of a big-endian byte string. -/
def beVal (bytes : Bytes) : Nat := leVal bytes.reverse

/-- Add one to a little-endian byte string; `none` when every byte is `0xff`. -/
def incrementLe : Bytes → Option Bytes
  | [] => none
  | b :: rest => if b ≠ 255 then some ((b + 1) :: rest) else (incrementLe rest).map (0 :: ·)

/-- Add one to a big-endian byte string. -/
def increment (bytes : Bytes) : Option Bytes := (incrementLe bytes.reverse).map List.reverse

theorem toNat_add_one {b : UInt8} (h : b ≠ 255) : (b + 1).toNat = b.toNat + 1 := by
  have hlt := b.toNat_lt
  have hne : b.toNat ≠ 255 := fun heq => h (UInt8.toNat_inj.mp heq)
  show (b.toNat + 1) % 256 = b.toNat + 1
  omega

theorem incrementLe_spec {bytes next : Bytes} (h : incrementLe bytes = some next) :
    leVal next = leVal bytes + 1 ∧ next.length = bytes.length := by
  induction bytes generalizing next with
  | nil => cases h
  | cons b rest ih =>
    unfold incrementLe at h
    split at h
    · rename_i hb
      cases h
      refine ⟨?_, rfl⟩
      show (b + 1).toNat + 256 * leVal rest = b.toNat + 256 * leVal rest + 1
      rw [toNat_add_one hb]
      omega
    · rename_i hb
      obtain ⟨tail, htail, rfl⟩ := Option.map_eq_some_iff.mp h
      obtain ⟨hval, hlen⟩ := ih htail
      refine ⟨?_, by rw [List.length_cons, List.length_cons, hlen]⟩
      -- the byte was 255 and carries
      have hb' : b.toNat = 255 := by rw [not_ne_iff.mp hb]; rfl
      show (0 : UInt8).toNat + 256 * leVal tail = b.toNat + 256 * leVal rest + 1
      rw [hval, hb']
      show 0 + 256 * (leVal rest + 1) = 255 + 256 * leVal rest + 1
      omega

/-- The successor adds one and keeps the length. -/
theorem increment_spec {bytes next : Bytes} (h : increment bytes = some next) :
    beVal next = beVal bytes + 1 ∧ next.length = bytes.length := by
  obtain ⟨le, hle, rfl⟩ := Option.map_eq_some_iff.mp h
  obtain ⟨hval, hlen⟩ := incrementLe_spec hle
  refine ⟨?_, by rw [List.length_reverse, hlen, List.length_reverse]⟩
  unfold beVal
  rw [List.reverse_reverse, hval]

/-- `u32::to_be_bytes`. -/
def be32 (n : UInt32) : Bytes :=
  [UInt8.ofNat (n.toNat / 2 ^ 24), UInt8.ofNat (n.toNat / 2 ^ 16), UInt8.ofNat (n.toNat / 2 ^ 8), UInt8.ofNat n.toNat]

theorem be32_injective {m n : UInt32} (h : be32 m = be32 n) : m = n := by
  simp only [be32, List.cons.injEq, and_true, UInt8.ofNat_eq_iff_mod_eq_toNat, UInt8.toNat_ofNat'] at h
  have hm := m.toNat_lt
  have hn := n.toNat_lt
  apply UInt32.toNat_inj.mp
  omega

end Bytes

/-- The successor of a fixed-size big-endian counter. -/
def Block.increment {n : Nat} (block : Block n) : Option (Block n) :=
  match h : Bytes.increment block.bytes with
  | none => none
  | some next => some ⟨next, (Bytes.increment_spec h).2.trans block.length_eq⟩

theorem Block.increment_spec {n : Nat} {block next : Block n} (h : block.increment = some next) :
    Bytes.beVal next.bytes = Bytes.beVal block.bytes + 1 := by
  unfold Block.increment at h
  split at h
  · cases h
  · rename_i bytes hbytes
    cases h
    exact (Bytes.increment_spec hbytes).1

end MartyCore
