import Mathlib.Algebra.Order.Ring.Int
import Mathlib.Data.Prod.Lex

/-!
# `Lib.Instant` — instants of UTC, leap seconds included

An instant is a second and nanoseconds into it. The last second of a minute may be followed by a leap second, which is
written as a second's worth of further nanoseconds, so the order is the lexicographic one. Seconds are those from the
first day of the year -262143 to the last of 262142; the years 0 to 9999, in which a year has four digits, are singled out.
-/

namespace MartyCore

structure Instant where
  seconds : Int
  nanos : Nat
  range : -8334601228800 ≤ seconds ∧ seconds < 8210266876800
  leap : nanos < 10 ^ 9 ∨ seconds % 60 = 59 ∧ nanos < 2 * 10 ^ 9
deriving DecidableEq

namespace Instant

theorem ext_of {a b : Instant} (hs : a.seconds = b.seconds) (hn : a.nanos = b.nanos) : a = b := by
  obtain ⟨_, _, _, _⟩ := b
  cases hs
  cases hn
  rfl

def key (t : Instant) : Int ×ₗ Nat := toLex (t.seconds, t.nanos)

theorem key_injective : Function.Injective key := by
  intro a b h
  have hpair : (a.seconds, a.nanos) = (b.seconds, b.nanos) := h
  exact ext_of (Prod.ext_iff.mp hpair).1 (Prod.ext_iff.mp hpair).2

instance : LinearOrder Instant := LinearOrder.lift' key key_injective

theorem lt_iff {a b : Instant} : a < b ↔ a.seconds < b.seconds ∨ a.seconds = b.seconds ∧ a.nanos < b.nanos :=
  Prod.Lex.toLex_lt_toLex

def epoch : Instant := ⟨0, 0, by decide, by decide⟩

/-- Not in a leap second. -/
def Plain (t : Instant) : Prop := t.nanos < 10 ^ 9

/-- In the years 0 to 9999. -/
def InYears (t : Instant) : Prop := -62167219200 ≤ t.seconds ∧ t.seconds < 253402300800

instance (t : Instant) : Decidable (InYears t) := inferInstanceAs (Decidable (_ ∧ _))

/-- So many seconds later, or nothing when that is out of range. A leap second counts as the second before it. -/
def later (n : Nat) (t : Instant) : Option Instant :=
  if h : t.seconds + n < 8210266876800 then
    some ⟨t.seconds + n, t.nanos % 10 ^ 9, ⟨by have := t.range; omega, h⟩, .inl (Nat.mod_lt _ (by decide))⟩
  else none

variable {n : Nat} {a b c d : Instant}

/-- Later than an instant that is not in a leap second, and than every one before it. -/
theorem later_mono (hb : b.Plain) (hab : a ≤ b) (ha : a.Plain) (hc : a.later n = some c) (hd : b.later n = some d) :
    c ≤ d := by
  unfold later at hc hd
  split at hc <;> cases hc
  split at hd <;> cases hd
  by_contra hlt
  rcases lt_iff.mp (not_le.mp hlt) with h | ⟨h, hn⟩
  · exact absurd hab (not_le.mpr (lt_iff.mpr (.inl (by simpa using h))))
  · simp only [Nat.mod_eq_of_lt ha, Nat.mod_eq_of_lt hb] at hn
    exact absurd hab (not_le.mpr (lt_iff.mpr (.inr ⟨by simpa using h, hn⟩)))

/-- In four-digit years, and before them, some months later is in range. -/
theorem exists_later (hn : n ≤ 10 ^ 7) (hab : a ≤ b) (hb : b.InYears) : ∃ c, a.later n = some c := by
  have hseconds : a.seconds ≤ b.seconds := by
    by_contra hlt
    exact absurd hab (not_le.mpr (lt_iff.mpr (.inl (by omega))))
  have hlt := hb.2
  unfold later
  rw [dif_pos (by omega)]
  exact ⟨_, rfl⟩

end Instant
end MartyCore
