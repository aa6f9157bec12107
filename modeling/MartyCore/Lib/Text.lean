import Mathlib.Data.String.Basic

/-!
# `Lib.Text` — ASCII text

Byte lengths and byte-wise tests on ASCII text. A source that looks at the bytes of a string (`len`,
`is_ascii`, `bytes().all(…)`) and a model that looks at its characters agree as soon as every character is
ASCII; these are the lemmas that say so.
-/

namespace MartyCore.Text

-- the condition is tested on the text, not on all of Unicode
instance decidableAll {p : Char → Prop} [DecidablePred p] (s : List Char) : Decidable (∀ c ∈ s, p c) := List.decidableBAll p s

/-- An ASCII character (one UTF-8 byte, below 128). -/
def isAscii (c : Char) : Bool := decide (c.toNat < 128)

/-- A property of all ASCII characters is checked on their numbers. -/
theorem forall_isAscii {P : Char → Prop} (h : ∀ n : Fin 128, P (Char.ofNat n)) {c : Char}
    (hc : isAscii c = true) : P c := by
  rw [← Char.ofNat_toNat c]
  exact h ⟨c.toNat, of_decide_eq_true hc⟩

theorem utf8Size_of_isAscii {c : Char} (h : isAscii c = true) : c.utf8Size = 1 := by
  rw [Char.utf8Size_eq_one_iff]
  have hlt : c.val.toNat < 128 := of_decide_eq_true h
  exact UInt32.le_iff_toNat_le.mpr (Nat.le_of_lt_succ hlt)

/-- ASCII text has as many bytes as characters. -/
theorem utf8Len_of_isAscii {cs : List Char} (h : cs.all isAscii = true) : String.utf8Len cs = cs.length := by
  induction cs with
  | nil => rfl
  | cons c rest ih =>
    rw [List.all_cons, Bool.and_eq_true] at h
    rw [String.utf8Len_cons, ih h.2, utf8Size_of_isAscii h.1, List.length_cons]

theorem utf8ByteSize_eq_utf8Len (s : String) : s.utf8ByteSize = String.utf8Len s.toList := by
  rw [← String.utf8ByteSize_ofList, String.ofList_toList]

theorem isAlphanum_eq (c : Char) : c.isAlphanum = (c.isUpper || c.isLower || c.isDigit) := rfl

theorem isAscii_of_le {c : Char} {high : UInt32} (hhigh : high.toNat < 128) (h : c.val ≤ high) : isAscii c = true :=
  decide_eq_true (Nat.lt_of_le_of_lt (UInt32.le_iff_toNat_le.mp h) hhigh)

/-- The ranges of letters and digits end below 128. -/
theorem isAscii_of_isAlphanum {c : Char} (h : c.isAlphanum = true) : isAscii c = true := by
  rw [isAlphanum_eq, Bool.or_eq_true, Bool.or_eq_true] at h
  rcases h with (hupper | hlower) | hdigit
  · have hrange : 'A'.val ≤ c.val ∧ c.val ≤ 'Z'.val := of_decide_eq_true hupper
    exact isAscii_of_le (by decide) hrange.2
  · have hrange := (Bool.and_eq_true_iff.mp hlower).2
    exact isAscii_of_le (by decide) (of_decide_eq_true hrange)
  · have hrange := (Bool.and_eq_true_iff.mp hdigit).2
    exact isAscii_of_le (by decide) (of_decide_eq_true hrange)

end MartyCore.Text
