import MartyCore.Lib.Str

/-!
# `Lib.Calendar` — calendar dates and the texts that denote them

The proleptic Gregorian calendar with four-digit years: a `Date` is a day that exists. Days are counted from
1970-01-01, negatively before it; the count is fixed by the two facts that 1970 starts at zero and that a year starts
where the one before it ends (`daysBeforeYear_succ`).

Numbers of fixed width are written by `digits` and read by `Str.parseUnsigned` (`parseUnsigned_digits`).
-/

namespace MartyCore

open Str

/-! ## Decimal numbers -/

namespace Str

/-- The magnitude of a number: at least one digit, and digits only. -/
def parseDigits (s : Str) : Option Nat :=
  if s ≠ [] ∧ s.all Char.isDigit = true then some (Nat.ofDigitChars 10 s 0) else none

/-- `parse` to an unsigned integer below `limit`: a leading `+` is allowed. -/
def parseUnsigned (limit : Nat) (s : Str) : Option Nat :=
  (parseDigits (if s.head? = some '+' then s.drop 1 else s)).filter (fun n => n < limit)

/-- The integer that a text denotes, with an optional sign. -/
def parseInteger (s : Str) : Option Int :=
  if s.head? = some '-' then (parseDigits (s.drop 1)).map (fun n : Nat => - (n : Int))
  else (parseDigits (if s.head? = some '+' then s.drop 1 else s)).map (fun n : Nat => (n : Int))

/-- `parse` to a signed integer of `width` bits. -/
def parseSigned (width : Nat) (s : Str) : Option Int :=
  (parseInteger s).filter (fun n => - 2 ^ (width - 1) ≤ n ∧ n < 2 ^ (width - 1))

variable {width : Nat} {s : Str}

theorem parseSigned_eq_some_iff {n : Int} : parseSigned (width + 1) s = some n ↔
    parseInteger s = some n ∧ - 2 ^ width ≤ n ∧ n < 2 ^ width := by
  simp [parseSigned, Option.filter_eq_some_iff]

theorem isDigit_of_parseDigits {n : Nat} (h : parseDigits s = some n) : ∀ c ∈ s, c.isDigit = true :=
  List.all_eq_true.mp (Option.ite_none_right_eq_some.mp h).1.2

theorem parseInteger_of_parseDigits {n : Nat} (h : parseDigits s = some n) : parseInteger s = some (n : Int) := by
  have hhead (c : Char) (hc : c.isDigit = false) : s.head? ≠ some c := fun hs =>
    absurd (isDigit_of_parseDigits h c (List.mem_of_mem_head? hs)) (by simp [hc])
  rw [parseInteger, if_neg (hhead '-' rfl), if_neg (hhead '+' rfl), h]
  rfl

/-- A number in `width` decimal digits. -/
def digits : Nat → Nat → Str
  | 0, _ => []
  | width + 1, n => digits width (n / 10) ++ [Char.ofNat (48 + n % 10)]

theorem length_digits (width n : Nat) : (digits width n).length = width := by
  induction width generalizing n with
  | zero => rfl
  | succ width ih => simp [digits, ih]

/-- A property of decimal digits is checked on the ten of them. -/
theorem forall_mem_digits {P : Char → Prop} (h : ∀ k : Fin 10, P (Char.ofNat (48 + k))) (width n : Nat) :
    ∀ c ∈ digits width n, P c := by
  induction width generalizing n with
  | zero => simp [digits]
  | succ width ih =>
    intro c hc
    rw [digits, List.mem_append, List.mem_singleton] at hc
    rcases hc with hc | rfl
    · exact ih _ c hc
    · exact h ⟨n % 10, Nat.mod_lt _ (by decide)⟩

theorem isDigit_of_mem_digits (width n : Nat) : ∀ c ∈ digits width n, c.isDigit = true :=
  forall_mem_digits (by decide) width n

theorem not_mem_digits {c : Char} (hc : c.isDigit = false) (width n : Nat) : c ∉ digits width n := by
  intro hmem
  rw [isDigit_of_mem_digits width n c hmem] at hc
  cases hc

theorem ofDigitChars_digits {n : Nat} (h : n < 10 ^ width) : Nat.ofDigitChars 10 (digits width n) 0 = n := by
  induction width generalizing n with
  | zero =>
    obtain rfl : n = 0 := by simpa using h
    rfl
  | succ width ih =>
    have hvalue : ∀ k : Fin 10, (Char.ofNat (48 + k)).toNat - '0'.toNat = k := by decide
    have hdigit := hvalue ⟨n % 10, Nat.mod_lt _ (by decide)⟩
    rw [digits, Nat.ofDigitChars_append, ih (by rw [Nat.pow_succ] at h; omega), Nat.ofDigitChars_cons, hdigit]
    show 10 * (n / 10) + n % 10 = n
    omega

theorem parseDigits_digits {n : Nat} (hwidth : width ≠ 0) (h : n < 10 ^ width) :
    parseDigits (digits width n) = some n := by
  have hne : digits width n ≠ [] := by
    rw [← List.length_pos_iff, length_digits]
    exact Nat.pos_of_ne_zero hwidth
  rw [parseDigits, if_pos ⟨hne, List.all_eq_true.mpr (isDigit_of_mem_digits width n)⟩, ofDigitChars_digits h]

theorem head?_digits_ne {c : Char} (hc : c.isDigit = false) (width n : Nat) : (digits width n).head? ≠ some c :=
  fun h => not_mem_digits hc width n (List.mem_of_mem_head? h)

theorem digits_injective {m n : Nat} (hm : m < 10 ^ width) (hn : n < 10 ^ width)
    (h : digits width m = digits width n) : m = n := by
  rw [← ofDigitChars_digits hm, h, ofDigitChars_digits hn]

/-- **A number of fixed width is read back.** -/
theorem parseUnsigned_digits {limit n : Nat} (hwidth : width ≠ 0) (h : n < 10 ^ width) (hlimit : n < limit) :
    parseUnsigned limit (digits width n) = some n := by
  rw [parseUnsigned, if_neg (head?_digits_ne rfl width n), parseDigits_digits hwidth h]
  simp [hlimit]

theorem parseSigned_digits {bits n : Nat} (hwidth : width ≠ 0) (h : n < 10 ^ width)
    (hlimit : n < 2 ^ (bits - 1)) : parseSigned bits (digits width n) = some (n : Int) := by
  have hpow : (n : Int) < 2 ^ (bits - 1) := by exact_mod_cast hlimit
  rw [parseSigned, parseInteger_of_parseDigits (parseDigits_digits hwidth h), Option.filter_some, if_pos]
  simp only [decide_eq_true_eq]
  omega

/-- Three numbers with a separator between them, as in dates and times. -/
def triple (sep : Char) (width a b c : Nat) : Str := digits width a ++ sep :: (digits 2 b ++ sep :: digits 2 c)

variable {sep d : Char} {width a b c a' b' c' : Nat}

theorem mem_triple (h : d ∈ triple sep width a b c) : d.isDigit = true ∨ d = sep := by
  simp only [triple, List.mem_append, List.mem_cons] at h
  rcases h with h | h | h | h | h
  · exact .inl (isDigit_of_mem_digits _ _ d h)
  · exact .inr h
  · exact .inl (isDigit_of_mem_digits _ _ d h)
  · exact .inr h
  · exact .inl (isDigit_of_mem_digits _ _ d h)

theorem not_mem_triple (hdigit : d.isDigit = false) (hsep : d ≠ sep) : d ∉ triple sep width a b c := by
  intro h
  rcases mem_triple h with h | h
  · rw [h] at hdigit
    cases hdigit
  · exact hsep h

theorem splitOn_triple (hsep : sep.isDigit = false) :
    (triple sep width a b c).splitOn sep = [digits width a, digits 2 b, digits 2 c] := by
  have hnot := not_mem_digits hsep
  rw [triple, List.splitOn_append_cons_self_of_not_mem (hnot _ _),
    List.splitOn_append_cons_self_of_not_mem (hnot _ _), List.splitOn_eq_singleton (hnot _ _)]

theorem triple_injective (hsep : sep.isDigit = false) (hlt : a < 10 ^ width ∧ b < 10 ^ 2 ∧ c < 10 ^ 2)
    (hlt' : a' < 10 ^ width ∧ b' < 10 ^ 2 ∧ c' < 10 ^ 2) (h : triple sep width a b c = triple sep width a' b' c') :
    a = a' ∧ b = b' ∧ c = c' := by
  have hsplit := congrArg (List.splitOn sep) h
  simp only [splitOn_triple hsep, List.cons.injEq, and_true] at hsplit
  exact ⟨digits_injective hlt.1 hlt'.1 hsplit.1, digits_injective hlt.2.1 hlt'.2.1 hsplit.2.1,
    digits_injective hlt.2.2 hlt'.2.2 hsplit.2.2⟩

end Str

/-! ## The calendar -/

namespace Calendar

def isLeap (year : Int) : Bool := (year % 4 = 0 ∧ year % 100 ≠ 0) ∨ year % 400 = 0

def yearLength (year : Int) : Int := if isLeap year then 366 else 365

/-- Days from 1970-01-01 to the first day of a year. -/
def daysBeforeYear (year : Int) : Int :=
  (year - 1970) * 365 + ((year - 1) / 4 - 492) - ((year - 1) / 100 - 19) + ((year - 1) / 400 - 4)

/-- **A year starts where the one before it ends.** -/
theorem daysBeforeYear_succ (year : Int) : daysBeforeYear (year + 1) = daysBeforeYear year + yearLength year := by
  unfold daysBeforeYear yearLength isLeap
  simp only [decide_eq_true_eq]
  split_ifs
  all_goals omega

def monthLength (leap : Bool) : Nat → Nat
  | 1 => 31
  | 2 => if leap then 29 else 28
  | 3 => 31
  | 4 => 30
  | 5 => 31
  | 6 => 30
  | 7 => 31
  | 8 => 31
  | 9 => 30
  | 10 => 31
  | 11 => 30
  | 12 => 31
  | _ => 0

/-- Days of a year before the first day of a month. -/
def daysBeforeMonth (leap : Bool) : Nat → Nat
  | 0 => 0
  | month + 1 => daysBeforeMonth leap month + monthLength leap month

structure Date where
  year : Nat
  month : Nat
  day : Nat
  year_lt : year < 10000
  month_pos : 1 ≤ month
  month_le : month ≤ 12
  day_pos : 1 ≤ day
  day_le : day ≤ monthLength (isLeap year) month

namespace Date

variable (date : Date)

def dayOfYear : Nat := daysBeforeMonth (isLeap date.year) date.month + (date.day - 1)

/-- Days since 1970-01-01. -/
def days : Int := daysBeforeYear date.year + date.dayOfYear

/-- `YYYY-MM-DD`. -/
def text : Str := triple '-' 4 date.year date.month date.day

theorem day_le_31 : date.day ≤ 31 := by
  have hlength : monthLength (isLeap date.year) date.month ≤ 31 := by
    unfold monthLength
    split <;> first | omega | (split <;> omega)
  exact Nat.le_trans date.day_le hlength

/-- The numbers fit the widths they are written in. -/
theorem lt_widths : date.year < 10 ^ 4 ∧ date.month < 10 ^ 2 ∧ date.day < 10 ^ 2 :=
  ⟨date.year_lt, Nat.lt_of_le_of_lt date.month_le (by decide), Nat.lt_of_le_of_lt date.day_le_31 (by decide)⟩

theorem text_injective {date date' : Date} (h : date.text = date'.text) : date = date' := by
  obtain ⟨_, _, _⟩ := triple_injective rfl date.lt_widths date'.lt_widths h
  cases date
  cases date'
  simp_all

/-- A year holds its days. -/
theorem dayOfYear_lt : (date.dayOfYear : Int) < yearLength date.year := by
  have hmonths : ∀ leap : Bool, ∀ month : Fin 13,
      daysBeforeMonth leap month + monthLength leap month ≤ if leap then 366 else 365 := by decide
  have hmonth := hmonths (isLeap date.year) ⟨date.month, Nat.lt_succ_of_le date.month_le⟩
  have hday := date.day_le
  have hpos := date.day_pos
  unfold dayOfYear yearLength
  generalize isLeap date.year = leap at hmonth hday ⊢
  dsimp only at hmonth
  split_ifs at hmonth ⊢
  all_goals omega

end Date

structure Time where
  hour : Nat
  minute : Nat
  second : Nat
  hour_lt : hour < 24
  minute_lt : minute < 60
  second_lt : second < 60

namespace Time

variable (time : Time)

def seconds : Nat := time.hour * 3600 + time.minute * 60 + time.second

/-- `HH:MM:SS`. -/
def text : Str := triple ':' 2 time.hour time.minute time.second

theorem lt_widths : time.hour < 10 ^ 2 ∧ time.minute < 10 ^ 2 ∧ time.second < 10 ^ 2 :=
  ⟨Nat.lt_trans time.hour_lt (by decide), Nat.lt_trans time.minute_lt (by decide),
    Nat.lt_trans time.second_lt (by decide)⟩

theorem text_injective {time time' : Time} (h : time.text = time'.text) : time = time' := by
  obtain ⟨_, _, _⟩ := triple_injective rfl time.lt_widths time'.lt_widths h
  cases time
  cases time'
  simp_all

theorem seconds_lt : time.seconds < 86400 := by
  have hhour := time.hour_lt
  have hminute := time.minute_lt
  have hsecond := time.second_lt
  unfold seconds
  omega

end Time

end Calendar
end MartyCore
