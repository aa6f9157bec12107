import MartyCore.Lib.Calendar

/-!
# `Dtc.Dates` — from a date text to seconds since 1970

The embedding of `parse_iso_to_epoch` of `marty-verification/src/dtc/mod.rs`, and what it computes for the texts of the
three documented formats (`Stamp`).

The day count takes every fourth year for a leap year and divides towards zero, so it is the calendar's from 1970 to
2100 and runs ahead of it afterwards (`instant_le_parse`). A count below zero is cast to an unsigned
number and ends up close to `2^64`. Integer arithmetic wraps, as it does in release builds; with overflow checks the
call panics on the day `00` instead.
-/

namespace MartyCore.Dtc

open Str List
open Calendar (Date Time)

/-! ## The parser -/

/-- `i32` arithmetic. -/
def wrapI32 (x : Int) : Int := x.bmod (2 ^ 32)

def isLeapYear (year : Int) : Bool := (year.tmod 4 = 0 ∧ year.tmod 100 ≠ 0) ∨ year.tmod 400 = 0

def daysBeforeMonth (month : Nat) (leap : Bool) : Nat :=
  let idx := month - 1
  if leap then [0, 31, 60, 91, 121, 152, 182, 213, 244, 274, 305, 335].getD idx 0
  else [0, 31, 59, 90, 120, 151, 181, 212, 243, 273, 304, 334].getD idx 0

/-- The approximate count of days; `day - 1` is `u32` arithmetic. -/
def epochDays (year : Int) (month day : Nat) : Int :=
  wrapI32 (year - 1970) * 365 + (wrapI32 (year - 1969)).tdiv 4 + daysBeforeMonth month (isLeapYear year) +
    ((day : Int) - 1) % 2 ^ 32

def parseU32 (s : Str) : Option Nat := parseUnsigned (2 ^ 32) s

def parseDate (year month day : Str) : Option UInt64 := do
  let year ← parseSigned 32 year
  let month ← parseU32 month
  let day ← parseU32 day
  return UInt64.ofInt (epochDays year month day * 86400)

/-- The seconds may be missing, and what does not parse counts as none. -/
def parseSecond (rest : List Str) : Nat :=
  (rest.head?.bind (fun part => (part.splitOn '.').head?.bind parseU32)).getD 0

def parseTimestamp (year month day hour minute : Str) (rest : List Str) : Option UInt64 := do
  let year ← parseSigned 32 year
  let month ← parseU32 month
  let day ← parseU32 day
  let hour ← parseU32 hour
  let minute ← parseU32 minute
  let secs := epochDays year month day * 86400 + hour * 3600 + minute * 60 + parseSecond rest
  return UInt64.ofInt secs

def parseDateTime (s : Str) : Option UInt64 :=
  if 19 ≤ s.len ∧ 'T' ∈ s then
    let s := trimEndText "+00:00".toList (trimEndMatches 'Z' s)
    match s.splitOn 'T' with
    | [date, time] =>
      match date.splitOn '-', time.splitOn ':' with
      | [year, month, day], hour :: minute :: rest => parseTimestamp year month day hour minute rest
      | _, _ => none
    | _ => none
  else none

def parseIsoToEpoch (s : Str) : Option UInt64 :=
  let s := s.trim
  if s = [] then none
  else if s.getLast? = some 'Z' ∧ (s.take (s.len - 1)).all Char.isDigit = true then
    (parseUnsigned (2 ^ 64) s.dropLast).map UInt64.ofNat
  else if s.len = 10 ∧ s[4]? = some '-' ∧ s[7]? = some '-' then
    match s.splitOn '-' with
    | [year, month, day] => parseDate year month day
    | _ => parseDateTime s
  else parseDateTime s

/-! ## The documented formats -/

/-- `YYYY-MM-DD`, `YYYY-MM-DDTHH:MM:SSZ` and `SSSSSSSSSSZ`. -/
inductive Stamp where
  | dateOnly (date : Date)
  | dateTime (date : Date) (time : Time)
  | epoch (secs : Fin (10 ^ 10))

namespace Stamp

def text : Stamp → Str
  | .dateOnly date => date.text
  | .dateTime date time => date.text ++ 'T' :: (time.text ++ ['Z'])
  | .epoch secs => digits 10 secs ++ ['Z']

/-- Seconds since 1970, in the calendar. A date is the first second of its day. -/
def instant : Stamp → Int
  | .dateOnly date => date.days * 86400
  | .dateTime date time => date.days * 86400 + time.seconds
  | .epoch secs => secs

/-- The years for which the day count is the calendar's. -/
def InRange : Stamp → Prop
  | .dateOnly date => 1970 ≤ date.year ∧ date.year ≤ 2100
  | .dateTime date _ => 1970 ≤ date.year ∧ date.year ≤ 2100
  | .epoch _ => True

/-- What the parser computes, before the cast. -/
def computed : Stamp → Int
  | .dateOnly date => epochDays date.year date.month date.day * 86400
  | .dateTime date time => epochDays date.year date.month date.day * 86400 + time.seconds
  | .epoch secs => secs

end Stamp

/-! ## Parsing a documented text -/

/-- Digits, and the marks between them. -/
def Written (s : Str) : Prop := ∀ c ∈ s, c.isDigit = true ∨ c ∈ ['-', 'T', ':']

section

variable {s : Str} {year month day hour minute second : Nat}

theorem Written.char_spec (h : Written s) : ∀ c ∈ s, Text.isAscii c = true ∧ isWhitespace c = false := by
  intro c hc
  rcases h c hc with hdigit | hmark
  · exact ⟨(isDigit_spec hdigit).1, (isDigit_spec hdigit).2.1⟩
  · exact (by decide : ∀ c ∈ ['-', 'T', ':'], Text.isAscii c = true ∧ isWhitespace c = false) c hmark

theorem Written.isAscii (h : Written s) : ∀ c ∈ s, Text.isAscii c = true :=
  fun c hc => (h.char_spec c hc).1

theorem Written.trim_zulu (h : Written s) : trim (s ++ ['Z']) = s ++ ['Z'] :=
  trim_eq_self (forall_mem_append.mpr ⟨fun c hc => (h.char_spec c hc).2, by decide⟩)

theorem written_digits (width n : Nat) : Written (digits width n) :=
  fun c hc => .inl (isDigit_of_mem_digits width n c hc)

theorem written_triple {sep : Char} (hsep : sep ∈ ['-', 'T', ':']) {width a b c : Nat} :
    Written (triple sep width a b c) := by
  intro d hd
  rcases mem_triple hd with hdigit | rfl
  · exact .inl hdigit
  · exact .inr hsep

theorem written_date : Written (triple '-' 4 year month day) := written_triple (by decide)

theorem written_dateTime : Written (triple '-' 4 year month day ++ 'T' :: triple ':' 2 hour minute second) :=
  forall_mem_append.mpr ⟨written_date, forall_mem_cons.mpr ⟨.inr (by decide), written_triple (by decide)⟩⟩

theorem trim_date : trim (triple '-' 4 year month day) = triple '-' 4 year month day :=
  trim_eq_self (fun c hc => (written_date.char_spec c hc).2)

theorem trim_dateTime :
    trim (triple '-' 4 year month day ++ 'T' :: (triple ':' 2 hour minute second ++ ['Z'])) =
      triple '-' 4 year month day ++ 'T' :: (triple ':' 2 hour minute second ++ ['Z']) := by
  exact written_dateTime.trim_zulu

end

theorem parseU32_digits {n : Nat} (h : n < 10 ^ 2) : parseU32 (digits 2 n) = some n :=
  parseUnsigned_digits (by decide) h (Nat.lt_trans h (by decide))

section

variable {body : Str} (hascii : ∀ c ∈ body, Text.isAscii c = true)

include hascii

theorem len_zulu : len (body ++ ['Z']) = body.length + 1 := by
  rw [len_of_isAscii (forall_mem_append.mpr ⟨hascii, by simp [Text.isAscii]⟩), length_append, length_singleton]

/-- A text that ends in `Z` is a count of seconds if only digits stand before it. -/
theorem parse_zulu {s : Str} (h : s.trim = body ++ ['Z']) (hlength : body.length ≠ 9) :
    parseIsoToEpoch s = if body.all Char.isDigit = true then (parseUnsigned (2 ^ 64) body).map UInt64.ofNat
      else parseDateTime (body ++ ['Z']) := by
  simp only [parseIsoToEpoch, h, len_zulu hascii]
  simp [hlength]

end

/-! Numbers in the places of a date and a time are counted, whether there is such a day and second or not. -/

section

variable {year month day : Nat} (hdate : year < 10 ^ 4 ∧ month < 10 ^ 2 ∧ day < 10 ^ 2)

theorem dashes : (triple '-' 4 year month day)[4]? = some '-' ∧ (triple '-' 4 year month day)[7]? = some '-' := by
  simp [triple, length_digits]

include hdate

theorem parse_year : parseSigned 32 (digits 4 year) = some (year : Int) :=
  parseSigned_digits (by decide) hdate.1 (Nat.lt_trans hdate.1 (by decide))

theorem parse_date {s : Str} (h : s.trim = triple '-' 4 year month day) :
    parseIsoToEpoch s = some (UInt64.ofInt (epochDays year month day * 86400)) := by
  have hlength : s.trim.length = 10 := by simp [h, triple, length_digits]
  have hlen : s.trim.len = 10 := by
    rw [h, len_of_isAscii written_date.isAscii, ← h, hlength]
  have hne : s.trim ≠ [] := ne_nil_of_length_pos (by rw [hlength]; decide)
  have hzulu : ¬ (s.trim.getLast? = some 'Z' ∧ (s.trim.take (s.trim.len - 1)).all Char.isDigit = true) :=
    fun hz => not_mem_triple rfl (by decide) (h ▸ mem_of_getLast? hz.1)
  simp only [parseIsoToEpoch]
  rw [if_neg hne, if_neg hzulu, if_pos ⟨hlen, h ▸ dashes⟩, h, splitOn_triple rfl]
  simp [parseDate, parse_year hdate, parseU32_digits hdate.2.1, parseU32_digits hdate.2.2]

theorem parse_dateTime {hour minute second : Nat} (htime : hour < 10 ^ 2 ∧ minute < 10 ^ 2 ∧ second < 10 ^ 2) {s : Str}
    (h : s.trim = triple '-' 4 year month day ++ 'T' :: (triple ':' 2 hour minute second ++ ['Z'])) :
    parseIsoToEpoch s =
      some (UInt64.ofInt (epochDays year month day * 86400 + hour * 3600 + minute * 60 + second)) := by
  rw [← cons_append, ← append_assoc] at h
  have hmem : Written (triple '-' 4 year month day ++ 'T' :: triple ':' 2 hour minute second) :=
    written_dateTime
  have hsplit : (triple '-' 4 year month day ++ 'T' :: triple ':' 2 hour minute second).splitOn 'T' =
      [triple '-' 4 year month day, triple ':' 2 hour minute second] := by
    rw [splitOn_append_cons_self_of_not_mem (not_mem_triple rfl (by decide)),
      splitOn_eq_singleton (not_mem_triple rfl (by decide))]
  have hmarks : '-' ∈ triple '-' 4 year month day ++ 'T' :: triple ':' 2 hour minute second ∧
      'T' ∈ triple '-' 4 year month day ++ 'T' :: triple ':' 2 hour minute second := by simp [triple]
  have hlength : (triple '-' 4 year month day ++ 'T' :: triple ':' 2 hour minute second).length = 19 := by
    simp [triple, length_digits]
  generalize triple '-' 4 year month day ++ 'T' :: triple ':' 2 hour minute second = body at *
  have hascii := hmem.isAscii
  have hlen := len_zulu hascii
  have hdigits : ¬ body.all Char.isDigit = true := by
    intro hall
    exact absurd (all_eq_true.mp hall '-' hmarks.1) (by decide)
  have hstripped : trimEndText "+00:00".toList (trimEndMatches 'Z' (body ++ ['Z'])) = body := by
    rw [trimEndMatches_append_singleton (fun hc => absurd (hmem 'Z' hc) (by decide)),
      trimEndText_of_not_mem (c := '+') (by decide) (fun hc => absurd (hmem '+' hc) (by decide))]
  have hsecond : parseSecond [digits 2 second] = second := by
    have hdot : '.' ∉ digits 2 second := not_mem_digits rfl _ _
    simp [parseSecond, splitOn_eq_singleton hdot, parseU32_digits htime.2.2]
  rw [parse_zulu hascii h (by omega), if_neg hdigits, parseDateTime, if_pos ⟨by omega, mem_append_left _ hmarks.2⟩]
  simp only [hstripped, hsplit, splitOn_triple (show Char.isDigit '-' = false from rfl),
    splitOn_triple (show Char.isDigit ':' = false from rfl)]
  simp [parseTimestamp, parse_year hdate, parseU32_digits hdate.2.1, parseU32_digits hdate.2.2,
    parseU32_digits htime.1, parseU32_digits htime.2.1, hsecond]

end

variable {date : Date}

theorem parse_epoch {s : Str} {secs : Fin (10 ^ 10)} (h : s.trim = (Stamp.epoch secs).text) :
    parseIsoToEpoch s = some (UInt64.ofInt (Stamp.epoch secs).computed) := by
  have hdigits := isDigit_of_mem_digits 10 secs
  have hsecs := secs.isLt
  have hcast : ((secs.val : Int) % 2 ^ 64).toNat = secs.val := by omega
  rw [parse_zulu (written_digits 10 secs).isAscii h (by rw [length_digits]; decide),
    if_pos (all_eq_true.mpr hdigits),
    parseUnsigned_digits (by decide) hsecs (Nat.lt_trans hsecs (by decide))]
  simp only [Option.map_some, Stamp.computed, UInt64.ofInt, hcast]

/-- **A documented text parses**, to the computed count. -/
theorem Stamp.parse_text {s : Str} {stamp : Stamp} (h : s.trim = stamp.text) :
    parseIsoToEpoch s = some (UInt64.ofInt stamp.computed) := by
  cases stamp with
  | dateOnly date => exact parse_date date.lt_widths h
  | dateTime date time =>
    rw [parse_dateTime date.lt_widths time.lt_widths h]
    simp only [computed, Time.seconds, Int.natCast_add, Int.natCast_mul, Int.add_assoc]
    rfl
  | epoch secs => exact parse_epoch h

/-! ## The count and the calendar -/

theorem isLeapYear_eq (year : Nat) : isLeapYear year = Calendar.isLeap year := by
  unfold isLeapYear Calendar.isLeap
  rw [Int.tmod_eq_emod_of_nonneg (by omega), Int.tmod_eq_emod_of_nonneg (by omega),
    Int.tmod_eq_emod_of_nonneg (by omega)]

theorem daysBeforeMonth_eq (date : Date) (leap : Bool) :
    daysBeforeMonth date.month leap = Calendar.daysBeforeMonth leap date.month := by
  have hall : ∀ leap : Bool, ∀ month : Fin 13, 1 ≤ month.val →
      daysBeforeMonth month leap = Calendar.daysBeforeMonth leap month := by decide
  exact hall leap ⟨date.month, Nat.lt_succ_of_le date.month_le⟩ date.month_pos

theorem epochDays_eq (date : Date) :
    epochDays date.year date.month date.day =
      ((date.year : Int) - 1970) * 365 + ((date.year : Int) - 1969).tdiv 4 + date.dayOfYear := by
  have hwrap : ∀ k : Int, 0 ≤ k → k < 3000 → wrapI32 ((date.year : Int) - k) = (date.year : Int) - k := by
    intro k hk hk'
    have hyear := date.year_lt
    exact Int.bmod_eq_of_le (by omega) (by omega)
  have hday : ((date.day : Int) - 1) % 2 ^ 32 = ((date.day - 1 : Nat) : Int) := by
    have hpos := date.day_pos
    have hle := date.day_le_31
    omega
  rw [epochDays, hwrap 1970 (by decide) (by decide), hwrap 1969 (by decide) (by decide), isLeapYear_eq,
    daysBeforeMonth_eq, hday, Date.dayOfYear, Int.natCast_add, ← Int.add_assoc]

theorem epochDays_exact (hlow : 1970 ≤ date.year) (hhigh : date.year ≤ 2100) :
    epochDays date.year date.month date.day = date.days := by
  rw [epochDays_eq, Date.days, Calendar.daysBeforeYear, Int.tdiv_eq_ediv_of_nonneg (by omega)]
  omega

/-- After 2100 the count runs ahead. -/
theorem days_lt_epochDays (h : 2100 < date.year) : date.days < epochDays date.year date.month date.day := by
  rw [epochDays_eq, Date.days, Calendar.daysBeforeYear, Int.tdiv_eq_ediv_of_nonneg (by omega)]
  omega

theorem days_neg (h : date.year < 1970) : date.days < 0 := by
  have hlast := date.dayOfYear_lt
  have hsucc := Calendar.daysBeforeYear_succ date.year
  have hbefore : Calendar.daysBeforeYear (date.year + 1) ≤ 0 := by
    unfold Calendar.daysBeforeYear
    omega
  unfold Date.days
  omega

theorem dayOfYear_lt_366 (date : Date) : date.dayOfYear < 366 := by
  have hlast := date.dayOfYear_lt
  unfold Calendar.yearLength at hlast
  split at hlast <;> omega

theorem days_bounds (hlow : 1970 ≤ date.year) : 0 ≤ date.days ∧ epochDays date.year date.month date.day < 10 ^ 7 := by
  have hyear := date.year_lt
  have hlast := dayOfYear_lt_366 date
  rw [epochDays_eq, Date.days, Calendar.daysBeforeYear, Int.tdiv_eq_ediv_of_nonneg (by omega)]
  omega

theorem toNat_ofInt {x : Int} (hlow : 0 ≤ x) (hhigh : x < 2 ^ 64) : ((UInt64.ofInt x).toNat : Int) = x := by
  rw [UInt64.ofInt, UInt64.toNat_ofNat']
  omega

namespace Stamp

/-- Every documented instant is before 1970, computed exactly, or computed too late. -/
theorem parse_cases (stamp : Stamp) :
    stamp.instant < 0 ∧ ¬ stamp.InRange ∨
    stamp.InRange ∧ ((UInt64.ofInt stamp.computed).toNat : Int) = stamp.instant ∨
    ¬ stamp.InRange ∧ stamp.instant < (UInt64.ofInt stamp.computed).toNat := by
  -- a date and a time within it
  have hday : ∀ (date : Date) (secs : Nat), secs < 86400 →
      date.days * 86400 + secs < 0 ∧ ¬ (1970 ≤ date.year ∧ date.year ≤ 2100) ∨
      (1970 ≤ date.year ∧ date.year ≤ 2100) ∧
        ((UInt64.ofInt (epochDays date.year date.month date.day * 86400 + secs)).toNat : Int) =
          date.days * 86400 + secs ∨
      ¬ (1970 ≤ date.year ∧ date.year ≤ 2100) ∧
        date.days * 86400 + secs < (UInt64.ofInt (epochDays date.year date.month date.day * 86400 + secs)).toNat := by
    intro date secs hsecs
    by_cases hlow : 1970 ≤ date.year
    · obtain ⟨hnonneg, hbound⟩ := days_bounds hlow
      by_cases hhigh : date.year ≤ 2100
      · have hexact := epochDays_exact hlow hhigh
        refine .inr (.inl ⟨⟨hlow, hhigh⟩, ?_⟩)
        rw [hexact] at hbound ⊢
        exact toNat_ofInt (by omega) (by omega)
      · have hahead := days_lt_epochDays (Nat.lt_of_not_le hhigh)
        refine .inr (.inr ⟨fun h => hhigh h.2, ?_⟩)
        rw [toNat_ofInt (by omega) (by omega)]
        omega
    · have hneg := days_neg (Nat.lt_of_not_le hlow)
      exact .inl ⟨by omega, fun h => hlow h.1⟩
  cases stamp with
  | dateOnly date => simpa [instant, InRange, computed] using hday date 0 (by decide)
  | dateTime date time => exact hday date time.seconds time.seconds_lt
  | epoch secs =>
    exact .inr (.inl ⟨trivial, toNat_ofInt (Int.natCast_nonneg _) (by simp only [computed]; omega)⟩)

/-- **The range is where parsing is exact.** -/
theorem parse_exact {stamp : Stamp} : stamp.InRange ↔ ((UInt64.ofInt stamp.computed).toNat : Int) = stamp.instant := by
  rcases stamp.parse_cases with ⟨h, hrange⟩ | ⟨hrange, h⟩ | ⟨hrange, h⟩
  · exact iff_of_false hrange (by omega)
  · exact iff_of_true hrange h
  · exact iff_of_false hrange (by omega)

theorem trim_text (stamp : Stamp) : stamp.text.trim = stamp.text := by
  cases stamp with
  | dateOnly date => exact trim_date
  | dateTime date time => exact trim_dateTime
  | epoch secs => exact (written_digits 10 secs).trim_zulu

end Stamp

/-- **Where the parser computes the calendar.** A text of a documented format parses to its instant exactly in the range
    of years; and numbers in the places of a date and a time always parse, whether there is such a day and second or
    not. -/
theorem parse_iso_to_epoch_exact_iff (stamp : Stamp) (year : Fin (10 ^ 4))
    (month day hour minute second : Fin (10 ^ 2)) :
    (∃ t, parseIsoToEpoch stamp.text = some t ∧ ((t.toNat : Int) = stamp.instant ↔ stamp.InRange)) ∧
      (parseIsoToEpoch (triple '-' 4 year month day)).isSome = true ∧
      (parseIsoToEpoch
        (triple '-' 4 year month day ++ 'T' :: (triple ':' 2 hour minute second ++ ['Z']))).isSome = true := by
  refine ⟨⟨_, Stamp.parse_text stamp.trim_text, Stamp.parse_exact.symm⟩, ?_⟩
  have hdate := And.intro year.isLt (And.intro month.isLt day.isLt)
  have htime := And.intro hour.isLt (And.intro minute.isLt second.isLt)
  rw [parse_date hdate trim_date, parse_dateTime hdate htime trim_dateTime]
  exact ⟨rfl, rfl⟩

/-- From 2101 on, dates are counted a day late; the month `13` and the hour `24` are counted, and the day `00` is
    counted as the last of `u32`. -/
theorem parse_iso_to_epoch_past_the_calendar :
    parseIsoToEpoch "2101-01-01".toList = some 4134067200 ∧
    parseIsoToEpoch "1970-13-01".toList = parseIsoToEpoch "1970-01-01".toList ∧
    parseIsoToEpoch "1970-02-30".toList = parseIsoToEpoch "1970-03-02".toList ∧
    parseIsoToEpoch "1970-01-01T24:00:00Z".toList = parseIsoToEpoch "1970-01-02".toList ∧
    parseIsoToEpoch "1970-01-00".toList = some 371085174288000 := by
  decide

end MartyCore.Dtc
