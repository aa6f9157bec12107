import Mathlib.Data.Rat.Floor
import MartyCore.Policy.Allow

/-!
# `Policy.Age` — what `AgeOver` compares

Completed years are counted right, also from a birthday on 29 February. The required age is cast with `as i32` before it
is compared, which drops a fraction and takes a number that is not finite to zero or to a bound. So the comparison is
right unless the number is between the age and the next, `NaN` or `-inf`: at eighteen years `18.5` passes, and `NaN` passes
for everyone.
-/

namespace MartyCore.Policy

variable {N : Type} {platform : Platform N} {birth date : NaiveDate}

/-- So many years after the birth, the day has come. In a year without it, 29 February is behind 28 February. -/
def Completed (birth date : NaiveDate) (years : Int) : Prop :=
  toLex (birth.year + years, birth.monthDay) ≤ date.key

instance : DecidablePred (Completed birth date) := fun _ => inferInstanceAs (Decidable (_ ≤ _))

/-- What an `f64` stands for. -/
inductive Double where
  | nan
  | infinite (negative : Bool)
  | finite (r : ℚ)
deriving DecidableEq

namespace Double

/-- `as i32`: towards zero, and within the bounds. -/
def toI32 : Double → Int
  | nan => 0
  | infinite negative => if negative then -2 ^ 31 else 2 ^ 31 - 1
  | finite r => max (-2 ^ 31) (min (2 ^ 31 - 1) (if 0 ≤ r then ⌊r⌋ else ⌈r⌉))

/-- At an age of so many years the cast makes no difference. -/
def CastAt (age : Int) : Double → Prop
  | nan => False
  | infinite negative => negative = false
  | finite r => r ≤ age ∨ age + 1 ≤ r

theorem castAt_iff {age : Int} (hage : 0 ≤ age) (hmax : age < 2 ^ 31 - 1) (x : Double) :
    (x.toI32 ≤ age ↔ ∃ r : ℚ, x = finite r ∧ r ≤ age) ↔ x.CastAt age := by
  cases x with
  | nan => simp [toI32, CastAt, hage]
  | infinite negative =>
    cases negative
    · simpa [toI32, CastAt] using hmax
    · simp [toI32, CastAt, show (-2147483648 : Int) ≤ age by omega]
  | finite r =>
    have hcast : (finite r).toI32 ≤ age ↔ r < age + 1 := by
      rw [toI32]
      split_ifs with hr
      · have hfloor : ⌊r⌋ < age + 1 ↔ r < age + 1 := by exact_mod_cast Int.floor_lt
        rw [← hfloor]
        omega
      · have hceil : ⌈r⌉ ≤ 0 := Int.ceil_le.mpr (by exact_mod_cast (not_le.mp hr).le)
        have hlt : r < age + 1 := (not_le.mp hr).trans (by exact_mod_cast Int.lt_add_one_of_le hage)
        simp only [hlt, iff_true]
        omega
    simp only [hcast, finite.injEq, exists_eq_left', CastAt]
    constructor
    · intro h
      exact (lt_or_ge r (age + 1)).imp h.mp id
    · rintro (h | h)
      · simp [h, h.trans_lt (lt_add_one _)]
      · simp [h.not_gt, ((lt_add_one _).trans_le h).not_ge]

end Double

variable (platform) in
/-- What is assumed of `f64` and of dates. -/
structure Standard where
  value : platform.F → Double
  toI32_eq : ∀ x, platform.toI32 x = (value x).toI32
  /-- The last and the first year that there is. -/
  year_le : ∀ {t d}, platform.dateFromTimestamp t = some d → d.year ≤ 262142
  le_year : ∀ {text d}, platform.parseDate text = some d → -262143 ≤ d.year
  /-- A number from `2 ^ 63` on is cast to a time before 1970. -/
  date_mono : ∀ {t t' d d'}, t ≤ t' → t' < 2 ^ 63 → platform.dateFromTimestamp t = some d →
    platform.dateFromTimestamp t' = some d' → d.key ≤ d'.key

/-- The last completed year. -/
theorem completed_iff {years : Int} : Completed birth date years ↔
    years ≤ if date.monthDay < birth.monthDay then date.year - birth.year - 1 else date.year - birth.year := by
  rw [Completed, NaiveDate.key, Prod.Lex.toLex_le_toLex]
  split_ifs with hday
  · simp only [hday.not_ge, and_false, or_false]
    omega
  · simp only [not_lt.mp hday, and_true]
    omega

/-- The age is the number of completed years. -/
theorem le_ageAt_iff {t : Nat} {text : Str} {r : Int} (hdate : platform.dateFromTimestamp t = some date)
    (hbirth : platform.parseDate (((Str.splitAtByte 10 text).map Prod.fst).getD text) = some birth) :
    (ageAt platform t text).any (fun age => r ≤ age) = true ↔ ∃ n : Nat, r ≤ n ∧ Completed birth date n := by
  have hborn : date.key < birth.key ↔ ¬ Completed birth date 0 := by
    rw [Completed, Int.add_zero, not_le]
    rfl
  simp only [ageAt, hdate, hbirth, Option.bind_eq_bind, Option.bind_some, hborn, completed_iff]
  generalize (if date.monthDay < birth.monthDay then date.year - birth.year - 1 else date.year - birth.year) = age
  split_ifs with hborn
  · simp only [Option.any_some, decide_eq_true_eq]
    refine ⟨fun hage => ⟨age.toNat, by omega, by omega⟩, ?_⟩
    rintro ⟨n, hle, hn⟩
    omega
  · simp only [Option.any_none, Bool.false_eq_true, false_iff]
    rintro ⟨n, -, hn⟩
    omega

/-- **When `AgeOver` compares the completed years with the number itself**: there is none, or the birth is ahead, or the cast
    makes no difference. And whatever the number is, the constraint passes for good. -/
theorem age_over_exact_iff (standard : Standard platform) {actual expected : Option (Json N)} {text : Str} {t : Nat}
    (hactual : actual.bind (valueText platform) = some text)
    (hbirth : platform.parseDate (((Str.splitAtByte 10 text).map Prod.fst).getD text) = some birth)
    (hdate : platform.dateFromTimestamp t = some date) :
    ((ageOver platform actual expected t = true ↔ ∃ x ∈ expected.bind (valueNumber platform),
        ∃ r, standard.value x = .finite r ∧ ∃ n : Nat, r ≤ n ∧ Completed birth date n) ↔
      ∀ x ∈ expected.bind (valueNumber platform), ∀ n : Nat, Completed birth date n → ¬ Completed birth date (n + 1) →
        (standard.value x).CastAt n) ∧
    ∀ t' date', t ≤ t' → t' < 2 ^ 63 → platform.dateFromTimestamp t' = some date' →
      ageOver platform actual expected t = true → ageOver platform actual expected t' = true := by
  have hover : ∀ {t date}, platform.dateFromTimestamp t = some date → (ageOver platform actual expected t = true ↔
      ∃ x ∈ expected.bind (valueNumber platform), ∃ n : Nat, platform.toI32 x ≤ n ∧ Completed birth date n) := by
    intro t date hdate
    rw [ageOver, hactual]
    cases expected.bind (valueNumber platform) with
    | none => simp
    | some x => simp [le_ageAt_iff hdate hbirth]
  constructor
  · rw [hover hdate]
    cases expected.bind (valueNumber platform) with
    | none => simp
    | some x =>
      have hfirst := standard.le_year hbirth
      have hlast := standard.year_le hdate
      simp only [Option.mem_some, exists_eq_left', forall_eq', standard.toI32_eq, completed_iff]
      generalize hage : (if date.monthDay < birth.monthDay then date.year - birth.year - 1 else date.year - birth.year)
        = age
      by_cases hborn : 0 ≤ age
      · lift age to Nat using hborn
        have hmax : (age : Int) < 2 ^ 31 - 1 := by
          split_ifs at hage <;> omega
        have hcast (k : Int) : (∃ n : Nat, k ≤ n ∧ (n : Int) ≤ age) ↔ k ≤ age :=
          ⟨fun ⟨_, hk, hn⟩ => hk.trans hn, fun hk => ⟨age, hk, le_rfl⟩⟩
        have hvalue (r : ℚ) : (∃ n : Nat, r ≤ n ∧ (n : Int) ≤ age) ↔ r ≤ (age : Int) :=
          ⟨fun ⟨_, hr, hn⟩ => hr.trans (by exact_mod_cast hn), fun hr => ⟨age, hr, le_rfl⟩⟩
        simp only [hcast, hvalue, Double.castAt_iff (Int.natCast_nonneg age) hmax]
        refine ⟨fun h n hn hnext => ?_, fun h => h age le_rfl (by omega)⟩
        obtain rfl : n = age := by omega
        exact h
      · have hnone (n : Nat) : ¬ (n : Int) ≤ age := by omega
        simp [hnone]
  · intro t' date' hle hlt hdate'
    rw [hover hdate, hover hdate']
    rintro ⟨x, hx, n, hr, hn⟩
    exact ⟨x, hx, n, hr, hn.trans (standard.date_mono hle hlt hdate hdate')⟩

/-- The years from 0 on, by their first days. -/
def agePlatform : Platform Double :=
  { samplePlatform with
    F := Double
    asF64 := some
    parseF64 := fun text => if text = "NaN".toList then some .nan else none
    isFinite := fun x => x matches .finite _
    lt := fun _ _ => false
    le := fun _ _ => false
    toI32 := Double.toI32
    numberText := fun _ => []
    numberEq := fun a b => a = b
    numberEq_equivalence := by simpa using eq_equivalence
    dateFromTimestamp := fun t => if t ≤ 262142 then some ⟨t, 1, 1⟩ else none
    parseDate := fun _ => some ⟨2000, 1, 1⟩
    claimOrder := ⟨id, List.Perm.refl⟩ }

def agePlatform_standard : Standard agePlatform where
  value x := x
  toI32_eq _ := rfl
  year_le h := by
    obtain ⟨hle, hd⟩ := Option.ite_none_right_eq_some.mp h
    cases hd
    exact Int.ofNat_le.mpr hle
  le_year h := by
    cases h
    decide
  date_mono hle _ hd hd' := by
    cases (Option.ite_none_right_eq_some.mp hd).2
    cases (Option.ite_none_right_eq_some.mp hd').2
    exact Prod.Lex.toLex_le_toLex.mpr (by simpa [NaiveDate.monthDay] using hle.lt_or_eq)

theorem age_over_exact_iff_eighteen : ageOver agePlatform (some (.str [])) (some (.num (.finite 18))) 2018 = true := by
  refine ((age_over_exact_iff agePlatform_standard rfl rfl rfl).1.mpr ?_).mpr
    ⟨.finite 18, rfl, 18, rfl, 18, le_rfl, by decide⟩
  rintro x ⟨⟩ n - -
  exact (le_or_gt 18 n).imp (fun h => by exact_mod_cast h) (fun h => by exact_mod_cast h)

/-- At eighteen `18.5` passes, and so does what is not a number. -/
theorem fraction_dropped : ageOver agePlatform (some (.str [])) (some (.num (.finite (37 / 2)))) 2018 = true ∧
    ageOver agePlatform (some (.str [])) (some (.str "NaN".toList)) 2018 = true ∧
    ¬ Completed ⟨2000, 1, 1⟩ ⟨2018, 1, 1⟩ 19 := by
  refine ⟨by decide +kernel, by decide +kernel, by decide⟩

end MartyCore.Policy
