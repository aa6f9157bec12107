import Mathlib.Data.List.Count
import Mathlib.Data.List.Induction
import MartyCore.Decision.Model

/-!
# `Decision.Reduce` — the counters and the decision agree

The reducer reads its check list twice: once through the counter map that becomes the category summaries, once
directly for the decision. The counters are specified by counting over the list (`CategoryCounts.of`), and the
loop is shown to compute exactly that: it returns on the lists that are `WellFormed` and on no others, and the
map it returns has, at every category, the counts over the list (`Tallied`).

Both are properties of the list as a multiset, so the result does not depend on its order, and everything said
about the summaries becomes a statement about the checks they summarise.
-/

namespace MartyCore.Decision

open Result List

/-! ## Counting over a check list -/

/-- A required check of the category whose outcome satisfies `p`. -/
def isCounted (category : VerificationCheckCategory) (p : VerificationCheckOutcome → Bool)
    (check : VerificationCheckResult) : Bool :=
  check.required && (check.category = category) && p check.outcome

/-- The counters of a category, by counting. -/
def CategoryCounts.of (category : VerificationCheckCategory) (checks : List VerificationCheckResult) :
    CategoryCounts where
  required := checks.countP (isCounted category (fun _ => true))
  passed := checks.countP (isCounted category (fun outcome => outcome = .passed))
  failed := checks.countP (isCounted category (fun outcome => outcome = .failed))
  unresolved := checks.countP (isCounted category (fun outcome => outcome.isUnresolved))

/-- The entry of a category: there is one as soon as some check, required or not, has the category. -/
def countsAt (checks : List VerificationCheckResult) (category : VerificationCheckCategory) : Option CategoryCounts :=
  if checks.any (fun check => check.category = category) then some (CategoryCounts.of category checks)
  else none

/-- The counters after one more required check with the given outcome. -/
def CategoryCounts.add (outcome : VerificationCheckOutcome) (counts : CategoryCounts) : CategoryCounts where
  required := counts.required + 1
  passed := counts.passed + if outcome = .passed then 1 else 0
  failed := counts.failed + if outcome = .failed then 1 else 0
  unresolved := counts.unresolved + if outcome.isUnresolved then 1 else 0

section

variable (category : VerificationCheckCategory) (checks : List VerificationCheckResult)

theorem of_concat (check : VerificationCheckResult) :
    CategoryCounts.of category (checks ++ [check]) =
      if check.required = true ∧ check.category = category then
        (CategoryCounts.of category checks).add check.outcome
      else CategoryCounts.of category checks := by
  by_cases hreq : check.required = true
  · by_cases hcat : check.category = category
    · simp [CategoryCounts.of, CategoryCounts.add, countP_append, countP_cons, isCounted, hreq, hcat]
    · simp [CategoryCounts.of, countP_append, isCounted, hcat]
  · simp [CategoryCounts.of, countP_append, isCounted, hreq]

/-- Every outcome is passed, failed or unresolved, and only one of them. -/
theorem of_balanced :
    (CategoryCounts.of category checks).passed + (CategoryCounts.of category checks).failed +
      (CategoryCounts.of category checks).unresolved = (CategoryCounts.of category checks).required := by
  induction checks using List.reverseRecOn with
  | nil => rfl
  | append_singleton checks check ih =>
    rw [of_concat]
    split
    · cases hout : check.outcome <;>
        simp only [CategoryCounts.add, VerificationCheckOutcome.isUnresolved, reduceCtorEq, if_true,
          if_false, Bool.false_eq_true] <;> omega
    · exact ih

theorem of_required_le : (CategoryCounts.of category checks).required ≤ checks.countP (·.required) :=
  countP_mono_left (fun check _ h => by
    simp only [isCounted, Bool.and_eq_true] at h
    exact h.1.1)

end

variable {checks checks' : List VerificationCheckResult} {category : VerificationCheckCategory}

theorem of_perm (h : checks'.Perm checks) : CategoryCounts.of category checks' = CategoryCounts.of category checks := by
  simp only [CategoryCounts.of, h.countP_eq]

variable {counts : CategoryCounts}

theorem countsAt_eq_some_iff :
    countsAt checks category = some counts ↔
      (∃ check ∈ checks, check.category = category) ∧ counts = CategoryCounts.of category checks := by
  unfold countsAt
  split
  · rename_i hany
    simp only [any_eq_true, decide_eq_true_eq] at hany
    constructor
    · exact fun h => ⟨hany, (Option.some.inj h).symm⟩
    · exact fun h => h.2 ▸ rfl
  · rename_i hany
    simp only [any_eq_true, decide_eq_true_eq] at hany
    simp [hany]

theorem countsAt_getD : (countsAt checks category).getD {} = CategoryCounts.of category checks := by
  unfold countsAt
  split
  · rfl
  · rename_i hany
    simp only [any_eq_true, decide_eq_true_eq, not_exists, not_and] at hany
    have hnone : ∀ p, checks.countP (isCounted category p) = 0 := by
      intro p
      rw [countP_eq_zero]
      intro check hcheck
      simp [isCounted, hany check hcheck]
    simp only [CategoryCounts.of, hnone, Option.getD_none]

theorem countsAt_concat (check : VerificationCheckResult) :
    countsAt (checks ++ [check]) category =
      if category = check.category then some (CategoryCounts.of category (checks ++ [check]))
      else countsAt checks category := by
  by_cases hcat : category = check.category
  · rw [if_pos hcat, countsAt_eq_some_iff]
    exact ⟨⟨check, by simp, hcat.symm⟩, rfl⟩
  · rw [if_neg hcat]
    have hof : CategoryCounts.of category (checks ++ [check]) = CategoryCounts.of category checks := by
      rw [of_concat, if_neg (fun h => hcat h.2.symm)]
    simp [countsAt, hof, Ne.symm hcat]

/-! ## What the loop accepts -/

/-- The check of one element: a decided outcome carries evidence, and no reference twice. -/
structure EvidenceOk (check : VerificationCheckResult) : Prop where
  present : check.outcome.requiresEvidence = true → check.evidenceRefs ≠ []
  distinct : check.evidenceRefs.Nodup

/-- The lists that survive the loop. -/
structure WellFormed (checks : List VerificationCheckResult) : Prop where
  distinct : (checks.map VerificationCheckResult.checkId).Nodup
  evidence : ∀ check ∈ checks, EvidenceOk check
  small : checks.countP (·.required) < 2 ^ 32

theorem WellFormed.of_perm (h : checks'.Perm checks) (hwf : WellFormed checks) : WellFormed checks' where
  distinct := (h.map _).nodup_iff.mpr hwf.distinct
  evidence := fun check hcheck => hwf.evidence check (h.mem_iff.mp hcheck)
  small := by
    rw [h.countP_eq]
    exact hwf.small

theorem WellFormed.of_append {checks rest : List VerificationCheckResult}
    (hwf : WellFormed (checks ++ rest)) : WellFormed checks where
  distinct := by
    have h := hwf.distinct
    rw [map_append] at h
    exact h.of_append_left
  evidence := fun check hcheck => hwf.evidence check (mem_append_left _ hcheck)
  small := by
    have h := hwf.small
    rw [countP_append] at h
    omega

theorem wellFormed_nil : WellFormed [] := ⟨nodup_nil, by simp, by simp⟩

variable {check : VerificationCheckResult}

theorem wellFormed_concat_iff :
    WellFormed (checks ++ [check]) ↔
      WellFormed checks ∧ (∀ earlier ∈ checks, earlier.checkId ≠ check.checkId) ∧ EvidenceOk check ∧
        (check.required = true → checks.countP (·.required) + 1 < 2 ^ 32) := by
  have hdistinct : ((checks ++ [check]).map VerificationCheckResult.checkId).Nodup ↔
      (∀ earlier ∈ checks, earlier.checkId ≠ check.checkId) ∧ (checks.map VerificationCheckResult.checkId).Nodup := by
    rw [nodup_map_concat_iff]
    simp
  constructor
  · intro h
    refine ⟨h.of_append, (hdistinct.mp h.distinct).1, h.evidence check (by simp), ?_⟩
    intro hreq
    have hs := h.small
    rwa [countP_append, countP_singleton, if_pos hreq] at hs
  · rintro ⟨hwf, hnew, hev, hsmall⟩
    refine ⟨hdistinct.mpr ⟨hnew, hwf.distinct⟩, forall_mem_append.mpr ⟨hwf.evidence, forall_mem_singleton.mpr hev⟩, ?_⟩
    rw [countP_append, countP_singleton]
    split
    · rename_i hreq
      exact hsmall hreq
    · exact hwf.small

/-! ## One round -/

theorem increment_ok_iff {counter next : Nat} :
    increment category counter = .ok next ↔ counter + 1 < 2 ^ 32 ∧ next = counter + 1 := by
  unfold increment
  rw [reject_bind_ok_iff, not_le]
  exact and_congr_right fun _ => ⟨fun h => (Except.ok.inj h).symm, fun h => h ▸ rfl⟩

theorem checkEvidenceRefs_ok_iff {checkId : String} {seen refs : List String} {u : Unit} :
    checkEvidenceRefs checkId seen refs = .ok u ↔ refs.Nodup ∧ ∀ ref ∈ refs, ref ∉ seen := by
  induction refs generalizing seen with
  | nil => simp [checkEvidenceRefs]
  | cons ref rest ih =>
    rw [checkEvidenceRefs, reject_bind_ok_iff, ih, nodup_fresh_cons_iff]

theorem checkShape_ok_iff {checkIds : List String} {u : Unit} :
    checkShape checkIds check = .ok u ↔ check.checkId ∉ checkIds ∧ EvidenceOk check := by
  unfold checkShape
  rw [reject_bind_ok_iff, reject_bind_ok_iff, checkEvidenceRefs_ok_iff]
  refine and_congr_right fun _ => ?_
  constructor
  · rintro ⟨hpresent, hdistinct, -⟩
    exact ⟨fun hreq hnil => hpresent ⟨hreq, hnil⟩, hdistinct⟩
  · rintro hev
    exact ⟨fun hc => hev.present hc.1 hc.2, hev.distinct, by simp⟩

variable {outcome : VerificationCheckOutcome}

/-- The category counters never exceed the category's total, so one bound covers them all. -/
theorem countRequired_ok_iff {next : CategoryCounts}
    (hsum : counts.passed + counts.failed + counts.unresolved = counts.required) :
    countRequired category outcome counts = .ok next ↔ counts.required + 1 < 2 ^ 32 ∧ next = counts.add outcome := by
  have hcase : ∀ {n : Nat} {k : Nat → CategoryCounts}, n ≤ counts.required →
      ((increment category counts.required >>= fun required =>
          increment category n >>= fun m => (pure { k m with required := required } :
            Except VerificationReductionError CategoryCounts)) = .ok next ↔
        counts.required + 1 < 2 ^ 32 ∧ next = { k (n + 1) with required := counts.required + 1 }) := by
    intro n k hn
    simp only [bind_ok_iff, increment_ok_iff]
    constructor
    · rintro ⟨required, ⟨hreq, rfl⟩, m, ⟨-, rfl⟩, hnext⟩
      exact ⟨hreq, (Except.ok.inj hnext).symm⟩
    · rintro ⟨hreq, rfl⟩
      exact ⟨_, ⟨hreq, rfl⟩, _, ⟨by omega, rfl⟩, rfl⟩
  cases outcome with
  | passed => exact hcase (k := fun m => { counts with passed := m }) (by omega)
  | failed => exact hcase (k := fun m => { counts with failed := m }) (by omega)
  | notPerformed | unsupported | error | notApplicable =>
    exact hcase (k := fun m => { counts with unresolved := m }) (by omega)

/-- **What the loop has computed** after the checks in `done`. -/
structure Tallied (done : List VerificationCheckResult) (tally : Tally) : Prop where
  checkIds : ∀ id, id ∈ tally.checkIds ↔ ∃ check ∈ done, check.checkId = id
  categoryCounts : ∀ category, tally.categoryCounts.get? category = countsAt done category
  requiredCheckCount : tally.requiredCheckCount = done.countP (·.required)

theorem tallied_nil : Tallied [] {} := ⟨by simp, fun _ => rfl, rfl⟩

/-- The counters determine the summaries. -/
theorem Tallied.categoryCounts_eq {done done' : List VerificationCheckResult} {tally tally' : Tally}
    (h : Tallied done tally) (h' : Tallied done' tally') (hperm : done'.Perm done) :
    tally'.categoryCounts = tally.categoryCounts :=
  SortedMap.ext_get? (fun category => by
    rw [h'.categoryCounts, h.categoryCounts, countsAt, countsAt, of_perm hperm, hperm.any_eq])

variable {tally : Tally}

variable {done : List VerificationCheckResult}

/-- The entry written by a round is the count over one more check. -/
theorem Tallied.insert_get? (h : Tallied done tally)
    (hcounts : counts = CategoryCounts.of check.category (done ++ [check])) (category : VerificationCheckCategory) :
    (tally.categoryCounts.insert check.category counts).get? category = countsAt (done ++ [check]) category := by
  rw [SortedMap.get?_insert, countsAt_concat, h.categoryCounts]
  by_cases hcat : category = check.category
  · rw [if_pos hcat, if_pos hcat, hcounts, hcat]
  · rw [if_neg hcat, if_neg hcat]

/-- **The step lemma.** A round accepts exactly the checks that keep the list well formed, and then counts. -/
theorem tallyCheck_spec (h : Tallied done tally) (hwf : WellFormed done) (check : VerificationCheckResult) :
    (∀ tally', tallyCheck tally check = .ok tally' → WellFormed (done ++ [check]) ∧ Tallied (done ++ [check]) tally') ∧
    (WellFormed (done ++ [check]) → ∃ tally', tallyCheck tally check = .ok tally') := by
  have hids : ∀ id, id ∈ check.checkId :: tally.checkIds ↔ ∃ c ∈ done ++ [check], c.checkId = id := by
    intro id
    rw [mem_cons, h.checkIds]
    simp only [mem_append, mem_singleton, or_and_right, exists_or, exists_eq_left]
    rw [or_comm, eq_comm]
  have hnew : check.checkId ∉ tally.checkIds ↔ ∀ earlier ∈ done, earlier.checkId ≠ check.checkId := by
    rw [h.checkIds]
    simp
  have hcounts : (tally.categoryCounts.get? check.category).getD {} = CategoryCounts.of check.category done := by
    rw [h.categoryCounts, countsAt_getD]
  have hsum := of_balanced check.category done
  unfold tallyCheck
  simp only [bind_ok_iff, checkShape_ok_iff, hnew, hcounts, wellFormed_concat_iff]
  by_cases hreq : check.required = true
  · have hof : CategoryCounts.of check.category (done ++ [check]) =
        (CategoryCounts.of check.category done).add check.outcome := by
      rw [of_concat, if_pos ⟨hreq, rfl⟩]
    -- the category's counter is below the total, so only the total can overflow
    have hle := of_required_le check.category done
    simp only [if_pos hreq, bind_ok_iff, increment_ok_iff, countRequired_ok_iff hsum, h.requiredCheckCount]
    constructor
    · rintro tally' ⟨-, ⟨hnew, hev⟩, total, ⟨hsmall, rfl⟩, counts, ⟨-, rfl⟩, htally⟩
      cases htally
      refine ⟨⟨hwf, hnew, hev, fun _ => hsmall⟩, hids, h.insert_get? hof.symm, ?_⟩
      rw [countP_append, countP_singleton, if_pos hreq]
    · rintro ⟨-, hnew, hev, hsmall⟩
      have hsmall := hsmall hreq
      exact ⟨_, (), ⟨hnew, hev⟩, _, ⟨hsmall, rfl⟩, _, ⟨by omega, rfl⟩, rfl⟩
  · have hof : CategoryCounts.of check.category (done ++ [check]) = CategoryCounts.of check.category done := by
      rw [of_concat, if_neg (fun hc => hreq hc.1)]
    simp only [if_neg hreq]
    constructor
    · rintro tally' ⟨-, ⟨hnew, hev⟩, htally⟩
      cases htally
      refine ⟨⟨hwf, hnew, hev, fun hc => absurd hc hreq⟩, hids, h.insert_get? hof.symm, ?_⟩
      rw [countP_append, countP_singleton, if_neg hreq]
      exact h.requiredCheckCount
    · rintro ⟨-, hnew, hev, -⟩
      exact ⟨_, (), ⟨hnew, hev⟩, rfl⟩

/-- **The run lemma.** The loop returns exactly on the well-formed lists, with the counts over the list. -/
theorem tallyChecks_spec (h : Tallied done tally) (hwf : WellFormed done) (rest : List VerificationCheckResult) :
    (∀ tally', tallyChecks tally rest = .ok tally' → WellFormed (done ++ rest) ∧ Tallied (done ++ rest) tally') ∧
    (WellFormed (done ++ rest) → ∃ tally', tallyChecks tally rest = .ok tally') := by
  induction rest generalizing done tally with
  | nil =>
    rw [append_nil]
    refine ⟨fun tally' heq => ?_, fun _ => ⟨tally, rfl⟩⟩
    injection heq with heq
    exact heq ▸ ⟨hwf, h⟩
  | cons check rest ih =>
    obtain ⟨hstep, hreturns⟩ := tallyCheck_spec h hwf check
    have hsplit : done ++ check :: rest = (done ++ [check]) ++ rest := by simp
    rw [hsplit]
    constructor
    · intro tally' heq
      obtain ⟨next, hnext, heq⟩ := of_bind heq
      obtain ⟨hwf', htallied⟩ := hstep next hnext
      exact (ih htallied hwf').1 tally' heq
    · intro hall
      obtain ⟨next, hnext⟩ := hreturns hall.of_append
      obtain ⟨hwf', htallied⟩ := hstep next hnext
      obtain ⟨tally', heq⟩ := (ih htallied hwf').2 hall
      exact ⟨tally', bind_ok_iff.mpr ⟨next, hnext, heq⟩⟩

/-! ## The decision -/

theorem any_failed_iff :
    checks.any (fun check => check.required && check.outcome = .failed) = true ↔
      ∃ check ∈ checks, check.required = true ∧ check.outcome = .failed := by
  simp

variable {status : VerificationProcessingStatus}

theorem fail_iff :
    (decisionAndCode status checks).1 = .fail ↔
      status = .completed ∧ ∃ check ∈ checks, check.required = true ∧ check.outcome = .failed := by
  unfold decisionAndCode
  by_cases hstatus : status = .completed
  · rw [if_neg (not_not.mpr hstatus), ← any_failed_iff]
    split
    · rename_i hany
      simp only [hstatus, true_and, hany]
    · rename_i hany
      split <;> simp [hany]
  · simp [hstatus]

/-- An outcome that is neither failed nor unresolved is passed. -/
theorem passed_iff :
    outcome = .passed ↔ outcome ≠ .failed ∧ ¬ outcome.isUnresolved = true := by
  cases outcome <;> simp [VerificationCheckOutcome.isUnresolved]

theorem pass_iff :
    (decisionAndCode status checks).1 = .pass ↔
      status = .completed ∧ ∀ check ∈ checks, check.required = true → check.outcome = .passed := by
  have hall : (∀ check ∈ checks, check.required = true → check.outcome = .passed) ↔
      ¬ checks.any (fun check => check.required && check.outcome = .failed) = true ∧
      ¬ checks.any (fun check => check.required && check.outcome.isUnresolved) = true := by
    simp only [any_eq_true, Bool.and_eq_true, decide_eq_true_eq, passed_iff, imp_and, forall_and, not_exists, not_and, ne_eq]
  rw [hall]
  unfold decisionAndCode
  by_cases hstatus : status = .completed
  · rw [if_neg (not_not.mpr hstatus)]
    split
    · rename_i hfailed
      simp [hfailed]
    · rename_i hfailed
      split
      · rename_i hunresolved
        simp [hunresolved]
      · rename_i hunresolved
        exact iff_of_true rfl ⟨hstatus, hfailed, hunresolved⟩
  · simp [hstatus]

/-- The decision reads the required checks only, and reads them without order. -/
theorem decisionAndCode_congr {checks checks' : List VerificationCheckResult}
    (h : (checks'.filter (·.required)).Perm (checks.filter (·.required))) :
    decisionAndCode status checks' = decisionAndCode status checks := by
  have hany : ∀ p : VerificationCheckOutcome → Bool,
      checks'.any (fun check => check.required && p check.outcome) =
        checks.any (fun check => check.required && p check.outcome) := by
    intro p
    rw [← any_filter, ← any_filter, h.any_eq]
  unfold decisionAndCode
  rw [hany (fun outcome => outcome = .failed), hany (fun outcome => outcome.isUnresolved)]

/-! ## The result -/

/-- The result of the reducer, from the final counters. -/
def assemble (status : VerificationProcessingStatus) (checks : List VerificationCheckResult) (tally : Tally) :
    ReducedVerificationDecision where
  processingStatus := status
  decision := (decisionAndCode status checks).1
  decisionCode := (decisionAndCode status checks).2
  valid := (decisionAndCode status checks).1 = .pass
  categorySummaries := tally.categoryCounts.entries.map (fun entry => summarize entry.1 entry.2)

theorem reduceRequiredChecks_ok {result : ReducedVerificationDecision}
    (h : reduceRequiredChecks status checks = .ok result) :
    WellFormed checks ∧ (∃ check ∈ checks, check.required = true) ∧
      ∃ tally, Tallied checks tally ∧ result = assemble status checks tally := by
  obtain ⟨tally, htally, h⟩ := of_bind h
  obtain ⟨hsome, h⟩ := of_reject h
  obtain ⟨hwf, htallied⟩ := (tallyChecks_spec tallied_nil wellFormed_nil checks).1 tally htally
  injection h with h
  refine ⟨hwf, ?_, tally, htallied, h.symm⟩
  rw [htallied.requiredCheckCount] at hsome
  exact countP_pos_iff.mp (Nat.pos_of_ne_zero hsome)

theorem reduceRequiredChecks_returns (status : VerificationProcessingStatus) (hwf : WellFormed checks)
    (hreq : ∃ check ∈ checks, check.required = true) :
    ∃ result, reduceRequiredChecks status checks = .ok result := by
  obtain ⟨hcounts, hreturns⟩ := tallyChecks_spec tallied_nil wellFormed_nil checks
  obtain ⟨tally, htally⟩ := hreturns hwf
  refine ⟨_, bind_ok_iff.mpr ⟨tally, htally, reject_bind_ok_iff.mpr ⟨?_, rfl⟩⟩⟩
  rw [(hcounts tally htally).2.requiredCheckCount]
  exact Nat.ne_of_gt (countP_pos_iff.mpr hreq)

theorem mem_categorySummaries (h : Tallied checks tally) {summary : VerificationCategorySummary} :
    summary ∈ (assemble status checks tally).categorySummaries ↔
      ∃ category, (∃ check ∈ checks, check.category = category) ∧
        summary = summarize category (CategoryCounts.of category checks) := by
  show summary ∈ List.map _ _ ↔ _
  rw [mem_map]
  constructor
  · rintro ⟨⟨category, counts⟩, hentry, rfl⟩
    rw [SortedMap.mem_iff_get?, h.categoryCounts, countsAt_eq_some_iff] at hentry
    exact ⟨category, hentry.1, hentry.2 ▸ rfl⟩
  · rintro ⟨category, hcategory, rfl⟩
    refine ⟨(category, CategoryCounts.of category checks), ?_, rfl⟩
    rw [SortedMap.mem_iff_get?, h.categoryCounts, countsAt_eq_some_iff]
    exact ⟨hcategory, rfl⟩

/-- A summary is failed exactly when a required check of its category failed. -/
theorem summarize_failed_iff :
    (summarize category (CategoryCounts.of category checks)).outcome = .failed ↔
      ∃ check ∈ checks, check.required = true ∧ check.category = category ∧ check.outcome = .failed := by
  have hpos : 0 < (CategoryCounts.of category checks).failed ↔
      ∃ check ∈ checks, check.required = true ∧ check.category = category ∧ check.outcome = .failed := by
    show 0 < List.countP _ _ ↔ _
    simp only [countP_pos_iff, isCounted, Bool.and_eq_true, decide_eq_true_eq, and_assoc]
  have hsum := of_balanced category checks
  rw [← hpos]
  show categoryOutcome _ = _ ↔ _
  unfold categoryOutcome
  split
  · simp only [reduceCtorEq, false_iff]
    omega
  · split
    · simp only [true_iff]
      assumption
    · split <;> simp_all

/-- A summary is passed or not applicable exactly when every required check of its category passed. -/
theorem summarize_passed_iff :
    ((summarize category (CategoryCounts.of category checks)).outcome = .passed ∨
      (summarize category (CategoryCounts.of category checks)).outcome = .notApplicable) ↔
      ∀ check ∈ checks, check.required = true → check.category = category → check.outcome = .passed := by
  have hall : (CategoryCounts.of category checks).failed = 0 ∧
      (CategoryCounts.of category checks).unresolved = 0 ↔
      ∀ check ∈ checks, check.required = true → check.category = category → check.outcome = .passed := by
    show List.countP _ _ = 0 ∧ List.countP _ _ = 0 ↔ _
    simp only [countP_eq_zero, isCounted, Bool.and_eq_true, decide_eq_true_eq, not_and, and_imp, passed_iff,
      imp_and, forall_and, ne_eq]
  have hsum := of_balanced category checks
  rw [← hall]
  show categoryOutcome _ = _ ∨ categoryOutcome _ = _ ↔ _
  unfold categoryOutcome
  split
  · simp only [or_true, true_iff]
    omega
  · split
    · simp only [reduceCtorEq, or_self, false_iff]
      omega
    · split
      · simp only [reduceCtorEq, or_self, false_iff]
        omega
      · simp only [true_or, true_iff]
        omega

/-- **The contract of the reducer**, for every status and every list it accepts. The decision is the one the
    required checks call for, the order of the checks and the optional checks do not matter to it, and the
    category summaries balance and agree with it. -/
theorem reduceRequiredChecks_contract (status : VerificationProcessingStatus)
    (checks : List VerificationCheckResult) (result : ReducedVerificationDecision)
    (h : reduceRequiredChecks status checks = .ok result) :
    (∃ check ∈ checks, check.required = true) ∧
    (result.decision = .pass ↔
      status = .completed ∧ ∀ check ∈ checks, check.required = true → check.outcome = .passed) ∧
    (result.decision = .fail ↔
      status = .completed ∧ ∃ check ∈ checks, check.required = true ∧ check.outcome = .failed) ∧
    (result.decision = .indeterminate ↔
      ¬ (status = .completed ∧ ∀ check ∈ checks, check.required = true → check.outcome = .passed) ∧
      ¬ (status = .completed ∧ ∃ check ∈ checks, check.required = true ∧ check.outcome = .failed)) ∧
    (result.valid = true ↔ result.decision = .pass) ∧
    (∀ checks', checks'.Perm checks → reduceRequiredChecks status checks' = .ok result) ∧
    (∀ checks' result', (checks'.filter (·.required)).Perm (checks.filter (·.required)) →
      reduceRequiredChecks status checks' = .ok result' →
      result'.decision = result.decision ∧ result'.decisionCode = result.decisionCode ∧ result'.valid = result.valid) ∧
    (∀ summary ∈ result.categorySummaries,
      summary.passedRequiredCount + summary.failedRequiredCount + summary.unresolvedRequiredCount =
        summary.requiredCheckCount) ∧
    (status = .completed →
      (result.decision = .fail ↔ ∃ summary ∈ result.categorySummaries, summary.outcome = .failed) ∧
      (result.decision = .pass ↔ ∀ summary ∈ result.categorySummaries,
        summary.outcome = .passed ∨ summary.outcome = .notApplicable)) := by
  obtain ⟨hwf, hreq, tally, htallied, rfl⟩ := reduceRequiredChecks_ok h
  refine ⟨hreq, pass_iff, fail_iff, ?_, ?_, ?_, ?_, ?_, ?_⟩
  · rw [← pass_iff, ← fail_iff]
    show (decisionAndCode status checks).1 = _ ↔ _
    cases (decisionAndCode status checks).1 <;> simp
  · exact decide_eq_true_iff
  · intro checks' hperm
    have hreq' : ∃ check ∈ checks', check.required = true := by
      simpa only [hperm.mem_iff] using hreq
    obtain ⟨result', hresult'⟩ := reduceRequiredChecks_returns status (hwf.of_perm hperm) hreq'
    obtain ⟨-, -, tally', htallied', rfl⟩ := reduceRequiredChecks_ok hresult'
    rw [hresult', assemble, assemble, decisionAndCode_congr (hperm.filter _),
      htallied.categoryCounts_eq htallied' hperm]
  · intro checks' result' hsame h'
    obtain ⟨-, -, tally', -, rfl⟩ := reduceRequiredChecks_ok h'
    simp only [assemble, decisionAndCode_congr hsame, and_self]
  · intro summary hsummary
    obtain ⟨category, -, rfl⟩ := (mem_categorySummaries htallied).mp hsummary
    exact of_balanced category checks
  · intro hstatus
    constructor
    · refine fail_iff.trans ?_
      constructor
      · rintro ⟨-, check, hcheck, hcreq, hout⟩
        exact ⟨_, (mem_categorySummaries htallied).mpr ⟨check.category, ⟨check, hcheck, rfl⟩, rfl⟩,
          summarize_failed_iff.mpr ⟨check, hcheck, hcreq, rfl, hout⟩⟩
      · rintro ⟨summary, hsummary, hfailed⟩
        obtain ⟨category, -, rfl⟩ := (mem_categorySummaries htallied).mp hsummary
        obtain ⟨check, hcheck, hcreq, -, hout⟩ := summarize_failed_iff.mp hfailed
        exact ⟨hstatus, check, hcheck, hcreq, hout⟩
    · refine pass_iff.trans ?_
      constructor
      · rintro ⟨-, hall⟩ summary hsummary
        obtain ⟨category, -, rfl⟩ := (mem_categorySummaries htallied).mp hsummary
        exact summarize_passed_iff.mpr (fun check hcheck hcreq _ => hall check hcheck hcreq)
      · intro hall
        refine ⟨hstatus, fun check hcheck hcreq => ?_⟩
        have hsummary := hall _ ((mem_categorySummaries htallied).mpr
          ⟨check.category, ⟨check, hcheck, rfl⟩, rfl⟩)
        exact summarize_passed_iff.mp hsummary check hcheck hcreq rfl

/-- A passed signature check next to an optional failed one. -/
def sampleChecks : List VerificationCheckResult :=
  [⟨"sod-signature", .documentIntegrity, true, .passed, "OK", "verifier", "2026-01-01T00:00:00Z", ["sod"]⟩,
   ⟨"face-match", .biometric, false, .failed, "MISMATCH", "verifier", "2026-01-01T00:00:00Z", ["selfie"]⟩]

theorem reduceRequiredChecks_contract_sample :
    ∃ result, reduceRequiredChecks .completed sampleChecks = .ok result ∧ result.decision = .pass ∧
      result.valid = true ∧
      ∀ checks', checks'.Perm sampleChecks → reduceRequiredChecks .completed checks' = .ok result := by
  have hrun : reduceRequiredChecks .completed sampleChecks = .ok
      ⟨.completed, .pass, .allRequiredChecksPassed, true,
        [⟨.documentIntegrity, .passed, 1, 1, 0, 0⟩, ⟨.biometric, .notApplicable, 0, 0, 0, 0⟩]⟩ := by decide
  have hcontract := reduceRequiredChecks_contract _ _ _ hrun
  exact ⟨_, hrun, rfl, rfl, hcontract.2.2.2.2.2.1⟩

end MartyCore.Decision
