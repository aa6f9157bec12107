import Mathlib.Data.String.Basic
import MartyCore.Lib.Exec
import MartyCore.Lib.SortedMap

/-!
# `Decision.Model` — the required-check reducer

The embedding of `marty-verification/src/verification/decision.rs`: `reduce_required_checks` turns the explicit
check outcomes of a format adapter into one decision. One loop over the checks refuses malformed input and
accumulates counters per category; the decision itself is then read off the check list, not off the counters.

The function cannot panic, so it is an `Except`. The counters are `u32` with `checked_add`; the two ordered sets
of the source are only asked whether an insertion was new, and are lists here.
-/

namespace MartyCore.Decision

inductive VerificationProcessingStatus where
  | completed | unsupported | unavailable | error
deriving DecidableEq

inductive VerificationDecision where
  | pass | fail | indeterminate
deriving DecidableEq

inductive VerificationDecisionCode where
  | allRequiredChecksPassed | requiredCheckFailed | requiredCheckUnresolved | processingNotCompleted
deriving DecidableEq

inductive VerificationCheckCategory where
  | structure_ | credentialProof | presentationProof | documentIntegrity | issuerTrust | validity | status
  | holderBinding | transactionBinding | claimConstraints | biometric | policy
deriving DecidableEq

/-- The derived `Ord`: declaration order. -/
instance instLinearOrderVerificationCheckCategory : LinearOrder VerificationCheckCategory :=
  LinearOrder.lift' VerificationCheckCategory.ctorIdx (by
    intro a b h
    cases a <;> cases b <;> first | rfl | exact absurd h (by decide))

inductive VerificationCheckOutcome where
  | passed | failed | notPerformed | unsupported | error | notApplicable
deriving DecidableEq

namespace VerificationCheckOutcome

def isUnresolved : VerificationCheckOutcome → Bool
  | .notPerformed | .unsupported | .error | .notApplicable => true
  | .passed | .failed => false

def requiresEvidence : VerificationCheckOutcome → Bool
  | .passed | .failed => true
  | .notPerformed | .unsupported | .error | .notApplicable => false

end VerificationCheckOutcome

inductive VerificationCategoryOutcome where
  | passed | failed | indeterminate | notApplicable
deriving DecidableEq

structure VerificationCheckResult where
  checkId : String
  category : VerificationCheckCategory
  required : Bool
  outcome : VerificationCheckOutcome
  code : String
  componentId : String
  evaluatedAt : String
  evidenceRefs : List String
deriving DecidableEq

structure VerificationCategorySummary where
  category : VerificationCheckCategory
  outcome : VerificationCategoryOutcome
  requiredCheckCount : Nat
  passedRequiredCount : Nat
  failedRequiredCount : Nat
  unresolvedRequiredCount : Nat
deriving DecidableEq

structure ReducedVerificationDecision where
  processingStatus : VerificationProcessingStatus
  decision : VerificationDecision
  decisionCode : VerificationDecisionCode
  valid : Bool
  categorySummaries : List VerificationCategorySummary
deriving DecidableEq

inductive VerificationReductionError where
  | missingRequiredCheck
  | duplicateCheckId (checkId : String)
  | missingEvidence (checkId : String) (outcome : VerificationCheckOutcome)
  | duplicateEvidenceReference (checkId evidenceRef : String)
  | categoryCountOverflow (category : VerificationCheckCategory)
deriving DecidableEq

structure CategoryCounts where
  required : Nat := 0
  passed : Nat := 0
  failed : Nat := 0
  unresolved : Nat := 0
deriving DecidableEq

/-! ## The loop over the checks -/

variable (category : VerificationCheckCategory)

/-- `counter.checked_add(1).ok_or(CategoryCountOverflow { category })` on a `u32`. -/
def increment (counter : Nat) : Except VerificationReductionError Nat := do
  Result.reject (2 ^ 32 ≤ counter + 1) (.categoryCountOverflow category)
  return counter + 1

/-- The loop over the evidence references of one check; `seen` is the set built so far. -/
def checkEvidenceRefs (checkId : String) : List String → List String → Except VerificationReductionError Unit
  | _, [] => .ok ()
  | seen, evidenceRef :: rest => do
    Result.reject (evidenceRef ∈ seen) (.duplicateEvidenceReference checkId evidenceRef)
    checkEvidenceRefs checkId (evidenceRef :: seen) rest

/-- The counters of a category after one more required check. -/
def countRequired (outcome : VerificationCheckOutcome)
    (counts : CategoryCounts) : Except VerificationReductionError CategoryCounts := do
  let required ← increment category counts.required
  match outcome with
  | .passed => do
    let passed ← increment category counts.passed
    return { counts with required, passed }
  | .failed => do
    let failed ← increment category counts.failed
    return { counts with required, failed }
  | .notPerformed | .unsupported | .error | .notApplicable => do
    let unresolved ← increment category counts.unresolved
    return { counts with required, unresolved }

/-- What the loop carries from check to check. -/
structure Tally where
  checkIds : List String := []
  categoryCounts : SortedMap VerificationCheckCategory CategoryCounts := SortedMap.empty
  requiredCheckCount : Nat := 0

/-- The guards at the start of a round: a new id, evidence where the outcome needs it, no reference twice. -/
def checkShape (checkIds : List String) (check : VerificationCheckResult) : Except VerificationReductionError Unit := do
  Result.reject (check.checkId ∈ checkIds) (.duplicateCheckId check.checkId)
  Result.reject (check.outcome.requiresEvidence = true ∧ check.evidenceRefs = [])
    (.missingEvidence check.checkId check.outcome)
  checkEvidenceRefs check.checkId [] check.evidenceRefs

/-- One round of the loop. -/
def tallyCheck (tally : Tally) (check : VerificationCheckResult) : Except VerificationReductionError Tally := do
  checkShape tally.checkIds check
  -- `entry(category).or_default()`: an optional check creates the entry of its category too
  let counts := (tally.categoryCounts.get? check.category).getD {}
  let checkIds := check.checkId :: tally.checkIds
  if check.required then
    let requiredCheckCount ← increment check.category tally.requiredCheckCount
    let counts ← countRequired check.category check.outcome counts
    return ⟨checkIds, tally.categoryCounts.insert check.category counts, requiredCheckCount⟩
  else
    return ⟨checkIds, tally.categoryCounts.insert check.category counts, tally.requiredCheckCount⟩

def tallyChecks : Tally → List VerificationCheckResult → Except VerificationReductionError Tally
  | tally, [] => .ok tally
  | tally, check :: rest => do
    let tally ← tallyCheck tally check
    tallyChecks tally rest

/-! ## Summaries and decision -/

def categoryOutcome (counts : CategoryCounts) : VerificationCategoryOutcome :=
  if counts.required = 0 then .notApplicable
  else if 0 < counts.failed then .failed
  else if 0 < counts.unresolved then .indeterminate
  else .passed

def summarize (counts : CategoryCounts) : VerificationCategorySummary where
  category := category
  outcome := categoryOutcome counts
  requiredCheckCount := counts.required
  passedRequiredCount := counts.passed
  failedRequiredCount := counts.failed
  unresolvedRequiredCount := counts.unresolved

/-- The decision and its code, from the check list alone. -/
def decisionAndCode (processingStatus : VerificationProcessingStatus) (checks : List VerificationCheckResult) :
    VerificationDecision × VerificationDecisionCode :=
  if processingStatus ≠ .completed then
    (.indeterminate, .processingNotCompleted)
  else if checks.any (fun check => check.required && check.outcome = .failed) then
    (.fail, .requiredCheckFailed)
  else if checks.any (fun check => check.required && check.outcome.isUnresolved) then
    (.indeterminate, .requiredCheckUnresolved)
  else
    (.pass, .allRequiredChecksPassed)

def reduceRequiredChecks (processingStatus : VerificationProcessingStatus)
    (checks : List VerificationCheckResult) :
    Except VerificationReductionError ReducedVerificationDecision := do
  let tally ← tallyChecks {} checks
  Result.reject (tally.requiredCheckCount = 0) .missingRequiredCheck
  let categorySummaries := tally.categoryCounts.entries.map (fun entry => summarize entry.1 entry.2)
  let (decision, decisionCode) := decisionAndCode processingStatus checks
  return {
    processingStatus
    decision
    decisionCode
    valid := decision = .pass
    categorySummaries }

end MartyCore.Decision
