import MartyCore.Policy.Requirement
import MartyCore.Policy.Service

/-!
# `Policy.Allow` — what an allowed presentation has shown

The two loops of `evaluate_service_policy` have closed forms: results are those of the requirements in order, the
counters count, and the claims are merged from the results that contribute (`runLoops_eq`). From there the decision is
read off the counters and the errors (`decision_eq_allow_iff`), and the verified claims off the merge
(`verifiedClaims_collects`).

The main theorem, `allow_sound`, says when the decision is `Allow`, what a reported result means, and where verified
claims come from.
-/

namespace MartyCore.Policy

open Result List

variable {N : Type} (platform : Platform N) (request : ServicePolicyEvaluationRequest N)

/-! ## The loops -/

theorem foldl_directStep (requirements : List (ServiceCredentialRequirement N)) (progress : Progress N) :
    requirements.foldl (directStep platform request) progress =
      { progress with
        directResults := progress.directResults ++ requirements.map (evaluate platform request)
        requiredTotal := progress.requiredTotal + (requirements.filter ServiceCredentialRequirement.required).length
        requiredSatisfied := progress.requiredSatisfied +
          (requirements.filter ServiceCredentialRequirement.required).countP
            (fun requirement => (evaluate platform request requirement).satisfied)
        verifiedClaims := (requirements.map (evaluate platform request)).foldl (collectVerifiedClaims platform)
          progress.verifiedClaims } := by
  induction requirements generalizing progress with
  | nil => simp
  | cons requirement rest ih =>
    rw [foldl_cons, ih, directStep]
    cases hrequired : requirement.required <;>
      simp [hrequired, countP_cons, Nat.add_assoc, Nat.add_comm]

/-- The results of an alternative that contribute claims. -/
def contributing (alternative : ServiceAlternativeResult N) : List (ServiceCredentialResult N) :=
  if alternative.satisfied then alternative.credentialResults.filter ServiceCredentialResult.satisfied else []

theorem foldl_alternativeStep (alternatives : List (ServiceAlternativeRequirement N)) (progress : Progress N) :
    alternatives.foldl (alternativeStep platform request) progress =
      { progress with
        alternativeResults := progress.alternativeResults ++ alternatives.map (evaluateAlternative platform request)
        requiredTotal := progress.requiredTotal + alternatives.length
        requiredSatisfied := progress.requiredSatisfied + alternatives.countP
          (fun alternative => (evaluateAlternative platform request alternative).satisfied)
        verifiedClaims := ((alternatives.map (evaluateAlternative platform request)).flatMap contributing).foldl
          (collectVerifiedClaims platform) progress.verifiedClaims } := by
  induction alternatives generalizing progress with
  | nil => simp
  | cons alternative rest ih =>
    have hclaims : (alternativeStep platform request progress alternative).verifiedClaims =
        (contributing (evaluateAlternative platform request alternative)).foldl (collectVerifiedClaims platform)
          progress.verifiedClaims := by
      simp only [alternativeStep, contributing]
      split <;> rfl
    rw [foldl_cons, ih, hclaims]
    simp [alternativeStep, countP_cons, Nat.add_assoc, Nat.add_comm]

/-- **What the loops leave.** -/
theorem runLoops_eq : runLoops platform request =
    { directResults := request.policy.credentialRequirements.map (evaluate platform request)
      alternativeResults := request.policy.alternativeRequirements.map (evaluateAlternative platform request)
      requiredTotal := (initialProgress request).requiredTotal +
        (request.policy.credentialRequirements.filter ServiceCredentialRequirement.required).length +
        request.policy.alternativeRequirements.length
      requiredSatisfied := (initialProgress request).requiredSatisfied +
        (request.policy.credentialRequirements.filter ServiceCredentialRequirement.required).countP
          (fun requirement => (evaluate platform request requirement).satisfied) +
        request.policy.alternativeRequirements.countP
          (fun alternative => (evaluateAlternative platform request alternative).satisfied)
      verifiedClaims :=
        (request.policy.credentialRequirements.map (evaluate platform request) ++
          (request.policy.alternativeRequirements.map (evaluateAlternative platform request)).flatMap
            contributing).foldl (collectVerifiedClaims platform) .empty } := by
  rw [runLoops, foldl_directStep, foldl_alternativeStep, foldl_append]
  rfl

variable {platform}

theorem runLoops_directResults : (runLoops platform request).directResults =
    request.policy.credentialRequirements.map (evaluate platform request) := by
  rw [runLoops_eq]

theorem runLoops_alternativeResults : (runLoops platform request).alternativeResults =
    request.policy.alternativeRequirements.map (evaluateAlternative platform request) := by
  rw [runLoops_eq]

/-! ## The decision -/

/-- The proof obligation is counted as met exactly when it is. -/
theorem initialProgress_met_iff :
    (initialProgress request).requiredSatisfied ≤ (initialProgress request).requiredTotal ∧
    ((initialProgress request).requiredSatisfied = (initialProgress request).requiredTotal ↔
      (request.policy.presentationProofRequired = true → request.presentationVerified = true)) := by
  unfold initialProgress
  cases request.policy.presentationProofRequired <;> cases request.presentationVerified <;> simp

/-- The counters agree exactly when all obligations are met. -/
theorem counters_eq_iff : (runLoops platform request).requiredSatisfied = (runLoops platform request).requiredTotal ↔
    (request.policy.presentationProofRequired = true → request.presentationVerified = true) ∧
    (∀ requirement ∈ request.policy.credentialRequirements, requirement.required = true →
      (evaluate platform request requirement).satisfied = true) ∧
    (∀ alternative ∈ request.policy.alternativeRequirements,
      (evaluateAlternative platform request alternative).satisfied = true) := by
  obtain ⟨hproofLe, hproof⟩ := initialProgress_met_iff request
  have hdirectLe := countP_le_length
    (p := fun requirement => (evaluate platform request requirement).satisfied)
    (l := request.policy.credentialRequirements.filter ServiceCredentialRequirement.required)
  have halternativeLe := countP_le_length
    (p := fun alternative => (evaluateAlternative platform request alternative).satisfied)
    (l := request.policy.alternativeRequirements)
  have hdirect := countP_eq_length
    (p := fun requirement => (evaluate platform request requirement).satisfied)
    (l := request.policy.credentialRequirements.filter ServiceCredentialRequirement.required)
  simp only [mem_filter, and_imp] at hdirect
  -- three counts, none of which exceeds its total
  rw [← hproof, ← hdirect, ← countP_eq_length]
  simp only [runLoops_eq]
  omega

variable {request} in
theorem conclude_decision_eq_allow_iff {progress : Progress N} :
    (conclude request progress).decision = .allow ↔ fullySatisfied request progress = true := by
  cases h : fullySatisfied request progress with
  | true => simp [conclude, verdict, h]
  | false =>
    simp only [conclude, verdict, h, Bool.false_eq_true, if_false, iff_false]
    split <;> simp

/-- **The decision**: all obligations are met, and no error concerns the presentation as a whole. -/
theorem decision_eq_allow_iff : (conclude request (runLoops platform request)).decision = .allow ↔
    (request.policy.presentationProofRequired = true → request.presentationVerified = true) ∧
    (∀ requirement ∈ request.policy.credentialRequirements, requirement.required = true →
      (evaluate platform request requirement).satisfied = true) ∧
    (∀ alternative ∈ request.policy.alternativeRequirements,
      (evaluateAlternative platform request alternative).satisfied = true) ∧
    ∀ error ∈ allErrors request (runLoops platform request), error.requirementId ≠ none := by
  have hdirect : (request.policy.credentialRequirements.zip (runLoops platform request).directResults).all
        (fun pair => !pair.1.required || pair.2.satisfied) = true ↔
      ∀ requirement ∈ request.policy.credentialRequirements, requirement.required = true →
        (evaluate platform request requirement).satisfied = true := by
    rw [runLoops_directResults, ← map_prod_left_eq_zip]
    simp [imp_iff_not_or]
  rw [conclude_decision_eq_allow_iff, fullySatisfied, Bool.and_eq_true, Bool.and_eq_true, beq_iff_eq,
    counters_eq_iff, hdirect]
  -- the direct requirements are tested a second time
  simp only [Bool.not_eq_true', any_eq_false, Option.isNone_iff_eq_none]
  tauto

/-! ## Reported results -/

variable {request} {requirement : ServiceCredentialRequirement N}

theorem evaluate_of_satisfied (h : (evaluate platform request requirement).satisfied = true) :
    ∃ credential ∈ request.credentials,
      Satisfies platform request.policy request.evaluationTimeEpochSeconds requirement credential ∧
      evaluate platform request requirement =
        evaluateCandidate platform requirement request.policy credential request.evaluationTimeEpochSeconds := by
  obtain ⟨credential, hmem, hsatisfies, heq⟩ := evaluateRequirement_eq h
  exact ⟨credential, (mem_insertionSort _).mp hmem, hsatisfies, heq⟩

variable (platform)

/-- `reported` is the result of `requirement`, and it is reported satisfied exactly when a presented credential
    satisfies it. -/
def Reports (request : ServicePolicyEvaluationRequest N) (requirement : ServiceCredentialRequirement N)
    (reported : ServiceCredentialResult N) : Prop :=
  reported.requirementId = requirement.id ∧
  (reported.satisfied = true ↔ ∃ credential ∈ request.credentials,
    Satisfies platform request.policy request.evaluationTimeEpochSeconds requirement credential)

theorem evaluate_reports (request : ServicePolicyEvaluationRequest N) (requirement : ServiceCredentialRequirement N) :
    Reports platform request requirement (evaluate platform request requirement) := by
  constructor
  · unfold evaluate
    rcases evaluateRequirement_cases with ⟨-, hmissing⟩ | ⟨credential, -, -, heq, -⟩
    · rw [hmissing]
      rfl
    · rw [heq]
      rfl
  · rw [evaluate, evaluateRequirement_satisfied_iff]
    simp

/-! ## Verified claims -/

/-- The values that a result contributes. -/
def resultEntries (result : ServiceCredentialResult N) : List (Merge.Entry Str (Value N) ServicePolicyViolation) :=
  if result.satisfied then
    result.claimResults.flatMap (fun claim =>
      if claim.satisfied then claim.presentedValue.toList.map (presentedEntry result claim) else [])
  else []

variable {entry : Merge.Entry Str (Value N) ServicePolicyViolation} {result : ServiceCredentialResult N}

theorem mem_resultEntries : entry ∈ resultEntries result ↔
      result.satisfied = true ∧ ∃ claim ∈ result.claimResults, claim.satisfied = true ∧
        ∃ value, claim.presentedValue = some value ∧ presentedEntry result claim value = entry := by
  unfold resultEntries
  cases result.satisfied with
  | false => simp
  | true =>
    simp only [if_true, mem_flatMap, true_and]
    refine exists_congr fun claim => and_congr_right fun _ => ?_
    cases claim.satisfied <;> simp

theorem collectVerifiedClaims_eq (claims : VerifiedClaims N) (result : ServiceCredentialResult N) :
    collectVerifiedClaims platform claims result =
      (resultEntries result).foldl (Merge.add (sameValue platform)) claims := by
  have hclaim : collectClaim platform result = fun claims claim =>
      (if claim.satisfied then claim.presentedValue.toList.map (presentedEntry result claim) else []).foldl
        (Merge.add (sameValue platform)) claims := by
    funext claims claim
    unfold collectClaim
    split
    · cases claim.presentedValue <;> rfl
    · rfl
  unfold collectVerifiedClaims resultEntries
  split
  · rw [foldl_flatMap, hclaim]
  · rfl

/-- The results whose claims are collected. -/
def contributors (request : ServicePolicyEvaluationRequest N) : List (ServiceCredentialResult N) :=
  request.policy.credentialRequirements.map (evaluate platform request) ++
    (request.policy.alternativeRequirements.map (evaluateAlternative platform request)).flatMap contributing

theorem verifiedClaims_eq (request : ServicePolicyEvaluationRequest N) :
    (runLoops platform request).verifiedClaims =
      ((contributors platform request).flatMap resultEntries).foldl (Merge.add (sameValue platform)) .empty := by
  rw [runLoops_eq, foldl_flatMap]
  simp only [← collectVerifiedClaims_eq]
  rfl

variable {platform}

theorem verifiedClaims_collects (request : ServicePolicyEvaluationRequest N) :
    Merge.Collects (sameValue platform) ((contributors platform request).flatMap resultEntries)
      (runLoops platform request).verifiedClaims := by
  rw [verifiedClaims_eq]
  exact (Merge.collects_empty _).foldl (Json.same_equivalence platform.numberEq_equivalence) _

theorem contributor_eq (h : result ∈ contributors platform request) :
    ∃ requirement ∈ request.policy.requirements, evaluate platform request requirement = result := by
  rcases mem_append.mp h with hdirect | halternative
  · obtain ⟨requirement, hmem, rfl⟩ := mem_map.mp hdirect
    exact ⟨requirement, mem_append_left _ hmem, rfl⟩
  · obtain ⟨_, hreported, hresult⟩ := mem_flatMap.mp halternative
    obtain ⟨alternative, hmem, rfl⟩ := mem_map.mp hreported
    unfold contributing at hresult
    split at hresult
    · obtain ⟨requirement, hrequirement, rfl⟩ := mem_map.mp (mem_of_mem_filter hresult)
      exact ⟨requirement, mem_append_right _ (mem_flatMap.mpr ⟨alternative, hmem, hrequirement⟩), rfl⟩
    · cases hresult

variable (platform)

/-- A credential that satisfies a requirement and presents `value` for one of the claims the requirement asks for. -/
def PresentedBy (request : ServicePolicyEvaluationRequest N) (name : Str) (value : Value N) : Prop :=
  ∃ requirement ∈ request.policy.requirements, ∃ credential ∈ request.credentials,
    Satisfies platform request.policy request.evaluationTimeEpochSeconds requirement credential ∧
    (∃ requested ∈ requirement.requestedClaims, requested.claimName = name) ∧
    credential.claims.get? name = some value

theorem presentedBy_of_mem_entries
    (h : entry ∈ (contributors platform request).flatMap resultEntries) :
    PresentedBy platform request entry.key entry.value := by
  obtain ⟨result, hresult, hentry⟩ := mem_flatMap.mp h
  obtain ⟨hsatisfied, claim, hclaim, -, value, hvalue, rfl⟩ := mem_resultEntries.mp hentry
  obtain ⟨requirement, hrequirement, rfl⟩ := contributor_eq hresult
  obtain ⟨credential, hcredential, hsatisfies, heq⟩ := evaluate_of_satisfied hsatisfied
  rw [heq] at hclaim
  obtain ⟨requested, hrequested, rfl⟩ := mem_map.mp hclaim
  exact ⟨requirement, hrequirement, credential, hcredential, hsatisfies, ⟨requested, hrequested, rfl⟩, hvalue⟩

theorem presentedBy_of_collected {name : Str} {value : Value N}
    (h : (runLoops platform request).verifiedClaims.output.get? name = some value) :
    PresentedBy platform request name value := by
  obtain ⟨entry, hentry, rfl, rfl⟩ := (verifiedClaims_collects request).output name value h
  exact presentedBy_of_mem_entries platform hentry

theorem claimResult_satisfied {credential : VerifiedCredentialFacts N} {now : Nat}
    {requested : ServiceRequestedClaim N} {policy : ServicePresentationPolicy N}
    (h : Satisfies platform policy now requirement credential) (hrequested : requested ∈ requirement.requestedClaims) :
    (claimResult platform credential now requested).satisfied = true := by
  have hpresent := h.claims requested hrequested
  have hpassed := h.constraints requested hrequested
  simp only [claimResult, Bool.and_eq_true, all_map, all_eq_true]
  refine ⟨?_, hpassed⟩
  cases hrequired : requested.required with
  | false => simp
  | true => simp [hpresent hrequired]

/-- All results that a response reports. -/
def ServicePolicyEvaluationResult.reported (result : ServicePolicyEvaluationResult N) :
    List (ServiceCredentialResult N) :=
  result.credentialResults ++ result.alternativeResults.flatMap ServiceAlternativeResult.credentialResults

theorem conclude_credentialResults : (conclude request (runLoops platform request)).credentialResults =
    request.policy.credentialRequirements.map (evaluate platform request) := runLoops_directResults request

theorem conclude_alternativeResults : (conclude request (runLoops platform request)).alternativeResults =
    request.policy.alternativeRequirements.map (evaluateAlternative platform request) :=
  runLoops_alternativeResults request

section

variable (hallow : (conclude request (runLoops platform request)).decision = .allow)

include hallow

variable {platform}

/-- Conflicts are errors of the whole presentation. -/
theorem no_conflicts : (runLoops platform request).verifiedClaims.errors = [] := by
  obtain ⟨-, -, -, hglobal⟩ := (decision_eq_allow_iff request).mp hallow
  refine eq_nil_iff_forall_not_mem.mpr (fun report hreport => ?_)
  obtain ⟨entry, hentry, rfl⟩ := (verifiedClaims_collects request).errors report hreport
  obtain ⟨result, -, hentry⟩ := mem_flatMap.mp hentry
  obtain ⟨-, claim, -, -, value, -, rfl⟩ := mem_resultEntries.mp hentry
  have hmem : (presentedEntry result claim value).report ∈ allErrors request (runLoops platform request) := by
    simp only [allErrors, mem_append]
    tauto
  exact hglobal _ hmem rfl

variable {reported : ServiceCredentialResult N} (h : reported ∈ (conclude request (runLoops platform request)).reported)
  (hsatisfied : reported.satisfied = true)

include h hsatisfied

/-- Under `Allow` every result that is reported satisfied contributes. -/
theorem mem_contributors : reported ∈ contributors platform request := by
  obtain ⟨-, -, halternatives, -⟩ := (decision_eq_allow_iff request).mp hallow
  rw [ServicePolicyEvaluationResult.reported, conclude_credentialResults, conclude_alternativeResults] at h
  rcases mem_append.mp h with hdirect | halternative
  · exact mem_append_left _ hdirect
  · obtain ⟨result, hresult, hmem⟩ := mem_flatMap.mp halternative
    refine mem_append_right _ (mem_flatMap.mpr ⟨result, hresult, ?_⟩)
    obtain ⟨alternative, hmem', rfl⟩ := mem_map.mp hresult
    rw [contributing, if_pos (halternatives alternative hmem')]
    exact mem_filter.mpr ⟨hmem, hsatisfied⟩

/-- **Under `Allow` the verified claims hold every value that a satisfied result presents**, so no two conflict. -/
theorem kept_of_allow {claim : ServiceClaimResult N} (hclaim : claim ∈ reported.claimResults) {value : Value N}
    (hvalue : claim.presentedValue = some value) :
    ∃ kept, (runLoops platform request).verifiedClaims.output.get? claim.claimName = some kept ∧
      sameValue platform kept value = true := by
  have hcontributor := mem_contributors hallow h hsatisfied
  refine (verifiedClaims_collects request).agree (no_conflicts hallow)
    (presentedEntry reported claim value) (mem_flatMap.mpr ⟨reported, hcontributor, ?_⟩)
  refine mem_resultEntries.mpr ⟨hsatisfied, claim, hclaim, ?_, value, hvalue, rfl⟩
  obtain ⟨requirement, -, rfl⟩ := contributor_eq hcontributor
  obtain ⟨credential, -, hsatisfies, heq⟩ := evaluate_of_satisfied hsatisfied
  rw [heq] at hclaim
  obtain ⟨requested, hrequested, rfl⟩ := mem_map.mp hclaim
  exact claimResult_satisfied platform hsatisfies hrequested

end

/-! ## Accepted requests -/

/-- What validation establishes about the obligations: there is one, and an alternative asks for something. -/
theorem obligations_of_valid (h : validateRequest platform request = .ok ()) :
    (request.policy.presentationProofRequired = true ∨
      (∃ requirement ∈ request.policy.credentialRequirements, requirement.required = true) ∨
      request.policy.alternativeRequirements ≠ []) ∧
    ∀ alternative ∈ request.policy.alternativeRequirements, alternative.minSatisfied ≠ 0 := by
  obtain ⟨-, h⟩ := of_reject h
  obtain ⟨_, -, h⟩ := of_bind h
  obtain ⟨_, hcounts, h⟩ := of_bind h
  obtain ⟨_, -, h⟩ := of_bind h
  obtain ⟨_, -, h⟩ := of_bind h
  obtain ⟨_, halternatives, -⟩ := of_bind h
  constructor
  · obtain ⟨-, hcounts⟩ := of_reject hcounts
    obtain ⟨-, hcounts⟩ := of_reject hcounts
    obtain ⟨-, hcounts⟩ := of_reject hcounts
    have hunits := reject_ok_iff.mp hcounts
    by_contra hnone
    simp only [not_or, not_exists, not_and, Bool.not_eq_true, ne_eq, not_not] at hnone
    refine hunits ⟨?_, hnone.1⟩
    rw [hnone.2.2, countP_eq_zero.mpr (fun requirement hmem => by simp [hnone.2.1 requirement hmem])]
    rfl
  · intro alternative hmem
    obtain ⟨_, -, hchecks⟩ := of_bind (forM_ok_iff.mp halternatives alternative hmem)
    obtain ⟨_, -, hrange⟩ := of_bind hchecks
    exact fun hzero => reject_ok_iff.mp hrange (.inl hzero)

/-- Validation looks at each credential for itself, and at how many there are. -/
theorem validateRequest_presenting {credentials : List (VerifiedCredentialFacts N)}
    (hperm : credentials.Perm request.credentials) (h : validateRequest platform request = .ok ()) :
    validateRequest platform { request with credentials := credentials } = .ok () := by
  obtain ⟨htime, h⟩ := of_reject h
  obtain ⟨_, hstrings, h⟩ := of_bind h
  obtain ⟨_, hcounts, h⟩ := of_bind h
  obtain ⟨_, hall, h⟩ := of_bind h
  refine reject_bind_ok_iff.mpr ⟨htime, ?_⟩
  refine bind_ok_iff.mpr ⟨(), hstrings, ?_⟩
  refine bind_ok_iff.mpr ⟨(), ?_, ?_⟩
  · simpa only [validateCounts, hperm.length_eq] using hcounts
  refine bind_ok_iff.mpr ⟨(), ?_, h⟩
  rw [forM_ok_iff] at hall ⊢
  exact fun credential hmem => hall credential (hperm.mem_iff.mp hmem)

variable {result : ServicePolicyEvaluationResult N}

variable {platform} in
theorem evaluateServicePolicy_ok_iff :
    evaluateServicePolicy platform request = .ok result ↔
      validateRequest platform request = .ok () ∧ result = conclude request (runLoops platform request) := by
  unfold evaluateServicePolicy
  rw [bind_ok_iff]
  constructor
  · rintro ⟨⟨⟩, hvalid, hreturn⟩
    exact ⟨hvalid, (Except.ok.inj hreturn).symm⟩
  · rintro ⟨hvalid, rfl⟩
    exact ⟨(), hvalid, rfl⟩

/-- **`Allow` is never vacuous**: a verified presentation proof was required, or some presented credential satisfies
    some requirement. -/
theorem evidence_of_allow
    (h : evaluateServicePolicy platform request = .ok result) (hallow : result.decision = .allow) :
    request.policy.presentationProofRequired = true ∧ request.presentationVerified = true ∨
    ∃ requirement ∈ request.policy.requirements, ∃ credential ∈ request.credentials,
      Satisfies platform request.policy request.evaluationTimeEpochSeconds requirement credential := by
  obtain ⟨hvalid, rfl⟩ := evaluateServicePolicy_ok_iff.mp h
  obtain ⟨hproof, hdirect, halternatives, -⟩ := (decision_eq_allow_iff request).mp hallow
  obtain ⟨hsome, hminimum⟩ := obligations_of_valid platform hvalid
  have hevidence : ∀ requirement, (evaluate platform request requirement).satisfied = true →
      ∃ credential ∈ request.credentials,
        Satisfies platform request.policy request.evaluationTimeEpochSeconds requirement credential :=
    fun requirement => (evaluate_reports platform request requirement).2.mp
  rcases hsome with hrequired | ⟨requirement, hmem, hrequired⟩ | hne
  · exact .inl ⟨hrequired, hproof hrequired⟩
  · exact .inr ⟨requirement, mem_append_left _ hmem,
      hevidence requirement (hdirect requirement hmem hrequired)⟩
  · -- the first alternative asks for at least one credential, and has as many as it asks for
    obtain ⟨alternative, hmem⟩ := exists_mem_of_ne_nil _ hne
    have hcount : alternative.minSatisfied ≤
        (alternative.credentialRequirements.map (evaluate platform request)).countP
          ServiceCredentialResult.satisfied := of_decide_eq_true (halternatives alternative hmem)
    obtain ⟨reported, hreported, hsatisfied⟩ := countP_pos_iff.mp
      (Nat.lt_of_lt_of_le (Nat.pos_of_ne_zero (hminimum alternative hmem)) hcount)
    obtain ⟨requirement, hrequirement, rfl⟩ := mem_map.mp hreported
    exact .inr ⟨requirement, mem_append_right _ (mem_flatMap.mpr ⟨alternative, hmem, hrequirement⟩),
      hevidence requirement hsatisfied⟩

/-! ## The main theorem -/

/-- **`Allow` is sound.** The decision is `Allow` exactly when the presentation proof, every required requirement and
    every alternative are satisfied and no error is about the presentation as a whole. A result is reported satisfied
    exactly when a presented credential satisfies its requirement. Without `Allow` there are no verified claims; with
    it, they are values that satisfying credentials present, and no satisfied result presents another value. -/
theorem allow_sound (request : ServicePolicyEvaluationRequest N) (result : ServicePolicyEvaluationResult N)
    (h : evaluateServicePolicy platform request = .ok result) :
    (result.decision = .allow ↔
      (request.policy.presentationProofRequired = true → request.presentationVerified = true) ∧
      List.Forall₂ (fun requirement reported => requirement.required = true → reported.satisfied = true)
        request.policy.credentialRequirements result.credentialResults ∧
      List.Forall₂ (fun alternative reported =>
          alternative.minSatisfied ≤ reported.credentialResults.countP ServiceCredentialResult.satisfied)
        request.policy.alternativeRequirements result.alternativeResults ∧
      ∀ error ∈ result.errors, error.requirementId ≠ none) ∧
    List.Forall₂ (Reports platform request) request.policy.credentialRequirements result.credentialResults ∧
    List.Forall₂ (fun alternative reported => List.Forall₂ (Reports platform request)
        alternative.credentialRequirements reported.credentialResults)
      request.policy.alternativeRequirements result.alternativeResults ∧
    (result.decision ≠ .allow → result.verifiedClaims = .empty) ∧
    (∀ name value, result.verifiedClaims.get? name = some value → PresentedBy platform request name value) ∧
    (result.decision = .allow → ∀ reported ∈ result.reported, reported.satisfied = true →
      ∀ claim ∈ reported.claimResults, ∀ value, claim.presentedValue = some value →
        ∃ kept, result.verifiedClaims.get? claim.claimName = some kept ∧ sameValue platform kept value = true) := by
  obtain ⟨-, rfl⟩ := evaluateServicePolicy_ok_iff.mp h
  have hforall : ∀ {R : ServiceCredentialRequirement N → ServiceCredentialResult N → Prop}
      {requirements : List (ServiceCredentialRequirement N)},
      List.Forall₂ R requirements (requirements.map (evaluate platform request)) ↔
        ∀ requirement ∈ requirements, R requirement (evaluate platform request requirement) := by
    intro R requirements
    rw [forall₂_map_right_iff, forall₂_same]
  have hverified : (conclude request (runLoops platform request)).verifiedClaims =
      if (conclude request (runLoops platform request)).decision = .allow then
        (runLoops platform request).verifiedClaims.output else .empty := rfl
  refine ⟨?_, ?_, ?_, ?_, ?_, ?_⟩
  · rw [decision_eq_allow_iff, conclude_credentialResults, conclude_alternativeResults, hforall,
      forall₂_map_right_iff, forall₂_same]
    simp [evaluateAlternative, conclude]
  · rw [conclude_credentialResults, hforall]
    exact fun requirement _ => evaluate_reports platform request requirement
  · rw [conclude_alternativeResults, forall₂_map_right_iff, forall₂_same]
    exact fun alternative _ => hforall.mpr (fun requirement _ => evaluate_reports platform request requirement)
  · intro hdeny
    rw [hverified, if_neg hdeny]
  · intro name value hget
    rw [hverified] at hget
    split at hget
    · exact presentedBy_of_collected platform hget
    · cases hget
  · intro hallow reported hreported hsatisfied claim hclaim value hvalue
    rw [hverified, if_pos hallow]
    exact kept_of_allow hallow hreported hsatisfied hclaim hvalue

/-! ## A request -/

def samplePlatform : Platform Nat where
  F := Nat
  asF64 := some
  parseF64 _ := none
  isFinite _ := true
  lt a b := a < b
  le a b := a ≤ b
  toI32 := Int.ofNat
  numberText := Nat.toDigits 10
  numberEq a b := a = b
  numberEq_equivalence := by
    simp only [decide_eq_true_eq]
    exact eq_equivalence
  regexNew _ := none
  dateFromTimestamp _ := none
  parseDate _ := none
  claimOrder := ⟨id, List.Perm.refl⟩

/-- A claim that has to be at least `18`. -/
def sampleRequirement : ServiceCredentialRequirement Nat where
  id := ['r']
  credentialTemplateId := ['t']
  required := true
  credentialPayloadFormat := none
  requestedClaims :=
    [{ claimName := ['a']
       required := true
       predicateSpec := none
       constraints := [⟨['a'], .greaterOrEqual, some ⟨.num 18, .num 18⟩⟩] }]
  trustProfileId := none
  maxAgeSeconds := some 60
  requireFreshIssuance := false

def sampleCredential (id : Char) (age : Nat) : VerifiedCredentialFacts Nat where
  credentialId := [id]
  credentialTemplateIds := [['t']]
  credentialFormat := ['m']
  claims := SortedMap.empty.insert ['a'] ⟨.num age, .num age⟩
  issuerId := ['i']
  signatureVerified := true
  signatureFailureReason := none
  trustProfileVerified := false
  trustFailureReason := none
  trustLevel := none
  complianceStatuses := []
  accreditations := []
  issuedAtEpochSeconds := some 90
  revocationCheckedAtEpochSeconds := some 95
  notRevoked := some true
  credentialStatus := some .active
  warnings := []

/-- Two credentials match the template; only the second has a large enough claim. -/
def sampleRequest : ServicePolicyEvaluationRequest Nat where
  policy :=
    { id := ['p']
      name := ['n']
      organizationId := ['o']
      credentialRequirements := [sampleRequirement]
      alternativeRequirements := []
      trustProfileId := none
      holderBinding := ⟨false, [], [], false, false, false, none⟩
      freshness := some ⟨some 30, true, some 10⟩
      issuerConstraints := none
      allowedIssuers := [['i']]
      singlePresentation := false
      presentationProofRequired := false }
  credentials := [sampleCredential 'c' 17, sampleCredential 'd' 40]
  evaluationTimeEpochSeconds := 100
  presentationVerified := false
  holderBindingVerified := false
  holderBindingMethod := none
  proofProfile := none
  challengeVerified := false
  audienceVerified := false
  replayCheckVerified := false
  proofEpochSeconds := none
  externalAuthorization := none
  presentationCount := none

theorem allow_sound_sampleRequest : ∃ result, evaluateServicePolicy samplePlatform sampleRequest = .ok result ∧
    result.decision = .allow ∧ PresentedBy samplePlatform sampleRequest ['a'] ⟨.num 40, .num 40⟩ := by
  have hvalid : validateRequest samplePlatform sampleRequest = .ok () := by decide
  have hresult := evaluateServicePolicy_ok_iff.mpr ⟨hvalid, rfl⟩
  have hallow : (conclude sampleRequest (runLoops samplePlatform sampleRequest)).decision = .allow := by
    decide
  have hclaim : (conclude sampleRequest (runLoops samplePlatform sampleRequest)).verifiedClaims.get? ['a'] =
      some ⟨.num 40, .num 40⟩ := by rfl
  obtain ⟨-, -, -, -, hpresented, -⟩ := allow_sound samplePlatform sampleRequest _ hresult
  exact ⟨_, hresult, hallow, hpresented _ _ hclaim⟩

theorem evidence_of_allow_sampleRequest :
    ∃ requirement ∈ sampleRequest.policy.requirements, ∃ credential ∈ sampleRequest.credentials,
      Satisfies samplePlatform sampleRequest.policy 100 requirement credential := by
  have hvalid : validateRequest samplePlatform sampleRequest = .ok () := by decide
  have hresult := evaluateServicePolicy_ok_iff.mpr ⟨hvalid, rfl⟩
  exact (evidence_of_allow samplePlatform hresult (by decide)).resolve_left (by decide)

end MartyCore.Policy
