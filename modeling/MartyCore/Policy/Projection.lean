import MartyCore.Policy.Allow
import MartyCore.Policy.Compat

/-!
# `Policy.Projection` — the legacy result agrees with the service's decision

Violations go through a lookup that may return nothing, so a violation could be lost on the way back. It is not: the
only codes that can map to nothing are those of failed claims (`isClaimCode`), and in a projected request such a code
comes from the requirement of a claim, or from an accepted type that is not presented (`mapped_of_mem`). The one other
requirement, the global facts, asks for a type that the projection itself adds to the credential.

So the projected errors are empty exactly when the service reports none, which is when it allows
(`legacy_projection_agrees`).
-/

namespace MartyCore.Policy

open List

variable {N : Type} (platform : Platform N)

/-! ## Where a violation comes from -/

section

variable {requirement : ServiceCredentialRequirement N} {policy : ServicePresentationPolicy N}
  {credential : VerifiedCredentialFacts N} {now : Nat}

/-- A violation of `requirement` that is not about a claim. -/
def About (requirement : ServiceCredentialRequirement N) (v : ServicePolicyViolation) : Prop :=
  v.requirementId = some requirement.id ∧ isClaimCode v.code = false

theorem forall_mem_pushIf {c : Prop} [Decidable c] {w : ServicePolicyViolation} {P : ServicePolicyViolation → Prop} :
    (∀ v ∈ pushIf c w, P v) ↔ (c → P w) := by
  unfold pushIf
  split <;> simp_all

theorem credentialErrors_about : ∀ v ∈ credentialErrors requirement policy credential, About requirement v := by
  simp only [credentialErrors, forall_mem_append, forall_mem_pushIf]
  simp [About, violation, isClaimCode]

theorem missingNames_about {code : ServicePolicyErrorCode} (hcode : isClaimCode code = false) {message : String}
    {required present : List Str} :
    ∀ v ∈ missingNames code message requirement credential required present, About requirement v := by
  intro v hv
  obtain ⟨name, -, rfl⟩ := mem_map.mp hv
  exact ⟨rfl, hcode⟩

theorem applyIssuerConstraints_about :
    ∀ v ∈ applyIssuerConstraints requirement policy credential, About requirement v := by
  unfold applyIssuerConstraints
  cases policy.issuerConstraints with
  | none => simp
  | some constraints =>
    simp only [forall_mem_append, forall_mem_pushIf]
    exact ⟨⟨fun _ => ⟨rfl, rfl⟩, missingNames_about rfl⟩, missingNames_about rfl⟩

theorem issuanceErrors_about : ∀ v ∈ issuanceErrors requirement policy credential now, About requirement v := by
  simp only [issuanceErrors]
  split
  · split
    · simp [About, violation, isClaimCode]
    · simp [forall_mem_pushIf, About, violation, isClaimCode]
    · split
      · simp [About, violation, isClaimCode]
      · simp [forall_mem_pushIf, About, violation, isClaimCode]
  · simp [forall_mem_pushIf, About, violation, isClaimCode]

theorem evidenceErrors_about {freshness : ServiceFreshnessPolicy} :
    ∀ v ∈ evidenceErrors requirement freshness credential now, About requirement v := by
  unfold evidenceErrors
  split
  · simp [About, violation, isClaimCode]
  · split
    · simp [About, violation, isClaimCode]
    · split
      · simp [About, violation, isClaimCode]
      · simp [forall_mem_pushIf, About, violation, isClaimCode]

theorem revocationErrors_about : ∀ v ∈ revocationErrors requirement policy credential now, About requirement v := by
  unfold revocationErrors
  split
  · simp [About, violation, isClaimCode]
  · split
    · simp
    · split
      · simp
      · exact evidenceErrors_about

theorem claimErrors_requirementId {requested : ServiceRequestedClaim N} :
    ∀ v ∈ claimErrors platform requirement credential now requested, v.requirementId = some requirement.id := by
  simp only [claimErrors, forall_mem_append, forall_mem_pushIf]
  refine ⟨?_, fun _ => rfl⟩
  intro v hv
  obtain ⟨constraint, -, rfl⟩ := mem_map.mp hv
  rfl

/-- **The violations of a candidate name their requirement**, and are about claims only if it asks for some. -/
theorem candidateErrors_about {v : ServicePolicyViolation}
    (h : v ∈ candidateErrors platform requirement policy credential now) :
    v.requirementId = some requirement.id ∧ (requirement.requestedClaims = [] → isClaimCode v.code = false) := by
  simp only [candidateErrors, applyFreshness, mem_append, mem_flatMap] at h
  have habout : About requirement v →
      v.requirementId = some requirement.id ∧ (requirement.requestedClaims = [] → isClaimCode v.code = false) :=
    fun h => ⟨h.1, fun _ => h.2⟩
  rcases h with ((h | h) | h | h) | ⟨requested, hrequested, h⟩
  · exact habout (credentialErrors_about v h)
  · exact habout (applyIssuerConstraints_about v h)
  · exact habout (issuanceErrors_about v h)
  · exact habout (revocationErrors_about v h)
  · refine ⟨claimErrors_requirementId platform v h, ?_⟩
    intro hnone
    rw [hnone] at hrequested
    cases hrequested

end

section

variable {request : ServicePolicyEvaluationRequest N} {requirement : ServiceCredentialRequirement N}

variable {v : ServicePolicyViolation}

/-- **The violations of a requirement name it.** One without claims has a claim's code only if nothing matches. -/
theorem evaluate_errors (h : v ∈ (evaluate platform request requirement).errors) :
    v.requirementId = some requirement.id ∧
    (requirement.requestedClaims = [] → isClaimCode v.code = true → v.code = .credentialMissing ∧
      ∀ credential ∈ request.credentials, ¬ matchesTemplate requirement credential = true) := by
  unfold evaluate at h
  rcases evaluateRequirement_cases with ⟨hnone, hmissing⟩ | ⟨credential, -, -, heq, -⟩
  · rw [hmissing] at h
    obtain rfl := mem_singleton.mp h
    refine ⟨rfl, fun _ _ => ⟨rfl, ?_⟩⟩
    intro credential hmem
    exact hnone credential ((mem_insertionSort _).mpr hmem)
  · rw [heq] at h
    obtain ⟨hid, hcode⟩ := candidateErrors_about platform h
    refine ⟨hid, ?_⟩
    intro hclaims hclaim
    rw [hcode hclaims] at hclaim
    cases hclaim

theorem evaluate_satisfied_iff_errors : (evaluate platform request requirement).satisfied = true ↔
    (evaluate platform request requirement).errors = [] := by
  unfold evaluate
  rcases evaluateRequirement_cases with ⟨-, hmissing⟩ | ⟨credential, -, -, heq, -⟩
  · rw [hmissing]
    simp [missingResult]
  · rw [heq]
    exact isEmpty_iff

/-- A violation of the presentation as a whole. -/
def Global (v : ServicePolicyViolation) : Prop := v.requirementId = none ∧ isClaimCode v.code = false

variable (request)

theorem holderBindingErrors_global : ∀ v ∈ holderBindingErrors request, Global v := by
  simp only [holderBindingErrors]
  split
  · simp
  · split
    · simp [Global, globalViolation, isClaimCode]
    · simp only [forall_mem_append, forall_mem_pushIf]
      simp [Global, globalViolation, isClaimCode]

theorem proofTimeErrors_global : ∀ v ∈ proofTimeErrors request, Global v := by
  simp only [proofTimeErrors]
  split
  · simp [Global, globalViolation, isClaimCode]
  · split
    · split
      · simp
      · simp [Global, globalViolation, isClaimCode]
      · simp [forall_mem_pushIf, Global, globalViolation, isClaimCode]
    · simp

theorem externalErrors_global : ∀ v ∈ externalErrors request, Global v := by
  simp only [externalErrors]
  split
  · simp
  · split
    · simp [Global, globalViolation, isClaimCode]
    · simp [forall_mem_pushIf, Global, globalViolation, isClaimCode]

variable {platform}

theorem conflicts_global : ∀ v ∈ (runLoops platform request).verifiedClaims.errors, Global v := by
  intro v hv
  obtain ⟨entry, hentry, rfl⟩ := (verifiedClaims_collects request).errors v hv
  obtain ⟨result, -, hentry⟩ := mem_flatMap.mp hentry
  obtain ⟨-, claim, -, -, value, -, rfl⟩ := mem_resultEntries.mp hentry
  exact ⟨rfl, rfl⟩

variable {request}

/-- **Every violation has one of three origins**: a direct requirement, an alternative that failed, or the
    presentation as a whole. -/
theorem mem_allErrors (h : v ∈ allErrors request (runLoops platform request)) :
    (∃ requirement ∈ request.policy.credentialRequirements, v ∈ (evaluate platform request requirement).errors) ∨
    (∃ alternative ∈ request.policy.alternativeRequirements,
      (evaluateAlternative platform request alternative).satisfied = false ∧
      ((∃ requirement ∈ alternative.credentialRequirements, v ∈ (evaluate platform request requirement).errors) ∨
        v.code = .alternativeRequirementFailed)) ∨
    Global v := by
  simp only [allErrors, mem_append, runLoops_directResults, runLoops_alternativeResults] at h
  rcases h with ((((((h | h) | h) | h) | h) | h) | h) | h
  · obtain ⟨_, hresult, hv⟩ := mem_flatMap.mp h
    obtain ⟨requirement, hmem, rfl⟩ := mem_map.mp hresult
    exact .inl ⟨requirement, hmem, hv⟩
  · exact .inr (.inr (conflicts_global request v h))
  · exact .inr (.inr (forall_mem_pushIf.mpr (fun _ => ⟨rfl, rfl⟩) v h))
  · obtain ⟨_, hresult, hv⟩ := mem_flatMap.mp h
    obtain ⟨alternative, hmem, rfl⟩ := mem_map.mp hresult
    refine .inr (.inl ⟨alternative, hmem, ?_⟩)
    unfold alternativeErrors at hv
    split at hv
    · cases hv
    · rename_i hfailed
      refine ⟨by simpa using hfailed, ?_⟩
      rcases mem_append.mp hv with hv | hv
      · obtain ⟨_, hresult, hv⟩ := mem_flatMap.mp hv
        obtain ⟨requirement, hrequirement, rfl⟩ := mem_map.mp hresult
        exact .inl ⟨requirement, hrequirement, hv⟩
      · rw [mem_singleton.mp hv]
        exact .inr rfl
  · exact .inr (.inr (holderBindingErrors_global request v h))
  · exact .inr (.inr (proofTimeErrors_global request v h))
  · exact .inr (.inr (externalErrors_global request v h))
  · exact .inr (.inr (forall_mem_pushIf.mpr (fun _ => ⟨rfl, rfl⟩) v h))

/-- An allowed presentation has no violations, if every direct requirement is required. -/
theorem allErrors_eq_nil_of_allow
    (hrequired : ∀ requirement ∈ request.policy.credentialRequirements, requirement.required = true)
    (hallow : (conclude request (runLoops platform request)).decision = .allow) :
    allErrors request (runLoops platform request) = [] := by
  obtain ⟨-, hdirect, halternatives, hglobal⟩ := (decision_eq_allow_iff request).mp hallow
  rw [eq_nil_iff_forall_not_mem]
  intro v hv
  rcases mem_allErrors hv with ⟨requirement, hmem, herror⟩ | ⟨alternative, hmem, hfailed, -⟩ | h
  · have hnone := (evaluate_satisfied_iff_errors platform).mp (hdirect requirement hmem (hrequired requirement hmem))
    rw [hnone] at herror
    cases herror
  · rw [halternatives alternative hmem] at hfailed
    cases hfailed
  · exact hglobal v hv h.1

/-- What the absence of violations amounts to. -/
theorem allErrors_eq_nil_iff : allErrors request (runLoops platform request) = [] ↔
    (∀ requirement ∈ request.policy.credentialRequirements, (evaluate platform request requirement).satisfied = true) ∧
    (runLoops platform request).verifiedClaims.errors = [] ∧
    (request.policy.presentationProofRequired = true → request.presentationVerified = true) ∧
    (∀ alternative ∈ request.policy.alternativeRequirements,
      (evaluateAlternative platform request alternative).satisfied = true) ∧
    holderBindingErrors request = [] ∧ proofTimeErrors request = [] ∧ externalErrors request = [] ∧
    (request.policy.singlePresentation = true → request.presentationCount.getD request.credentials.length = 1) := by
  have halternative : ∀ alternative : ServiceAlternativeResult N,
      alternativeErrors alternative = [] ↔ alternative.satisfied = true := by
    intro alternative
    unfold alternativeErrors
    cases alternative.satisfied <;> simp
  simp only [allErrors, append_eq_nil_iff, runLoops_directResults, runLoops_alternativeResults,
    flatMap_eq_nil_iff, forall_mem_map, evaluate_satisfied_iff_errors, halternative, pushIf_eq_nil,
    not_and, Bool.not_eq_false, ne_eq, not_not, and_assoc]

/-- No violations, no obstacle. -/
theorem allow_of_allErrors_eq_nil (hnone : allErrors request (runLoops platform request) = []) :
    (conclude request (runLoops platform request)).decision = .allow := by
  obtain ⟨hdirect, -, hproof, halternatives, -⟩ := allErrors_eq_nil_iff.mp hnone
  refine (decision_eq_allow_iff request).mpr ⟨hproof, fun requirement hmem _ => hdirect requirement hmem,
    halternatives, ?_⟩
  rw [hnone]
  simp

end

/-! ## Nothing is lost on the way back -/

variable {policy : PresentationPolicy N} {input : PolicyEvaluationInput N}

variable {missing : List String} {v : ServicePolicyViolation}

variable {platform} {index : Nat}

theorem mapClaimError_isSome (hid : v.requirementId = some (legacyClaimId index)) :
    (mapClaimError platform policy input v missing).isSome = true := by
  rw [mapClaimError, hid]
  show (if "legacy-claim-".toList.isPrefixOf (legacyClaimId index) then some _ else none).isSome = true
  rfl

/-- A violation of a claim's requirement is mapped, whatever its code. -/
theorem mapError_isSome_of_claim (hid : v.requirementId = some (legacyClaimId index)) :
    (mapError platform policy input v missing).isSome = true := by
  unfold mapError
  split
  · split
    · rfl
    · exact mapClaimError_isSome hid
  all_goals first | rfl | exact mapClaimError_isSome hid

/-- An accepted type that is not presented is reported. -/
theorem mapError_isSome_of_accepted (hid : v.requirementId = some (legacyAcceptedId index))
    (hcode : v.code = .credentialMissing) :
    (mapError platform policy input v missing).isSome = true := by
  rw [mapError, hcode, hid]
  show (if "legacy-accepted-".toList.isPrefixOf (legacyAcceptedId index) then some typeNotAccepted else _).isSome = true
  rfl

/-- Only the codes of failed claims can be lost. -/
theorem mapError_isSome_of_code (hcode : isClaimCode v.code = false) :
    (mapError platform policy input v missing).isSome = true := by
  unfold mapError
  split <;> simp_all [isClaimCode]

/-- The projection's own credential matches the global facts. -/
theorem globalFacts_matches : matchesTemplate globalFacts (legacyCredential input) = true := by
  refine decide_eq_true (.inr ?_)
  show legacyAnyType ∈ legacyTemplateIds input
  rw [legacyTemplateIds, mem_removeRepeats, mem_insertionSort]
  simp

/-- **Every violation of a projected request is mapped.** -/
theorem mapped_of_mem
    (h : v ∈ allErrors (legacyRequest policy input) (runLoops platform (legacyRequest policy input))) :
    (mapError platform policy input v missing).isSome = true := by
  rcases mem_allErrors h with ⟨requirement, hmem, herror⟩ | ⟨alternative, hmem, -, horigin⟩ | h
  · rcases mem_cons.mp hmem with rfl | hmem
    · by_cases hclaim : isClaimCode v.code = true
      · obtain ⟨-, hnone⟩ := (evaluate_errors platform herror).2 rfl hclaim
        exact absurd globalFacts_matches (hnone (legacyCredential input) mem_cons_self)
      · exact mapError_isSome_of_code (by simpa using hclaim)
    · obtain ⟨⟨claim, index⟩, -, rfl⟩ := mem_map.mp hmem
      exact mapError_isSome_of_claim (evaluate_errors platform herror).1
  · rcases horigin with ⟨requirement, hrequirement, herror⟩ | hcode
    · change alternative ∈ legacyAlternatives policy at hmem
      unfold legacyAlternatives at hmem
      split at hmem
      · cases hmem
      · obtain rfl := mem_singleton.mp hmem
        obtain ⟨⟨credentialType, index⟩, -, rfl⟩ := mem_map.mp hrequirement
        obtain ⟨hid, hcode⟩ := evaluate_errors platform herror
        by_cases hclaim : isClaimCode v.code = true
        · exact mapError_isSome_of_accepted hid (hcode rfl hclaim).1
        · exact mapError_isSome_of_code (by simpa using hclaim)
    · exact mapError_isSome_of_code (by rw [hcode]; rfl)
  · exact mapError_isSome_of_code h.2

variable {violations : List ServicePolicyViolation} {error : PolicyEvaluationError}

theorem mem_foldl_mapErrorStep {output : List PolicyEvaluationError} :
    error ∈ violations.foldl (mapErrorStep platform policy input missing) output ↔
      error ∈ output ∨ ∃ v ∈ violations, mapError platform policy input v missing = some error := by
  induction violations generalizing output with
  | nil => simp
  | cons v rest ih =>
    have hstep : error ∈ mapErrorStep platform policy input missing output v ↔
        error ∈ output ∨ mapError platform policy input v missing = some error := by
      unfold mapErrorStep
      cases mapError platform policy input v missing with
      | none => simp
      | some mapped =>
        by_cases hseen : mapped ∈ output
        · simp only [hseen, if_true, Option.some.injEq]
          exact ⟨.inl, fun h => h.elim id (fun h => h ▸ hseen)⟩
        · simp [hseen, eq_comm]
    rw [foldl_cons, ih, hstep]
    simp [or_assoc]

/-- The mapped errors, repetitions apart. -/
theorem mem_mapErrors :
    error ∈ mapErrors platform policy input violations missing ↔
      ∃ v ∈ violations, mapError platform policy input v missing = some error := by
  simp [mapErrors, mem_foldl_mapErrorStep]

/-! ## Components -/

/-- The eight components are all there are. -/
theorem mem_components (policy : PresentationPolicy N) (input : PolicyEvaluationInput N) (component : PolicyComponent) :
    ∃ applicable, (component, applicable) ∈ components policy input := by
  cases component <;> simp [components]

theorem no_failed_component_iff {errors : List PolicyEvaluationError} :
    (∀ status ∈ componentStatuses policy input errors, status.status ≠ .failed) ↔ errors = [] := by
  constructor
  · intro h
    rw [eq_nil_iff_forall_not_mem]
    intro error herror
    obtain ⟨applicable, hmem⟩ := mem_components policy input error.component
    refine h _ (mem_map_of_mem hmem) ?_
    have hany : errors.any (fun other => other.component = error.component) = true :=
      any_eq_true.mpr ⟨error, herror, decide_eq_true rfl⟩
    simp [hany]
  · rintro rfl status hstatus
    obtain ⟨⟨component, applicable⟩, -, rfl⟩ := mem_map.mp hstatus
    cases applicable <;> simp

/-! ## The main theorem -/

theorem legacyRequirements_required :
    ∀ requirement ∈ (legacyRequest policy input).policy.credentialRequirements, requirement.required = true := by
  intro requirement hmem
  rcases mem_cons.mp hmem with rfl | hmem
  · rfl
  · obtain ⟨⟨claim, index⟩, -, rfl⟩ := mem_map.mp hmem
    rfl

/-- The service allows a projected request exactly when it reports no violation. -/
theorem legacy_allow_iff :
    (conclude (legacyRequest policy input) (runLoops platform (legacyRequest policy input))).decision = .allow ↔
      allErrors (legacyRequest policy input) (runLoops platform (legacyRequest policy input)) = [] :=
  ⟨allErrors_eq_nil_of_allow legacyRequirements_required, allow_of_allErrors_eq_nil⟩

/-- What the service returned, or that it refused the request. -/
theorem evaluateLegacy_cases (policy : PresentationPolicy N) (input : PolicyEvaluationInput N) :
    (∃ error, evaluateServicePolicy platform (legacyRequest policy input) = .error error ∧
      evaluateLegacy platform policy input = invalidPolicyResult policy input error.display) ∨
    ∃ service, evaluateServicePolicy platform (legacyRequest policy input) = .ok service ∧
      service = conclude (legacyRequest policy input) (runLoops platform (legacyRequest policy input)) ∧
      (evaluateLegacy platform policy input).isSatisfied = decide (service.decision = .allow) ∧
      (evaluateLegacy platform policy input).errors = mapErrors platform policy input service.errors
        (missingClaims platform policy input service.errors) ∧
      (evaluateLegacy platform policy input).componentStatuses =
        componentStatuses policy input (evaluateLegacy platform policy input).errors := by
  cases h : evaluateServicePolicy platform (legacyRequest policy input) with
  | error error =>
    refine .inl ⟨error, rfl, ?_⟩
    simp only [evaluateLegacy, h]
  | ok service =>
    refine .inr ⟨service, rfl, (evaluateServicePolicy_ok_iff.mp h).2, ?_⟩
    simp only [evaluateLegacy, h]
    trivial

variable (platform)

/-- **The legacy projection agrees with the service evaluation.** The result is satisfied exactly when it has no
    errors, exactly when no component failed, and exactly when the service allows the projected request. Every
    violation of the service is reported, and every reported error is a violation's. -/
theorem legacy_projection_agrees (policy : PresentationPolicy N) (input : PolicyEvaluationInput N) :
    ((evaluateLegacy platform policy input).isSatisfied = true ↔ (evaluateLegacy platform policy input).errors = []) ∧
    ((evaluateLegacy platform policy input).isSatisfied = true ↔
      ∀ status ∈ (evaluateLegacy platform policy input).componentStatuses, status.status ≠ .failed) ∧
    ((evaluateLegacy platform policy input).isSatisfied = true ↔
      ∃ service, evaluateServicePolicy platform (legacyRequest policy input) = .ok service ∧
        service.decision = .allow) ∧
    ∀ service, evaluateServicePolicy platform (legacyRequest policy input) = .ok service →
      (∀ v ∈ service.errors, ∃ error ∈ (evaluateLegacy platform policy input).errors,
        mapError platform policy input v (missingClaims platform policy input service.errors) = some error) ∧
      ∀ error ∈ (evaluateLegacy platform policy input).errors, ∃ v ∈ service.errors,
        mapError platform policy input v (missingClaims platform policy input service.errors) = some error := by
  rcases evaluateLegacy_cases policy input with
    ⟨error, hservice, hresult⟩ | ⟨service, hservice, hconclude, hsatisfied, herrors, hstatuses⟩
  · -- the service refuses the request: the one error is about the claims, which is a component
    rw [hresult, hservice]
    simp only [invalidPolicyResult, no_failed_component_iff]
    simp
  · have hmapped : ∀ v ∈ service.errors, ∃ error,
        mapError platform policy input v (missingClaims platform policy input service.errors) = some error := by
      intro v hv
      rw [hconclude] at hv
      exact Option.isSome_iff_exists.mp (mapped_of_mem hv)
    have hempty : (evaluateLegacy platform policy input).errors = [] ↔ service.decision = .allow := by
      rw [hconclude, legacy_allow_iff, herrors, hconclude, eq_nil_iff_forall_not_mem, eq_nil_iff_forall_not_mem]
      constructor
      · intro h v hv
        rw [← hconclude] at h
        obtain ⟨error, herror⟩ := hmapped v (by rw [hconclude]; exact hv)
        exact h error (mem_mapErrors.mpr ⟨v, by rw [hconclude]; exact hv, herror⟩)
      · intro h error herror
        obtain ⟨v, hv, -⟩ := mem_mapErrors.mp herror
        exact h v hv
    rw [hsatisfied, hstatuses, no_failed_component_iff, hempty, decide_eq_true_eq, hservice]
    refine ⟨Iff.rfl, Iff.rfl, ?_, ?_⟩
    · simp
    · rintro _ ⟨rfl⟩
      rw [herrors]
      refine ⟨?_, fun error herror => mem_mapErrors.mp herror⟩
      intro v hv
      obtain ⟨error, herror⟩ := hmapped v hv
      exact ⟨error, mem_mapErrors.mpr ⟨v, hv, herror⟩, herror⟩

end MartyCore.Policy
