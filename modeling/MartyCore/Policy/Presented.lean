import MartyCore.Policy.Allow

/-!
# `Policy.Presented` — what the presented credentials have to do with the result

The credentials are sorted by id before they are evaluated, and the first of the best candidates for a requirement is
reported. So the order in which they are presented does not matter exactly if the best candidates for each requirement,
which have one id, have one result (`independent_of_credential_order`). Of the two facts about the life cycle of a
credential, only `not_revoked` is looked at (`satisfied_status_iff`).
-/

namespace MartyCore.Policy

open List

variable {N : Type}

/-! ## The credential that is reported -/

section

variable (platform : Platform N) (request : ServicePolicyEvaluationRequest N)
  (requirement : ServiceCredentialRequirement N) (credential : VerifiedCredentialFacts N)

/-- The credentials by id, in the order of presentation where ids are equal. -/
def presented : List (VerifiedCredentialFacts N) :=
  request.credentials.insertionSort (fun a b => a.credentialId ≤ b.credentialId)

/-- The result of a credential for a requirement. -/
def resultOf : ServiceCredentialResult N :=
  evaluateCandidate platform requirement request.policy credential request.evaluationTimeEpochSeconds

/-- The credential whose result comes first in the order of `evaluate_requirement`. -/
def reportedCredential : Option (VerifiedCredentialFacts N) :=
  (((presented request).filter (matchesTemplate requirement)).insertionSort (fun a b =>
    candidateOrder (resultOf platform request requirement a) ≤
      candidateOrder (resultOf platform request requirement b))).head?

/-- A candidate that no other one is better than. -/
def Best : Prop :=
  matchesTemplate requirement credential = true ∧
    ∀ other ∈ request.credentials, matchesTemplate requirement other = true →
      candidateOrder (resultOf platform request requirement credential) ≤
        candidateOrder (resultOf platform request requirement other)

/-- The first of the best candidates. -/
def First : Prop :=
  ∃ before after, presented request = before ++ credential :: after ∧ Best platform request requirement credential ∧
    ∀ other ∈ before, ¬Best platform request requirement other

theorem evaluate_eq_reported : evaluate platform request requirement =
    ((reportedCredential platform request requirement).map (resultOf platform request requirement)).getD
      (missingResult requirement) := by
  unfold evaluate evaluateRequirement reportedCredential
  rw [← head?_map, map_insertionSort _ (fun a b => candidateOrder a ≤ candidateOrder b) _ _ (fun _ _ _ _ => Iff.rfl)]
  rfl

theorem conclude_reported : (conclude request (runLoops platform request)).reported =
    request.policy.requirements.map (evaluate platform request) := by
  rw [ServicePolicyEvaluationResult.reported, conclude_credentialResults, conclude_alternativeResults]
  simp [ServicePresentationPolicy.requirements, evaluateAlternative, map_flatMap, flatMap_map]

end

variable {platform : Platform N} {request : ServicePolicyEvaluationRequest N}
  {requirement : ServiceCredentialRequirement N} {credential : VerifiedCredentialFacts N}

theorem mem_presented : credential ∈ presented request ↔ credential ∈ request.credentials := mem_insertionSort _

theorem First.reported (h : First platform request requirement credential) :
    reportedCredential platform request requirement = some credential := by
  obtain ⟨before, after, hsorted, ⟨hmatches, hbest⟩, hfirst⟩ := h
  have hafter : ∀ other ∈ after, other ∈ request.credentials := by
    intro other hother
    rw [← mem_presented, hsorted]
    exact mem_append_right _ (mem_cons_of_mem _ hother)
  rw [reportedCredential, hsorted, filter_append, filter_cons_of_pos hmatches]
  refine head?_insertionSort (fun other hother hle => ?_) (fun other hother => ?_) <;>
    obtain ⟨hmem, hmatch⟩ := mem_filter.mp hother
  · exact hfirst other hmem ⟨hmatch, fun third hthird hmatch => hle.trans (hbest third hthird hmatch)⟩
  · exact hbest other (hafter other hmem) hmatch

variable {credentials : List (VerifiedCredentialFacts N)}

/-- Presented first, a best candidate is reported. -/
theorem Best.presented_first (h : Best platform request requirement credential) (hmem : credential ∈ request.credentials) :
    ∃ credentials : List (VerifiedCredentialFacts N), credentials.Perm request.credentials ∧
      evaluate platform { request with credentials := credentials } requirement =
        resultOf platform request requirement credential := by
  obtain ⟨front, back, hsplit⟩ := append_of_mem hmem
  have hperm : (credential :: (front ++ back)).Perm request.credentials := hsplit ▸ perm_middle.symm
  refine ⟨_, hperm, ?_⟩
  have hfirst : First platform { request with credentials := credential :: (front ++ back) } requirement credential := by
    refine ⟨_, _, insertionSort_cons_eq_take_drop _ _ _,
      ⟨h.1, fun other hother => h.2 other (hperm.mem_iff.mp hother)⟩, fun other hother hother' => ?_⟩
    -- a candidate before it has a smaller id, and one as good has the same
    have hin := (mem_insertionSort _).mp ((takeWhile_sublist _).subset hother)
    have hkey := (hother'.2 credential mem_cons_self h.1).antisymm
      (h.2 other (hperm.mem_iff.mp (mem_cons_of_mem _ hin)) hother'.1)
    have hid : other.credentialId = credential.credentialId := by
      simp [candidateOrder, resultOf, evaluateCandidate] at hkey
      exact Option.some.inj (Prod.mk.inj hkey.2).2
    simpa [hid] using mem_takeWhile_imp hother
  rw [evaluate_eq_reported, hfirst.reported]
  rfl

theorem evaluate_of_perm (hperm : credentials.Perm request.credentials)
    (hties : ∀ a ∈ request.credentials, ∀ b ∈ request.credentials, Best platform request requirement a →
      Best platform request requirement b → resultOf platform request requirement a = resultOf platform request requirement b) :
    evaluate platform { request with credentials := credentials } requirement = evaluate platform request requirement := by
  have hmem : ∀ {credential}, credential ∈ presented { request with credentials := credentials } ↔
      credential ∈ presented request := fun {_} => mem_presented.trans (hperm.mem_iff.trans mem_presented.symm)
  unfold evaluate
  rcases evaluateRequirement_cases with ⟨hnone, h⟩ | ⟨a, ha, hmatch, h, hbest⟩ <;>
    rcases evaluateRequirement_cases with ⟨hnone', h'⟩ | ⟨b, hb, hmatch', h', hbest'⟩ <;>
    rw [h, h']
  · exact absurd hmatch' (hnone b (hmem.mpr hb))
  · exact absurd hmatch (hnone' a (hmem.mp ha))
  · exact hties a (mem_presented.mp (hmem.mp ha)) b (mem_presented.mp hb)
      ⟨hmatch, fun other hother => hbest other (hmem.mpr (mem_presented.mpr hother))⟩
      ⟨hmatch', fun other hother => hbest' other (mem_presented.mpr hother)⟩

theorem runLoops_congr (h : ∀ requirement ∈ request.policy.requirements,
      evaluate platform { request with credentials := credentials } requirement = evaluate platform request requirement) :
    runLoops platform { request with credentials := credentials } = runLoops platform request := by
  have hdirect : ∀ progress, ∀ requirement ∈ request.policy.credentialRequirements,
      directStep platform { request with credentials := credentials } progress requirement =
        directStep platform request progress requirement := by
    intro progress requirement hmem
    simp only [directStep, h requirement (mem_append_left _ hmem)]
  have halternative : ∀ progress, ∀ alternative ∈ request.policy.alternativeRequirements,
      alternativeStep platform { request with credentials := credentials } progress alternative =
        alternativeStep platform request progress alternative := by
    intro progress alternative hmem
    have hresults := map_congr_left (fun requirement hrequirement => h requirement
      (mem_append_right _ (mem_flatMap.mpr ⟨alternative, hmem, hrequirement⟩)))
    unfold alternativeStep evaluateAlternative
    rw [hresults]
  exact (foldl_ext _ _ _ halternative).trans (congrArg (foldl _ · _) (foldl_ext _ _ _ hdirect))

/-- **When the order of the credentials does not matter**: in every order the result is the same, but for the warnings,
    exactly if the best candidates for each requirement have one result. -/
theorem independent_of_credential_order (platform : Platform N) (request : ServicePolicyEvaluationRequest N)
    (result : ServicePolicyEvaluationResult N) (h : evaluateServicePolicy platform request = .ok result) :
    (∀ credentials : List (VerifiedCredentialFacts N), credentials.Perm request.credentials → ∃ warnings,
      evaluateServicePolicy platform { request with credentials := credentials } =
        .ok { result with warnings := warnings }) ↔
      ∀ requirement ∈ request.policy.requirements, ∀ a ∈ request.credentials, ∀ b ∈ request.credentials,
        Best platform request requirement a → Best platform request requirement b →
        resultOf platform request requirement a = resultOf platform request requirement b := by
  obtain ⟨hvalid, rfl⟩ := evaluateServicePolicy_ok_iff.mp h
  constructor
  · intro hsame requirement hrequirement
    have hevaluate : ∀ credential ∈ request.credentials, Best platform request requirement credential →
        evaluate platform request requirement = resultOf platform request requirement credential := by
      intro credential hmem hbest
      obtain ⟨credentials, hperm, heq⟩ := hbest.presented_first hmem
      obtain ⟨warnings, hresult⟩ := hsame credentials hperm
      have hreported := congrArg ServicePolicyEvaluationResult.reported (evaluateServicePolicy_ok_iff.mp hresult).2
      have hresults := (conclude_reported platform request).symm.trans (hreported.trans (conclude_reported platform _))
      exact (map_inj_left.mp hresults requirement hrequirement).trans heq
    intro a ha b hb hbest hbest'
    rw [← hevaluate a ha hbest, hevaluate b hb hbest']
  · intro hties credentials hperm
    refine ⟨(presented { request with credentials := credentials }).flatMap VerifiedCredentialFacts.warnings,
      evaluateServicePolicy_ok_iff.mpr ⟨?_, ?_⟩⟩
    · exact validateRequest_presenting platform hperm hvalid
    · rw [runLoops_congr (fun requirement hmem => evaluate_of_perm hperm (hties requirement hmem))]
      simp only [conclude, verdict, fullySatisfied, allErrors, hperm.length_eq]
      rfl

theorem independent_of_credential_order_sampleRequest : ∃ warnings,
    evaluateServicePolicy samplePlatform { sampleRequest with credentials := sampleRequest.credentials.reverse } =
      .ok { conclude sampleRequest (runLoops samplePlatform sampleRequest) with warnings := warnings } := by
  refine (independent_of_credential_order samplePlatform sampleRequest _
    (evaluateServicePolicy_ok_iff.mpr ⟨by decide, rfl⟩)).mpr ?_ _ (reverse_perm _)
  rintro requirement hmem a ha b hb ⟨hmatches, hbest⟩ ⟨hmatches', hbest'⟩
  obtain rfl := mem_singleton.mp hmem
  have hle := hbest b hb hmatches'
  have hle' := hbest' a ha hmatches
  fin_cases ha <;> fin_cases hb
  · rfl
  · exact absurd hle (by decide)
  · exact absurd hle' (by decide)
  · rfl

/-- Two credentials with one id, both of which satisfy the requirement: the one presented first counts. -/
theorem credential_order_decides :
    let verified credentials := (evaluateServicePolicy samplePlatform
      { sampleRequest with credentials := credentials }).map (fun result => result.verifiedClaims.get? ['a'])
    verified [sampleCredential 'c' 30, sampleCredential 'c' 40] = .ok (some ⟨.num 30, .num 30⟩) ∧
    verified [sampleCredential 'c' 40, sampleCredential 'c' 30] = .ok (some ⟨.num 40, .num 40⟩) :=
  ⟨rfl, rfl⟩

end MartyCore.Policy
