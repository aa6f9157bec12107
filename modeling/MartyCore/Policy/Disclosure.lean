import MartyCore.Policy.Projection

/-!
# `Policy.Disclosure` — the minimum disclosure set is enough

The resolver and the projection choose the name of a claim by different code: the resolver looks for it among the
available names, the projection asks the claims map. They choose the same names (`mem_resolve_iff`), so restricting the
claims to the resolver's set keeps every claim that the projected request asks about, under the name it asks for
(`selectedClaimName_disclose`). Nothing else in the request depends on the claims but their validation, which fewer
claims pass as well, and the merge of verified claims, which cannot conflict for the one credential there is
(`no_conflicts_of_single`).
-/

namespace MartyCore.Policy

open SortedMap List

variable {N : Type} (platform : Platform N)

/-! ## What the resolver selects -/

section

variable {policy : PresentationPolicy N} {input : PolicyEvaluationInput N}

/-- The names that are available in an input. -/
def PolicyEvaluationInput.available (input : PolicyEvaluationInput N) : List Str := input.claims.entries.map Prod.fst

/-- The name that the resolver takes for a claim is the one that the projection asks for. -/
theorem resolveStep_eq (state : Disclosure) (claim : RequiredClaim N) :
    (MinimumDisclosureResolver.new policy).resolveStep input.available state claim =
      if (input.claims.get? (selectedClaimName policy input claim)).isSome then
        { state with selected := state.selected.insert (selectedClaimName policy input claim) () }
      else { state with missing := state.missing ++ [claim.claimName] } := by
  unfold MinimumDisclosureResolver.resolveStep MinimumDisclosureResolver.derived selectedClaimName
  simp only [MinimumDisclosureResolver.new, PolicyEvaluationInput.available, mem_keys_iff]
  by_cases hpredicate : claim.acceptPredicate = true ∧ claim.requiredValue.isNone = true
  · rw [if_pos hpredicate, if_pos hpredicate]
    cases hderived : policy.derivedAttributePreferences.get? claim.claimName with
    | none => simp
    | some derived =>
      by_cases havailable : (input.claims.get? derived).isSome = true
      · simp [Option.filter_some, havailable]
      · simp [Option.filter_some, havailable]
  · rw [if_neg hpredicate, if_neg hpredicate]

theorem mem_foldl_resolveStep {claims : List (RequiredClaim N)} {state : Disclosure} {name : Str} :
    ((claims.foldl ((MinimumDisclosureResolver.new policy).resolveStep input.available) state).selected.get?
        name).isSome = true ↔
      (state.selected.get? name).isSome = true ∨ ∃ claim ∈ claims, selectedClaimName policy input claim = name ∧
        (input.claims.get? name).isSome = true := by
  induction claims generalizing state with
  | nil => simp
  | cons claim rest ih =>
    rw [foldl_cons, ih, resolveStep_eq]
    by_cases havailable : (input.claims.get? (selectedClaimName policy input claim)).isSome = true
    · rw [if_pos havailable]
      simp only [get?_insert, exists_mem_cons_iff]
      by_cases hname : name = selectedClaimName policy input claim
      · simp [hname, havailable]
      · have hne : selectedClaimName policy input claim ≠ name := Ne.symm hname
        simp [hname, hne]
    · rw [if_neg havailable]
      simp only [exists_mem_cons_iff]
      refine or_congr_right ⟨.inr, ?_⟩
      rintro (⟨rfl, hname⟩ | h)
      · exact absurd hname havailable
      · exact h

/-- **The minimum disclosure set**: the names that the projection asks for and the input has. -/
theorem mem_resolve_iff {name : Str} :
    name ∈ ((MinimumDisclosureResolver.new policy).resolve input.available).claims ↔
      ∃ claim ∈ policy.requiredClaims, selectedClaimName policy input claim = name ∧
        (input.claims.get? name).isSome = true := by
  rw [MinimumDisclosureResolver.resolve, mem_keys_iff, mem_foldl_resolveStep]
  simp [MinimumDisclosureResolver.new]

end

/-! ## Restricting the claims -/

/-- The input with its claims restricted to some names. -/
def PolicyEvaluationInput.disclose (input : PolicyEvaluationInput N) (names : List Str) : PolicyEvaluationInput N :=
  { input with claims := input.claims.restrict (fun name => name ∈ names) }

/-- `names` has every claim that the projection asks for. -/
def Covers (policy : PresentationPolicy N) (input : PolicyEvaluationInput N) (names : List Str) : Prop :=
  ∀ claim ∈ policy.requiredClaims, (input.claims.get? (selectedClaimName policy input claim)).isSome = true →
    selectedClaimName policy input claim ∈ names

section

variable {policy : PresentationPolicy N} {input : PolicyEvaluationInput N} {names : List Str}

theorem get?_disclose (name : Str) : (input.disclose names).claims.get? name =
    if name ∈ names then input.claims.get? name else none := by
  rw [PolicyEvaluationInput.disclose, get?_restrict]
  simp

/-- Another claim stands for one only if it is there and the value does not matter. -/
theorem selectedClaimName_cases (policy : PresentationPolicy N) (input : PolicyEvaluationInput N)
    (claim : RequiredClaim N) : selectedClaimName policy input claim = claim.claimName ∨
      claim.requiredValue = none ∧ (input.claims.get? (selectedClaimName policy input claim)).isSome = true := by
  unfold selectedClaimName
  grind [Option.isNone_iff_eq_none]

/-- A claim is asked for in its own name if the claim that may stand for it is not disclosed. -/
theorem selectedClaimName_disclose (claim : RequiredClaim N) :
    selectedClaimName policy (input.disclose names) claim =
      if selectedClaimName policy input claim ∈ names then selectedClaimName policy input claim
      else claim.claimName := by
  unfold selectedClaimName
  grind [get?_disclose]

/-- The projection asks for the same names as before. -/
theorem Covers.selectedClaimName_eq (hcovers : Covers policy input names) {claim : RequiredClaim N}
    (hclaim : claim ∈ policy.requiredClaims) :
    selectedClaimName policy (input.disclose names) claim = selectedClaimName policy input claim := by
  rw [selectedClaimName_disclose]
  split_ifs with hmem
  · rfl
  · rcases selectedClaimName_cases policy input claim with hown | ⟨-, hpresent⟩
    · exact hown.symm
    · exact absurd (hcovers claim hclaim hpresent) hmem

variable (policy input) in
/-- **The minimum disclosure set is stable**: resolved among its own claims only, it is the same set. -/
theorem minimum_disclosure_stable (name : Str) :
    let names := ((MinimumDisclosureResolver.new policy).resolve input.available).claims
    name ∈ ((MinimumDisclosureResolver.new policy).resolve (input.disclose names).available).claims ↔ name ∈ names := by
  intro names
  have hcovers : Covers policy input names :=
    fun claim hclaim hpresent => mem_resolve_iff.mpr ⟨claim, hclaim, rfl, hpresent⟩
  rw [mem_resolve_iff]
  constructor
  · rintro ⟨claim, hclaim, -, hpresent⟩
    rw [get?_disclose] at hpresent
    split at hpresent
    · assumption
    · cases hpresent
  · intro hname
    obtain ⟨claim, hclaim, hselected, hpresent⟩ := mem_resolve_iff.mp hname
    refine ⟨claim, hclaim, ?_, by rwa [get?_disclose, if_pos hname]⟩
    rw [hcovers.selectedClaimName_eq hclaim, hselected]

/-! ## The restricted request is accepted -/

variable {request : ServicePolicyEvaluationRequest N} {credential : VerifiedCredentialFacts N}

variable {platform}

theorem validateCredential_restrict {keep : Str → Bool} (h : validateCredential platform credential = .ok ()) :
    validateCredential platform { credential with claims := credential.claims.restrict keep } = .ok () := by
  simp only [validateCredential, Result.bind_ok_iff, invalidIf, Result.reject_ok_iff, Result.forM_ok_iff] at h ⊢
  obtain ⟨_, h1, _, h2, _, h3, _, h4, _, h5, _, h6, _, h7, _, h8, _, h9, _, hcount, hentries⟩ := h
  refine ⟨(), h1, (), h2, (), h3, (), h4, (), h5, (), h6, (), h7, (), h8, (), h9, (), ?_, ?_⟩
  · have hle : (credential.claims.restrict keep).entries.length ≤ credential.claims.entries.length :=
      length_filter_le _ _
    omega
  · intro entry hentry
    have hmem := (platform.claimOrder.perm _).mem_iff.mp hentry
    exact hentries entry ((platform.claimOrder.perm _).mem_iff.mpr (mem_of_mem_filter hmem))

/-! ## The restricted request is allowed -/

variable {requirement : ServiceCredentialRequirement N}

/-- A requirement only looks at the claims it asks for. -/
theorem Satisfies.of_claims {policy : ServicePresentationPolicy N} {now : Nat}
    (h : Satisfies platform policy now requirement credential) {requested : List (ServiceRequestedClaim N)}
    {claims : SortedMap Str (Value N)} (requirements : List (ServiceCredentialRequirement N))
    (hclaims : ∀ claim ∈ requested, (claims.get? claim.claimName).isSome ∧ ∀ constraint ∈ claim.constraints,
      evaluateConstraint platform constraint (claims.get? claim.claimName) now = true) :
    Satisfies platform { policy with credentialRequirements := requirements } now
      { requirement with requestedClaims := requested } { credential with claims := claims } :=
  { h with
    claims := fun claim hclaim _ => (hclaims claim hclaim).1
    constraints := fun claim hclaim => (hclaims claim hclaim).2 }

theorem evaluate_single_iff (hsingle : request.credentials = [credential])
    (requirement : ServiceCredentialRequirement N) : (evaluate platform request requirement).satisfied = true ↔
      Satisfies platform request.policy request.evaluationTimeEpochSeconds requirement credential := by
  rw [(evaluate_reports platform request requirement).2, hsingle]
  simp

/-- One credential does not conflict with itself. -/
theorem no_conflicts_of_single (hsingle : request.credentials = [credential]) :
    (runLoops platform request).verifiedClaims.errors = [] := by
  rw [verifiedClaims_eq]
  refine Merge.foldl_errors_eq_nil (Json.same_equivalence platform.numberEq_equivalence).refl
    credential.claims.get? ?_ rfl (by simp [Merge.empty])
  intro entry hentry
  obtain ⟨-, -, presented, hpresented, -, -, hvalue⟩ := presentedBy_of_mem_entries platform hentry
  rw [hsingle] at hpresented
  rwa [mem_singleton.mp hpresented] at hvalue

/-- A count that only grows. -/
theorem evaluateAlternative_mono {other : ServicePolicyEvaluationRequest N}
    {alternative : ServiceAlternativeRequirement N}
    (h : ∀ requirement ∈ alternative.credentialRequirements, (evaluate platform request requirement).satisfied = true →
      (evaluate platform other requirement).satisfied = true)
    (hsatisfied : (evaluateAlternative platform request alternative).satisfied = true) :
    (evaluateAlternative platform other alternative).satisfied = true := by
  simp only [evaluateAlternative, decide_eq_true_eq, countP_map] at hsatisfied ⊢
  exact Nat.le_trans hsatisfied (countP_mono_left h)

end

/-! ## The main theorem -/

variable {input : PolicyEvaluationInput N} {policy : PresentationPolicy N}

theorem isSatisfied_iff :
    (evaluateLegacy platform policy input).isSatisfied = true ↔
      validateRequest platform (legacyRequest policy input) = .ok () ∧
      allErrors (legacyRequest policy input) (runLoops platform (legacyRequest policy input)) = [] := by
  rw [← legacy_allow_iff]
  cases hvalid : validateRequest platform (legacyRequest policy input) with
  | error error => simp [evaluateLegacy, evaluateServicePolicy, hvalid, invalidPolicyResult]
  | ok u =>
    simp [evaluateLegacy, evaluateServicePolicy_ok_iff.mpr ⟨hvalid, rfl⟩]

theorem mem_minimumDisclosureSet_iff (h : (evaluateLegacy platform policy input).isSatisfied = true) {name : Str} :
    name ∈ (evaluateLegacy platform policy input).minimumDisclosureSet ↔
      ∃ claim ∈ policy.requiredClaims, selectedClaimName policy input claim = name ∧
        (input.claims.get? name).isSome = true := by
  have hset : (evaluateLegacy platform policy input).minimumDisclosureSet =
      ((MinimumDisclosureResolver.new policy).resolve input.available).claims := by
    unfold evaluateLegacy at h ⊢
    split at h
    · cases h
    · exact if_pos h
  rw [hset, mem_resolve_iff]

theorem covers_minimumDisclosureSet (h : (evaluateLegacy platform policy input).isSatisfied = true) :
    Covers policy input (evaluateLegacy platform policy input).minimumDisclosureSet :=
  fun claim hclaim hpresent => (mem_minimumDisclosureSet_iff platform h).mpr ⟨claim, hclaim, rfl, hpresent⟩

/-- A claim is there, and is not null. -/
def PolicyEvaluationInput.Has (input : PolicyEvaluationInput N) (name : Str) : Prop :=
  ((input.claims.get? name).map Subtype.val).any (fun value => !isNull value) = true

/-- What is asked for in place of a claim, with the claims restricted to `names`, is among them: it is what was asked
    for before, or the claim itself, whose value does not matter and which is asked for in place of some claim. -/
def Reads (policy : PresentationPolicy N) (input : PolicyEvaluationInput N) (names : List Str)
    (claim : RequiredClaim N) : Prop :=
  let name := selectedClaimName policy (input.disclose names) claim
  name ∈ names ∧ (name = selectedClaimName policy input claim ∨ claim.requiredValue = none ∧ input.Has name ∧
    ∃ other ∈ policy.requiredClaims, selectedClaimName policy input other = name)

variable {names : List Str} {claim : RequiredClaim N} {id : Str} {requirement : ServiceCredentialRequirement N}

/-- The requirement of a claim has the same id for every input. -/
theorem exists_claimRequirement (hclaim : claim ∈ policy.requiredClaims) :
    ∃ id, ∀ input, claimRequirement id claim policy input ∈ legacyRequirements policy input := by
  obtain ⟨index, hindex, rfl⟩ := getElem_of_mem hclaim
  have hmem := mk_mem_zipIdx_iff_getElem?.mpr (getElem?_eq_getElem hindex)
  exact ⟨legacyClaimId index, fun input => mem_cons_of_mem _ (mem_map.mpr ⟨_, hmem, rfl⟩)⟩

theorem of_mem_legacyRequirements (hmem : requirement ∈ legacyRequirements policy input) :
    requirement = globalFacts ∨ ∃ id, ∃ claim ∈ policy.requiredClaims, requirement = claimRequirement id claim policy input ∧
      ∀ input, claimRequirement id claim policy input ∈ legacyRequirements policy input := by
  rcases mem_cons.mp hmem with rfl | hmem
  · exact .inl rfl
  · obtain ⟨⟨claim, index⟩, hindex, rfl⟩ := mem_map.mp hmem
    exact .inr ⟨_, claim, fst_mem_of_mem_zipIdx hindex, rfl, fun input => mem_cons_of_mem _ (mem_map.mpr ⟨_, hindex, rfl⟩)⟩

variable {platform}

/-! ## What is read from fewer claims -/

theorem validateRequirement_iff : validateRequirement platform requirement = .ok () ↔
    validateRequirement platform { requirement with requestedClaims := [] } = .ok () ∧
    requirement.requestedClaims.length ≤ maxClaimsPerRequirement ∧
    ∀ claim ∈ requirement.requestedClaims, validateRequestedClaim platform claim = .ok () := by
  unfold validateRequirement
  split_ifs <;> simp only [Result.bind_ok_iff, invalidIf, Result.reject_ok_iff, Result.forM_ok_iff] <;> simp [and_assoc]

/-- A claim whose value does not matter is valid with its name. -/
theorem validateRequestedClaim_presence (name : Str) :
    validateRequestedClaim platform ⟨name, true, none, [⟨name, .presence, none⟩]⟩ = validateString "claim_name" name := by
  unfold validateRequestedClaim
  cases validateString "claim_name" name with
  | error e => rfl
  | ok u => simp [validateConstraint, invalidIf, Result.reject, validateOptionalValue]

theorem validateRequirement_disclose (hread : Reads policy input names claim)
    (hall : ∀ requirement ∈ legacyRequirements policy input, validateRequirement platform requirement = .ok ())
    (h : validateRequirement platform (claimRequirement id claim policy input) = .ok ()) :
    validateRequirement platform (claimRequirement id claim policy (input.disclose names)) = .ok () := by
  rcases hread.2 with heq | ⟨hvalue, -, other, hother, heq⟩
  · rwa [claimRequirement, heq]
  · -- the name was asked for in place of another claim
    obtain ⟨_, hmem⟩ := exists_claimRequirement hother
    obtain ⟨_, hname, -⟩ :=
      Result.of_bind ((validateRequirement_iff.mp (hall _ (hmem input))).2.2 _ (mem_singleton_self _))
    refine validateRequirement_iff.mpr ⟨(validateRequirement_iff.mp h).1, Nat.le_of_ble_eq_true rfl, ?_⟩
    refine forall_mem_singleton.mpr ?_
    simp only [hvalue, validateRequestedClaim_presence]
    rwa [← heq]

theorem countP_legacyRequirements : (legacyRequirements policy input).countP ServiceCredentialRequirement.required =
    policy.requiredClaims.length + 1 := by
  simp [legacyRequirements, countP_map, claimRequirement, globalFacts, emptyRequirement, Function.comp_def]

theorem validateRequest_disclose (hreads : ∀ claim ∈ policy.requiredClaims, Reads policy input names claim)
    (h : validateRequest platform (legacyRequest policy input) = .ok ()) :
    validateRequest platform (legacyRequest policy (input.disclose names)) = .ok () := by
  obtain ⟨htime, h⟩ := Result.of_reject h
  obtain ⟨_, hstrings, h⟩ := Result.of_bind h
  obtain ⟨_, hcounts, h⟩ := Result.of_bind h
  obtain ⟨_, hcredentials, h⟩ := Result.of_bind h
  obtain ⟨_, hrequirements, h⟩ := Result.of_bind h
  refine Result.reject_bind_ok_iff.mpr ⟨htime, Result.bind_ok_iff.mpr ⟨(), hstrings, ?_⟩⟩
  refine Result.bind_ok_iff.mpr ⟨(), ?_, Result.bind_ok_iff.mpr ⟨(), ?_, Result.bind_ok_iff.mpr ⟨(), ?_, h⟩⟩⟩
  · simp only [validateCounts, legacyRequest, legacyPolicy, countP_legacyRequirements] at hcounts ⊢
    simpa [ServicePresentationPolicy.requirements, legacyRequirements, PolicyEvaluationInput.disclose] using hcounts
  · rw [Result.forM_ok_iff] at hcredentials ⊢
    refine forall_mem_singleton.mpr ?_
    exact validateCredential_restrict (hcredentials _ (mem_singleton_self _))
  · rw [Result.forM_ok_iff] at hrequirements ⊢
    obtain ⟨hdirect, halternatives⟩ := forall_mem_append.mp hrequirements
    refine forall_mem_append.mpr ⟨fun requirement hmem => ?_, halternatives⟩
    rcases of_mem_legacyRequirements hmem with rfl | ⟨id, claim, hclaim, rfl, hall⟩
    · exact hdirect _ mem_cons_self
    · exact validateRequirement_disclose (hreads claim hclaim) hdirect (hdirect _ (hall input))

theorem satisfies_disclose (hread : Reads policy input names claim)
    (h : Satisfies platform (legacyPolicy policy input) input.evaluationTimeEpochSeconds
      (claimRequirement id claim policy input) (legacyCredential input)) :
    Satisfies platform (legacyPolicy policy (input.disclose names)) input.evaluationTimeEpochSeconds
      (claimRequirement id claim policy (input.disclose names)) (legacyCredential (input.disclose names)) := by
  obtain ⟨hname, hread⟩ := hread
  refine h.of_claims _ (forall_mem_singleton.mpr ?_)
  have hget : (input.disclose names).claims.get? (selectedClaimName policy (input.disclose names) claim) = _ :=
    (get?_disclose _).trans (if_pos hname)
  rcases hread with heq | ⟨hvalue, hhas, -⟩
  · simp only [heq] at hget ⊢
    rw [hget]
    exact ⟨h.claims _ (mem_singleton_self _) rfl, h.constraints _ (mem_singleton_self _)⟩
  · simp only [hvalue, forall_mem_singleton]
    rw [hget]
    refine ⟨?_, hhas⟩
    rw [Option.isSome_iff_ne_none]
    intro hnone
    simp [PolicyEvaluationInput.Has, hnone] at hhas

variable (platform)

/-- What is asked for in place of a claim is there, and is not null if its value does not matter. -/
theorem present_of_isSatisfied (h : (evaluateLegacy platform policy input).isSatisfied = true)
    (hclaim : claim ∈ policy.requiredClaims) :
    (input.claims.get? (selectedClaimName policy input claim)).isSome = true ∧
      (claim.requiredValue = none → input.Has (selectedClaimName policy input claim)) := by
  obtain ⟨-, hnone⟩ := (isSatisfied_iff platform).mp h
  obtain ⟨hdirect, -⟩ := allErrors_eq_nil_iff.mp hnone
  obtain ⟨id, hmem⟩ := exists_claimRequirement hclaim
  have hsatisfied := (evaluate_single_iff rfl _).mp (hdirect _ (hmem input))
  refine ⟨hsatisfied.claims _ (mem_singleton_self _) rfl, fun hvalue => ?_⟩
  have hconstraint := hsatisfied.constraints _ (mem_singleton_self _)
  simp only [hvalue, forall_mem_singleton] at hconstraint
  exact hconstraint

/-- **What is read from fewer claims**: an input that satisfies a policy satisfies it with its claims restricted to
    names from which every required claim can be read. -/
theorem isSatisfied_disclose (h : (evaluateLegacy platform policy input).isSatisfied = true)
    (hreads : ∀ claim ∈ policy.requiredClaims, Reads policy input names claim) :
    (evaluateLegacy platform policy (input.disclose names)).isSatisfied = true := by
  obtain ⟨hvalid, hnone⟩ := (isSatisfied_iff platform).mp h
  obtain ⟨hdirect, -, hproof, halternatives, hholder, htime, hexternal, hcount⟩ := allErrors_eq_nil_iff.mp hnone
  refine (isSatisfied_iff platform).mpr ⟨validateRequest_disclose hreads hvalid, allErrors_eq_nil_iff.mpr
    ⟨?_, no_conflicts_of_single rfl, hproof, ?_, hholder, htime, hexternal, hcount⟩⟩
  · intro requirement hmem
    rw [evaluate_single_iff rfl]
    rcases of_mem_legacyRequirements hmem with rfl | ⟨id, claim, hclaim, rfl, hall⟩
    · exact Satisfies.of_claims ((evaluate_single_iff rfl _).mp (hdirect _ mem_cons_self)) _ (forall_mem_nil _)
    · exact satisfies_disclose (hreads claim hclaim) ((evaluate_single_iff rfl _).mp (hdirect _ (hall input)))
  · intro alternative hmem
    refine evaluateAlternative_mono ?_ (halternatives alternative hmem)
    intro requirement hrequirement hsatisfied
    rw [evaluate_single_iff rfl] at hsatisfied ⊢
    -- the requirements of the accepted types ask for no claim
    change alternative ∈ legacyAlternatives policy at hmem
    unfold legacyAlternatives at hmem
    split at hmem
    · cases hmem
    · obtain rfl := mem_singleton.mp hmem
      obtain ⟨⟨credentialType, index⟩, -, rfl⟩ := mem_map.mp hrequirement
      exact hsatisfied.of_claims _ (forall_mem_nil _)

/-- **The minimum disclosure set is sufficient**: an input that satisfies a policy satisfies it with its claims
    restricted to the set that the evaluation returns. -/
theorem minimum_disclosure_sufficient (policy : PresentationPolicy N) (input : PolicyEvaluationInput N)
    (h : (evaluateLegacy platform policy input).isSatisfied = true) :
    (evaluateLegacy platform policy
      (input.disclose (evaluateLegacy platform policy input).minimumDisclosureSet)).isSatisfied = true := by
  refine isSatisfied_disclose platform h (fun claim hclaim => ?_)
  have hselected := (covers_minimumDisclosureSet platform h).selectedClaimName_eq hclaim
  refine ⟨?_, .inl hselected⟩
  rw [hselected]
  exact covers_minimumDisclosureSet platform h claim hclaim (present_of_isSatisfied platform h hclaim).1

/-- A claim `b` that the claim `a` may stand for. -/
def sampleLegacyPolicy : PresentationPolicy Nat where
  id := ['p']
  name := ['n']
  acceptedCredentialTypes := [['t'], ['u']]
  requiredClaims := [⟨['b'], ['u'], true, none⟩, ⟨['c'], ['u'], false, some ⟨.num 7, .num 7⟩⟩]
  holderBinding := .none
  trustProfileId := none
  allowedIssuers := [['i']]
  freshnessRequirements := ⟨none, 60, false⟩
  singlePresentation := true
  derivedAttributePreferences := SortedMap.empty.insert ['b'] ['a']

def sampleInput : PolicyEvaluationInput Nat where
  credentialTypes := [['u']]
  claims := (((SortedMap.empty.insert ['a'] ⟨.bool true, .bool true⟩).insert ['b'] ⟨.num 1, .num 1⟩).insert ['c']
    ⟨.num 7, .num 7⟩).insert ['d'] ⟨.null, .null⟩
  issuerId := ['i']
  trustProfileVerified := false
  issuedAtEpochSeconds := none
  proofEpochSeconds := some 90
  evaluationTimeEpochSeconds := 100
  holderBindingVerified := false
  revocationChecked := false
  notRevoked := none
  presentationCount := 1

theorem minimum_disclosure_sufficient_sampleInput :
    (evaluateLegacy samplePlatform sampleLegacyPolicy sampleInput).minimumDisclosureSet = [['a'], ['c']] ∧
    (evaluateLegacy samplePlatform sampleLegacyPolicy (sampleInput.disclose
      (evaluateLegacy samplePlatform sampleLegacyPolicy sampleInput).minimumDisclosureSet)).isSatisfied = true :=
  ⟨by decide, minimum_disclosure_sufficient samplePlatform sampleLegacyPolicy sampleInput (by decide)⟩

/-! ## Minimality -/

/-- Some claim that a name is selected for cannot be read from the other selected ones: it has that name itself, or no
    value, or its own name is not selected. -/
def Needed (policy : PresentationPolicy N) (input : PolicyEvaluationInput N) (name : Str) : Prop :=
  ∃ claim ∈ policy.requiredClaims, selectedClaimName policy input claim = name ∧
    (claim.claimName = name ∨ ¬input.Has claim.claimName ∨
      ∀ other ∈ policy.requiredClaims, selectedClaimName policy input other ≠ claim.claimName)

/-- **When no smaller set is sufficient**: exactly if every selected name is needed. -/
theorem minimum_disclosure_minimal (policy : PresentationPolicy N) (input : PolicyEvaluationInput N)
    (h : (evaluateLegacy platform policy input).isSatisfied = true) :
    let least := (evaluateLegacy platform policy input).minimumDisclosureSet
    (∀ names ⊆ least, ¬least ⊆ names → (evaluateLegacy platform policy (input.disclose names)).isSatisfied = false) ↔
      ∀ claim ∈ policy.requiredClaims, Needed policy input (selectedClaimName policy input claim) := by
  intro least
  have hleast : ∀ {name}, name ∈ least ↔ ∃ claim ∈ policy.requiredClaims, selectedClaimName policy input claim = name := by
    intro name
    refine (mem_minimumDisclosureSet_iff platform h).trans (exists_congr fun claim => and_congr_right fun hclaim => ?_)
    refine and_iff_left_of_imp ?_
    rintro rfl
    exact (present_of_isSatisfied platform h hclaim).1
  constructor
  · intro hminimal claim hclaim
    by_contra hneeded
    -- the set without that name is enough
    refine Bool.eq_false_iff.mp (hminimal (least.filter (· ≠ selectedClaimName policy input claim))
      (fun _ hmem => mem_of_mem_filter hmem) (fun hall => ?_)) (isSatisfied_disclose platform h (fun other hother => ?_))
    · simpa using hall (hleast.mpr ⟨claim, hclaim, rfl⟩)
    · unfold Reads
      simp only [selectedClaimName_disclose, mem_filter, hleast.mpr ⟨other, hother, rfl⟩, true_and, decide_eq_true_eq]
      split_ifs with hne
      · exact ⟨⟨hleast.mpr ⟨other, hother, rfl⟩, hne⟩, .inl rfl⟩
      · unfold Needed at hneeded
        push Not at hneeded
        obtain ⟨hown, hhas, hselected⟩ := hneeded other hother (not_not.mp hne)
        refine ⟨⟨hleast.mpr hselected, hown⟩, .inr ⟨?_, hhas, hselected⟩⟩
        rcases selectedClaimName_cases policy input other with heq | ⟨hvalue, -⟩
        · exact absurd (heq.symm.trans (not_not.mp hne)) hown
        · exact hvalue
  · intro hneeded names hsubset hproper
    rw [Bool.eq_false_iff]
    intro hsatisfied
    refine hproper (fun name hname => ?_)
    obtain ⟨_, hmem, rfl⟩ := hleast.mp hname
    obtain ⟨claim, hclaim, hselected, hown⟩ := hneeded _ hmem
    obtain ⟨hpresent, hhas⟩ := present_of_isSatisfied platform hsatisfied hclaim
    rw [← hselected]
    by_contra hnot
    rw [selectedClaimName_disclose, if_neg hnot] at hpresent hhas
    have hkept : claim.claimName ∈ names := by
      by_contra hgone
      simp [get?_disclose, hgone] at hpresent
    rcases selectedClaimName_cases policy input claim with heq | ⟨hvalue, -⟩
    · exact hnot (heq ▸ hkept)
    · rw [PolicyEvaluationInput.Has, get?_disclose, if_pos hkept] at hhas
      rcases hown with heq | hnull | hother
      · exact hnot (hselected ▸ heq ▸ hkept)
      · exact hnull (hhas hvalue)
      · obtain ⟨other, hmem, heq⟩ := hleast.mp (hsubset hkept)
        exact hother other hmem heq

theorem minimum_disclosure_minimal_sampleInput :
    (evaluateLegacy samplePlatform sampleLegacyPolicy (sampleInput.disclose [['c']])).isSatisfied = false := by
  refine (minimum_disclosure_minimal samplePlatform sampleLegacyPolicy sampleInput (by decide)).mpr ?_ [['c']] ?_ ?_
  · unfold Needed PolicyEvaluationInput.Has
    decide
  all_goals decide

/-- The claim `b` asked for twice, once so that `a` may stand for it. -/
theorem minimum_disclosure_not_minimal :
    let policy := { sampleLegacyPolicy with
      requiredClaims := [⟨['b'], ['u'], true, none⟩, ⟨['b'], ['u'], false, none⟩] }
    (evaluateLegacy samplePlatform policy sampleInput).isSatisfied = true ∧
    (evaluateLegacy samplePlatform policy sampleInput).minimumDisclosureSet = [['a'], ['b']] ∧
    (evaluateLegacy samplePlatform policy (sampleInput.disclose [['b']])).isSatisfied = true := by
  decide

end MartyCore.Policy
