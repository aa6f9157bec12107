import MartyCore.Policy.Model

/-!
# `Policy.Requirement` — when a requirement is satisfied

`Satisfies` says, in terms of the request alone, what it takes for a credential to satisfy a requirement. Evaluating a
candidate pushes an error for each part that fails, so its list of errors is empty exactly when all of them hold
(`candidateErrors_eq_nil_iff`). The candidates are then sorted with the satisfied ones first, so the requirement is
reported satisfied exactly when some presented credential satisfies it (`evaluateRequirement_satisfied_iff`), and the
result reported is that of a presented credential (`evaluateRequirement_eq`).
-/

namespace MartyCore.Policy

open List

variable {N : Type} (platform : Platform N)

/-! ## The specification -/

/-- Issued at a known time, at most `maximum` seconds before `now`. -/
def IssuedWithin (credential : VerifiedCredentialFacts N) (now maximum : Nat) : Prop :=
  ∃ issuedAt, credential.issuedAtEpochSeconds = some issuedAt ∧ now - issuedAt ≤ maximum

/-- Reported as not revoked, by a check that was made before `now` and within the grace period. -/
def RevocationChecked (freshness : ServiceFreshnessPolicy) (credential : VerifiedCredentialFacts N)
    (now : Nat) : Prop :=
  ∃ checkedAt, credential.revocationCheckedAtEpochSeconds = some checkedAt ∧ checkedAt ≤ now ∧
    (∀ grace ∈ freshness.revocationGraceSeconds, now - checkedAt ≤ grace) ∧ credential.notRevoked = some true

/-- **What it takes to satisfy a requirement.** -/
structure Satisfies (policy : ServicePresentationPolicy N) (now : Nat)
    (requirement : ServiceCredentialRequirement N) (credential : VerifiedCredentialFacts N) : Prop where
  template : requirement.credentialTemplateId = [] ∨ requirement.credentialTemplateId ∈ credential.credentialTemplateIds
  signature : credential.signatureVerified = true
  format : ∀ required ∈ requirement.credentialPayloadFormat,
    canonicalCredentialFormat required = canonicalCredentialFormat credential.credentialFormat
  trust : requirement.trustProfileId.isSome ∨ policy.trustProfileId.isSome → credential.trustProfileVerified = true
  issuer : policy.allowedIssuers ≠ [] → credential.issuerId ∈ policy.allowedIssuers
  trustLevel : ∀ constraints ∈ policy.issuerConstraints, ∀ minimum ∈ constraints.minTrustLevel,
    ∃ level, credential.trustLevel = some level ∧ minimum ≤ level
  compliance : ∀ constraints ∈ policy.issuerConstraints,
    constraints.requiredComplianceStatuses ⊆ credential.complianceStatuses
  accreditations : ∀ constraints ∈ policy.issuerConstraints,
    constraints.requiredAccreditations ⊆ credential.accreditations
  notFuture : ∀ issuedAt ∈ credential.issuedAtEpochSeconds, issuedAt ≤ now
  fresh : requirement.requireFreshIssuance = true → credential.issuedAtEpochSeconds.isSome
  requirementAge : ∀ maximum ∈ requirement.maxAgeSeconds, IssuedWithin credential now maximum
  policyAge : ∀ freshness ∈ policy.freshness, ∀ maximum ∈ freshness.maxAgeSeconds, IssuedWithin credential now maximum
  notRevoked : credential.notRevoked ≠ some false
  revocation : ∀ freshness ∈ policy.freshness, freshness.requireNotRevoked = true →
    RevocationChecked freshness credential now
  claims : ∀ requested ∈ requirement.requestedClaims, requested.required = true →
    (credential.claims.get? requested.claimName).isSome
  constraints : ∀ requested ∈ requirement.requestedClaims, ∀ constraint ∈ requested.constraints,
    evaluateConstraint platform constraint (credential.claims.get? requested.claimName) now = true

variable {requirement : ServiceCredentialRequirement N} {policy : ServicePresentationPolicy N}
  {credential : VerifiedCredentialFacts N} {now : Nat}

/-! ## No errors -/

theorem credentialErrors_eq_nil_iff : credentialErrors requirement policy credential = [] ↔
    credential.signatureVerified = true ∧
    (∀ required ∈ requirement.credentialPayloadFormat,
      canonicalCredentialFormat required = canonicalCredentialFormat credential.credentialFormat) ∧
    (requirement.trustProfileId.isSome ∨ policy.trustProfileId.isSome → credential.trustProfileVerified = true) ∧
    (policy.allowedIssuers ≠ [] → credential.issuerId ∈ policy.allowedIssuers) := by
  simp [credentialErrors, pushIf_eq_nil]

theorem applyIssuerConstraints_eq_nil_iff : applyIssuerConstraints requirement policy credential = [] ↔
    ∀ constraints ∈ policy.issuerConstraints,
      (∀ minimum ∈ constraints.minTrustLevel, ∃ level, credential.trustLevel = some level ∧ minimum ≤ level) ∧
      constraints.requiredComplianceStatuses ⊆ credential.complianceStatuses ∧
      constraints.requiredAccreditations ⊆ credential.accreditations := by
  unfold applyIssuerConstraints
  cases policy.issuerConstraints with
  | none => simp
  | some constraints =>
    have hlevel : ∀ minimum, ¬ credential.trustLevel.all (fun actual => actual < minimum) = true ↔
        ∃ level, credential.trustLevel = some level ∧ minimum ≤ level := by
      intro minimum
      cases credential.trustLevel <;> simp
    simp [pushIf_eq_nil, missingNames, subset_def, hlevel]

theorem issuedWithin_min_iff {a b : Nat} :
    IssuedWithin credential now (min a b) ↔ IssuedWithin credential now a ∧ IssuedWithin credential now b := by
  unfold IssuedWithin
  cases credential.issuedAtEpochSeconds <;> simp

/-- The smaller of the two maximum ages is both. -/
theorem issuedWithin_maxAge_iff : (∀ maximum ∈ maxAge requirement policy, IssuedWithin credential now maximum) ↔
    (∀ maximum ∈ requirement.maxAgeSeconds, IssuedWithin credential now maximum) ∧
    (∀ freshness ∈ policy.freshness, ∀ maximum ∈ freshness.maxAgeSeconds, IssuedWithin credential now maximum) := by
  have hpolicy : (∀ freshness ∈ policy.freshness, ∀ maximum ∈ freshness.maxAgeSeconds,
        IssuedWithin credential now maximum) ↔
      ∀ maximum ∈ policy.freshness.bind ServiceFreshnessPolicy.maxAgeSeconds, IssuedWithin credential now maximum := by
    cases policy.freshness <;> simp
  rw [hpolicy]
  unfold maxAge
  cases requirement.maxAgeSeconds <;> cases policy.freshness.bind ServiceFreshnessPolicy.maxAgeSeconds <;>
    simp [issuedWithin_min_iff]

theorem issuanceErrors_eq_nil_iff : issuanceErrors requirement policy credential now = [] ↔
    (∀ issuedAt ∈ credential.issuedAtEpochSeconds, issuedAt ≤ now) ∧
    (requirement.requireFreshIssuance = true → credential.issuedAtEpochSeconds.isSome) ∧
    (∀ maximum ∈ maxAge requirement policy, IssuedWithin credential now maximum) := by
  unfold issuanceErrors IssuedWithin
  cases credential.issuedAtEpochSeconds with
  | none => cases maxAge requirement policy <;> cases requirement.requireFreshIssuance <;> simp
  | some issuedAt =>
    cases maxAge requirement policy with
    | none => simp
    | some maximum =>
      by_cases hfuture : now < issuedAt
      · simp [hfuture]
      · simp [hfuture, Nat.le_of_not_lt hfuture]

theorem evidenceErrors_eq_nil_iff {freshness : ServiceFreshnessPolicy} (hrevoked : credential.notRevoked ≠ some false) :
    evidenceErrors requirement freshness credential now = [] ↔ RevocationChecked freshness credential now := by
  have hunknown : ¬ credential.notRevoked = none ↔ credential.notRevoked = some true := by
    revert hrevoked
    rcases credential.notRevoked with _ | _ | _ <;> simp
  unfold evidenceErrors RevocationChecked
  cases credential.revocationCheckedAtEpochSeconds with
  | none => simp
  | some checkedAt =>
    simp only [Option.some.injEq, exists_eq_left', ← hunknown]
    by_cases hfuture : now < checkedAt
    · simp [hfuture]
    · rw [if_neg hfuture]
      by_cases hstale : ∃ grace ∈ freshness.revocationGraceSeconds, grace < now - checkedAt
      · rw [if_pos hstale]
        obtain ⟨grace, hgrace, hlate⟩ := hstale
        exact iff_of_false (cons_ne_nil _ _)
          (fun h => absurd (h.2.1 grace hgrace) (Nat.not_le_of_lt hlate))
      · rw [if_neg hstale, pushIf_eq_nil]
        simp only [not_exists, not_and, Nat.not_lt] at hstale
        exact ⟨fun h => ⟨Nat.le_of_not_lt hfuture, hstale, h⟩, fun h => h.2.2⟩

theorem revocationErrors_eq_nil_iff : revocationErrors requirement policy credential now = [] ↔
    credential.notRevoked ≠ some false ∧
    (∀ freshness ∈ policy.freshness, freshness.requireNotRevoked = true →
      RevocationChecked freshness credential now) := by
  unfold revocationErrors
  by_cases hrevoked : credential.notRevoked = some false
  · simp [hrevoked]
  · cases policy.freshness with
    | none => simp [hrevoked]
    | some freshness =>
      cases hrequired : freshness.requireNotRevoked with
      | false => simp [hrequired, hrevoked]
      | true => simp [hrequired, hrevoked, evidenceErrors_eq_nil_iff hrevoked]

theorem claimErrors_eq_nil_iff {requested : ServiceRequestedClaim N} :
    claimErrors platform requirement credential now requested = [] ↔
      (requested.required = true → (credential.claims.get? requested.claimName).isSome) ∧
      ∀ constraint ∈ requested.constraints,
        evaluateConstraint platform constraint (credential.claims.get? requested.claimName) now = true := by
  simp [claimErrors, Option.isSome_iff_ne_none, and_comm]

variable {platform}

/-- **No errors exactly when every part holds.** -/
theorem candidateErrors_eq_nil_iff : (matchesTemplate requirement credential = true ∧
      candidateErrors platform requirement policy credential now = []) ↔
    Satisfies platform policy now requirement credential := by
  simp only [candidateErrors, applyFreshness, append_eq_nil_iff, credentialErrors_eq_nil_iff,
    applyIssuerConstraints_eq_nil_iff, issuanceErrors_eq_nil_iff, issuedWithin_maxAge_iff,
    revocationErrors_eq_nil_iff, flatMap_eq_nil_iff, claimErrors_eq_nil_iff, matchesTemplate,
    decide_eq_true_eq]
  constructor
  · rintro ⟨htemplate, ⟨⟨⟨hsignature, hformat, htrust, hissuer⟩, hconstraints⟩,
      ⟨hfuture, hfresh, hage, hpolicyAge⟩, hrevoked, hchecked⟩, hclaims⟩
    exact ⟨htemplate, hsignature, hformat, htrust, hissuer, fun c hc => (hconstraints c hc).1,
      fun c hc => (hconstraints c hc).2.1, fun c hc => (hconstraints c hc).2.2, hfuture, hfresh, hage, hpolicyAge,
      hrevoked, hchecked, fun r hr => (hclaims r hr).1, fun r hr => (hclaims r hr).2⟩
  · intro h
    exact ⟨h.template, ⟨⟨⟨h.signature, h.format, h.trust, h.issuer⟩,
      fun c hc => ⟨h.trustLevel c hc, h.compliance c hc, h.accreditations c hc⟩⟩,
      ⟨h.notFuture, h.fresh, h.requirementAge, h.policyAge⟩, h.notRevoked, h.revocation⟩,
      fun r hr => ⟨h.claims r hr, h.constraints r hr⟩⟩

/-! ## The best candidate -/

variable {credentials : List (VerifiedCredentialFacts N)}

/-- **The result is that of a best candidate**, if there are candidates. -/
theorem evaluateRequirement_cases :
    ((∀ credential ∈ credentials, ¬ matchesTemplate requirement credential = true) ∧
      evaluateRequirement platform requirement policy credentials now = missingResult requirement) ∨
    ∃ credential ∈ credentials, matchesTemplate requirement credential = true ∧
      evaluateRequirement platform requirement policy credentials now =
        evaluateCandidate platform requirement policy credential now ∧
      ∀ other ∈ credentials, matchesTemplate requirement other = true →
        candidateOrder (evaluateCandidate platform requirement policy credential now) ≤
          candidateOrder (evaluateCandidate platform requirement policy other now) := by
  simp only [evaluateRequirement]
  cases hhead : (((credentials.filter (matchesTemplate requirement)).map
      (fun credential => evaluateCandidate platform requirement policy credential now)).insertionSort
        (fun a b => candidateOrder a ≤ candidateOrder b)).head? with
  | none =>
    rw [head?_eq_none_iff, ← length_eq_zero_iff, length_insertionSort, length_map,
      length_eq_zero_iff, filter_eq_nil_iff] at hhead
    exact .inl ⟨hhead, rfl⟩
  | some best =>
    obtain ⟨hbest, hleast⟩ := least_of_head?_insertionSort hhead
    obtain ⟨credential, hcredential, rfl⟩ := mem_map.mp hbest
    rw [mem_filter] at hcredential
    refine .inr ⟨credential, hcredential.1, hcredential.2, rfl, fun other hother hmatches => ?_⟩
    exact hleast _ (mem_map_of_mem (mem_filter.mpr ⟨hother, hmatches⟩))

theorem satisfied_of_candidateOrder_le {a b : ServiceCredentialResult N} (h : candidateOrder a ≤ candidateOrder b)
    (hb : b.satisfied = true) : a.satisfied = true := by
  cases ha : a.satisfied with
  | true => rfl
  | false =>
    -- `a` would compare greater, in the first component
    rcases Prod.Lex.le_iff.mp h with hlt | ⟨heq, -⟩
    · simp only [candidateOrder, ofLex_toLex, ha, hb, Bool.not_false, Bool.not_true] at hlt
      exact absurd hlt (by decide)
    · simp [candidateOrder, ha, hb] at heq

theorem evaluateCandidate_satisfied_iff (hmatches : matchesTemplate requirement credential = true) :
    (evaluateCandidate platform requirement policy credential now).satisfied = true ↔
      Satisfies platform policy now requirement credential := by
  rw [← candidateErrors_eq_nil_iff, and_iff_right hmatches]
  exact isEmpty_iff

/-- A satisfied result is that of a presented credential that satisfies the requirement. -/
theorem evaluateRequirement_eq
    (h : (evaluateRequirement platform requirement policy credentials now).satisfied = true) :
    ∃ credential ∈ credentials, Satisfies platform policy now requirement credential ∧
      evaluateRequirement platform requirement policy credentials now =
        evaluateCandidate platform requirement policy credential now := by
  rcases evaluateRequirement_cases with ⟨-, hmissing⟩ | ⟨credential, hmem, hmatches, heq, -⟩
  · rw [hmissing] at h
    cases h
  · rw [heq] at h
    exact ⟨credential, hmem, (evaluateCandidate_satisfied_iff hmatches).mp h, heq⟩

/-- **A requirement is reported satisfied exactly when a presented credential satisfies it.** -/
theorem evaluateRequirement_satisfied_iff :
    (evaluateRequirement platform requirement policy credentials now).satisfied = true ↔
      ∃ credential ∈ credentials, Satisfies platform policy now requirement credential := by
  constructor
  · intro h
    obtain ⟨credential, hmem, hsatisfies, -⟩ := evaluateRequirement_eq h
    exact ⟨credential, hmem, hsatisfies⟩
  · rintro ⟨other, hother, hsatisfies⟩
    have hmatches := (candidateErrors_eq_nil_iff.mpr hsatisfies).1
    rcases evaluateRequirement_cases with ⟨hnone, -⟩ | ⟨credential, -, -, heq, hbest⟩
    · exact absurd hmatches (hnone other hother)
    -- the best candidate is no worse than this one, and satisfied candidates come first
    · rw [heq]
      exact satisfied_of_candidateOrder_le (hbest other hother hmatches)
        ((evaluateCandidate_satisfied_iff hmatches).mpr hsatisfies)

end MartyCore.Policy
