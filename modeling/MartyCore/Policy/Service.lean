import MartyCore.Policy.Model

/-!
# `Policy.Service` — the decision over all requirements

The embedding of the rest of `marty-verification/src/policy/service.rs`: the validation of a request
(`validate_request`), the loops over requirements and alternatives, the checks of the presentation as a whole, and the
decision (`evaluate_service_policy`). The variables that the loops update are the fields of `Progress`.
-/

namespace MartyCore.Policy

section

variable {N : Type} (platform : Platform N)

/-! ## Validation -/

/-- `if c { return invalid(message) }`. -/
def invalidIf (c : Prop) [Decidable c] (message : String) : Except ServicePolicyError Unit :=
  Result.reject c (.invalidRequest message)

variable (field : String)

def validateString (value : Str) : Except ServicePolicyError Unit :=
  invalidIf (value = [] ∨ maxStringLength < value.len) (field ++ " must be non-empty and bounded")

def validateOptionalString : Option Str → Except ServicePolicyError Unit
  | some value => validateString field value
  | none => .ok ()

def validateBoundedStrings (values : List Str) : Except ServicePolicyError Unit := do
  invalidIf (maxListItems < values.length) (field ++ " has too many values")
  values.forM (validateString field)

/-- Serialising a `Value` cannot fail. -/
def validateValue (value : Value N) : Except ServicePolicyError Unit :=
  invalidIf (maxValueBytes < (Json.text platform.numberText value.1).len)
    (field ++ " is too large")

def validateOptionalValue : Option (Value N) → Except ServicePolicyError Unit
  | some value => validateValue platform field value
  | none => .ok ()

def validateCredential (credential : VerifiedCredentialFacts N) : Except ServicePolicyError Unit := do
  validateString "credential_id" credential.credentialId
  validateString "issuer_id" credential.issuerId
  validateString "credential_format" credential.credentialFormat
  validateOptionalString "signature_failure_reason" credential.signatureFailureReason
  validateOptionalString "trust_failure_reason" credential.trustFailureReason
  validateBoundedStrings "credential_template_ids" credential.credentialTemplateIds
  validateBoundedStrings "compliance_statuses" credential.complianceStatuses
  validateBoundedStrings "accreditations" credential.accreditations
  validateBoundedStrings "credential warnings" credential.warnings
  invalidIf (maxClaimsPerCredential < credential.claims.entries.length)
    "credential has too many claims"
  (platform.claimOrder.arrange credential.claims.entries).forM (fun entry => do
    validateString "claim_name" entry.1
    validateValue platform "claim value" entry.2)

/-- The length of a pattern, `usize::MAX` where there is none. -/
def patternLength (value : Option (Value N)) : Nat :=
  match value.map Subtype.val with
  | some (.str pattern) => Str.len pattern
  | _ => 2 ^ 64 - 1

def validateConstraint (claim : ServiceRequestedClaim N) (constraint : ServiceClaimConstraint N) :
    Except ServicePolicyError Unit := do
  invalidIf (constraint.claimName ≠ claim.claimName)
    "constraint claim_name does not match requested claim"
  invalidIf (constraint.constraintType = .regex ∧ maxRegexLength < patternLength constraint.value)
    "regex constraint is missing or too large"
  invalidIf (constraint.constraintType ≠ .presence ∧ constraint.value = none)
    "non-presence constraint is missing its comparison value"
  validateOptionalValue platform "constraint value" constraint.value

def validateRequestedClaim (claim : ServiceRequestedClaim N) : Except ServicePolicyError Unit := do
  validateString "claim_name" claim.claimName
  validateOptionalValue platform "predicate_spec" claim.predicateSpec
  claim.constraints.forM (validateConstraint platform claim)

def validateRequirement (requirement : ServiceCredentialRequirement N) : Except ServicePolicyError Unit := do
  validateString "requirement.id" requirement.id
  if requirement.credentialTemplateId ≠ [] then
    validateString "requirement.credential_template_id" requirement.credentialTemplateId
  validateOptionalString "requirement.credential_payload_format" requirement.credentialPayloadFormat
  validateOptionalString "requirement.trust_profile_id" requirement.trustProfileId
  invalidIf (maxClaimsPerRequirement < requirement.requestedClaims.length)
    "requirement has too many requested claims"
  requirement.requestedClaims.forM (validateRequestedClaim platform)

def validateAlternative (alternative : ServiceAlternativeRequirement N) : Except ServicePolicyError Unit := do
  validateString "alternative.id" alternative.id
  validateString "alternative.name" alternative.name
  invalidIf (alternative.minSatisfied = 0 ∨ alternative.credentialRequirements.length < alternative.minSatisfied)
    "alternative min_satisfied is outside its credential range"

/-- The direct requirements, then those of the alternatives. -/
def ServicePresentationPolicy.requirements (policy : ServicePresentationPolicy N) :
    List (ServiceCredentialRequirement N) :=
  policy.credentialRequirements ++
    policy.alternativeRequirements.flatMap ServiceAlternativeRequirement.credentialRequirements

variable (request : ServicePolicyEvaluationRequest N)

def validatePolicyStrings : Except ServicePolicyError Unit := do
  validateString "policy.id" request.policy.id
  validateString "policy.name" request.policy.name
  validateString "policy.organization_id" request.policy.organizationId
  validateOptionalString "policy.trust_profile_id" request.policy.trustProfileId
  validateBoundedStrings "holder_binding.binding_methods" request.policy.holderBinding.bindingMethods
  validateBoundedStrings "holder_binding.proof_profiles" request.policy.holderBinding.proofProfiles
  validateOptionalString "holder_binding_method" request.holderBindingMethod
  validateOptionalString "proof_profile" request.proofProfile
  validateBoundedStrings "policy.allowed_issuers" request.policy.allowedIssuers

def validateCounts : Except ServicePolicyError Unit := do
  invalidIf (maxCredentials < request.credentials.length) "too many credentials"
  invalidIf (∃ count ∈ request.presentationCount, maxCredentials < count)
    "presentation count exceeds the supported limit"
  invalidIf (maxRequirements < request.policy.requirements.length)
    "too many credential requirements"
  invalidIf (request.policy.credentialRequirements.countP ServiceCredentialRequirement.required +
        request.policy.alternativeRequirements.length = 0 ∧ request.policy.presentationProofRequired = false)
    "policy has no required credential or presentation obligations"

def validateRequest : Except ServicePolicyError Unit := do
  invalidIf (2 ^ 63 - 1 < request.evaluationTimeEpochSeconds)
    "evaluation time is outside the supported timestamp range"
  validatePolicyStrings request
  validateCounts request
  request.credentials.forM (validateCredential platform)
  request.policy.requirements.forM (validateRequirement platform)
  request.policy.alternativeRequirements.forM validateAlternative
  match request.policy.issuerConstraints with
  | some constraints => do
    validateBoundedStrings "required_compliance_statuses" constraints.requiredComplianceStatuses
    validateBoundedStrings "required_accreditations" constraints.requiredAccreditations
  | none => pure ()
  match request.externalAuthorization with
  | some facts => (facts.reasons ++ facts.errors).forM (validateString "external authorization message")
  | none => pure ()

/-! ## The loops over requirements and alternatives -/

/-- The variables of `evaluate_service_policy`. -/
structure Progress (N : Type) where
  directResults : List (ServiceCredentialResult N)
  alternativeResults : List (ServiceAlternativeResult N)
  requiredTotal : Nat
  requiredSatisfied : Nat
  verifiedClaims : VerifiedClaims N

def initialProgress : Progress N where
  directResults := []
  alternativeResults := []
  requiredTotal := if request.policy.presentationProofRequired then 1 else 0
  requiredSatisfied :=
    if request.policy.presentationProofRequired ∧ request.presentationVerified then 1 else 0
  verifiedClaims := .empty

/-- The loops evaluate every requirement against the same credentials, at the same time. -/
def evaluate (requirement : ServiceCredentialRequirement N) : ServiceCredentialResult N :=
  evaluateRequirement platform requirement request.policy
    (request.credentials.insertionSort (fun a b => a.credentialId ≤ b.credentialId))
    request.evaluationTimeEpochSeconds

def directStep (progress : Progress N) (requirement : ServiceCredentialRequirement N) : Progress N :=
  let result := evaluate platform request requirement
  { progress with
    directResults := progress.directResults ++ [result]
    requiredTotal := progress.requiredTotal + if requirement.required then 1 else 0
    requiredSatisfied := progress.requiredSatisfied + if requirement.required ∧ result.satisfied then 1 else 0
    verifiedClaims := collectVerifiedClaims platform progress.verifiedClaims result }

def evaluateAlternative (alternative : ServiceAlternativeRequirement N) : ServiceAlternativeResult N :=
  let results := alternative.credentialRequirements.map (evaluate platform request)
  let satisfiedCount := results.countP ServiceCredentialResult.satisfied
  { alternativeId := alternative.id
    name := alternative.name
    satisfied := alternative.minSatisfied ≤ satisfiedCount
    minSatisfied := alternative.minSatisfied
    satisfiedCount := satisfiedCount
    credentialResults := results }

def alternativeStep (progress : Progress N) (alternative : ServiceAlternativeRequirement N) : Progress N :=
  let result := evaluateAlternative platform request alternative
  { progress with
    alternativeResults := progress.alternativeResults ++ [result]
    requiredTotal := progress.requiredTotal + 1
    requiredSatisfied := progress.requiredSatisfied + if result.satisfied then 1 else 0
    verifiedClaims :=
      if result.satisfied then
        (result.credentialResults.filter ServiceCredentialResult.satisfied).foldl (collectVerifiedClaims platform)
          progress.verifiedClaims
      else progress.verifiedClaims }

def runLoops : Progress N :=
  request.policy.alternativeRequirements.foldl (alternativeStep platform request)
    (request.policy.credentialRequirements.foldl (directStep platform request) (initialProgress request))

end

/-! ## Checks of the whole presentation -/

section

variable {N : Type}

def alternativeErrors (alternative : ServiceAlternativeResult N) : List ServicePolicyViolation :=
  if alternative.satisfied then []
  else
    alternative.credentialResults.flatMap ServiceCredentialResult.errors ++
      [{ code := .alternativeRequirementFailed
         requirementId := some alternative.alternativeId
         credentialId := none
         claimName := none
         message := "Alternative requirement needs " ++ toString alternative.minSatisfied ++
          " satisfied credentials; received " ++ toString alternative.satisfiedCount }]

variable (request : ServicePolicyEvaluationRequest N)

def holderBindingErrors : List ServicePolicyViolation :=
  let binding := request.policy.holderBinding
  if binding.required = false then []
  else if request.holderBindingVerified = false then
    [globalViolation .holderBindingRequired "Required holder binding was not verified"]
  else
    pushIf (binding.bindingMethods ≠ [] ∧
        request.holderBindingMethod.all (fun method => method ∉ binding.bindingMethods) = true)
      (globalViolation .holderBindingMethodNotAllowed
        "Verified holder-binding method is not allowed by the policy") ++
    pushIf (binding.proofProfiles ≠ [] ∧
        request.proofProfile.all (fun profile => profile ∉ binding.proofProfiles) = true)
      (globalViolation .proofProfileNotAllowed "Verified proof profile is not allowed by the policy") ++
    pushIf (binding.challengeRequired = true ∧ request.challengeVerified = false)
      (globalViolation .challengeBindingRequired "Presentation challenge binding was not verified") ++
    pushIf (binding.audienceBindingRequired = true ∧ request.audienceVerified = false)
      (globalViolation .audienceBindingRequired "Presentation audience binding was not verified") ++
    pushIf (binding.replayDetectionRequired = true ∧ request.replayCheckVerified = false)
      (globalViolation .replayDetectionRequired "Presentation replay detection was not verified")

def proofTimeErrors : List ServicePolicyViolation :=
  let binding := request.policy.holderBinding
  let now := request.evaluationTimeEpochSeconds
  if ∃ proofTime ∈ request.proofEpochSeconds, now < proofTime then
    [globalViolation .proofTimestampFuture "Proof time is after evaluation time"]
  else if binding.required = true then
    match binding.maxProofAgeSeconds, request.proofEpochSeconds with
    | none, _ => []
    | some _, none =>
      [globalViolation .proofTimestampMissing "Proof time is required by the holder-binding policy"]
    | some maximum, some proofTime =>
      pushIf (maximum < now - proofTime)
        (globalViolation .proofStale "Proof is older than the holder-binding policy permits")
  else []

def externalErrors : List ServicePolicyViolation :=
  match request.externalAuthorization with
  | none => []
  | some facts =>
    let details := "; ".intercalate ((facts.reasons ++ facts.errors).map String.ofList)
    if facts.evaluated = false then
      [globalViolation .externalAuthorizationNotEvaluated
        (if details = "" then "External authorization was supplied but not evaluated"
          else "External authorization was not evaluated: " ++ details)]
    else pushIf (facts.allowed = false)
      (globalViolation .externalAuthorizationDenied ("External authorization denied: " ++ details))

variable (progress : Progress N)

/-- All errors, in the order of the source. -/
def allErrors : List ServicePolicyViolation :=
  progress.directResults.flatMap ServiceCredentialResult.errors ++ progress.verifiedClaims.errors ++
    pushIf (request.policy.presentationProofRequired = true ∧ request.presentationVerified = false)
      (globalViolation .presentationProofRequired "Required presentation proof was not verified") ++
    progress.alternativeResults.flatMap alternativeErrors ++ holderBindingErrors request ++
    proofTimeErrors request ++ externalErrors request ++
    pushIf (request.policy.singlePresentation = true ∧ request.presentationCount.getD request.credentials.length ≠ 1)
      (globalViolation .singlePresentationRequired "Policy requires exactly one presentation")

/-! ## The decision -/

def fullySatisfied : Bool :=
  (progress.requiredSatisfied == progress.requiredTotal) &&
    (request.policy.credentialRequirements.zip progress.directResults).all
      (fun pair => !pair.1.required || pair.2.satisfied) &&
    !(allErrors request progress).any (fun error => error.requirementId.isNone)

def satisfiedCredentialObligations : Nat :=
  progress.requiredSatisfied -
    if request.policy.presentationProofRequired ∧ request.presentationVerified then 1 else 0

def verdict : ServiceEvaluationOutcome × ServiceDecision × String :=
  let errors := allErrors request progress
  if fullySatisfied request progress then
    (.passed, .allow,
      if request.policy.presentationProofRequired then "All required presentation and credential evidence satisfied"
      else "All required credentials and claims satisfied")
  else if 0 < satisfiedCredentialObligations request progress ∧
      ¬ errors.any (fun error => error.requirementId.isNone) then
    (.partial_, .manualReview,
      "Partially satisfied: " ++ toString progress.requiredSatisfied ++ "/" ++ toString progress.requiredTotal ++
        " required")
  else
    (.failed, .deny, (errors.head?.map ServicePolicyViolation.message).getD "Required credentials not satisfied")

/-- `evaluate_service_policy`, after the loops. -/
def conclude : ServicePolicyEvaluationResult N :=
  let outcome := verdict request progress
  let proofRequired := if request.policy.presentationProofRequired then 1 else 0
  let proofSatisfied := if request.policy.presentationProofRequired ∧ request.presentationVerified then 1 else 0
  { result := outcome.1
    decision := outcome.2.1
    decisionReason := outcome.2.2
    policyId := request.policy.id
    policyName := request.policy.name
    credentialResults := progress.directResults
    alternativeResults := progress.alternativeResults
    totalRequirements := progress.directResults.length + progress.alternativeResults.length + proofRequired
    satisfiedRequirements := progress.directResults.countP ServiceCredentialResult.satisfied +
      progress.alternativeResults.countP ServiceAlternativeResult.satisfied + proofSatisfied
    requiredSatisfied := progress.requiredSatisfied
    requiredTotal := progress.requiredTotal
    verifiedClaims := if outcome.2.1 = .allow then progress.verifiedClaims.output else .empty
    errors := allErrors request progress
    warnings := (request.credentials.insertionSort (fun a b => a.credentialId ≤ b.credentialId)).flatMap
      VerifiedCredentialFacts.warnings
    evaluationTimeEpochSeconds := request.evaluationTimeEpochSeconds }

def evaluateServicePolicy (platform : Platform N) (request : ServicePolicyEvaluationRequest N) :
    Except ServicePolicyError (ServicePolicyEvaluationResult N) := do
  validateRequest platform request
  return conclude request (runLoops platform request)

end

end MartyCore.Policy
