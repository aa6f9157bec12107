import MartyCore.Policy.Service

/-!
# `Policy.Compat` — the legacy policy model as a projection of the service's

The embedding of `marty-verification/src/policy/compat.rs`, with the types it uses (`types.rs`) and the resolver of
the minimum disclosure set (`disclosure.rs`). A legacy policy and its input become a service request with one
credential (`legacyRequest`); the violations of the service are mapped back (`mapErrors`), and the statuses of the
eight components are read off the mapped errors.

The fields of a policy that no function here reads (its description and purpose, the ranking, the metadata) are left
out; so is the flag `prefer_predicates`, which the resolver stores and does not use.
-/

namespace MartyCore.Policy

/-! ## Types -/

inductive HolderBindingMethod where
  | deviceKey
  | sessionNonce
  | biometric
  | none
deriving DecidableEq

/-- `{:?}`. -/
def HolderBindingMethod.debug : HolderBindingMethod → String
  | .deviceKey => "DeviceKey"
  | .sessionNonce => "SessionNonce"
  | .biometric => "Biometric"
  | .none => "None"

structure RequiredClaim (N : Type) where
  claimName : Str
  credentialType : Str
  acceptPredicate : Bool
  requiredValue : Option (Value N)

structure FreshnessRequirements where
  maxCredentialAgeSeconds : Option Nat
  maxProofAgeSeconds : Nat
  requireLiveRevocationCheck : Bool

structure PresentationPolicy (N : Type) where
  id : Str
  name : Str
  acceptedCredentialTypes : List Str
  requiredClaims : List (RequiredClaim N)
  holderBinding : HolderBindingMethod
  trustProfileId : Option Str
  allowedIssuers : List Str
  freshnessRequirements : FreshnessRequirements
  singlePresentation : Bool
  derivedAttributePreferences : SortedMap Str Str

structure PolicyEvaluationInput (N : Type) where
  credentialTypes : List Str
  claims : SortedMap Str (Value N)
  issuerId : Str
  trustProfileVerified : Bool
  issuedAtEpochSeconds : Option Nat
  proofEpochSeconds : Option Nat
  evaluationTimeEpochSeconds : Nat
  holderBindingVerified : Bool
  revocationChecked : Bool
  notRevoked : Option Bool
  presentationCount : Nat

inductive PolicyComponent where
  | credentialType
  | claims
  | issuer
  | holderBinding
  | credentialFreshness
  | proofFreshness
  | revocation
  | presentationCount
deriving DecidableEq

inductive PolicyComponentStatusValue where
  | passed
  | failed
  | notApplicable
deriving DecidableEq

structure PolicyComponentStatus where
  component : PolicyComponent
  status : PolicyComponentStatusValue
deriving DecidableEq

inductive PolicyErrorCode where
  | invalidPolicy
  | credentialTypeNotAccepted
  | claimRequirementNotSatisfied
  | issuerNotAllowed
  | issuerNotTrusted
  | holderBindingRequired
  | credentialTimestampMissing
  | credentialStale
  | credentialTimestampFuture
  | proofTimestampMissing
  | proofStale
  | proofTimestampFuture
  | revocationCheckRequired
  | revocationStatusUnknown
  | credentialRevoked
  | singlePresentationRequired
deriving DecidableEq

structure PolicyEvaluationError where
  code : PolicyErrorCode
  component : PolicyComponent
  message : String
deriving DecidableEq

structure PolicyEvaluationResult where
  isSatisfied : Bool
  componentStatuses : List PolicyComponentStatus
  errors : List PolicyEvaluationError
  warnings : List Str
  missingClaims : List String
  issuerViolations : List String
  freshnessViolations : List String
  minimumDisclosureSet : List Str

/-! ## The minimum disclosure set -/

section

variable {N : Type}

structure MinimumDisclosureResolver (N : Type) where
  requiredClaims : List (RequiredClaim N)
  derivedPreferences : SortedMap Str Str

def MinimumDisclosureResolver.new (policy : PresentationPolicy N) : MinimumDisclosureResolver N where
  requiredClaims := policy.requiredClaims
  derivedPreferences := policy.derivedAttributePreferences

structure MinimumDisclosureSet where
  claims : List Str
  missingRequired : List Str

/-- `selected` and `missing`, the variables of the loop. -/
structure Disclosure where
  selected : SortedMap Str Unit
  missing : List Str

namespace MinimumDisclosureResolver

variable (resolver : MinimumDisclosureResolver N) (availableClaims : List Str)

/-- The derived attribute to disclose in place of a claim, if it is preferred and available. -/
def derived (required : RequiredClaim N) : Option Str :=
  if required.acceptPredicate ∧ required.requiredValue.isNone then
    (resolver.derivedPreferences.get? required.claimName).filter (fun name => name ∈ availableClaims)
  else none

def resolveStep (state : Disclosure) (required : RequiredClaim N) : Disclosure :=
  match resolver.derived availableClaims required with
  | some name => { state with selected := state.selected.insert name () }
  | none =>
    if required.claimName ∈ availableClaims then
      { state with selected := state.selected.insert required.claimName () }
    else { state with missing := state.missing ++ [required.claimName] }

/-- The selected names are a hash set in the source, sorted at the end. -/
def resolve : MinimumDisclosureSet :=
  let state := resolver.requiredClaims.foldl (resolver.resolveStep availableClaims) ⟨.empty, []⟩
  { claims := state.selected.entries.map Prod.fst
    missingRequired := state.missing }

end MinimumDisclosureResolver
end

/-! ## The projected request -/

section

variable {N : Type}

def legacyCredentialId : Str := "legacy-policy-credential".toList

def legacyAnyType : Str := "__legacy_any_credential_type__".toList

def legacyClaimId (index : Nat) : Str := "legacy-claim-".toList ++ Nat.toDigits 10 index

def legacyAcceptedId (index : Nat) : Str := "legacy-accepted-".toList ++ Nat.toDigits 10 index

def emptyRequirement (id credentialType : Str) : ServiceCredentialRequirement N where
  id := id
  credentialTemplateId := credentialType
  required := true
  credentialPayloadFormat := none
  requestedClaims := []
  trustProfileId := none
  maxAgeSeconds := none
  requireFreshIssuance := false

variable (policy : PresentationPolicy N) (input : PolicyEvaluationInput N)

def selectedClaimName (claim : RequiredClaim N) : Str :=
  if claim.acceptPredicate ∧ claim.requiredValue.isNone then
    match policy.derivedAttributePreferences.get? claim.claimName with
    | some derived => if (input.claims.get? derived).isSome then derived else claim.claimName
    | none => claim.claimName
  else claim.claimName

def claimRequirement (id : Str) (claim : RequiredClaim N) (policy : PresentationPolicy N)
    (input : PolicyEvaluationInput N) : ServiceCredentialRequirement N :=
  let claimName := selectedClaimName policy input claim
  let constraint : ServiceClaimConstraint N :=
    match claim.requiredValue with
    | some value => ⟨claimName, .equals, some value⟩
    | none => ⟨claimName, .presence, none⟩
  { id := id
    credentialTemplateId := claim.credentialType
    required := true
    credentialPayloadFormat := none
    requestedClaims :=
      [{ claimName := claimName
         required := true
         predicateSpec := none
         constraints := [constraint] }]
    trustProfileId := none
    maxAgeSeconds := none
    requireFreshIssuance := false }

def holderMethod : HolderBindingMethod → Option Str
  | .deviceKey => some "device_key".toList
  | .sessionNonce => some "session_nonce".toList
  | .biometric => some "biometric".toList
  | .none => none

/-- The facts that every presentation has to meet, whatever it claims. -/
def globalFacts : ServiceCredentialRequirement N := emptyRequirement "legacy-global-facts".toList legacyAnyType

def legacyRequirements : List (ServiceCredentialRequirement N) :=
  globalFacts :: policy.requiredClaims.zipIdx.map
    (fun (claim, index) => claimRequirement (legacyClaimId index) claim policy input)

def legacyAlternatives : List (ServiceAlternativeRequirement N) :=
  if policy.acceptedCredentialTypes = [] then []
  else
    [{ id := "legacy-accepted-types".toList
       name := "Accepted credential type".toList
       credentialRequirements := policy.acceptedCredentialTypes.zipIdx.map
        (fun (credentialType, index) => emptyRequirement (legacyAcceptedId index) credentialType)
       minSatisfied := 1 }]

/-- The types of the input and the type that the global facts ask for, sorted and without repetition. -/
def legacyTemplateIds : List Str :=
  removeRepeats ((input.credentialTypes ++ [legacyAnyType]).insertionSort (fun a b => a ≤ b))

def legacyCredential : VerifiedCredentialFacts N where
  credentialId := legacyCredentialId
  credentialTemplateIds := legacyTemplateIds input
  credentialFormat := "legacy-policy-facts".toList
  claims := input.claims
  issuerId := input.issuerId
  signatureVerified := true
  signatureFailureReason := none
  trustProfileVerified := input.trustProfileVerified
  trustFailureReason := none
  trustLevel := none
  complianceStatuses := []
  accreditations := []
  issuedAtEpochSeconds := input.issuedAtEpochSeconds
  revocationCheckedAtEpochSeconds :=
    if input.revocationChecked then some input.evaluationTimeEpochSeconds else none
  notRevoked := input.notRevoked
  credentialStatus := if input.notRevoked = some false then some .revoked else none
  warnings := []

def legacyPolicy : ServicePresentationPolicy N where
  id := policy.id
  name := policy.name
  organizationId := "legacy-policy-compatibility".toList
  credentialRequirements := legacyRequirements policy input
  alternativeRequirements := legacyAlternatives policy
  trustProfileId := policy.trustProfileId
  holderBinding :=
    { required := policy.holderBinding ≠ .none
      bindingMethods := (holderMethod policy.holderBinding).toList
      proofProfiles := []
      challengeRequired := false
      audienceBindingRequired := false
      replayDetectionRequired := false
      maxProofAgeSeconds :=
        if policy.holderBinding ≠ .none then some policy.freshnessRequirements.maxProofAgeSeconds else none }
  freshness := some
    { maxAgeSeconds := policy.freshnessRequirements.maxCredentialAgeSeconds
      requireNotRevoked := policy.freshnessRequirements.requireLiveRevocationCheck
      revocationGraceSeconds := none }
  issuerConstraints := none
  allowedIssuers := policy.allowedIssuers
  singlePresentation := policy.singlePresentation
  presentationProofRequired := false

/-- The request of `LegacyProjection::new`. -/
def legacyRequest : ServicePolicyEvaluationRequest N where
  policy := legacyPolicy policy input
  credentials := [legacyCredential input]
  evaluationTimeEpochSeconds := input.evaluationTimeEpochSeconds
  presentationVerified := false
  holderBindingVerified := input.holderBindingVerified
  holderBindingMethod := if input.holderBindingVerified then holderMethod policy.holderBinding else none
  proofProfile := none
  challengeVerified := false
  audienceVerified := false
  replayCheckVerified := false
  proofEpochSeconds := input.proofEpochSeconds
  externalAuthorization := none
  presentationCount := some input.presentationCount

/-- The claim that each requirement id stands for. -/
def claimRequirements : SortedMap Str (RequiredClaim N) :=
  policy.requiredClaims.zipIdx.foldl (fun claims (claim, index) => claims.insert (legacyClaimId index) claim) .empty

end

/-! ## The projected errors -/

section

variable {N : Type} (platform : Platform N)

/-- `{}` of a value. -/
def displayValue (value : Value N) : String := String.ofList (Json.text platform.numberText value.1)

variable (policy : PresentationPolicy N) (input : PolicyEvaluationInput N)

def missingClaimMessage (claim : RequiredClaim N) : String :=
  if claim.credentialType ≠ [] ∧ claim.credentialType ∉ input.credentialTypes then
    String.ofList claim.claimName ++ " (requires credential type " ++ String.ofList claim.credentialType ++ ")"
  else
    match input.claims.get? (selectedClaimName policy input claim), claim.requiredValue with
    | some actual, some expected =>
      if sameValue platform actual expected then String.ofList claim.claimName
      else
        String.ofList claim.claimName ++ " (expected " ++ displayValue platform expected ++ ", got " ++
          displayValue platform actual ++ ")"
    | _, _ => String.ofList claim.claimName

def credentialStaleMessage : String :=
  match input.issuedAtEpochSeconds, policy.freshnessRequirements.maxCredentialAgeSeconds with
  | some issuedAt, some maximum =>
    if issuedAt ≤ input.evaluationTimeEpochSeconds then
      "Credential is " ++ toString (input.evaluationTimeEpochSeconds - issuedAt) ++
        " seconds old, maximum allowed is " ++ toString maximum
    else "Credential is older than the policy permits"
  | _, _ => "Credential is older than the policy permits"

def proofStaleMessage : String :=
  match input.proofEpochSeconds with
  | some proofTime =>
    if proofTime ≤ input.evaluationTimeEpochSeconds then
      "Proof is " ++ toString (input.evaluationTimeEpochSeconds - proofTime) ++
        " seconds old, maximum allowed is " ++ toString policy.freshnessRequirements.maxProofAgeSeconds
    else "Proof is older than the policy permits"
  | none => "Proof is older than the policy permits"

/-- The codes of failed claims, from which `missing_claims` starts. -/
def isClaimCode : ServicePolicyErrorCode → Bool
  | .claimMissing | .claimConstraintFailed | .credentialMissing => true
  | _ => false

def missingClaims (violations : List ServicePolicyViolation) : List String :=
  let failed := (violations.filter (fun violation => isClaimCode violation.code)).filterMap
    ServicePolicyViolation.requirementId
  ((claimRequirements policy).entries.filter (fun entry => entry.1 ∈ failed)).map
    (fun entry => missingClaimMessage platform policy input entry.2)

def typeNotAccepted : PolicyEvaluationError where
  code := .credentialTypeNotAccepted
  component := .credentialType
  message := "Presented credential type is not accepted by the policy"

/-- The branch of `map_error` for a failed claim: a requirement that is not of a claim maps to nothing. -/
def mapClaimError
    (violation : ServicePolicyViolation) (missingClaims : List String) : Option PolicyEvaluationError := do
  let id ← violation.requirementId
  if "legacy-claim-".toList.isPrefixOf id then
    let message := ((((claimRequirements policy).get? id).map (missingClaimMessage platform policy input)).or
      missingClaims.head?).getD "Required claim is not satisfied"
    some
      { code := .claimRequirementNotSatisfied
        component := .claims
        message := "Claim requirement not satisfied: " ++ message }
  else none

def mapError (violation : ServicePolicyViolation) (missingClaims : List String) : Option PolicyEvaluationError :=
  match violation.code with
  | .credentialMissing =>
    if violation.requirementId.any (fun id => "legacy-accepted-".toList.isPrefixOf id) then some typeNotAccepted
    else mapClaimError platform policy input violation missingClaims
  | .alternativeRequirementFailed => some typeNotAccepted
  | .claimMissing | .claimConstraintFailed => mapClaimError platform policy input violation missingClaims
  | .issuerNotAllowed =>
    some ⟨.issuerNotAllowed, .issuer, "Issuer '" ++ String.ofList input.issuerId ++ "' not in allowed issuers list"⟩
  | .trustProfileNotVerified =>
    some ⟨.issuerNotTrusted, .issuer,
      "Issuer '" ++ String.ofList input.issuerId ++ "' not verified against trust profile"⟩
  | .presentationProofRequired | .holderBindingRequired | .holderBindingMethodNotAllowed
  | .proofProfileNotAllowed | .challengeBindingRequired | .audienceBindingRequired | .replayDetectionRequired =>
    some ⟨.holderBindingRequired, .holderBinding,
      "Required " ++ policy.holderBinding.debug ++ " holder binding was not verified"⟩
  | .credentialTimestampMissing =>
    some ⟨.credentialTimestampMissing, .credentialFreshness, "Credential issuance time is required by the policy"⟩
  | .credentialStale => some ⟨.credentialStale, .credentialFreshness, credentialStaleMessage policy input⟩
  | .credentialTimestampFuture =>
    some ⟨.credentialTimestampFuture, .credentialFreshness, "Credential issuance time is after evaluation time"⟩
  | .proofTimestampMissing =>
    some ⟨.proofTimestampMissing, .proofFreshness, "Proof time is required for holder-bound presentations"⟩
  | .proofStale => some ⟨.proofStale, .proofFreshness, proofStaleMessage policy input⟩
  | .proofTimestampFuture => some ⟨.proofTimestampFuture, .proofFreshness, "Proof time is after evaluation time"⟩
  | .revocationCheckRequired | .revocationEvidenceStale =>
    some ⟨.revocationCheckRequired, .revocation, "A live revocation check is required by the policy"⟩
  | .revocationStatusUnknown => some ⟨.revocationStatusUnknown, .revocation, "Revocation status is unknown"⟩
  | .credentialRevoked => some ⟨.credentialRevoked, .revocation, "Credential is revoked"⟩
  | .singlePresentationRequired =>
    some ⟨.singlePresentationRequired, .presentationCount,
      "Policy requires exactly one presentation, received " ++ toString input.presentationCount⟩
  | .signatureInvalid | .credentialFormatMismatch | .issuerTrustLevelInsufficient
  | .issuerComplianceStatusMissing | .issuerAccreditationMissing | .externalAuthorizationDenied
  | .externalAuthorizationNotEvaluated | .conflictingVerifiedClaim =>
    some ⟨.invalidPolicy, .claims, violation.message⟩

/-- One round of `map_errors`. The key of an error, by which repetitions are dropped, is the whole error. -/
def mapErrorStep (missingClaims : List String)
    (output : List PolicyEvaluationError) (violation : ServicePolicyViolation) : List PolicyEvaluationError :=
  match mapError platform policy input violation missingClaims with
  | some error => if error ∈ output then output else output ++ [error]
  | none => output

def mapErrors (violations : List ServicePolicyViolation) (missingClaims : List String) : List PolicyEvaluationError :=
  violations.foldl (mapErrorStep platform policy input missingClaims) []

end

/-! ## The legacy result -/

section

variable {N : Type} (policy : PresentationPolicy N) (input : PolicyEvaluationInput N)

/-- The components, and whether each applies. -/
def components : List (PolicyComponent × Bool) :=
  [(.credentialType, policy.acceptedCredentialTypes ≠ []),
    (.claims, true),
    (.issuer, policy.trustProfileId.isSome ∨ policy.allowedIssuers ≠ []),
    (.holderBinding, policy.holderBinding ≠ .none),
    (.credentialFreshness, policy.freshnessRequirements.maxCredentialAgeSeconds.isSome ∨
      ∃ issuedAt ∈ input.issuedAtEpochSeconds, input.evaluationTimeEpochSeconds < issuedAt),
    (.proofFreshness, policy.holderBinding ≠ .none),
    (.revocation, policy.freshnessRequirements.requireLiveRevocationCheck ∨ input.notRevoked.isSome),
    (.presentationCount, policy.singlePresentation)]

def componentStatuses (errors : List PolicyEvaluationError) : List PolicyComponentStatus :=
  (components policy input).map (fun (component, applicable) =>
    { component := component
      status :=
        if errors.any (fun error => error.component = component) then .failed
        else if applicable then .passed
        else .notApplicable })

/-- `{}` of the service's error. -/
def ServicePolicyError.display : ServicePolicyError → String
  | .invalidRequest message => "invalid service policy request: " ++ message

def invalidPolicyResult (message : String) : PolicyEvaluationResult :=
  let error : PolicyEvaluationError := ⟨.invalidPolicy, .claims, message⟩
  { isSatisfied := false
    componentStatuses := componentStatuses policy input [error]
    errors := [error]
    warnings := []
    missingClaims := []
    issuerViolations := []
    freshnessViolations := []
    minimumDisclosureSet := [] }

/-- The messages of the errors of some components. -/
def violationsOf (errors : List PolicyEvaluationError) (components : List PolicyComponent) : List String :=
  (errors.filter (fun error => error.component ∈ components)).map PolicyEvaluationError.message

/-- `PolicyEvaluator::evaluate`. -/
def evaluateLegacy (platform : Platform N) (policy : PresentationPolicy N) (input : PolicyEvaluationInput N) :
    PolicyEvaluationResult :=
  match evaluateServicePolicy platform (legacyRequest policy input) with
  | .error error => invalidPolicyResult policy input error.display
  | .ok canonical =>
    let missing := missingClaims platform policy input canonical.errors
    let errors := mapErrors platform policy input canonical.errors missing
    let isSatisfied : Bool := canonical.decision = .allow
    { isSatisfied := isSatisfied
      componentStatuses := componentStatuses policy input errors
      errors := errors
      warnings := canonical.warnings
      missingClaims := missing
      issuerViolations := violationsOf errors [.issuer]
      freshnessViolations := violationsOf errors [.credentialFreshness, .proofFreshness]
      minimumDisclosureSet :=
        if isSatisfied then
          ((MinimumDisclosureResolver.new policy).resolve (input.claims.entries.map Prod.fst)).claims
        else [] }

end

end MartyCore.Policy
