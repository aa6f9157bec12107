import Mathlib.Data.Prod.Lex
import MartyCore.Lib.Json
import MartyCore.Lib.SortedMap

/-!
# `Policy.Types` — requests, results and violations of presentation policies

The data of `marty-verification/src/policy/service.rs`, and the foreign code it calls, as a `Platform`: floats,
regular expressions, dates, and the order in which a hash map yields its entries. The one thing a platform promises is
that equality of JSON numbers is an equivalence, as `Eq` demands.
-/

namespace MartyCore.Policy

/-- `serde_json::Value`. -/
abbrev Value (N : Type) := Json.Value N

def maxCredentials : Nat := 128

def maxRequirements : Nat := 128

def maxClaimsPerRequirement : Nat := 256

def maxClaimsPerCredential : Nat := 1024

def maxStringLength : Nat := 4096

def maxRegexLength : Nat := 4096

def maxValueBytes : Nat := 65536

def maxListItems : Nat := 256

/-- The request is refused as a whole. -/
inductive ServicePolicyError where
  | invalidRequest (message : String)
deriving DecidableEq

/-! ## Requests -/

/-- What the holder has to prove. -/
structure ServiceHolderBinding where
  required : Bool
  bindingMethods : List Str
  proofProfiles : List Str
  challengeRequired : Bool
  audienceBindingRequired : Bool
  replayDetectionRequired : Bool
  maxProofAgeSeconds : Option Nat

/-- How old credentials and evidence may be. -/
structure ServiceFreshnessPolicy where
  maxAgeSeconds : Option Nat
  requireNotRevoked : Bool
  revocationGraceSeconds : Option Nat

/-- What is asked of an issuer. -/
structure ServiceIssuerConstraints where
  minTrustLevel : Option Nat
  requiredComplianceStatuses : List Str
  requiredAccreditations : List Str

/-- How a claim is compared. -/
inductive ServiceConstraintType where
  | equals
  | notEquals
  | greaterThan
  | lessThan
  | greaterOrEqual
  | lessOrEqual
  | inSet
  | notInSet
  | presence
  | regex
  | ageOver
deriving DecidableEq

/-- A comparison of a claim with a value. -/
structure ServiceClaimConstraint (N : Type) where
  claimName : Str
  constraintType : ServiceConstraintType
  value : Option (Value N)

/-- A claim that is asked for. -/
structure ServiceRequestedClaim (N : Type) where
  claimName : Str
  required : Bool
  predicateSpec : Option (Value N)
  constraints : List (ServiceClaimConstraint N)

/-- A credential that is asked for. -/
structure ServiceCredentialRequirement (N : Type) where
  id : Str
  credentialTemplateId : Str
  required : Bool
  credentialPayloadFormat : Option Str
  requestedClaims : List (ServiceRequestedClaim N)
  trustProfileId : Option Str
  maxAgeSeconds : Option Nat
  requireFreshIssuance : Bool

/-- Several credentials, so many of which have to do. -/
structure ServiceAlternativeRequirement (N : Type) where
  id : Str
  name : Str
  credentialRequirements : List (ServiceCredentialRequirement N)
  minSatisfied : Nat

/-- What a verifier asks for. -/
structure ServicePresentationPolicy (N : Type) where
  id : Str
  name : Str
  organizationId : Str
  credentialRequirements : List (ServiceCredentialRequirement N)
  alternativeRequirements : List (ServiceAlternativeRequirement N)
  trustProfileId : Option Str
  holderBinding : ServiceHolderBinding
  freshness : Option ServiceFreshnessPolicy
  issuerConstraints : Option ServiceIssuerConstraints
  allowedIssuers : List Str
  singlePresentation : Bool
  presentationProofRequired : Bool

/-- The status that an issuer reports. -/
inductive CredentialLifecycleStatus where
  | active
  | revoked
  | suspended
  | expired
  | unknown
deriving DecidableEq

/-- What the verification of a credential has found. -/
structure VerifiedCredentialFacts (N : Type) where
  credentialId : Str
  credentialTemplateIds : List Str
  credentialFormat : Str
  claims : SortedMap Str (Value N)
  issuerId : Str
  signatureVerified : Bool
  signatureFailureReason : Option Str
  trustProfileVerified : Bool
  trustFailureReason : Option Str
  trustLevel : Option Nat
  complianceStatuses : List Str
  accreditations : List Str
  issuedAtEpochSeconds : Option Nat
  revocationCheckedAtEpochSeconds : Option Nat
  notRevoked : Option Bool
  credentialStatus : Option CredentialLifecycleStatus
  warnings : List Str

/-- The answer of an external authorizer. -/
structure ExternalAuthorizationFacts where
  evaluated : Bool
  allowed : Bool
  reasons : List Str
  errors : List Str

/-- A policy, and what was presented under it. -/
structure ServicePolicyEvaluationRequest (N : Type) where
  policy : ServicePresentationPolicy N
  credentials : List (VerifiedCredentialFacts N)
  evaluationTimeEpochSeconds : Nat
  presentationVerified : Bool
  holderBindingVerified : Bool
  holderBindingMethod : Option Str
  proofProfile : Option Str
  challengeVerified : Bool
  audienceVerified : Bool
  replayCheckVerified : Bool
  proofEpochSeconds : Option Nat
  externalAuthorization : Option ExternalAuthorizationFacts
  presentationCount : Option Nat

/-! ## Results -/

/-- The verdict on the requirements. -/
inductive ServiceEvaluationOutcome where
  | passed
  | failed
  | partial_
deriving DecidableEq

/-- What the verifier is to do. -/
inductive ServiceDecision where
  | allow
  | deny
  | manualReview
deriving DecidableEq

/-- The kinds of violation. -/
inductive ServicePolicyErrorCode where
  | presentationProofRequired
  | credentialMissing
  | signatureInvalid
  | credentialFormatMismatch
  | trustProfileNotVerified
  | issuerNotAllowed
  | issuerTrustLevelInsufficient
  | issuerComplianceStatusMissing
  | issuerAccreditationMissing
  | credentialTimestampMissing
  | credentialTimestampFuture
  | credentialStale
  | proofTimestampMissing
  | proofTimestampFuture
  | proofStale
  | revocationCheckRequired
  | revocationEvidenceStale
  | revocationStatusUnknown
  | credentialRevoked
  | claimMissing
  | claimConstraintFailed
  | alternativeRequirementFailed
  | holderBindingRequired
  | holderBindingMethodNotAllowed
  | proofProfileNotAllowed
  | challengeBindingRequired
  | audienceBindingRequired
  | replayDetectionRequired
  | externalAuthorizationDenied
  | externalAuthorizationNotEvaluated
  | conflictingVerifiedClaim
  | singlePresentationRequired
deriving DecidableEq

/-- A rule that is not met, and where. -/
structure ServicePolicyViolation where
  code : ServicePolicyErrorCode
  requirementId : Option Str
  credentialId : Option Str
  claimName : Option Str
  message : String
deriving DecidableEq

/-- The verdict on a constraint. -/
structure ServiceConstraintResult where
  constraintType : ServiceConstraintType
  passed : Bool

/-- The verdict on a claim. -/
structure ServiceClaimResult (N : Type) where
  claimName : Str
  satisfied : Bool
  presentedValue : Option (Value N)
  constraintResults : List ServiceConstraintResult

/-- The verdict on a requirement. -/
structure ServiceCredentialResult (N : Type) where
  requirementId : Str
  credentialTemplateId : Str
  credentialId : Option Str
  issuerId : Option Str
  satisfied : Bool
  claimResults : List (ServiceClaimResult N)
  errors : List ServicePolicyViolation
  warnings : List Str

/-- The verdict on an alternative. -/
structure ServiceAlternativeResult (N : Type) where
  alternativeId : Str
  name : Str
  satisfied : Bool
  minSatisfied : Nat
  satisfiedCount : Nat
  credentialResults : List (ServiceCredentialResult N)

/-- The verdict on the policy. -/
structure ServicePolicyEvaluationResult (N : Type) where
  result : ServiceEvaluationOutcome
  decision : ServiceDecision
  decisionReason : String
  policyId : Str
  policyName : Str
  credentialResults : List (ServiceCredentialResult N)
  alternativeResults : List (ServiceAlternativeResult N)
  totalRequirements : Nat
  satisfiedRequirements : Nat
  requiredSatisfied : Nat
  requiredTotal : Nat
  verifiedClaims : SortedMap Str (Value N)
  errors : List ServicePolicyViolation
  warnings : List Str
  evaluationTimeEpochSeconds : Nat

/-! ## Violations -/

section

variable {N : Type}

/-- A violation of one requirement. -/
def violation (code : ServicePolicyErrorCode) (requirement : ServiceCredentialRequirement N)
    (credential : Option (VerifiedCredentialFacts N)) (claimName : Option Str) (message : String) :
    ServicePolicyViolation where
  code := code
  requirementId := some requirement.id
  credentialId := credential.map VerifiedCredentialFacts.credentialId
  claimName := claimName
  message := message

/-- A violation of the policy as a whole. -/
def globalViolation (code : ServicePolicyErrorCode) (message : String) : ServicePolicyViolation where
  code := code
  requirementId := none
  credentialId := none
  claimName := none
  message := message

/-- `if c { errors.push(v) }`. -/
def pushIf (c : Prop) [Decidable c] (v : ServicePolicyViolation) : List ServicePolicyViolation :=
  if c then [v] else []

@[simp] theorem pushIf_eq_nil {c : Prop} [Decidable c] {v : ServicePolicyViolation} : pushIf c v = [] ↔ ¬ c := by
  unfold pushIf
  split <;> simp_all

end

/-! ## Foreign code -/

/-- `chrono::NaiveDate`. -/
structure NaiveDate where
  year : Int
  month : Nat
  day : Nat

def NaiveDate.monthDay (date : NaiveDate) : Nat ×ₗ Nat := toLex (date.month, date.day)

/-- Dates are ordered by time. -/
def NaiveDate.key (date : NaiveDate) : Int ×ₗ Nat ×ₗ Nat := toLex (date.year, date.monthDay)

/-- The foreign code. -/
structure Platform (N : Type) where
  /-- `f64`. -/
  F : Type
  asF64 : N → Option F
  parseF64 : Str → Option F
  isFinite : F → Bool
  lt : F → F → Bool
  le : F → F → Bool
  /-- `as i32`, which saturates. -/
  toI32 : F → Int
  /-- `Number::to_string` and `Number::eq`. -/
  numberText : N → Str
  numberEq : N → N → Bool
  numberEq_equivalence : Equivalence (fun m n => numberEq m n = true)
  /-- `Regex::new`, and `is_match` of the expression. -/
  regexNew : Str → Option (Str → Bool)
  /-- `DateTime::from_timestamp(seconds, 0)` and its date. -/
  dateFromTimestamp : Nat → Option NaiveDate
  /-- `NaiveDate::parse_from_str(_, "%Y-%m-%d")`. -/
  parseDate : Str → Option NaiveDate
  claimOrder : IterationOrder (Str × Value N)

end MartyCore.Policy
