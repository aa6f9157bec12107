import Mathlib.Order.WithBot
import MartyCore.Lib.Merge
import MartyCore.Policy.Types

/-!
# `Policy.Model` — one requirement

The embedding of the part of `marty-verification/src/policy/service.rs` that works on one requirement: the constraints
on a claim, the evaluation of a credential (`evaluate_candidate`), the choice among the credentials that match
(`evaluate_requirement`), and the claims a result contributes.

A function that pushes onto `errors` is modelled by the list of what it pushes (`pushIf` for one guarded push), in
order. The subtractions of instants stand behind guards that make them exact, the one `expect` behind the test it
repeats, and `remove(0)` behind the test for candidates: no call panics.
-/

namespace MartyCore.Policy

/-! ## Formats -/

/-- The aliases of each canonical format. -/
def formatAliases : List (List String × String) :=
  [([""], "UNKNOWN"),
    (["w3c-vcdm-di", "w3c-vcdm-v2-di", "data-integrity", "json-ld", "ldp-vc"], "W3C_VCDM_V2_DI"),
    (["sd-jwt", "sd-jwt-vc", "dc+sd-jwt", "vc+sd-jwt", "spruce-vc+sd-jwt", "ietf-sd-jwt", "w3c-vcdm-v2-sd-jwt"],
      "SD_JWT_VC"),
    (["w3c-vc", "w3c-vcdm-v2-jwt-vc", "jwt-vc", "vc-jwt", "jwt-vc-json"], "VC_JWT"),
    (["mdoc", "mso-mdoc"], "MDOC"),
    (["openbadge-v3", "open-badge-v3", "openbadge3"], "OPENBADGE_V3"),
    (["openbadge-v2", "open-badge-v2", "openbadge2"], "OPENBADGE_V2")]

def canonicalCredentialFormat (value : Str) : Str :=
  let normalized := Str.replace '_' '-' (value.trim.map Char.toLower)
  match formatAliases.find? (fun entry => String.ofList normalized ∈ entry.1) with
  | some entry => entry.2.toList
  | none => Str.replace '-' '_' (normalized.map Char.toUpper)

section

variable {N : Type} (platform : Platform N)

/-! ## Claim constraints -/

def isNull : Json N → Bool
  | .null => true
  | _ => false

def valueText : Json N → Option Str
  | .null => none
  | .str text => some text
  | .bool value => some (if value then "True".toList else "False".toList)
  | .num n => some (platform.numberText n)
  | value => some (Json.text platform.numberText value)

def valueNumber : Json N → Option platform.F
  | .num n => platform.asF64 n
  | .str text => platform.parseF64 text
  | _ => none

variable (actual expected : Option (Json N))

def compareText (predicate : Str → Str → Bool) : Bool :=
  match actual.bind (valueText platform), expected.bind (valueText platform) with
  | some left, some right => predicate left right
  | _, _ => false

def compareNumber (predicate : platform.F → platform.F → Bool) : Bool :=
  match actual.bind (valueNumber platform), expected.bind (valueNumber platform) with
  | some left, some right => platform.isFinite left && platform.isFinite right && predicate left right
  | _, _ => false

/-- The values of a set constraint: an array's, or the one value. -/
def setValues : Option (Json N) → List (Json N)
  | some (.arr values) => values
  | some value => [value]
  | none => []

/-- `InSet` for `wanted = true`, `NotInSet` for `wanted = false`. -/
def compareSet (wanted : Bool) (actual expected : Option (Json N)) : Bool :=
  match actual.bind (valueText platform) with
  | some text => ((setValues expected).filterMap (valueText platform)).any (fun value => value = text) == wanted
  | none => false

def matchRegex : Bool :=
  match actual.bind (valueText platform), expected.bind (valueText platform) with
  | some text, some pattern =>
    if maxRegexLength < pattern.len then false
    else (platform.regexNew ("\\A(?:".toList ++ pattern ++ ")\\z".toList)).any (fun isMatch => isMatch text)
  | _, _ => false

/-- Years completed at the evaluation date; `none` where the source returns `false`. -/
def ageAt (evaluationTime : Nat) (dateText : Str) : Option Int := do
  let evaluationDate ← platform.dateFromTimestamp evaluationTime
  let birthDate ← platform.parseDate (((Str.splitAtByte 10 dateText).map Prod.fst).getD dateText)
  if evaluationDate.key < birthDate.key then none
  else
    let age := evaluationDate.year - birthDate.year
    some (if evaluationDate.monthDay < birthDate.monthDay then age - 1 else age)

def ageOver (evaluationTime : Nat) : Bool :=
  match actual.bind (valueText platform), (expected.bind (valueNumber platform)).map platform.toI32 with
  | some dateText, some requiredAge =>
    (ageAt platform evaluationTime dateText).any (fun age => requiredAge ≤ age)
  | _, _ => false

def evaluateConstraint (constraint : ServiceClaimConstraint N) (actual : Option (Value N))
    (evaluationTime : Nat) : Bool :=
  let actual := actual.map Subtype.val
  let expected := constraint.value.map Subtype.val
  match constraint.constraintType with
  | .presence => actual.any (fun value => !isNull value)
  | .equals => compareText platform actual expected (fun left right => left = right)
  | .notEquals => compareText platform actual expected (fun left right => left ≠ right)
  | .greaterThan => compareNumber platform actual expected (fun left right => platform.lt right left)
  | .lessThan => compareNumber platform actual expected platform.lt
  | .greaterOrEqual => compareNumber platform actual expected (fun left right => platform.le right left)
  | .lessOrEqual => compareNumber platform actual expected platform.le
  | .inSet => compareSet platform true actual expected
  | .notInSet => compareSet platform false actual expected
  | .regex => matchRegex platform actual expected
  | .ageOver => ageOver platform actual expected evaluationTime

/-! ## One credential against one requirement -/

variable (requirement : ServiceCredentialRequirement N) (policy : ServicePresentationPolicy N)

variable (credential : VerifiedCredentialFacts N)

/-- The checks of `evaluate_candidate` before the issuer's. -/
def credentialErrors : List ServicePolicyViolation :=
  pushIf (credential.signatureVerified = false)
    (violation .signatureInvalid requirement (some credential) none
      (match credential.signatureFailureReason with
        | some reason => "Credential signature was not verified: " ++ String.ofList reason
        | none => "Credential signature was not verified")) ++
  pushIf (∃ required ∈ requirement.credentialPayloadFormat,
      canonicalCredentialFormat required ≠ canonicalCredentialFormat credential.credentialFormat)
    (violation .credentialFormatMismatch requirement (some credential) none
      "Credential format does not match the requirement") ++
  pushIf ((requirement.trustProfileId.isSome ∨ policy.trustProfileId.isSome) ∧ credential.trustProfileVerified = false)
    (violation .trustProfileNotVerified requirement (some credential) none
      (match credential.trustFailureReason with
        | some reason => "Issuer trust verification failed: " ++ String.ofList reason
        | none => "Issuer was not verified against the required trust profile")) ++
  pushIf (policy.allowedIssuers ≠ [] ∧ credential.issuerId ∉ policy.allowedIssuers)
    (violation .issuerNotAllowed requirement (some credential) none
      ("Issuer '" ++ String.ofList credential.issuerId ++ "' is not in the policy allowlist"))

/-- One push for each required name that the issuer does not have. -/
def missingNames (code : ServicePolicyErrorCode) (message : String) (requirement : ServiceCredentialRequirement N)
    (credential : VerifiedCredentialFacts N) (required present : List Str) : List ServicePolicyViolation :=
  (required.filter (fun name => name ∉ present)).map
    (fun name => violation code requirement (some credential) none (message ++ String.ofList name))

def applyIssuerConstraints : List ServicePolicyViolation :=
  match policy.issuerConstraints with
  | none => []
  | some constraints =>
    pushIf (∃ minimum ∈ constraints.minTrustLevel, credential.trustLevel.all (fun actual => actual < minimum) = true)
      (violation .issuerTrustLevelInsufficient requirement (some credential) none
        "Issuer trust level is below the policy minimum") ++
    missingNames .issuerComplianceStatusMissing "Issuer compliance status is missing: " requirement credential
      constraints.requiredComplianceStatuses credential.complianceStatuses ++
    missingNames .issuerAccreditationMissing "Issuer accreditation is missing: " requirement credential
      constraints.requiredAccreditations credential.accreditations

def maxAge : Option Nat :=
  match requirement.maxAgeSeconds, policy.freshness.bind ServiceFreshnessPolicy.maxAgeSeconds with
  | some requirementAge, some policyAge => some (min requirementAge policyAge)
  | requirementAge, policyAge => requirementAge.or policyAge

/-- The first half of `apply_freshness`. -/
def issuanceErrors (evaluationTime : Nat) : List ServicePolicyViolation :=
  let future := violation .credentialTimestampFuture requirement (some credential) none
    "Credential issuance time is after evaluation time"
  if (maxAge requirement policy).isSome ∨ requirement.requireFreshIssuance = true then
    match credential.issuedAtEpochSeconds, maxAge requirement policy with
    | none, _ =>
      [violation .credentialTimestampMissing requirement (some credential) none
        "Credential issuance-time evidence is unavailable or invalid"]
    | some issuedAt, none => pushIf (evaluationTime < issuedAt) future
    | some issuedAt, some maximum =>
      if evaluationTime < issuedAt then [future]
      else pushIf (maximum < evaluationTime - issuedAt)
        (violation .credentialStale requirement (some credential) none
          ("Credential exceeds maximum age of " ++ toString maximum ++ " seconds"))
  else pushIf (∃ issuedAt ∈ credential.issuedAtEpochSeconds, evaluationTime < issuedAt) future

/-- The last part of `apply_freshness`, for a policy that requires revocation evidence. -/
def evidenceErrors (freshness : ServiceFreshnessPolicy)
    (credential : VerifiedCredentialFacts N) (evaluationTime : Nat) : List ServicePolicyViolation :=
  match credential.revocationCheckedAtEpochSeconds with
  | none =>
    [violation .revocationCheckRequired requirement (some credential) none "Revocation status was not checked"]
  | some checkedAt =>
    if evaluationTime < checkedAt then
      [violation .revocationEvidenceStale requirement (some credential) none
        "Revocation check time is after evaluation time"]
    else if ∃ grace ∈ freshness.revocationGraceSeconds, grace < evaluationTime - checkedAt then
      [violation .revocationEvidenceStale requirement (some credential) none
        "Revocation evidence is older than the policy permits"]
    else pushIf (credential.notRevoked = none)
      (violation .revocationStatusUnknown requirement (some credential) none "Revocation status is unknown")

/-- The second half of `apply_freshness`. -/
def revocationErrors (evaluationTime : Nat) : List ServicePolicyViolation :=
  if credential.notRevoked = some false then
    [violation .credentialRevoked requirement (some credential) none
      (match credential.credentialStatus with
        | some .suspended => "Credential is suspended"
        | some .expired => "Credential is expired"
        | _ => "Credential is revoked")]
  else
    match policy.freshness with
    | none => []
    | some freshness =>
      if freshness.requireNotRevoked = false then []
      else evidenceErrors requirement freshness credential evaluationTime

def applyFreshness (evaluationTime : Nat) : List ServicePolicyViolation :=
  issuanceErrors requirement policy credential evaluationTime ++
    revocationErrors requirement policy credential evaluationTime

/-- What the loop over the requested claims pushes for one of them. -/
def claimErrors (evaluationTime : Nat) (requested : ServiceRequestedClaim N) : List ServicePolicyViolation :=
  let value := credential.claims.get? requested.claimName
  (requested.constraints.filter (fun constraint =>
      !evaluateConstraint platform constraint value evaluationTime)).map
    (fun _ => violation .claimConstraintFailed requirement (some credential) (some requested.claimName)
      "Claim constraint was not satisfied") ++
  pushIf (requested.required = true ∧ value = none)
    (violation .claimMissing requirement (some credential) (some requested.claimName) "Required claim is missing")

def claimResult (evaluationTime : Nat) (requested : ServiceRequestedClaim N) : ServiceClaimResult N :=
  let value := credential.claims.get? requested.claimName
  let results := requested.constraints.map (fun constraint =>
    ServiceConstraintResult.mk constraint.constraintType
      (evaluateConstraint platform constraint value evaluationTime))
  { claimName := requested.claimName
    satisfied := (value.isSome || !requested.required) && results.all ServiceConstraintResult.passed
    presentedValue := value
    constraintResults := results }

def candidateErrors (evaluationTime : Nat) : List ServicePolicyViolation :=
  credentialErrors requirement policy credential ++ applyIssuerConstraints requirement policy credential ++
    applyFreshness requirement policy credential evaluationTime ++
    requirement.requestedClaims.flatMap (claimErrors platform requirement credential evaluationTime)

def evaluateCandidate (evaluationTime : Nat) : ServiceCredentialResult N :=
  let errors := candidateErrors platform requirement policy credential evaluationTime
  { requirementId := requirement.id
    credentialTemplateId := requirement.credentialTemplateId
    credentialId := some credential.credentialId
    issuerId := some credential.issuerId
    satisfied := errors.isEmpty
    claimResults := requirement.requestedClaims.map (claimResult platform credential evaluationTime)
    errors := errors
    warnings := credential.warnings }

/-! ## One requirement -/

def matchesTemplate : Bool :=
  requirement.credentialTemplateId = [] ∨ requirement.credentialTemplateId ∈ credential.credentialTemplateIds

variable (result : ServiceCredentialResult N)

/-- The comparison of `evaluate_requirement`: satisfied first, then fewer errors, then the id. -/
def candidateOrder : Bool ×ₗ Nat ×ₗ WithBot Str :=
  toLex (!result.satisfied, toLex (result.errors.length, result.credentialId))

def missingResult : ServiceCredentialResult N where
  requirementId := requirement.id
  credentialTemplateId := requirement.credentialTemplateId
  credentialId := none
  issuerId := none
  satisfied := false
  claimResults := []
  errors := [violation .credentialMissing requirement none none "No credential matched the requirement"]
  warnings := []

def evaluateRequirement
    (credentials : List (VerifiedCredentialFacts N)) (evaluationTime : Nat) : ServiceCredentialResult N :=
  let candidates := credentials.filter (matchesTemplate requirement)
  let evaluated := candidates.map
    (fun credential => evaluateCandidate platform requirement policy credential evaluationTime)
  -- `remove(0)`; the list is empty exactly when the source has returned early
  ((evaluated.insertionSort (fun a b => candidateOrder a ≤ candidateOrder b)).head?).getD (missingResult requirement)

/-! ## Verified claims -/

abbrev VerifiedClaims (N : Type) := Merge Str (Value N) ServicePolicyViolation

/-- `==` on values. -/
def sameValue (a b : Value N) : Bool := Json.same platform.numberEq a.1 b.1

/-- The value that a claim of a result contributes. -/
def presentedEntry (claim : ServiceClaimResult N) (value : Value N) :
    Merge.Entry Str (Value N) ServicePolicyViolation where
  key := claim.claimName
  value := value
  report :=
    { code := .conflictingVerifiedClaim
      requirementId := none
      credentialId := result.credentialId
      claimName := some claim.claimName
      message := "Verified credentials contain conflicting values for " ++ String.ofList claim.claimName }

def collectClaim (claims : VerifiedClaims N) (claim : ServiceClaimResult N) : VerifiedClaims N :=
  if claim.satisfied then
    match claim.presentedValue with
    | some value => claims.add (sameValue platform) (presentedEntry result claim value)
    | none => claims
  else claims

def collectVerifiedClaims (claims : VerifiedClaims N) (result : ServiceCredentialResult N) : VerifiedClaims N :=
  if result.satisfied then result.claimResults.foldl (collectClaim platform result) claims else claims

end

end MartyCore.Policy
