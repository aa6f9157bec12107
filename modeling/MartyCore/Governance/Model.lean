import MartyCore.Governance.Canonical
import MartyCore.TrustSync.Model

/-!
# `Governance.Model` — verification governance

The embedding of `marty-verification/src/governance.rs`: the validation of a governance document
(`parse_governance`), the authorization of an API key for a purpose (`authorize`), and the revalidation of a
persisted snapshot (`parse_snapshot`, `resume`).

Foreign code comes in as a `Platform`: SHA-256, how numbers are printed, and the deserialisers of the document and
the snapshot. Texts are `Str`, messages are `String`. The two kinds of profile, policy and trust, have the same
shape and the same checks around their contents: `ProfileDocument` and `validateProfile` are written once.

Digests and identifiers are tested byte by byte in the source; every byte that passes is ASCII, so the tests are
stated on characters.
-/

namespace MartyCore.Governance

open Result

/-! ## Documents and snapshots -/

structure ProfileReference where
  id : Str
  version : Str
  contentDigest : Str
deriving DecidableEq

structure ComponentReference where
  componentId : Str
  version : Str
  artifactDigest : Str
  adapterId : Str
  adapterVersion : Str
deriving DecidableEq

structure PolicyContent where
  verifierId : Str
  presentationDefinitionDigest : Str
  requiredChecks : List Str
deriving DecidableEq

structure TrustContent where
  trustedIssuers : List Str
  allowPublicDidFallback : Bool
deriving DecidableEq

/-- A profile of an organisation, in the document. -/
structure ProfileDocument (C : Type) where
  organizationId : Str
  id : Str
  version : Str
  contentDigest : Str
  content : C
deriving DecidableEq

abbrev PolicyDocument := ProfileDocument PolicyContent

abbrev TrustDocument := ProfileDocument TrustContent

structure PurposeAuthorization where
  policyId : Str
  trustProfileId : Str
deriving DecidableEq

structure ClientAuthorization where
  clientId : Str
  apiKeySha256 : Str
  organizationId : Str
  purposes : SortedMap Str PurposeAuthorization
deriving DecidableEq

structure GovernanceDocument where
  component : ComponentReference
  policies : List PolicyDocument
  trustProfiles : List TrustDocument
  clients : List ClientAuthorization

/-- A profile frozen into a snapshot. -/
structure SnapshotProfile (C : Type) where
  reference : ProfileReference
  content : C
deriving DecidableEq

abbrev SnapshotPolicy := SnapshotProfile PolicyContent

abbrev SnapshotTrustProfile := SnapshotProfile TrustContent

structure GovernanceSnapshot where
  clientId : Str
  purpose : Str
  organizationId : Str
  policy : SnapshotPolicy
  trustProfile : SnapshotTrustProfile
  component : ComponentReference
deriving DecidableEq

/-- The foreign code; an error of a deserialiser is its text. -/
structure Platform (N : Type) where
  sha256 : Bytes → Block 32
  format : Json.NumberFormat N
  documentFromStr : Str → Except String GovernanceDocument
  snapshotFromValue : Json N → Except String GovernanceSnapshot

/-- `serde_json::to_value`. -/
def PolicyContent.toValue {N : Type} (content : PolicyContent) : Json N :=
  .obj [("verifier_id".toList, .str content.verifierId),
    ("presentation_definition_digest".toList, .str content.presentationDefinitionDigest),
    ("required_checks".toList, .arr (content.requiredChecks.map .str))]

/-- `serde_json::to_value`. -/
def TrustContent.toValue {N : Type} (content : TrustContent) : Json N :=
  .obj [("trusted_issuers".toList, .arr (content.trustedIssuers.map .str)),
    ("allow_public_did_fallback".toList, .bool content.allowPublicDidFallback)]

/-! ## Purposes -/

def credentialsComponentId : Str := "marty-credentials".toList

def verificationAdapterId : Str := "verification-service".toList

def sessionCreatePurpose : Str := "verification.session.create".toList

def directVerifyPurpose : Str := "verification.direct".toList

def vdsNcVerifyPurpose : Str := "verification.vds-nc".toList

def allPresentationChecks : List Str :=
  ["presentation.structure".toList, "presentation.proof".toList, "credential.proof".toList,
    "issuer.trust".toList, "credential.status".toList, "holder.binding".toList, "transaction.binding".toList,
    "claim.constraints".toList]

def vdsChecks : List Str := ["credential.proof".toList, "issuer.trust".toList]

def requiredChecks (purpose : Str) : Except String (List Str) :=
  if purpose = sessionCreatePurpose ∨ purpose = directVerifyPurpose then .ok allPresentationChecks
  else if purpose = vdsNcVerifyPurpose then .ok vdsChecks
  else .error "Unsupported verification purpose"

/-- The error is the list of missing checks. -/
def requirePurposeChecks (purpose : Str) (checks : List Str) : Except (List Str) Unit := do
  let required ← (requiredChecks purpose).mapError (fun error => [error.toList])
  let missing := required.filter (fun check => check ∉ checks)
  reject (missing ≠ []) missing

/-- The `Debug` text of a list of check names, none of which needs an escape. -/
def debugText (names : List Str) : String :=
  "[" ++ ", ".intercalate (names.map (fun name => "\"" ++ String.ofList name ++ "\"")) ++ "]"

/-! ## Checks of single fields -/

def boundedText (value : Str) (field : String) : Except String Unit :=
  reject (value = [] ∨ 255 < value.len) (field ++ " must be non-empty bounded text")

def isLowercaseHex (c : Char) : Bool := c.isDigit || ('a' ≤ c && c ≤ 'f')

/-- `strip_prefix`. -/
def strip (start value : Str) : Option Str :=
  if start.isPrefixOf value then some (value.drop start.length) else none

def lowercaseSha256 (value : Str) (field : String) (prefixed : Bool) : Except String Unit := do
  let value ← if prefixed then
      orFail (field ++ " must be a lowercase SHA-256 digest") (strip "sha256:".toList value)
    else .ok value
  reject (¬ (value.length = 64 ∧ value.all isLowercaseHex)) (field ++ " must be lowercase SHA-256")

/-- `Uuid::to_string`: hyphenated, lower-case. -/
def uuidText (value : Nat) : Str :=
  let digits := (List.range 32).map (fun i => Json.hexDigit (value / 16 ^ (31 - i) % 16))
  digits.take 8 ++ '-' :: ((digits.drop 8).take 4 ++ '-' :: ((digits.drop 12).take 4 ++ '-' ::
    ((digits.drop 16).take 4 ++ '-' :: digits.drop 20)))

def canonicalUuid (value : Str) (field : String) : Except String Unit := do
  let parsed ← orFail (field ++ " must be a canonical UUID") (TrustSync.Uuid.parseStr (String.ofList value))
  reject (uuidText parsed ≠ value) (field ++ " must be a canonical UUID")

/-- `values.windows(2).all(|pair| pair[0] < pair[1])`. -/
def isSortedUnique : List Str → Bool
  | first :: second :: rest => first < second && isSortedUnique (second :: rest)
  | _ => true

/-! ## Components and profiles -/

def validateComponent (component : ComponentReference) (field : String) : Except String Unit := do
  boundedText component.componentId (field ++ ".component_id")
  boundedText component.version (field ++ ".version")
  lowercaseSha256 component.artifactDigest (field ++ ".artifact_digest") true
  boundedText component.adapterId (field ++ ".adapter_id")
  boundedText component.adapterVersion (field ++ ".adapter_version")
  reject (component.componentId ≠ credentialsComponentId)
    (field ++ ".component_id must be " ++ String.ofList credentialsComponentId)
  reject (component.adapterId ≠ verificationAdapterId)
    (field ++ ".adapter_id must be " ++ String.ofList verificationAdapterId)

def validatePolicyContent (content : PolicyContent) (field : String) : Except String Unit := do
  boundedText content.verifierId (field ++ ".content.verifier_id")
  lowercaseSha256 content.presentationDefinitionDigest
    (field ++ ".content.presentation_definition_digest") true
  reject (content.requiredChecks = []) (field ++ ".content.required_checks must be non-empty")
  reject (∃ check ∈ content.requiredChecks, check ∉ allPresentationChecks)
    (field ++ ".content.required_checks is unsupported")
  reject (¬ content.requiredChecks.Nodup) (field ++ ".content.required_checks contains duplicates")

def validateTrustContent (content : TrustContent) (field : String) : Except String Unit := do
  reject (content.trustedIssuers = [] ∨
      (∃ issuer ∈ content.trustedIssuers, ¬ "did:".toList.isPrefixOf issuer ∨ 255 < issuer.len) ∨
      ¬ isSortedUnique content.trustedIssuers)
    (field ++ ".content.trusted_issuers must be a non-empty sorted unique list")
  reject (content.allowPublicDidFallback = true)
    (field ++ ".content.allow_public_did_fallback must be false")

section

variable {N : Type} (platform : Platform N)

/-- The checks around a profile's content, in order. -/
def validateProfile {C : Type} (validateContent : C → String → Except String Unit) (toValue : C → Json N)
    (profile : ProfileDocument C) (field : String) : Except String Unit := do
  canonicalUuid profile.organizationId (field ++ ".organization_id")
  boundedText profile.id (field ++ ".id")
  boundedText profile.version (field ++ ".version")
  lowercaseSha256 profile.contentDigest (field ++ ".content_digest") true
  validateContent profile.content field
  reject (canonicalDigest platform.format platform.sha256 (toValue profile.content) ≠ profile.contentDigest)
    (field ++ ".content_digest does not match content")

def validatePolicy : PolicyDocument → String → Except String Unit :=
  validateProfile platform validatePolicyContent PolicyContent.toValue

def validateTrust : TrustDocument → String → Except String Unit :=
  validateProfile platform validateTrustContent TrustContent.toValue

/-- The document a frozen profile came from. -/
def SnapshotProfile.document {C : Type} (profile : SnapshotProfile C) (organizationId : Str) : ProfileDocument C where
  organizationId := organizationId
  id := profile.reference.id
  version := profile.reference.version
  contentDigest := profile.reference.contentDigest
  content := profile.content

def validateSnapshotPolicy (policy : SnapshotPolicy) (organizationId : Str) : Except String Unit :=
  validatePolicy platform (policy.document organizationId) "governance_snapshot.policy"

def validateSnapshotTrust (trust : SnapshotTrustProfile) (organizationId : Str) : Except String Unit :=
  validateTrust platform (trust.document organizationId) "governance_snapshot.trust_profile"

/-! ## The document -/

/-- The profile of an organisation with the given id. -/
def findProfile {C : Type} (profiles : List (ProfileDocument C)) (organizationId id : Str) :
    Option (ProfileDocument C) :=
  profiles.find? (fun profile => profile.organizationId = organizationId ∧ profile.id = id)

/-- The loop over the policies, or over the trust profiles: `seen` is the set of keys built so far. -/
def validateProfiles {C : Type} (validate : ProfileDocument C → String → Except String Unit)
    (list duplicate : String) : Nat → List (Str × Str) → List (ProfileDocument C) → Except String Unit
  | _, _, [] => .ok ()
  | index, seen, profile :: rest => do
    validate profile (list ++ "[" ++ toString index ++ "]")
    reject ((profile.organizationId, profile.id) ∈ seen) duplicate
    validateProfiles validate list duplicate (index + 1) ((profile.organizationId, profile.id) :: seen) rest

/-- One purpose of a client. -/
def validatePurpose (governance : GovernanceDocument) (client : ClientAuthorization) (field : String)
    (purpose : Str) (authorization : PurposeAuthorization) : Except String Unit := do
  let _ ← requiredChecks purpose
  let entry := field ++ ".purposes[" ++ String.ofList purpose ++ "]"
  boundedText authorization.policyId (entry ++ ".policy_id")
  boundedText authorization.trustProfileId (entry ++ ".trust_profile_id")
  let subject := "client " ++ String.ofList client.clientId ++ " purpose " ++ String.ofList purpose
  let policy ← orFail (subject ++ " references an unknown organization policy")
    (findProfile governance.policies client.organizationId authorization.policyId)
  reject ((findProfile governance.trustProfiles client.organizationId authorization.trustProfileId).isNone)
    (subject ++ " references an unknown organization trust profile")
  (requirePurposeChecks purpose policy.content.requiredChecks).mapError (fun missing =>
    "client " ++ String.ofList client.clientId ++ " policy is missing mandatory checks for " ++
      String.ofList purpose ++ ": " ++ debugText missing)

/-- The loop over the purposes of a client, in key order. -/
def validatePurposes (governance : GovernanceDocument) (client : ClientAuthorization) (field : String) :
    List (Str × PurposeAuthorization) → Except String Unit
  | [] => .ok ()
  | (purpose, authorization) :: rest => do
    validatePurpose governance client field purpose authorization
    validatePurposes governance client field rest

/-- One client; `clientIds` and `keyDigests` are the sets built so far. -/
def validateClient (governance : GovernanceDocument) (field : String) (clientIds keyDigests : List Str)
    (client : ClientAuthorization) : Except String Unit := do
  boundedText client.clientId (field ++ ".client_id")
  canonicalUuid client.organizationId (field ++ ".organization_id")
  lowercaseSha256 client.apiKeySha256 (field ++ ".api_key_sha256") false
  reject (client.purposes.entries = []) (field ++ ".purposes is invalid")
  reject (client.clientId ∈ clientIds) "duplicate client id"
  reject (client.apiKeySha256 ∈ keyDigests) "duplicate client API key digest"
  validatePurposes governance client field client.purposes.entries

/-- The loop over the clients. -/
def validateClients (governance : GovernanceDocument) :
    Nat → List Str → List Str → List ClientAuthorization → Except String Unit
  | _, _, _, [] => .ok ()
  | index, clientIds, keyDigests, client :: rest => do
    validateClient governance ("clients[" ++ toString index ++ "]") clientIds keyDigests client
    validateClients governance (index + 1) (client.clientId :: clientIds) (client.apiKeySha256 :: keyDigests) rest

/-- `parse_governance`, after deserialisation. -/
def validateGovernance (governance : GovernanceDocument) : Except String Unit := do
  validateComponent governance.component "component"
  reject (governance.policies = [] ∨ governance.trustProfiles = [] ∨ governance.clients = [])
    "policies, trust_profiles, and clients must be non-empty lists"
  validateProfiles (validatePolicy platform) "policies" "duplicate organization policy profile" 0 []
    governance.policies
  validateProfiles (validateTrust platform) "trust_profiles" "duplicate organization trust profile" 0 []
    governance.trustProfiles
  validateClients governance 0 [] [] governance.clients

def parseGovernance (raw : Str) : Except String GovernanceDocument := do
  let governance ← (platform.documentFromStr raw).mapError
    (fun error => "VERIFICATION_GOVERNANCE_JSON must be valid JSON: " ++ error)
  validateGovernance platform governance
  return governance

/-! ## Authorization -/

/-- `char::to_digit(16)`. -/
def hexDigitValue (c : Char) : Option Nat :=
  if '0' ≤ c ∧ c ≤ '9' then some (c.toNat - '0'.toNat)
  else if 'a' ≤ c ∧ c ≤ 'f' then some (c.toNat - 'a'.toNat + 10)
  else if 'A' ≤ c ∧ c ≤ 'F' then some (c.toNat - 'A'.toNat + 10)
  else none

def decodeHex : Str → Option Bytes
  | [] => some []
  | [_] => none
  | high :: low :: rest => do
    let high ← hexDigitValue high
    let low ← hexDigitValue low
    let rest ← decodeHex rest
    return UInt8.ofNat ((high <<< 4) ||| low) :: rest

/-- All bytes of the longer argument are visited; a missing byte counts as zero. -/
def constantTimeEqual (left right : Bytes) : Bool :=
  (List.range (max left.length right.length)).foldl
    (fun difference index => difference ||| (left.getD index 0 ^^^ right.getD index 0).toNat)
    (left.length ^^^ right.length) = 0

/-- The scan over all clients: the last match wins. -/
def matchClient (supplied : Bytes) (clients : List ClientAuthorization) : Option ClientAuthorization :=
  clients.foldl (fun matched client =>
    if constantTimeEqual supplied ((decodeHex client.apiKeySha256).getD []) then some client else matched) none

def freeze {C : Type} (profile : ProfileDocument C) : SnapshotProfile C where
  reference := ⟨profile.id, profile.version, profile.contentDigest⟩
  content := profile.content

def snapshot (governance : GovernanceDocument) (client : ClientAuthorization) (purpose : Str)
    (policy : PolicyDocument) (trust : TrustDocument) : GovernanceSnapshot where
  clientId := client.clientId
  purpose := purpose
  organizationId := client.organizationId
  policy := freeze policy
  trustProfile := freeze trust
  component := governance.component

def authorize (governance : GovernanceDocument) (apiKey purpose : Str) : Exec String GovernanceSnapshot := do
  let _ ← ((requiredChecks purpose).mapError (fun _ => Fault.err "Unsupported verification purpose") :
    Exec String (List Str))
  Exec.reject (apiKey = [] ∨ 4096 < apiKey.len) "Invalid or unauthorized API key"
  let supplied := (platform.sha256 (Str.bytes apiKey)).bytes
  let client ← Exec.orFail "Invalid or unauthorized API key" (matchClient supplied governance.clients)
  let authorization ← Exec.orFail "Invalid or unauthorized API key" (client.purposes.get? purpose)
  let policy ← Exec.expect "validated governance policy reference"
    (findProfile governance.policies client.organizationId authorization.policyId)
  let trust ← Exec.expect "validated governance trust reference"
    (findProfile governance.trustProfiles client.organizationId authorization.trustProfileId)
  return snapshot governance client purpose policy trust

/-! ## Persisted snapshots -/

/-- `parse_snapshot`, after deserialisation. -/
def validateSnapshot (frozen : GovernanceSnapshot) : Except String Unit := do
  boundedText frozen.clientId "governance_snapshot.client_id"
  let _ ← requiredChecks frozen.purpose
  canonicalUuid frozen.organizationId "governance_snapshot.organization_id"
  validateComponent frozen.component "governance_snapshot.component"
  validateSnapshotPolicy platform frozen.policy frozen.organizationId
  validateSnapshotTrust platform frozen.trustProfile frozen.organizationId
  (requirePurposeChecks frozen.purpose frozen.policy.content.requiredChecks).mapError (fun missing =>
    "governance_snapshot policy is missing mandatory purpose checks: " ++ debugText missing)

def parseSnapshot (value : Json N) : Except String GovernanceSnapshot := do
  let frozen ← (platform.snapshotFromValue value).mapError (fun error => "governance_snapshot is invalid: " ++ error)
  validateSnapshot platform frozen
  return frozen

end

def resume (governance : GovernanceDocument) (frozen : GovernanceSnapshot) : Except String GovernanceSnapshot := do
  let client ← orFail "governance_snapshot client is not registered for its organization"
    ((governance.clients.find? (fun client => client.clientId = frozen.clientId)).filter
      (fun client => client.organizationId = frozen.organizationId))
  let authorization ← orFail "governance_snapshot client is not authorized for its purpose"
    (client.purposes.get? frozen.purpose)
  reject (authorization.policyId ≠ frozen.policy.reference.id ∨
      authorization.trustProfileId ≠ frozen.trustProfile.reference.id)
    "governance_snapshot profiles are not authorized for its purpose"
  let policy ← orFail "governance_snapshot profiles do not match the registered authority"
    (findProfile governance.policies frozen.organizationId authorization.policyId)
  let trust ← orFail "governance_snapshot profiles do not match the registered authority"
    (findProfile governance.trustProfiles frozen.organizationId authorization.trustProfileId)
  let expected := snapshot governance client frozen.purpose policy trust
  reject (frozen.policy ≠ expected.policy ∨ frozen.trustProfile ≠ expected.trustProfile)
    "governance_snapshot profiles do not match the registered authority"
  return expected

end MartyCore.Governance
