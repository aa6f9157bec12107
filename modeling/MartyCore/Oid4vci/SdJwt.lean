import MartyCore.Oid4vci.Types

/-!
# `Oid4vci.SdJwt` — issuing and presenting SD-JWT credentials

The embedding of `marty-oid4vci/src/formats/sd_jwt.rs`: the checks of the claims, the plan of the payload
(`plan_sd_jwt_preparation`), the three stages of the disclosures, the assembly of the payload and of the compact text,
and the holder's choice of disclosures (`create_sd_jwt_presentation`).

A mutable reference to the map with the disclosable members is a pair of functions, one that reads the map
(`disclosureTarget`) and one that writes it back (`writeTarget`). A source of salts is the sequence of its results. The
identifier and the instant that a preparation draws are arguments. The JSON parser, SHA-256, the verification of
signatures and the limits of the library for SD-JWTs are parameters (`Platform`); `Json.text` is the serialiser, which
does not fail on a value.
-/

namespace MartyCore.Oid4vci
namespace SdJwt

open Json Exec Result SortedMap

/-! ## Parameters -/

structure Platform (N : Type) where
  mapOrder : MapOrder
  format : NumberFormat N
  /-- The number of an `i64`. -/
  ofI64 : Int → N
  /-- `serde_json::from_slice`, or the text of its error. It reads back what was written. -/
  fromSlice : Bytes → Except String (Json N)
  fromSlice_text : ∀ v : Json N, mapOrder.Holds v → fromSlice (Str.bytes (text format.text v)) = .ok v
  /-- SHA-256, taken to have no collisions. -/
  sha256 : Bytes → Bytes
  sha256_injective : Function.Injective sha256
  /-- The text of the error for a text that is not base64. -/
  base64Error : Str → String
  /-- `format("%Y-%m-%dT%H:%M:%SZ")`. -/
  formatTime : Instant → Str
  validateSignerPublicJwk : CredentialSigner → Except Oid4vciError Str
  verifyRemoteSignature : SigningAlgorithm → Str → Bytes → Bytes → Except Oid4vciError Unit
  maxSdJwtInputBytes : Nat
  maxSdJwtDisclosures : Nat
  maxSdJwtDisclosureBytes : Nat

/-- The members of a JSON map. -/
abbrev Members (N : Type) := List (Str × Json N)

variable {N : Type} {order : MapOrder}

/-! ## Checks of the claims -/

def ietfAlwaysManagedClaims : List Str := ["iss".toList, "iat".toList, "jti".toList, "vct".toList]

def sdJwtStructuralMarkers : List Str := ["_sd".toList, "_sd_alg".toList, "...".toList]

def ietfNonDisclosableClaims : List Str :=
  ["iss".toList, "nbf".toList, "exp".toList, "cnf".toList, "vct".toList, "vct#integrity".toList, "aka_vcts".toList,
    "status".toList]

def privateJwkMembers : List Str :=
  ["d".toList, "rsa_d".toList, "p".toList, "q".toList, "dp".toList, "dq".toList, "qi".toList, "oth".toList, "k".toList]

variable (claims : CredentialClaims order N)

def collides (includeNbf includeConfirmation : Bool) : Bool :=
  match claims.credentialPayloadFormat with
  | .ietfSdJwt =>
    (claims.claims.map Prod.fst).any (fun name => decide (name ∈ ietfAlwaysManagedClaims)) ||
      (claims.subjectId.isSome && claims.has "sub") ||
      (claims.expirationSeconds.isSome && claims.has "exp") ||
      (includeNbf && claims.has "nbf") ||
      (includeConfirmation && claims.has "cnf")
  | .w3cVcdmV2SdJwt => claims.subjectId.isSome && claims.has "id"
  | .w3cVcdmV2JwtVc => false

def validateSdJwtManagedClaims (includeNbf includeConfirmation : Bool) : Except Oid4vciError Unit := do
  reject (collides claims includeNbf includeConfirmation = true)
    (.sdJwtError "SD-JWT claims conflict with issuer-controlled claims")
  reject (claims.credentialPayloadFormat = .ietfSdJwt ∧
      ∃ name ∈ claims.selectiveDisclosureClaims, name ∈ ietfNonDisclosableClaims)
    (.sdJwtError "SD-JWT selector targets a non-disclosable claim")

mutual
/-- A reserved name at any depth. The source keeps a stack of the values that are still to be seen. -/
def containsSdJwtStructuralMarker : Json N → Bool
  | .obj members => membersContainMarker members
  | .arr values => valuesContainMarker values
  | _ => false

def valuesContainMarker : List (Json N) → Bool
  | [] => false
  | v :: rest => containsSdJwtStructuralMarker v || valuesContainMarker rest

def membersContainMarker : List (Str × Json N) → Bool
  | [] => false
  | (name, v) :: rest =>
    decide (name ∈ sdJwtStructuralMarkers) || containsSdJwtStructuralMarker v || membersContainMarker rest
end

def validateSdJwtStructuralMarkers (confirmation : Option (Json N)) : Except Oid4vciError Unit :=
  if claims.credentialPayloadFormat = .w3cVcdmV2JwtVc then .ok ()
  else
    reject (membersContainMarker claims.claims = true ∨
        (∃ name ∈ claims.selectiveDisclosureClaims, name ∈ sdJwtStructuralMarkers) ∨
        confirmation.any containsSdJwtStructuralMarker = true)
      (.sdJwtError "SD-JWT claims contain reserved structural markers")

def validateConfirmationJwk (jwk : Members N) : Except Oid4vciError Unit :=
  reject ((lookup "kty".toList jwk).bind asStr = some "oct".toList ∨
      ∃ member ∈ privateJwkMembers, member ∈ jwk.map Prod.fst)
    (.sdJwtError "SD-JWT confirmation must contain a public asymmetric JWK only")

def validateSdJwtConfirmation : Option (Json N) → Except Oid4vciError Unit
  | none => .ok ()
  | some (.obj confirmation) =>
    match lookup "jwk".toList confirmation with
    | none => .ok ()
    | some (.obj jwk) => validateConfirmationJwk jwk
    | some _ => .error (.sdJwtError "SD-JWT confirmation jwk must be a JSON object")
  | some _ => .error (.sdJwtError "SD-JWT confirmation must be a JSON object")

def validateSdJwtConfirmationInputs (explicitConfirmation : Option (Json N)) : Except Oid4vciError Unit := do
  validateSdJwtConfirmation explicitConfirmation
  if explicitConfirmation.isNone ∧ claims.credentialPayloadFormat = .ietfSdJwt then
    validateSdJwtConfirmation (lookup "cnf".toList claims.claims)
  else .ok ()

/-! ## The plan of the payload -/

def checkedSdJwtExpirationTimestamp (issuedAt : Instant) : Option Int → Except Oid4vciError (Option Int)
  | none => .ok none
  | some seconds => do
    let timestamp ← orFail (.signingError "SD-JWT expiration is out of range")
      (checkedI64 (issuedAt.seconds + seconds))
    .ok (some timestamp)

/-- `DateTime::from_timestamp(_, 0)`. -/
def fromTimestamp (timestamp : Int) : Option Instant :=
  if h : -8334601228800 ≤ timestamp ∧ timestamp < 8210266876800 then some ⟨timestamp, 0, h, .inl (by decide)⟩ else none

def vcdmExpiration : Option Int → Except Oid4vciError (Option (Int × Instant))
  | none => .ok none
  | some timestamp => do
    let dateTime ← orFail (.signingError "SD-JWT expiration is out of range") (fromTimestamp timestamp)
    .ok (some (timestamp, dateTime))

def checkedSdJwtVcdmExpiration (issuedAt : Instant) (expirationSeconds : Option Int) :
    Except Oid4vciError (Option (Int × Instant)) :=
  checkedSdJwtExpirationTimestamp issuedAt expirationSeconds >>= vcdmExpiration

structure SdJwtPreparationOptions (order : MapOrder) (N : Type) where
  credentialId : Option Str
  typ : Option Str
  confirmation : Option (Json N)
  held : ∀ v ∈ confirmation, order.Holds v
  x5c : List Str
  includeNbf : Bool

inductive SdJwtDisclosureTarget where
  | topLevel | credentialSubject
deriving DecidableEq

structure PlannedSdJwtPreparation (order : MapOrder) (N : Type) where
  credentialId : Str
  issuedAt : Instant
  payload : Json N
  disclosureTarget : SdJwtDisclosureTarget
  options : SdJwtPreparationOptions order N

/-- `if let Some(v) = value { map[key] = v }`. -/
def insertOption (order : MapOrder) (key : String) (value : Option (Json N)) (members : Members N) : Members N :=
  match value with
  | some v => order.insert key.toList v members
  | none => members

def insertClaims (order : MapOrder) (claims members : Members N) : Members N :=
  claims.foldl (fun members m => order.insert m.1 m.2 members) members

section

variable (platform : Platform N) (signer : CredentialSigner) (claims : CredentialClaims platform.mapOrder N)

variable (credentialId : Str) (now : Instant)

def ietfMembers (vct : Str) : Members N :=
  [("iss".toList, .str signer.issuerId), ("iat".toList, .num (platform.ofI64 now.seconds)),
    ("jti".toList, .str credentialId), ("vct".toList, .str vct)]

def ietfPayload (vct : Str) : Except Oid4vciError (Json N) := do
  let p := platform.mapOrder.arrange (ietfMembers platform signer credentialId now vct)
  let p := insertOption platform.mapOrder "sub" (claims.subjectId.map .str) p
  let expiration ← checkedSdJwtExpirationTimestamp now claims.expirationSeconds
  let p := insertOption platform.mapOrder "exp" (expiration.map (fun t => .num (platform.ofI64 t))) p
  .ok (.obj (insertClaims platform.mapOrder claims.claims p))

def credentialSubject : Members N :=
  insertClaims platform.mapOrder claims.claims (insertOption platform.mapOrder "id" (claims.subjectId.map .str) [])

def w3cMembers (vct : Str) : Members N :=
  [("iss".toList, .str signer.issuerId), ("iat".toList, .num (platform.ofI64 now.seconds)),
    ("jti".toList, .str credentialId), ("vct".toList, .str vct),
    ("@context".toList, .arr (("https://www.w3.org/ns/credentials/v2".toList :: claims.w3cContext).map .str)),
    ("type".toList, .arr (("VerifiableCredential".toList :: claims.w3cTypes).map .str)),
    ("issuer".toList, .str signer.issuerId), ("validFrom".toList, .str (platform.formatTime now)),
    ("credentialSubject".toList, .obj (credentialSubject platform claims))]

def w3cPayload (vct : Str) : Except Oid4vciError (Json N) := do
  let p := platform.mapOrder.arrange (w3cMembers platform signer claims credentialId now vct)
  let p := insertOption platform.mapOrder "sub" (claims.subjectId.map .str) p
  let expiration ← checkedSdJwtVcdmExpiration now claims.expirationSeconds
  let p := insertOption platform.mapOrder "exp" (expiration.map (fun e => .num (platform.ofI64 e.1))) p
  let p := insertOption platform.mapOrder "validUntil" (expiration.map (fun e => .str (platform.formatTime e.2))) p
  .ok (.obj p)

def planPayload (vct : Str) : Except Oid4vciError (Json N × SdJwtDisclosureTarget) :=
  match claims.credentialPayloadFormat with
  | .ietfSdJwt => (ietfPayload platform signer claims credentialId now vct).map (fun p => (p, .topLevel))
  | .w3cVcdmV2SdJwt => (w3cPayload platform signer claims credentialId now vct).map (fun p => (p, .credentialSubject))
  | .w3cVcdmV2JwtVc =>
    .error (.unsupportedFormat
      "credential_payload_format 'w3c_vcdm_v2_jwt_vc' is only valid for jwt_vc_json, not for SD-JWT credentials")

def planSdJwtPreparation (options : SdJwtPreparationOptions platform.mapOrder N) (uuid : Str) (now : Instant) :
    Except Oid4vciError (PlannedSdJwtPreparation platform.mapOrder N) := do
  validateSdJwtManagedClaims claims options.includeNbf options.confirmation.isSome
  validateSdJwtStructuralMarkers claims options.confirmation
  validateSdJwtConfirmationInputs claims options.confirmation
  let credentialId := options.credentialId.getD ("urn:uuid:".toList ++ uuid)
  let vct := if claims.credentialType.isEmpty then "VerifiableCredential".toList else claims.credentialType
  let plan ← planPayload platform signer claims credentialId now vct
  .ok { credentialId, issuedAt := now, payload := plan.1, disclosureTarget := plan.2, options }

/-! ## The stages of the disclosures -/

/-- `sd_jwt_disclosure_target_mut`, read. -/
def disclosureTarget : SdJwtDisclosureTarget → Json N → Except Oid4vciError (Members N)
  | .topLevel, .obj members => .ok members
  | .topLevel, _ => .error (.sdJwtError "Payload is not a JSON object")
  | .credentialSubject, payload =>
    match payload.get? "credentialSubject".toList with
    | some (.obj members) => .ok members
    | _ => .error (.sdJwtError "Missing 'credentialSubject' object in payload for SD claims")

/-- `sd_jwt_disclosure_target_mut`, written. -/
def writeTarget : SdJwtDisclosureTarget → Members N → Json N → Json N
  | .topLevel, members, _ => .obj members
  | .credentialSubject, members, payload => payload.modify "credentialSubject".toList (fun _ => .obj members)

structure PlannedSdJwtDisclosure (N : Type) where
  sourceOrdinal : Nat
  claimName : Str
  claimValue : Json N
  saltBytes : Bytes

structure EncodedSdJwtDisclosure where
  sourceOrdinal : Nat
  disclosure : Str

structure DigestedSdJwtDisclosure where
  sourceOrdinal : Nat
  disclosure : Str
  digestB64 : Str

structure SdJwtDisclosureStage (T : Type) where
  expectedSourceOrdinals : List Nat
  items : List T

def SdJwtDisclosureStage.empty {T : Type} : SdJwtDisclosureStage T := ⟨[], []⟩

def SdJwtDisclosureStage.isEmpty {T : Type} (stage : SdJwtDisclosureStage T) : Bool :=
  stage.expectedSourceOrdinals.isEmpty && stage.items.isEmpty

/-- The claim with its salt, and the map without it. -/
def planSdJwtDisclosure (order : MapOrder) (target : Members N) (sourceOrdinal : Nat) (claimName : Str) (salt : Bytes) :
    Option (PlannedSdJwtDisclosure N × Members N) :=
  match lookup claimName target with
  | none => none
  | some claimValue => some (⟨sourceOrdinal, claimName, claimValue, salt⟩, order.remove claimName target)

/-- The loop of `plan_sd_jwt_disclosures`, behind so many selectors and so many salts. -/
def planSdJwtDisclosuresFrom (order : MapOrder) (salts : Nat → Bytes) :
    Nat → Nat → List Str → Members N → SdJwtDisclosureStage (PlannedSdJwtDisclosure N) × Members N
  | _, _, [], target => (.empty, target)
  | ordinal, used, claimName :: rest, target =>
    match planSdJwtDisclosure order target ordinal claimName (salts used) with
    | none => planSdJwtDisclosuresFrom order salts (ordinal + 1) used rest target
    | some (planned, target) =>
      let (stage, target) := planSdJwtDisclosuresFrom order salts (ordinal + 1) (used + 1) rest target
      (⟨ordinal :: stage.expectedSourceOrdinals, planned :: stage.items⟩, target)

def planSdJwtDisclosures (order : MapOrder) (salts : Nat → Bytes) (sdClaims : List Str) (target : Members N) :
    SdJwtDisclosureStage (PlannedSdJwtDisclosure N) × Members N :=
  planSdJwtDisclosuresFrom order salts 0 0 sdClaims target

/-- The text of a disclosure. -/
def disclosureText (salt : Bytes) (claimName : Str) (claimValue : Json N) : Str :=
  Base64.encode (Str.bytes (text platform.format.text
    (.arr [.str (Base64.encode salt), .str claimName, claimValue])))

def encodeSdJwtDisclosure (planned : PlannedSdJwtDisclosure N) : EncodedSdJwtDisclosure :=
  ⟨planned.sourceOrdinal, disclosureText platform planned.saltBytes planned.claimName planned.claimValue⟩

/-- The digest of a disclosure, as the payload lists it. -/
def digestText (disclosure : Str) : Str := Base64.encode (platform.sha256 (Str.bytes disclosure))

def digestSdJwtDisclosure (encoded : EncodedSdJwtDisclosure) : DigestedSdJwtDisclosure :=
  ⟨encoded.sourceOrdinal, encoded.disclosure, digestText platform encoded.disclosure⟩

def encodeSdJwtDisclosures (planned : SdJwtDisclosureStage (PlannedSdJwtDisclosure N)) :
    SdJwtDisclosureStage EncodedSdJwtDisclosure :=
  ⟨planned.expectedSourceOrdinals, planned.items.map (encodeSdJwtDisclosure platform)⟩

def digestSdJwtDisclosures (encoded : SdJwtDisclosureStage EncodedSdJwtDisclosure) :
    SdJwtDisclosureStage DigestedSdJwtDisclosure :=
  ⟨encoded.expectedSourceOrdinals, encoded.items.map (digestSdJwtDisclosure platform)⟩

def prepareSdJwtDisclosures (salts : Nat → Bytes) (sdClaims : List Str) (target : Members N) :
    SdJwtDisclosureStage DigestedSdJwtDisclosure × Members N :=
  let (planned, target) := planSdJwtDisclosures platform.mapOrder salts sdClaims target
  (digestSdJwtDisclosures platform (encodeSdJwtDisclosures platform planned), target)

def stageFailure : Oid4vciError := .sdJwtError "SD-JWT disclosure preparation failed"

/-- Each element is below the next. -/
def windowsIncrease : List Nat → Bool
  | a :: b :: rest => decide (a < b) && windowsIncrease (b :: rest)
  | _ => true

def restoreSdJwtDisclosures (digested : SdJwtDisclosureStage DigestedSdJwtDisclosure) :
    Except Oid4vciError (List DigestedSdJwtDisclosure) := do
  reject (digested.expectedSourceOrdinals.length ≠ digested.items.length) stageFailure
  reject (windowsIncrease digested.expectedSourceOrdinals = false) stageFailure
  let restored := digested.items.mergeSort (fun a b => decide (a.sourceOrdinal ≤ b.sourceOrdinal))
  reject ((digested.expectedSourceOrdinals.zip restored).any (fun p => decide (p.1 ≠ p.2.sourceOrdinal)) = true)
    stageFailure
  .ok restored

def assembleSdJwtDisclosures (order : MapOrder) (target : Members N)
    (digested : SdJwtDisclosureStage DigestedSdJwtDisclosure) : Except Oid4vciError (List Str × Members N) := do
  let restored ← restoreSdJwtDisclosures digested
  let sdHashes := restored.map (fun d => Json.str d.digestB64)
  .ok (restored.map DigestedSdJwtDisclosure.disclosure,
    if sdHashes.isEmpty then target else order.insert "_sd".toList (.arr sdHashes) target)

/-! ## Assembly -/

structure PreparedSdJwt where
  signingInput : Str
  disclosuresSuffix : Str
  credentialId : Str
  algorithm : SigningAlgorithm
  issuerPublicJwk : Str

/-- `payload[key] = v`. -/
def setMember (order : MapOrder) (key : String) (v : Json N) : Json N → Json N
  | .obj members => .obj (order.insert key.toList v members)
  | payload => payload

variable (planned : PlannedSdJwtPreparation platform.mapOrder N)

/-- The payload with its digests, and the disclosures. -/
def insertDigests (digested : SdJwtDisclosureStage DigestedSdJwtDisclosure) : Except Oid4vciError (List Str × Json N) :=
  if digested.isEmpty then .ok ([], planned.payload)
  else do
    let target ← disclosureTarget planned.disclosureTarget planned.payload
    let (disclosures, target) ← assembleSdJwtDisclosures platform.mapOrder target digested
    .ok (disclosures, writeTarget planned.disclosureTarget target planned.payload)

/-- The members that are set behind the disclosures. -/
def setProtocolMembers (payload : Json N) : Json N :=
  let payload :=
    if planned.options.includeNbf then
      setMember platform.mapOrder "nbf" (.num (platform.ofI64 planned.issuedAt.seconds)) payload
    else payload
  match planned.options.confirmation with
  | some confirmation => setMember platform.mapOrder "cnf" confirmation payload
  | none => payload

def assemblePayload (digested : SdJwtDisclosureStage DigestedSdJwtDisclosure) :
    Except Oid4vciError (List Str × Json N) := do
  let (disclosures, payload) ← insertDigests platform planned digested
  let payload :=
    if disclosures.isEmpty then payload
    else setMember platform.mapOrder "_sd_alg" (.str "sha-256".toList) payload
  .ok (disclosures, setProtocolMembers platform planned payload)

def headerOf : Json N :=
  .obj (insertOption platform.mapOrder "x5c"
    (if planned.options.x5c.isEmpty then none else some (.arr (planned.options.x5c.map .str)))
    (platform.mapOrder.arrange
      [("alg".toList, .str signer.algorithm.asStr), ("typ".toList, .str (planned.options.typ.getD "vc+sd-jwt".toList)),
        ("kid".toList, .str signer.kidUrl)]))

/-- `~`, or `~disc1~disc2~`. -/
def disclosuresSuffix (disclosures : List Str) : Str :=
  if disclosures.isEmpty then ['~'] else ['~'] ++ ['~'].intercalate disclosures ++ ['~']

/-- The base64url text of a value. -/
def encodeJson (v : Json N) : Str := Base64.encode (Str.bytes (text platform.format.text v))

def assembleSdJwtPreparation (digested : SdJwtDisclosureStage DigestedSdJwtDisclosure) :
    Except Oid4vciError PreparedSdJwt := do
  let (disclosures, payload) ← assemblePayload platform planned digested
  let issuerPublicJwk ← platform.validateSignerPublicJwk signer
  .ok { signingInput := encodeJson platform (headerOf platform signer planned) ++ ['.'] ++ encodeJson platform payload
        disclosuresSuffix := disclosuresSuffix disclosures
        credentialId := planned.credentialId
        algorithm := signer.algorithm
        issuerPublicJwk }

/-- The disclosures of a planned preparation, and the plan without them. -/
def stageDisclosures (sdClaims : List Str) (salts : Nat → Bytes) :
    Except Oid4vciError
      (SdJwtDisclosureStage DigestedSdJwtDisclosure × PlannedSdJwtPreparation platform.mapOrder N) :=
  if sdClaims.isEmpty then .ok (.empty, planned)
  else do
    let target ← disclosureTarget planned.disclosureTarget planned.payload
    let (digested, target) := prepareSdJwtDisclosures platform salts sdClaims target
    .ok (digested, { planned with payload := writeTarget planned.disclosureTarget target planned.payload })

def prepareSdJwtWithOptionsAndSources (options : SdJwtPreparationOptions platform.mapOrder N) (uuid : Str) (now : Instant)
    (salts : Nat → Bytes) : Except Oid4vciError PreparedSdJwt := do
  let planned ← planSdJwtPreparation platform signer claims options uuid now
  let (digested, planned) ← stageDisclosures platform planned claims.selectiveDisclosureClaims salts
  assembleSdJwtPreparation platform signer planned digested

end

section

variable (platform : Platform N)

def PreparedSdJwt.validateSignature (prepared : PreparedSdJwt) (signature : Bytes) : Except Oid4vciError Unit :=
  platform.verifyRemoteSignature prepared.algorithm prepared.issuerPublicJwk (Str.bytes prepared.signingInput) signature

def assembleSdJwt (prepared : PreparedSdJwt) (signature : Bytes) : Except Oid4vciError SignedCredential := do
  prepared.validateSignature platform signature
  .ok (.sdJwt (prepared.signingInput ++ ['.'] ++ Base64.encode signature ++ prepared.disclosuresSuffix)
    prepared.credentialId)

/-! ## Presentation -/

def inputTooLarge : Oid4vciError := .sdJwtError "SD-JWT presentation input exceeds its size limit"

def tooManyDisclosures : Oid4vciError := .sdJwtError "SD-JWT presentation has too many disclosures"

def disclosureTooLarge : Oid4vciError := .sdJwtError "SD-JWT presentation disclosure exceeds its size limit"

/-- The loop over the segments, behind so many disclosures. -/
def checkSegments : Nat → List Str → Exec Oid4vciError Unit
  | _, [] => .ok ()
  | count, segment :: rest =>
    if segment.isEmpty then checkSegments count rest
    else do
      reject (platform.maxSdJwtDisclosures < count + 1) tooManyDisclosures
      reject (platform.maxSdJwtDisclosureBytes < segment.len) disclosureTooLarge
      checkSegments (count + 1) rest

def validateSdJwtPresentationInput (sdJwtCompact : Str) : Exec Oid4vciError Unit := do
  reject (platform.maxSdJwtInputBytes < sdJwtCompact.len) inputTooLarge
  checkSegments platform 0 (sdJwtCompact.splitOn '~').tail

mutual
/-- The texts that any `_sd` array of a value lists. -/
def collectHashes : Json N → List Str
  | .obj members =>
    (match lookup "_sd".toList members with
      | some (.arr values) => values.filterMap asStr
      | _ => []) ++ memberHashes members
  | .arr values => valueHashes values
  | _ => []

def valueHashes : List (Json N) → List Str
  | [] => []
  | v :: rest => collectHashes v ++ valueHashes rest

def memberHashes : List (Str × Json N) → List Str
  | [] => []
  | (_, v) :: rest => collectHashes v ++ memberHashes rest
end

/-- The JSON value that a base64url text holds. -/
def decodeJson (decodeError jsonError : String) (text : Str) : Exec Oid4vciError (Json N) := do
  let bytes ← orFail (.sdJwtError (decodeError ++ platform.base64Error text)) (Base64.decode text)
  match platform.fromSlice bytes with
  | .ok v => .ok v
  | .error e => fail (.sdJwtError (jsonError ++ e))

/-- The claim name of a disclosure that the payload is bound to. -/
def disclosureField (signedHashes : List Str) (disclosure : Str) : Exec Oid4vciError Str := do
  let value ← decodeJson platform "Disclosure decode failed: " "Disclosure is not JSON: " disclosure
  let array ← orFail (.sdJwtError "Disclosure must be a JSON array") value.asArray
  reject (array.length ≠ 3) (.sdJwtError "Object-property disclosure must contain salt, name, and value")
  let name ← index array 1
  let field ← orFail (.sdJwtError "Disclosure claim name must be a string") name.asStr
  reject (digestText platform disclosure ∉ signedHashes)
    (.sdJwtError ("Disclosure for `" ++ String.ofList field ++ "` is not bound by the issuer-signed payload"))
  .ok field

/-- The loop over the disclosures, with those seen so far. -/
def collectAvailable (signedHashes : List Str) : List Str → List (Str × Str) → Exec Oid4vciError (List (Str × Str))
  | [], available => .ok available
  | disclosure :: rest, available => do
    let field ← disclosureField platform signedHashes disclosure
    reject (field ∈ available.map Prod.fst)
      (.sdJwtError ("Disclosure name `" ++ String.ofList field ++ "` is ambiguous"))
    collectAvailable signedHashes rest ((field, disclosure) :: available)

/-- The loop over the requested names, with those seen so far. -/
def selectDisclosures (available : List (Str × Str)) : List Str → List Str → Exec Oid4vciError (List Str)
  | [], _ => .ok []
  | field :: rest, requested => do
    reject (field ∈ requested)
      (.sdJwtError ("Disclosure `" ++ String.ofList field ++ "` was requested more than once"))
    let disclosure ← orFail (.sdJwtError ("SD-JWT has no disclosure named `" ++ String.ofList field ++ "`"))
      (lookup field available)
    let selected ← selectDisclosures available rest (field :: requested)
    .ok (disclosure :: selected)

def createSdJwtPresentation (sdJwtCompact : Str) (disclosedFields : List Str) : Exec Oid4vciError Str := do
  validateSdJwtPresentationInput platform sdJwtCompact
  let segments := (sdJwtCompact.splitOn '~').rdropWhile List.isEmpty
  let issuerJwt ← orFail (.sdJwtError "SD-JWT is missing its issuer-signed JWT") segments.head?
  reject ((issuerJwt.splitOn '.').length ≠ 3) (.sdJwtError "Issuer-signed SD-JWT is not compact JWS")
  reject (∃ segment ∈ segments.tail, (segment.splitOn '.').length = 3)
    (.sdJwtError "An existing Key Binding JWT cannot be reused in a new presentation")
  let payloadSegment ← expect "three JWS segments" (issuerJwt.splitOn '.')[1]?
  let payload ← decodeJson platform "Issuer JWT payload decode failed: " "Issuer JWT payload is not JSON: " payloadSegment
  let available ← collectAvailable platform (collectHashes payload) segments.tail []
  let selected ← selectDisclosures available disclosedFields []
  .ok (issuerJwt ++ disclosuresSuffix selected)

end

end SdJwt
end MartyCore.Oid4vci
