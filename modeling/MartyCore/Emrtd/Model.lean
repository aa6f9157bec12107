import MartyCore.Emrtd.Sod

/-!
# `Emrtd.Model` — passive authentication of an eMRTD

The embedding of `marty-verification/src/verification/emrtd.rs`: the CSCA → DSC → SOD chain, the data-group hashes and
the revocation check, and of the CRL validator of `marty-crypto/src/crl.rs` that the last one calls.

A hash map is a sorted map together with the order in which it is iterated. The system clock is read once for every
candidate anchor and once for every CRL that gets as far as its freshness; the readings are inputs (`Clock`), as
nanoseconds since the epoch.
-/

namespace MartyCore.Emrtd

open Result
open Chain (Name Extension BasicConstraints)

/-! ## Types -/

inductive TrustPurpose where
  | iaca | readerCa | csca | dsc | eudiIssuer | eudiQtsp | eudiWallet
deriving DecidableEq

structure TrustAnchor where
  certificate : Certificate
  purpose : TrustPurpose
deriving DecidableEq

/-- `get_anchors()`. -/
structure CscaRegistry where
  anchors : List TrustAnchor

inductive ChainStatus where
  | valid | invalid | unknown
deriving DecidableEq

inductive SignatureStatus where
  | valid | invalid | unknown
deriving DecidableEq

inductive HashStatus where
  | valid | invalid | unknown
deriving DecidableEq

inductive RevocationStatus where
  | notRevoked | revoked | unchecked
deriving DecidableEq

structure EmrtdVerificationResult where
  verified : Bool
  country : Option String
  documentType : Option String
  errors : List String
  errorCodes : List String
  warnings : List String
  trustAnchorSubject : Option String
  certificateChain : List String
  dscChainStatus : ChainStatus
  sodSignatureStatus : SignatureStatus
  dgHashStatus : HashStatus
  revocationStatus : RevocationStatus

namespace EmrtdVerificationResult

/-- `Default::default()`. -/
def default : EmrtdVerificationResult where
  verified := false
  country := none
  documentType := none
  errors := []
  errorCodes := []
  warnings := []
  trustAnchorSubject := none
  certificateChain := []
  dscChainStatus := .unknown
  sodSignatureStatus := .unknown
  dgHashStatus := .unknown
  revocationStatus := .unchecked

/-- `errors.push(error); error_codes.push(code)`. -/
def push (result : EmrtdVerificationResult) (error code : String) : EmrtdVerificationResult :=
  { result with errors := result.errors ++ [error], errorCodes := result.errorCodes ++ [code] }

end EmrtdVerificationResult

structure EmrtdVerificationOptions where
  crls : List Bytes

structure DocumentSignerCertificate where
  certificate : Certificate
  country : Option String
  serialNumber : String

/-- The fields `signature` and `signed_attrs` are not read. -/
structure SecurityObject where
  signerCertificate : DocumentSignerCertificate
  hashAlgorithm : String
  dataGroupHashes : SortedMap Nat Bytes
  rawSod : Option Bytes

/-- What the system clock shows: at the candidate anchor with the given index, and at the pair of CRL and anchor with
    the given index. -/
structure Clock where
  chain : Nat → Int
  crl : Nat → Int

/-- A clock that stands still. -/
def Clock.constant (now : Int) : Clock := ⟨fun _ => now, fun _ => now⟩

variable (platform : Platform)

/-! ## The security object -/

namespace SecurityObject

def fromSodDer (sodDer : Bytes) (countryHint : Option String) : Except VerificationError SecurityObject := do
  let parsed ← parseSod platform sodDer
  let pem ← orFail (.derError "SOD contained no Document Signer Certificate") parsed.documentSignerCert
  let decoded ← (platform.pemDecode pem).mapError (fun e => .derError ("Failed to decode DSC PEM: " ++ e))
  let certificate ← (platform.certificateFromDer decoded.2).mapError .derError
  .ok
    { signerCertificate :=
        { certificate := certificate
          country := countryHint
          serialNumber := platform.displaySerialNumber certificate.serialNumber }
      hashAlgorithm := parsed.hashAlgorithm
      dataGroupHashes :=
        parsed.dataGroupHashes.foldl (fun hashes dg => hashes.insert dg.dataGroupNumber dg.hashBytes) .empty
      rawSod := some sodDer }

end SecurityObject

/-! ## The chain -/

section

def validateEmrtdCertificateProfiles (dsc csca : Certificate) : Except VerificationError Unit := do
  let dscConstraints ← (getBasicConstraints platform dsc).mapError .derError
  reject (dscConstraints.any BasicConstraints.ca = true)
    (.internal "Document Signer Certificate must not be a CA")
  let dscKeyUsage ← (getKeyUsage platform dsc).mapError .derError
  let dscKeyUsage ← orFail (.internal "Document Signer Certificate lacks required KeyUsage") dscKeyUsage
  reject (dscKeyUsage.digitalSignature = false)
    (.internal "Document Signer Certificate KeyUsage lacks digitalSignature")
  let cscaConstraints ← (getBasicConstraints platform csca).mapError .derError
  let cscaConstraints ← orFail (.internal "CSCA lacks required BasicConstraints") cscaConstraints
  reject (cscaConstraints.ca = false) (.internal "CSCA certificate is not authorized as a CA")
  let cscaKeyUsage ← (getKeyUsage platform csca).mapError .derError
  reject (cscaKeyUsage.any (fun keyUsage => !keyUsage.keyCertSign) = true)
    (.internal "CSCA KeyUsage lacks keyCertSign")

def verifyCertificateSignature (subject issuer : Certificate) : Except VerificationError Unit := do
  let valid ← (platform.verifyParsedCertificateSignature subject issuer).mapError .internal
  reject (valid = false) (.invalidSignature "Certificate" "Signature verification failed")

/-- What the loop body reports about the validity period of one certificate. -/
def validityFailures (now : Int) (cert : Certificate) : List String :=
  if now < cert.notBefore then ["Certificate " ++ platform.displayName cert.subject ++ " is not yet valid"]
  else if now > cert.notAfter then ["Certificate " ++ platform.displayName cert.subject ++ " has expired"]
  else []

/-- The anchors with purpose CSCA that are named as the issuer. -/
def cscaCandidates (registry : CscaRegistry) (issuer : Name) : List TrustAnchor :=
  (registry.anchors.filter (fun a => a.purpose = .csca)).filter (fun a => a.certificate.subject = issuer)

/-- What is found wrong with one candidate. -/
def candidateFailures (now : Int) (dsc csca : Certificate) : List String :=
  match validateEmrtdCertificateProfiles platform dsc csca with
  | .error error => [error.display]
  | .ok () =>
    match verifyCertificateSignature platform dsc csca with
    | .error error => [error.display]
    | .ok () => [dsc, csca].flatMap (validityFailures platform now)

/-- The loop over the candidates, from index `i` on. -/
def tryCandidates (clock : Clock) (dsc : Certificate) :
    Nat → List TrustAnchor → List String → Except VerificationError (ChainStatus × String)
  | _, [], failures =>
    .error (.invalidSignature "DSC"
      ("DSC did not validate against any trusted CSCA: " ++ String.intercalate "; " failures))
  | i, csca :: rest, failures =>
    if candidateFailures platform (clock.chain i) dsc csca.certificate = [] then
      .ok (.valid, platform.displayName csca.certificate.subject)
    else tryCandidates clock dsc (i + 1) rest
      (failures ++ candidateFailures platform (clock.chain i) dsc csca.certificate)

def verifyDscChainWithAnchor (clock : Clock) (dsc : DocumentSignerCertificate) (registry : CscaRegistry) :
    Except VerificationError (ChainStatus × String) := do
  let issuer := dsc.certificate.issuer
  let candidates := cscaCandidates registry issuer
  reject (candidates.isEmpty = true)
    (.noTrustAnchor ("No CSCA found for issuer: " ++ platform.displayName issuer))
  tryCandidates platform clock dsc.certificate 0 candidates []

end

/-! ## The data-group hashes -/

section

/-- The loop over the expected hashes. -/
def hashesMatch (algorithm : HashAlgorithm) (dataGroups : SortedMap Nat Bytes) : List (Nat × Bytes) → HashStatus
  | [] => .valid
  | (dgNum, expectedHash) :: rest =>
    match dataGroups.get? dgNum with
    | none => .invalid
    | some dgContent =>
      if expectedHash.length ≠ algorithm.digestSize ∨ platform.hash algorithm dgContent ≠ expectedHash then .invalid
      else hashesMatch algorithm dataGroups rest

def dataGroupHashAlgorithm (hashAlgorithm : String) : Except VerificationError HashAlgorithm :=
  if hashAlgorithm = "SHA-1" then .ok .sha1
  else if hashAlgorithm = "SHA-256" then .ok .sha256
  else if hashAlgorithm = "SHA-384" then .ok .sha384
  else if hashAlgorithm = "SHA-512" then .ok .sha512
  else (HashAlgorithm.fromOid hashAlgorithm).mapError
    (fun _ => .internal ("Unsupported data-group hash algorithm: " ++ hashAlgorithm))

def verifyDataGroupHashMap (order : IterationOrder (Nat × Bytes)) (hashAlgorithm : String)
    (expectedHashes dataGroups : SortedMap Nat Bytes) : Except VerificationError HashStatus :=
  if expectedHashes.entries = [] ∨ expectedHashes.entries.length ≠ dataGroups.entries.length then .ok .invalid
  else do
    let algorithm ← dataGroupHashAlgorithm hashAlgorithm
    .ok (hashesMatch platform algorithm dataGroups (order.arrange expectedHashes.entries))

def verifyDataGroupHashes (order : IterationOrder (Nat × Bytes)) (sod : SecurityObject)
    (dataGroups : SortedMap Nat Bytes) : Except VerificationError HashStatus :=
  verifyDataGroupHashMap platform order sod.hashAlgorithm sod.dataGroupHashes dataGroups

end

/-! ## The verification -/

section

def revocationNotChecked : String := "DSC revocation was not checked because no CRL evidence was supplied"

/-- Step 2. -/
def checkSodSignature (sod : SecurityObject) (result : EmrtdVerificationResult) : EmrtdVerificationResult :=
  match sod.rawSod with
  | none =>
    { result with sodSignatureStatus := .unknown }.push
      "SOD signature verification was not performed: raw SOD unavailable" "EMRTD_SOD_UNAVAILABLE"
  | some rawSod =>
    match verifySodSignature platform rawSod with
    | .ok true => { result with sodSignatureStatus := .valid }
    | .ok false =>
      { result with sodSignatureStatus := .invalid }.push
        "SOD signature verification failed" "EMRTD_SOD_SIGNATURE_INVALID"
    | .error err =>
      { result with sodSignatureStatus := .invalid }.push err.display "EMRTD_SOD_SIGNATURE_INVALID"

/-- Step 3 and the verdict. -/
def checkHashes (order : IterationOrder (Nat × Bytes)) (sod : SecurityObject) (dataGroups : SortedMap Nat Bytes)
    (result : EmrtdVerificationResult) : EmrtdVerificationResult :=
  match verifyDataGroupHashes platform order sod dataGroups with
  | .error e => { result with dgHashStatus := .invalid }.push e.display "EMRTD_DG_HASH_INVALID"
  | .ok status =>
    let result := { result with dgHashStatus := status }
    let result :=
      if status = .invalid then
        result.push "One or more data-group hashes did not match the SOD" "EMRTD_DG_HASH_INVALID"
      else result
    { result with
      verified := decide (result.dscChainStatus = .valid ∧ result.sodSignatureStatus = .valid ∧
        result.dgHashStatus = .valid)
      warnings := result.warnings ++ [revocationNotChecked] }

def verifyEmrtd (clock : Clock) (order : IterationOrder (Nat × Bytes)) (sod : SecurityObject)
    (dataGroups : SortedMap Nat Bytes) (registry : CscaRegistry) : EmrtdVerificationResult :=
  let result := { EmrtdVerificationResult.default with country := sod.signerCertificate.country }
  match verifyDscChainWithAnchor platform clock sod.signerCertificate registry with
  | .error e => { result with dscChainStatus := .invalid }.push e.display "EMRTD_CHAIN_INVALID"
  | .ok (status, trustAnchorSubject) =>
    checkHashes platform order sod dataGroups (checkSodSignature platform sod
      { result with
        dscChainStatus := status
        certificateChain :=
          [platform.displayName sod.signerCertificate.certificate.subject, trustAnchorSubject]
        trustAnchorSubject := some trustAnchorSubject })

end

/-! ## CRLs -/

section

inductive RevocationReason where
  | unspecified | keyCompromise | caCompromise | affiliationChanged | superseded | cessationOfOperation
  | certificateHold | removeFromCrl | privilegeWithdrawn | aaCompromise
deriving DecidableEq

namespace RevocationReason

def fromCode (code : Nat) : Option RevocationReason :=
  match code with
  | 0 => some .unspecified
  | 1 => some .keyCompromise
  | 2 => some .caCompromise
  | 3 => some .affiliationChanged
  | 4 => some .superseded
  | 5 => some .cessationOfOperation
  | 6 => some .certificateHold
  | 8 => some .removeFromCrl
  | 9 => some .privilegeWithdrawn
  | 10 => some .aaCompromise
  | _ => none

def asStr : RevocationReason → String
  | .unspecified => "unspecified"
  | .keyCompromise => "keyCompromise"
  | .caCompromise => "cACompromise"
  | .affiliationChanged => "affiliationChanged"
  | .superseded => "superseded"
  | .cessationOfOperation => "cessationOfOperation"
  | .certificateHold => "certificateHold"
  | .removeFromCrl => "removeFromCRL"
  | .privilegeWithdrawn => "privilegeWithdrawn"
  | .aaCompromise => "aACompromise"

end RevocationReason

/-- The fields of `ValidatedCrlStatus` that are read here. -/
structure ValidatedCrlStatus where
  revoked : Bool
  reason : Option RevocationReason

def idCeDeltaCrlIndicator : String := "2.5.29.27"
def idCeCrlReasons : String := "2.5.29.21"

/-- The second component of `extract_crl_extensions`. -/
def isDeltaCrl (crl : CertificateList) : Bool :=
  (crl.crlExtensions.getD []).any (fun ext => ext.extnId == idCeDeltaCrlIndicator)

/-- The loop over the extensions of an entry: the first one with a canonical encoding decides. -/
def extractReason : List Extension → Option RevocationReason
  | [] => none
  | ext :: rest =>
    if ext.extnId = idCeCrlReasons then
      match ext.extnValue with
      | [0x0A, 0x01, code] => RevocationReason.fromCode code.toNat
      | _ => extractReason rest
    else extractReason rest

def extractRevocationReason (cert : RevokedCert) : Option RevocationReason :=
  extractReason (cert.crlEntryExtensions.getD [])

def u64Max : Nat := 2 ^ 64 - 1

/-- `saturating_add` on `u64`. -/
def saturatingAdd (a b : Nat) : Nat := min (a + b) u64Max

/-- The reading of the clock, rounded down to seconds; a clock before the epoch is an error. -/
def validateCrlFreshness (now : Int) (thisUpdate : Nat) (nextUpdate : Option Nat)
    (clockSkewSecs maxAgeWithoutNextUpdateSecs : Nat) : Except String Unit := do
  reject (now < 0) "CRL error: system clock is before Unix epoch"
  let now := now.toNat / 1000000000
  reject (thisUpdate > saturatingAdd now clockSkewSecs) "CRL error: CRL thisUpdate is in the future"
  match nextUpdate with
  | some next =>
    reject (next < thisUpdate ∨ now > saturatingAdd next clockSkewSecs)
      "CRL error: CRL is stale or has an invalid validity interval"
  | none =>
    reject (now > saturatingAdd thisUpdate (maxAgeWithoutNextUpdateSecs + clockSkewSecs))
      "CRL error: CRL without nextUpdate exceeds the maximum accepted age"

def clockSkewSecs : Nat := 5 * 60
def maxAgeWithoutNextUpdateSecs : Nat := 24 * 60 * 60

def authenticateCrl (now : Int) (crl : CertificateList) (issuer : Certificate) : Except String Unit := do
  reject (crl.issuer ≠ issuer.subject) "CRL error: CRL issuer does not match supplied issuer certificate"
  reject (crl.tbsSignatureOid ≠ crl.signatureAlgorithm.oid)
    "CRL error: CRL inner and outer signature algorithms do not match"
  let constraints ← (getBasicConstraints platform issuer).mapError
    (fun e => "CRL error: invalid issuer BasicConstraints: " ++ e)
  let constraints ← orFail "CRL error: CRL issuer lacks BasicConstraints" constraints
  reject (constraints.ca = false) "CRL error: CRL issuer is not a CA certificate"
  let keyUsage ← (getKeyUsage platform issuer).mapError (fun e => "CRL error: invalid issuer KeyUsage: " ++ e)
  reject (keyUsage.any (fun usage => !usage.crlSign) = true)
    "CRL error: CRL issuer KeyUsage does not permit CRL signing"
  reject (isDeltaCrl crl = true) "CRL error: delta CRL cannot be evaluated without its base CRL"
  let tbsDer ← (platform.tbsCertListToDer crl).mapError
    (fun e => "CRL error: failed to encode signed CRL data: " ++ e)
  let issuerSpki ← (platform.spkiToDer issuer.subjectPublicKeyInfo).mapError
    (fun e => "CRL error: failed to encode issuer public key: " ++ e)
  let signature ← orFail "CRL error: CRL signature is not byte aligned" crl.signature
  let valid ← platform.verifySignatureWithAlgorithmIdentifier crl.signatureAlgorithm issuerSpki tbsDer signature
  reject (valid = false) "CRL error: invalid CRL signature"
  validateCrlFreshness now crl.thisUpdate crl.nextUpdate clockSkewSecs maxAgeWithoutNextUpdateSecs

/-- The certificates are parsed once more for the signature check; that repeats the two calls above it. -/
def validateCrlForCertificate (now : Int) (crlDer certDer issuerDer : Bytes) : Except String ValidatedCrlStatus := do
  let crl ← (platform.certificateListFromDer crlDer).mapError (fun e => "CRL error: failed to parse CRL: " ++ e)
  let cert ← (platform.certificateFromDer certDer).mapError
    (fun e => "CRL error: failed to parse certificate: " ++ e)
  let issuer ← (platform.certificateFromDer issuerDer).mapError
    (fun e => "CRL error: failed to parse issuer certificate: " ++ e)
  reject (cert.issuer ≠ issuer.subject)
    "CRL error: certificate issuer does not match supplied issuer certificate"
  let valid ← platform.verifyParsedCertificateSignature cert issuer
  reject (valid = false) "CRL error: certificate signature does not validate under supplied issuer"
  authenticateCrl platform now crl issuer
  match (crl.revokedCertificates.getD []).find? (fun entry => entry.serialNumber == cert.serialNumber) with
  | some entry => .ok ⟨true, extractRevocationReason entry⟩
  | none => .ok ⟨false, none⟩

end

/-! ## Verification with CRLs -/

section

/-- The double loop over CRLs and candidate anchors: the status under which it returns early, or whether there was
    evidence and what failed. -/
def searchCrls (clock : Clock) (dscDer : Bytes) :
    Nat → List (Bytes × TrustAnchor) → Bool → List String → ValidatedCrlStatus ⊕ (Bool × List String)
  | _, [], validEvidence, failures => .inr (validEvidence, failures)
  | i, (crlDer, csca) :: rest, validEvidence, failures =>
    match platform.certificateToDer csca.certificate with
    | .error error => searchCrls clock dscDer (i + 1) rest validEvidence
        (failures ++ ["Failed to encode CSCA: " ++ error])
    | .ok cscaDer =>
      match validateCrlForCertificate platform (clock.crl i) crlDer dscDer cscaDer with
      | .ok status =>
        if status.revoked then .inl status else searchCrls clock dscDer (i + 1) rest true failures
      | .error error => searchCrls clock dscDer (i + 1) rest validEvidence (failures ++ [error])

def crlPairs (registry : CscaRegistry) (issuer : Name) (crls : List Bytes) : List (Bytes × TrustAnchor) :=
  crls.flatMap (fun crlDer => (cscaCandidates registry issuer).map (Prod.mk crlDer))

def checkRevocation (clock : Clock) (dsc : Certificate) (registry : CscaRegistry) (crls : List Bytes)
    (result : EmrtdVerificationResult) : EmrtdVerificationResult :=
  match platform.certificateToDer dsc with
  | .error error =>
    { result with verified := false }.push ("Failed to encode DSC: " ++ error) "EMRTD_REVOCATION_UNDETERMINED"
  | .ok dscDer =>
    match searchCrls platform clock dscDer 0 (crlPairs registry dsc.issuer crls) false [] with
    | .inl status =>
      { result with revocationStatus := .revoked, verified := false }.push
        ("DSC has been revoked: " ++ (status.reason.map RevocationReason.asStr).getD "unspecified")
        "EMRTD_DSC_REVOKED"
    | .inr (true, _) => { result with revocationStatus := .notRevoked }
    | .inr (false, failures) =>
      { result with revocationStatus := .unchecked, verified := false }.push
        ("No authenticated, current CRL matched the DSC: " ++ String.intercalate "; " failures)
        "EMRTD_REVOCATION_UNDETERMINED"

def verifyEmrtdWithOptions (clock : Clock) (order : IterationOrder (Nat × Bytes)) (sod : SecurityObject)
    (dataGroups : SortedMap Nat Bytes) (registry : CscaRegistry) (options : EmrtdVerificationOptions) :
    EmrtdVerificationResult :=
  let result := verifyEmrtd platform clock order sod dataGroups registry
  if options.crls = [] then result
  else
    checkRevocation platform clock sod.signerCertificate.certificate registry options.crls
      { result with
        warnings := result.warnings.filter
          (fun warning => !("DSC revocation was not checked".toList.isPrefixOf warning.toList)) }

end

end MartyCore.Emrtd
