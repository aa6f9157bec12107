import MartyCore.Dtc.Dates
import MartyCore.Dtc.Model

/-!
# `Dtc.Verify` — preparing, assembling and verifying a signed credential

The embedding of `prepare_dtc_signing_json`, `assemble_dtc_signature_json` and `verify_dtc_json_with_status` of
`marty-verification/src/dtc/mod.rs`. The calls take and give the JSON values whose texts the source takes and gives.

Verification runs its checks one after the other and keeps a list of them, of the errors of those that failed, and one
flag. Here each check is a function of the input to a `Finding` (what it did to the flag, and what it recorded), and
`Report.add` is what the source does with it; so the flag is the conjunction of the findings (`isValid_foldl_add`) and a
check can be reasoned about without the ones before it.

A record can always be written, so the branch of the signature check for a payload that could not be is not there.
-/

namespace MartyCore.Dtc

open DtcError Result

variable {N : Type} (platform : Platform N)

/-! ## Signing -/

/-- `from_value` or `from_str`, with the error of the entry points. -/
def readRecord (value : Json N) : Except DtcError DtcRecord :=
  orFail (dtcInvalid ("Invalid DTC payload: " ++ platform.recordError value))
    (DtcRecord.fromValue platform value)

variable (clock : Clock)

def prepareDtcSigningJson (input : Json N) : Except DtcError (Json N) := do
  let record ← readRecord platform input
  let normalized := normalizeRecord platform clock record
  let signingInput := canonicalPayload platform normalized
  return .obj
    [("dtc".toList, normalized.toValue platform),
     ("signing_input_base64".toList, .str (Base64.encodeStandard signingInput)),
     ("signature_encoding".toList, .str "DER_BASE64".toList),
     ("supported_algorithms".toList, .arr [.str "ES256".toList, .str "ES384".toList])]

def validateBoundedText (field : String) (text : Str) (maxChars : Nat) : Except DtcError Str := do
  reject (text = [] ∨ maxChars < text.length ∨ text.trim ≠ text ∨ text.any Str.isControl = true)
    (dtcInvalid ("DTC " ++ field ++ " must be a bounded, non-empty value without surrounding whitespace"))
  return text

def requiredBoundedText (value : Json N) (field : String) (maxChars : Nat) : Except DtcError Str := do
  let text ← orFail (dtcMissingField field) ((value.get? field.toList).bind Json.asStr)
  validateBoundedText field text maxChars

/-- The text without one line ending. -/
def withoutLineEnding (text : Str) : Str :=
  ((Str.stripSuffix ['\r', '\n'] text).or (Str.stripSuffix ['\n'] text)).getD text

def requiredBoundedPem (value : Json N) (field : String) (maxChars : Nat) : Except DtcError Str := do
  let text ← orFail (dtcMissingField field) ((value.get? field.toList).bind Json.asStr)
  let normalized := withoutLineEnding text
  reject (normalized = [] ∨ maxChars < normalized.length ∨ normalized.trim ≠ normalized ∨
      normalized.any (fun c => Str.isControl c && c != '\n' && c != '\r') = true ∨
      ¬ "-----BEGIN PUBLIC KEY-----".toList.isPrefixOf normalized = true ∨
      ¬ "-----END PUBLIC KEY-----".toList.isSuffixOf normalized = true)
    (dtcInvalid ("DTC " ++ field ++ " must be a bounded public-key PEM without surrounding whitespace"))
  return normalized

def verifyEcdsa (payload : Bytes) (sigB64 publicKeyPem : Str) : Except DtcError Bool := do
  let sigBytes ← orFail (dtcInvalid "Invalid signature base64") (Base64.decodeStandard sigB64)
  platform.verifyDer payload sigBytes publicKeyPem

def signatureDate (value : Json N) : Except DtcError Str :=
  match value.get? "signature_date".toList with
  | some (.str text) => validateBoundedText "signature_date" text 128
  | some _ => .error (dtcInvalid "DTC signature_date must be a string")
  | none => .ok (nowIso clock.signature)

variable (record : DtcRecord)

/-- The assembled record, with the key next to the signature. -/
def signedValue (signerPublicKeyPem : Str) : Json N :=
  (record.toValue platform).modify "signature_info".toList
    (Json.set "signer_public_key_pem".toList (.str signerPublicKeyPem))

def assembleDtcSignatureJson (value : Json N) : Except DtcError (Json N) := do
  let recordValue ← orFail (dtcMissingField "dtc") (value.get? "dtc".toList)
  let record ← readRecord platform recordValue
  let signature ← requiredBoundedText value "signature_base64" 16384
  let signerId ← requiredBoundedText value "signer_id" 256
  let signerPublicKeyPem ← requiredBoundedPem value "signer_public_key_pem" 32768
  let signatureDate ← signatureDate clock value
  let record := normalizeRecord platform clock record
  let payload := canonicalPayload platform record
  let verified ← verifyEcdsa platform payload signature signerPublicKeyPem
  reject (verified = false)
    (dtcSignatureInvalid "External DTC signature does not match the canonical payload")
  let signed := { record with
    isSigned := true
    signatureInfo := some { signatureDate, signerId, signature, isValid := true } }
  return signedValue platform signed signerPublicKeyPem

/-! ## Checks -/

inductive CheckOutcome where
  | passed | failed | notPerformed | error
deriving DecidableEq

structure Check where
  checkName : String
  outcome : CheckOutcome
  details : Option String
  errorCode : Option String
deriving DecidableEq

/-- `record_check`. -/
def Check.of (name : String) (passed : Bool) (details errorCode : Option String) : Check :=
  ⟨name, if passed then .passed else .failed, details, errorCode⟩

structure Report where
  checks : List Check := []
  errors : List String := []
  errorCodes : List String := []
  isValid : Bool := true

def Report.recordCheckOutcome (report : Report) (check : Check) : Report :=
  let report := { report with checks := report.checks ++ [check] }
  if check.outcome = .failed then
    { report with
      errors := report.errors ++ [check.details.getD (check.checkName ++ " failed")]
      errorCodes := report.errorCodes ++ check.errorCode.toList }
  else report

/-- What one check does: `is_valid &= ok`, and the entries it records. -/
structure Finding where
  ok : Bool
  checks : List Check

def Report.add (report : Report) (finding : Finding) : Report :=
  finding.checks.foldl Report.recordCheckOutcome { report with isValid := report.isValid && finding.ok }

/-- A check that fails outright. -/
def Finding.fail (name : String) (details errorCode : String) : Finding :=
  ⟨false, [Check.of name false (some details) (some errorCode)]⟩

/-! ## Signature and dates -/

def signerPublicKeyPem (value : Json N) : Option Str :=
  ((value.get? "signer_public_key_pem".toList).or
    ((value.get? "signature_info".toList).bind (Json.get? "signer_public_key_pem".toList))).bind Json.asStr

variable (norm : DtcRecord)

/-- The canonical payload first, and the legacy one where it is another. -/
def verifyPayloads (signature pubPem : Str) : Except DtcError Bool := do
  let payload := canonicalPayload platform norm
  let verified ← verifyEcdsa platform payload signature pubPem
  if verified then return true
  let legacy := legacyCanonicalPayload platform norm
  if legacy = payload then return false
  verifyEcdsa platform legacy signature pubPem

def checkSignature (signatureInfo : Option SignatureInfo) (pem : Option Str) : Finding :=
  match signatureInfo with
  | none => .fail "Signature" "missing signature" "E802"
  | some info =>
    match pem with
    | none => .fail "Signature" "missing public key" "E802"
    | some pubPem =>
      match verifyPayloads platform norm info.signature pubPem with
      | .ok true => ⟨true, [Check.of "Signature" true none none]⟩
      | .ok false => .fail "Signature" "signature invalid" "E805"
      | .error err => .fail "Signature" err.display err.code

def checkNotBefore (nowEpoch : UInt64) : Finding :=
  if record.dtcValidFrom ≠ [] then
    match parseIsoToEpoch record.dtcValidFrom with
    | none => ⟨true, []⟩
    | some validFrom =>
      if nowEpoch < validFrom then
        .fail "TemporalValidation"
          ("DTC not yet valid (valid_from: " ++ String.ofList record.dtcValidFrom ++ ")") "E808"
      else ⟨true, [Check.of "TemporalValidation_NotBefore" true none none]⟩
  else ⟨true, []⟩

def expiryToCheck : Option Str :=
  if record.dtcValidUntil ≠ [] then some record.dtcValidUntil
  else if record.expiryDate ≠ [] then some record.expiryDate
  else none

def checkExpiry (nowEpoch : UInt64) : Finding :=
  match expiryToCheck record with
  | none => ⟨true, []⟩
  | some expiry =>
    match parseIsoToEpoch expiry with
    | none => ⟨true, []⟩
    | some expiryEpoch =>
      if nowEpoch > expiryEpoch then
        .fail "TemporalValidation" ("DTC has expired (expiry: " ++ String.ofList expiry ++ ")") "E807"
      else ⟨true, [Check.of "TemporalValidation_Expiry" true none none]⟩

/-! ## Revocation -/

inductive CurrentStatus where
  | good | revoked
deriving DecidableEq

inductive RevocationStatus where
  | good | revoked | unknown
deriving DecidableEq

/-- The fields of the evidence that are compared with the credential and the clock. -/
structure AuthenticatedDtcStatus where
  dtcId : Str
  documentNumber : Option Str
  status : CurrentStatus
  checkedAt : Int
  freshUntil : Int
deriving DecidableEq

inductive CurrentStatusValidation where
  | good (evidence : AuthenticatedDtcStatus)
  | revoked (evidence : AuthenticatedDtcStatus)
  | notPerformed
  | error (details : String)

def expectedDocumentNumber : Option Str :=
  (record.linkedPassport.filter (fun value => value ≠ [])).or
    (if record.passportNumber ≠ [] then some record.passportNumber else none)

def validateCurrentStatus (evidence : Option AuthenticatedDtcStatus) (now : Int) : CurrentStatusValidation :=
  match evidence with
  | none => .notPerformed
  | some evidence =>
    if evidence.dtcId ≠ record.dtcId then
      .error "Authenticated DTC status evidence does not match the credential ID"
    else if evidence.documentNumber ≠ expectedDocumentNumber record then
      .error "Authenticated DTC status evidence does not match the underlying document number"
    else if evidence.checkedAt > now ∨ evidence.freshUntil ≤ now then
      .error "Authenticated DTC status evidence is future-dated or stale"
    else
      match evidence.status with
      | .good => .good evidence
      | .revoked => .revoked evidence

structure RevocationFinding where
  finding : Finding
  revocationStatus : RevocationStatus
  evidence : Option AuthenticatedDtcStatus

def checkRevocation (currentStatus : Option AuthenticatedDtcStatus) (now : Int) : RevocationFinding :=
  if record.isRevoked then
    ⟨.fail "RevocationStatus" "DTC declares a revoked status" "E809", .revoked, none⟩
  else
    match validateCurrentStatus record currentStatus now with
    | .good evidence =>
      ⟨⟨true, [⟨"RevocationStatus", .passed, some "Authenticated current DTC lifecycle status is good", none⟩]⟩,
        .good, some evidence⟩
    | .revoked evidence =>
      ⟨.fail "RevocationStatus" "Authenticated current DTC lifecycle status is revoked" "E809", .revoked, some evidence⟩
    | .notPerformed =>
      ⟨⟨true, [⟨"RevocationStatus", .notPerformed,
          some "No authenticated current DTC lifecycle status evidence was provided", some "E810"⟩]⟩, .unknown, none⟩
    | .error details =>
      ⟨⟨true, [⟨"RevocationStatus", .error, some details, some "E811"⟩]⟩, .unknown, none⟩

/-! ## Profiles -/

def checkType1 : Finding :=
  match norm.type1Profile with
  | none => .fail "Type1Profile" "missing profile" "E802"
  | some t1 =>
    let hasLines : Bool := t1.mrzLine1 ≠ [] ∧ t1.mrzLine2 ≠ []
    let dgBytes := dataGroupBytes norm.dataGroups
    let hashOk : Bool := dgBytes ≠ [] ∧ Governance.hexText (platform.sha256 dgBytes).bytes = t1.sodHash
    let ok := hasLines && hashOk
    let failures := (if hasLines then [] else ["missing MRZ lines"]) ++ (if hashOk then [] else ["SOD hash mismatch"])
    ⟨ok, [Check.of "Type1Profile" ok (if ok then none else some ("; ".intercalate failures))
      (if ok then none else if hashOk then some "E802" else some "E801")]⟩

/-- A profile with fields that must not be empty. -/
def checkFields (name : String) (fields : List (String × Str)) : Finding :=
  let missing := (fields.filter (fun field => field.2 = [])).map Prod.fst
  let ok := missing.isEmpty
  ⟨ok, [Check.of name ok (if ok then none else some ("missing fields: " ++ ", ".intercalate missing))
    (if ok then none else some "E802")]⟩

def checkType2 : Finding :=
  match norm.type2Profile with
  | none => .fail "Type2Profile" "missing profile" "E802"
  | some t2 =>
    checkFields "Type2Profile"
      [("chip_auth_public_key", t2.chipAuthPublicKey), ("device_public_key", t2.devicePublicKey)]

def checkType3 : Finding :=
  match norm.type3Profile with
  | none => .fail "Type3Profile" "missing profile" "E802"
  | some t3 =>
    checkFields "Type3Profile"
      [("remote_attestation_report", t3.remoteAttestationReport), ("device_binding_id", t3.deviceBindingId)]

def checkProfile (dtcType : Int32) (norm : DtcRecord) : Finding :=
  if dtcType = 4 then checkType1 platform norm
  else if dtcType = 5 then checkType2 norm
  else if dtcType = 6 then checkType3 norm
  else ⟨true, []⟩

/-! ## Trust -/

/-- The strings of an array member. -/
def stringsOf (value : Json N) (key : String) : List Str :=
  (((value.get? key.toList).bind Json.asArray).map (fun values => values.filterMap Json.asStr)).getD []

def checkSignerKey (pem : Option Str) (certChain : List Str) : Finding :=
  match pem, certChain.head? with
  | some pubPem, some leafPem =>
    match platform.publicKeyBytesFromPem pubPem, platform.publicKeyBytesFromCertPem leafPem with
    | .ok signerBytes, .ok leafBytes =>
      if signerBytes = leafBytes then ⟨true, [Check.of "SignerKeyMatchesCertificate" true none none]⟩
      else .fail "SignerKeyMatchesCertificate" "signer key does not match certificate" "E806"
    | .error err, _ => .fail "SignerKeyMatchesCertificate" err.display err.code
    | _, .error err => .fail "SignerKeyMatchesCertificate" err.display err.code
  | _, _ => ⟨true, []⟩

def validateChain (trustAnchors chain : List Str) : Except DtcError Bool := do
  reject (trustAnchors = [])
    (dtcTrustChainInvalid "DTC verification requires at least one governed CSCA trust anchor")
  let signerCertificate ← orFail
    (dtcTrustChainInvalid "DTC verification requires a DTC Signer certificate chain") chain.head?
  platform.validateDtcSignerEku signerCertificate
  platform.chainValid trustAnchors chain

def checkTrustChain (trustAnchors certChain : List Str) : Finding :=
  match validateChain platform trustAnchors certChain with
  | .ok true => ⟨true, [Check.of "TrustChain" true none none]⟩
  | .ok false => .fail "TrustChain" "trust chain validation failed" "E806"
  | .error err => .fail "TrustChain" err.display err.code

/-! ## Verification -/

structure VerificationResponse where
  isValid : Bool
  revocationStatus : RevocationStatus
  revocationEvidence : Option AuthenticatedDtcStatus
  verificationResults : List Check
  errors : List String
  errorCodes : List String
  dtcData : DtcRecord
  errorMessage : String

/-- The checks in the order they are made. -/
def findings (value : Json N) (record : DtcRecord) (currentStatus : Option AuthenticatedDtcStatus) : List Finding :=
  let norm := normalizeRecord platform clock record
  let pem := signerPublicKeyPem value
  let certChain := stringsOf value "certificate_chain_pem"
  [checkSignature platform norm record.signatureInfo pem,
   checkNotBefore record clock.epoch,
   checkExpiry record clock.epoch,
   (checkRevocation record currentStatus clock.status).finding,
   checkProfile platform record.dtcType norm,
   checkSignerKey platform pem certChain,
   checkTrustChain platform (stringsOf value "trust_anchors_pem") certChain]

def verifyDtcJsonWithStatus (value : Json N) (currentStatus : Option AuthenticatedDtcStatus) :
    Except DtcError VerificationResponse := do
  let record ← readRecord platform value
  let revocation := checkRevocation record currentStatus clock.status
  let report := (findings platform clock value record currentStatus).foldl Report.add {}
  return {
    isValid := report.isValid
    revocationStatus := revocation.revocationStatus
    revocationEvidence := revocation.evidence
    verificationResults := report.checks
    errors := report.errors
    errorCodes := report.errorCodes
    dtcData := record
    errorMessage := if report.isValid then "" else report.errors.head?.getD "Verification failed" }

/-! ## The flag and the list of checks -/

theorem isValid_foldl_recordCheckOutcome (checks : List Check) (report : Report) :
    (checks.foldl Report.recordCheckOutcome report).isValid = report.isValid := by
  induction checks generalizing report with
  | nil => rfl
  | cons check rest ih =>
    rw [List.foldl_cons, ih, Report.recordCheckOutcome]
    split <;> rfl

theorem checks_foldl_recordCheckOutcome (checks : List Check) (report : Report) :
    (checks.foldl Report.recordCheckOutcome report).checks = report.checks ++ checks := by
  induction checks generalizing report with
  | nil => simp
  | cons check rest ih =>
    have hone : (report.recordCheckOutcome check).checks = report.checks ++ [check] := by
      rw [Report.recordCheckOutcome]
      split <;> rfl
    rw [List.foldl_cons, ih, hone, List.append_assoc, List.singleton_append]

/-- **The flag is the conjunction of the findings.** -/
theorem isValid_foldl_add (findings : List Finding) (report : Report) :
    (findings.foldl Report.add report).isValid = (report.isValid && findings.all Finding.ok) := by
  induction findings generalizing report with
  | nil => simp
  | cons finding rest ih =>
    rw [List.foldl_cons, ih, Report.add, isValid_foldl_recordCheckOutcome, List.all_cons, Bool.and_assoc]

theorem checks_foldl_add (findings : List Finding) (report : Report) :
    (findings.foldl Report.add report).checks = report.checks ++ findings.flatMap Finding.checks := by
  induction findings generalizing report with
  | nil => simp
  | cons finding rest ih =>
    rw [List.foldl_cons, ih, Report.add, checks_foldl_recordCheckOutcome, List.flatMap_cons, List.append_assoc]

/-- What verification returns for a value that is a record. -/
theorem verify_ok_iff {clock : Clock} {value : Json N} {currentStatus : Option AuthenticatedDtcStatus}
    {response : VerificationResponse} (h : verifyDtcJsonWithStatus platform clock value currentStatus = .ok response) :
    ∃ record, DtcRecord.fromValue platform value = some record ∧
      response.isValid = (findings platform clock value record currentStatus).all Finding.ok ∧
      response.verificationResults = (findings platform clock value record currentStatus).flatMap Finding.checks := by
  obtain ⟨record, hrecord, hresponse⟩ := of_bind h
  refine ⟨record, orFail_ok_iff.mp hrecord, ?_, ?_⟩
  · rw [← Except.ok.inj hresponse]
    show (List.foldl Report.add {} _).isValid = _
    rw [isValid_foldl_add, Bool.true_and]
  · rw [← Except.ok.inj hresponse]
    show (List.foldl Report.add {} _).checks = _
    rw [checks_foldl_add, List.nil_append]

/-! ## A platform to run on -/

/-- A platform on which every signature and every chain is good. -/
def lenientPlatform : Platform Int where
  format := Json.integer
  ofI32 n := n.toInt
  asI32 n := if (Int32.ofInt n).toInt = n then some (Int32.ofInt n) else none
  asI32_ofI32 n := by simp
  recordError _ := "invalid type"
  sha256 _ := .zero
  verifyDer _ _ _ := .ok true
  publicKeyBytesFromPem _ := .ok []
  publicKeyBytesFromCertPem _ := .ok []
  validateDtcSignerEku _ := .ok ()
  chainValid _ _ := .ok true

def sampleClock : Clock := ⟨0, 0, 0, 0, 0⟩

end MartyCore.Dtc
