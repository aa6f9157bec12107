import MartyCore.Governance.Canonical
import MartyCore.Lib.Base64
import MartyCore.Lib.JsonRead

/-!
# `Dtc.Model` — digital travel credentials and their signed bytes

The embedding of the record types of `marty-verification/src/dtc/mod.rs`, of `normalize_record` and of the two payloads
that are signed: `canonical_payload` with the members of every object in key order, `legacy_canonical_payload` with the
members of the record in the order of declaration.

The types are read and written as their derived implementations do: fields in the order of declaration, absent ones at
their default, unknown members ignored. A record is written without a possible failure, so neither payload can fail.
A map is a list of members here; where the source keeps it in another order (sorted, or with the last member moved into
the place of a removed one) the payloads, which sort, do not see it.

What is not the repository's own is a parameter (`Platform`): the digest, the verification of a signature with a key in
PEM, what is read out of keys and certificates, and how numbers are held.
-/

namespace MartyCore.Dtc

open Json Json.Fields
open Governance (hexText)

/-! ## Errors -/

/-- `VerificationError::DtcError`. -/
structure DtcError where
  reason : String
  code : String
deriving DecidableEq

namespace DtcError

def dtcInvalid (reason : String) : DtcError := ⟨reason, "E801"⟩

def dtcMissingField (field : String) : DtcError := ⟨"Missing required field: " ++ field, "E802"⟩

def dtcSignatureInvalid (reason : String) : DtcError := ⟨reason, "E805"⟩

def dtcTrustChainInvalid (reason : String) : DtcError := ⟨reason, "E806"⟩

def display (error : DtcError) : String := "[" ++ error.code ++ "] DTC error: " ++ error.reason

end DtcError

/-! ## The platform -/

structure Platform (N : Type) where
  format : NumberFormat N
  /-- How an `i32` is written, and read back where the number is one. -/
  ofI32 : Int32 → N
  asI32 : N → Option Int32
  asI32_ofI32 : ∀ n, asI32 (ofI32 n) = some n
  /-- The text of the parser's error for a value that is not a record. -/
  recordError : Json N → String
  sha256 : Bytes → Block 32
  /-- `verify_ecdsa` behind the decoding of the signature: payload, signature in DER, key in PEM. -/
  verifyDer : Bytes → Bytes → Str → Except DtcError Bool
  publicKeyBytesFromPem : Str → Except DtcError Bytes
  publicKeyBytesFromCertPem : Str → Except DtcError Bytes
  validateDtcSignerEku : Str → Except DtcError Unit
  /-- The chain validator with these anchors. -/
  chainValid : List Str → List Str → Except DtcError Bool

/-- What the clock says each time it is read: seconds since 1970, and the instant status evidence is compared with. -/
structure Clock where
  id : UInt64
  creation : UInt64
  signature : UInt64
  epoch : UInt64
  status : Int

/-- `{:010}Z`. -/
def nowIso (secs : UInt64) : Str :=
  let digits := Nat.toDigits 10 secs.toNat
  List.replicate (10 - digits.length) '0' ++ digits ++ ['Z']

/-! ## Records -/

structure DataGroup where
  dgNumber : Int32
  data : Str
  dataType : Str
deriving DecidableEq

structure Type1Profile where
  mrzLine1 : Str
  mrzLine2 : Str
  sodHash : Str
  issuingState : Str
  passiveAuthOk : Bool
deriving DecidableEq

structure Type2Profile where
  chipAuthPublicKey : Str
  devicePublicKey : Str
  attestationCertHash : Str
  passiveAuthOk : Bool
deriving DecidableEq

structure Type3Profile where
  remoteAttestationReport : Str
  deviceBindingId : Str
  ephemeralPublicKey : Str
  sessionId : Str
  attestationCertHash : Str
deriving DecidableEq

structure SignatureInfo where
  signatureDate : Str
  signerId : Str
  signature : Str
  isValid : Bool
deriving DecidableEq

structure PersonalDetails where
  firstName : Str := []
  lastName : Str := []
  dateOfBirth : Str := []
  gender : Str := []
  nationality : Str := []
  placeOfBirth : Str := []
  portrait : Str := []
  signature : Str := []
  otherNames : List Str := []
deriving DecidableEq

structure DtcRecord where
  dtcId : Str := []
  passportNumber : Str := []
  issuingAuthority : Str := []
  issueDate : Str := []
  expiryDate : Str := []
  personalDetails : PersonalDetails := {}
  dataGroups : List DataGroup := []
  dtcType : Int32 := 0
  accessControl : Int32 := 0
  accessKey : Str := []
  dtcValidFrom : Str := []
  dtcValidUntil : Str := []
  type1Profile : Option Type1Profile := none
  type2Profile : Option Type2Profile := none
  type3Profile : Option Type3Profile := none
  isSigned : Bool := false
  isRevoked : Bool := false
  linkedPassport : Option Str := none
  creationDate : Str := []
  signatureInfo : Option SignatureInfo := none
deriving DecidableEq

/-! ## Normalisation -/

def normalizeBase64 (value : Str) : Str :=
  if Base64.decodeStandard value = none then Base64.encodeStandard (Str.bytes value) else value

/-- The decoded data groups, one after the other. -/
def dataGroupBytes (groups : List DataGroup) : Bytes :=
  (groups.filterMap (fun dg => Base64.decodeStandard dg.data)).flatten

section

variable {N : Type} (platform : Platform N)

/-- The digest of the data groups where there is none, and the issuing authority for a missing state. -/
def completeType1 (issuingAuthority : Str) (groups : List DataGroup) (t1 : Type1Profile) : Type1Profile :=
  let dgBytes := dataGroupBytes groups
  { t1 with
    sodHash :=
      if t1.sodHash = [] then
        if dgBytes ≠ [] then hexText (platform.sha256 dgBytes).bytes else t1.sodHash
      else t1.sodHash
    issuingState := if t1.issuingState = [] then issuingAuthority else t1.issuingState }

def normalizeRecord (clock : Clock) (record : DtcRecord) : DtcRecord :=
  let dataGroups := record.dataGroups.map (fun dg => { dg with data := normalizeBase64 dg.data })
  { record with
    dtcId := if record.dtcId = [] then nowIso clock.id else record.dtcId
    creationDate := if record.creationDate = [] then nowIso clock.creation else record.creationDate
    dataGroups := dataGroups
    personalDetails := { record.personalDetails with
      portrait := normalizeBase64 record.personalDetails.portrait
      signature := normalizeBase64 record.personalDetails.signature }
    type1Profile := record.type1Profile.map (completeType1 platform record.issuingAuthority dataGroups) }

end

/-! ## Writing -/

section

variable {N : Type} (platform : Platform N)

def writeOption {α : Type} (write : α → Json N) : Option α → Json N
  | none => .null
  | some a => write a

def dataGroupNames : List Str := ["dg_number".toList, "data".toList, "data_type".toList]

def DataGroup.toValue (dg : DataGroup) : Json N :=
  .obj (dataGroupNames.zip [.num (platform.ofI32 dg.dgNumber), .str dg.data, .str dg.dataType])

def type1Names : List Str :=
  ["mrz_line1".toList, "mrz_line2".toList, "sod_hash".toList, "issuing_state".toList, "passive_auth_ok".toList]

def Type1Profile.toValue (t1 : Type1Profile) : Json N :=
  .obj (type1Names.zip
    [.str t1.mrzLine1, .str t1.mrzLine2, .str t1.sodHash, .str t1.issuingState, .bool t1.passiveAuthOk])

def type2Names : List Str :=
  ["chip_auth_public_key".toList, "device_public_key".toList, "attestation_cert_hash".toList, "passive_auth_ok".toList]

def Type2Profile.toValue (t2 : Type2Profile) : Json N :=
  .obj (type2Names.zip
    [.str t2.chipAuthPublicKey, .str t2.devicePublicKey, .str t2.attestationCertHash, .bool t2.passiveAuthOk])

def type3Names : List Str :=
  ["remote_attestation_report".toList, "device_binding_id".toList, "ephemeral_public_key".toList,
    "session_id".toList, "attestation_cert_hash".toList]

def Type3Profile.toValue (t3 : Type3Profile) : Json N :=
  .obj (type3Names.zip
    [.str t3.remoteAttestationReport, .str t3.deviceBindingId, .str t3.ephemeralPublicKey, .str t3.sessionId,
      .str t3.attestationCertHash])

def signatureInfoNames : List Str :=
  ["signature_date".toList, "signer_id".toList, "signature".toList, "is_valid".toList]

def SignatureInfo.toValue (info : SignatureInfo) : Json N :=
  .obj (signatureInfoNames.zip [.str info.signatureDate, .str info.signerId, .str info.signature, .bool info.isValid])

def personalDetailsNames : List Str :=
  ["first_name".toList, "last_name".toList, "date_of_birth".toList, "gender".toList, "nationality".toList,
    "place_of_birth".toList, "portrait".toList, "signature".toList, "other_names".toList]

def PersonalDetails.toValue (details : PersonalDetails) : Json N :=
  .obj (personalDetailsNames.zip
    [.str details.firstName, .str details.lastName, .str details.dateOfBirth, .str details.gender,
      .str details.nationality, .str details.placeOfBirth, .str details.portrait, .str details.signature,
      .arr (details.otherNames.map .str)])

def recordNames : List Str :=
  ["dtc_id".toList, "passport_number".toList, "issuing_authority".toList, "issue_date".toList,
    "expiry_date".toList, "personal_details".toList, "data_groups".toList, "dtc_type".toList,
    "access_control".toList, "access_key".toList, "dtc_valid_from".toList, "dtc_valid_until".toList,
    "type1_profile".toList, "type2_profile".toList, "type3_profile".toList, "is_signed".toList,
    "is_revoked".toList, "linked_passport".toList, "creation_date".toList, "signature_info".toList]

namespace DtcRecord

/-- The values of the fields, in the order of declaration. -/
def values (record : DtcRecord) : List (Json N) :=
  [.str record.dtcId, .str record.passportNumber, .str record.issuingAuthority, .str record.issueDate,
    .str record.expiryDate, record.personalDetails.toValue, .arr (record.dataGroups.map (DataGroup.toValue platform)),
    .num (platform.ofI32 record.dtcType), .num (platform.ofI32 record.accessControl), .str record.accessKey,
    .str record.dtcValidFrom, .str record.dtcValidUntil, writeOption Type1Profile.toValue record.type1Profile,
    writeOption Type2Profile.toValue record.type2Profile, writeOption Type3Profile.toValue record.type3Profile,
    .bool record.isSigned, .bool record.isRevoked, writeOption .str record.linkedPassport, .str record.creationDate,
    writeOption SignatureInfo.toValue record.signatureInfo]

/-- `serde_json::to_value`. -/
def toValue (record : DtcRecord) : Json N := .obj (recordNames.zip (record.values platform))

end DtcRecord

end

/-! ## Reading -/

section

variable {N : Type} (platform : Platform N)

def DataGroup.read : Fields N DataGroup := do
  let dgNumber ← next (required (asNum platform.asI32))
  let data ← text
  let dataType ← text
  return { dgNumber, data, dataType }

def Type1Profile.read : Fields N Type1Profile := do
  let mrzLine1 ← text
  let mrzLine2 ← text
  let sodHash ← text
  let issuingState ← text
  let passiveAuthOk ← flag
  return { mrzLine1, mrzLine2, sodHash, issuingState, passiveAuthOk }

def Type2Profile.read : Fields N Type2Profile := do
  let chipAuthPublicKey ← text
  let devicePublicKey ← text
  let attestationCertHash ← text
  let passiveAuthOk ← flag
  return { chipAuthPublicKey, devicePublicKey, attestationCertHash, passiveAuthOk }

def Type3Profile.read : Fields N Type3Profile := do
  let remoteAttestationReport ← text
  let deviceBindingId ← text
  let ephemeralPublicKey ← text
  let sessionId ← text
  let attestationCertHash ← text
  return { remoteAttestationReport, deviceBindingId, ephemeralPublicKey, sessionId, attestationCertHash }

def SignatureInfo.read : Fields N SignatureInfo := do
  let signatureDate ← text
  let signerId ← text
  let signature ← text
  let isValid ← flag
  return { signatureDate, signerId, signature, isValid }

def PersonalDetails.read : Fields N PersonalDetails := do
  let firstName ← text
  let lastName ← text
  let dateOfBirth ← text
  let gender ← text
  let nationality ← text
  let placeOfBirth ← text
  let portrait ← text
  let signature ← text
  let otherNames ← list asStr
  return { firstName, lastName, dateOfBirth, gender, nationality, placeOfBirth, portrait, signature, otherNames }

def DataGroup.fromValue : Json N → Option DataGroup := struct dataGroupNames (DataGroup.read platform)

def Type1Profile.fromValue : Json N → Option Type1Profile := struct type1Names Type1Profile.read

def Type2Profile.fromValue : Json N → Option Type2Profile := struct type2Names Type2Profile.read

def Type3Profile.fromValue : Json N → Option Type3Profile := struct type3Names Type3Profile.read

def SignatureInfo.fromValue : Json N → Option SignatureInfo := struct signatureInfoNames SignatureInfo.read

def PersonalDetails.fromValue : Json N → Option PersonalDetails :=
  struct personalDetailsNames PersonalDetails.read

namespace DtcRecord

def read : Fields N DtcRecord := do
  let dtcId ← text
  let passportNumber ← text
  let issuingAuthority ← text
  let issueDate ← text
  let expiryDate ← text
  let personalDetails ← next (fieldOr {} PersonalDetails.fromValue)
  let dataGroups ← list (DataGroup.fromValue platform)
  let dtcType ← next (fieldOr 0 (asNum platform.asI32))
  let accessControl ← next (fieldOr 0 (asNum platform.asI32))
  let accessKey ← text
  let dtcValidFrom ← text
  let dtcValidUntil ← text
  let type1Profile ← option Type1Profile.fromValue
  let type2Profile ← option Type2Profile.fromValue
  let type3Profile ← option Type3Profile.fromValue
  let isSigned ← flag
  let isRevoked ← flag
  let linkedPassport ← option asStr
  let creationDate ← text
  let signatureInfo ← option SignatureInfo.fromValue
  return { dtcId, passportNumber, issuingAuthority, issueDate, expiryDate, personalDetails, dataGroups, dtcType,
           accessControl, accessKey, dtcValidFrom, dtcValidUntil, type1Profile, type2Profile, type3Profile, isSigned,
           isRevoked, linkedPassport, creationDate, signatureInfo }

/-- `serde_json::from_value`. -/
def fromValue : Json N → Option DtcRecord := struct recordNames (read platform)

end DtcRecord

end

/-! ## The signed bytes -/

section

variable {N : Type} (platform : Platform N)

/-- The members of every object in key order, at every depth. -/
def sortJsonObjects (v : Json N) : Json N := Governance.sortKeys v

variable (record : DtcRecord)

/-- The record without `signature_info` and `is_signed`. -/
def unsignedValue : Json N :=
  ((record.toValue platform).remove "signature_info".toList).remove "is_signed".toList

def canonicalPayload : Bytes :=
  Str.bytes (text platform.format.text (sortJsonObjects (unsignedValue platform record)))

def legacyNames : List Str :=
  ["dtc_id".toList, "passport_number".toList, "issuing_authority".toList, "issue_date".toList,
    "expiry_date".toList, "personal_details".toList, "data_groups".toList, "dtc_type".toList,
    "access_control".toList, "access_key".toList, "dtc_valid_from".toList, "dtc_valid_until".toList,
    "type1_profile".toList, "type2_profile".toList, "type3_profile".toList, "is_revoked".toList,
    "linked_passport".toList, "creation_date".toList]

/-- `LegacyUnsignedDtcRecord`. -/
def legacyValue : Json N :=
  .obj (legacyNames.zip
    [.str record.dtcId, .str record.passportNumber, .str record.issuingAuthority, .str record.issueDate,
      .str record.expiryDate, record.personalDetails.toValue, .arr (record.dataGroups.map (DataGroup.toValue platform)),
      .num (platform.ofI32 record.dtcType), .num (platform.ofI32 record.accessControl), .str record.accessKey,
      .str record.dtcValidFrom, .str record.dtcValidUntil, writeOption Type1Profile.toValue record.type1Profile,
      writeOption Type2Profile.toValue record.type2Profile, writeOption Type3Profile.toValue record.type3Profile,
      .bool record.isRevoked, writeOption .str record.linkedPassport, .str record.creationDate])

def legacyCanonicalPayload : Bytes :=
  Str.bytes (text platform.format.text (legacyValue platform record))

end

end MartyCore.Dtc
