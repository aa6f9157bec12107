import MartyCore.Lib.Calendar
import MartyCore.Lib.JsonShape

/-!
# `VdsNc.Model` — the document profile of visible digital seals

The embedding of `marty-oid4vci/src/formats/vds_nc_profile.rs`: the tables of fields, the normalisation of a document
(`canonicalize_document`), the payload an issuer signs (`build_profile_payload`) and the parser of a barcode
(`parse_barcode`, `validate_signing_input`).

A `Map` is the list of its members; the source's maps are sorted by key or keep the order of insertion, depending on a
feature of the JSON library that any crate of the build may turn on, so the order is a parameter (`Json.MapOrder`). A
`HashMap` is the list of its members in the order it is iterated, and a `BTreeMap` is a `SortedMap`. The JSON parser, the
tables of Unicode, the calendar and the type of numbers are parameters (`Platform`); `Json.text` is the serialiser.
-/

namespace MartyCore.VdsNc

open Result SortedMap

/-! ## Parameters -/

structure Platform (N : Type) where
  unicode : Str.StableCaseMapping
  format : Json.NumberFormat N
  /-- `PartialEq` of numbers. -/
  sameNumber : N → N → Bool
  sameNumber_refl : ∀ n, sameNumber n n = true
  /-- The numbers that are integers, and those that fit an `i64`. -/
  IsInteger : N → Prop
  asI64 : N → Option Int
  ofI64 : Int → N
  asI64_ofI64 : ∀ n, - 2 ^ 63 ≤ n → n < 2 ^ 63 → asI64 (ofI64 n) = some n
  asI64_range : ∀ x n, asI64 x = some n → - 2 ^ 63 ≤ n ∧ n < 2 ^ 63
  isInteger_ofI64 : ∀ n, IsInteger (ofI64 n)
  /-- `NaiveDate::parse_from_str(_, "%Y%m%d")` succeeds. -/
  isDate : Str → Bool
  mapOrder : Json.MapOrder
  /-- `serde_json::from_str`. It reads back what was written from a value with integers only, up to its limit on
      nesting. -/
  parse : Str → Except String (Json N)
  parse_text : ∀ v : Json N, mapOrder.Holds v → v.Bounded (fun _ => True) IsInteger 127 →
    parse (Json.text format.text v) = .ok v
  /-- The text of the error for a value that is not of a struct's form. -/
  metadataError : Json N → String

/-! ## Errors -/

inductive Oid4vciError where
  | configError (message : String)
deriving DecidableEq

def profileError (message : String) : Oid4vciError := .configError ("VDS_NC.INVALID_PROFILE: " ++ message)

/-! ## Document types and their fields -/

inductive DocumentType where
  | cmc | mrv | eVisa
deriving DecidableEq

namespace DocumentType

def asStr : DocumentType → String
  | .cmc => "CMC"
  | .mrv => "MRV"
  | .eVisa => "EVISA"

/-- `to_ascii_uppercase`. -/
def toAsciiUppercase (s : Str) : Str := s.map Char.toUpper

def parse (value : Str) : Except Oid4vciError DocumentType :=
  let name := toAsciiUppercase value.trim
  if name = "CMC".toList then .ok .cmc
  else if name = "MRV".toList ∨ name = "V".toList then .ok .mrv
  else if name = "EVISA".toList ∨ name = "E_VISA".toList ∨ name = "E-VISA".toList then .ok .eVisa
  else .error (profileError ("unsupported document type '" ++ String.ofList name ++ "'; supported: CMC, MRV, EVISA"))

end DocumentType

inductive FieldKind where
  | text | integer | json
deriving DecidableEq

inductive Pattern where
  | none | date | gender | country
deriving DecidableEq

structure FieldSpec where
  key : String
  required : Bool
  kind : FieldKind
  maxChars : Option Nat
  pattern : Pattern

def text (key : String) (required : Bool) (maxChars : Nat) (pattern : Pattern) : FieldSpec :=
  ⟨key, required, .text, some maxChars, pattern⟩

def integer (key : String) (required : Bool) : FieldSpec := ⟨key, required, .integer, none, .none⟩

def jsonField (key : String) (required : Bool) : FieldSpec := ⟨key, required, .json, none, .none⟩

def cmcFields : List FieldSpec :=
  [text "docType" true 3 .none,
   text "issuingCountry" true 3 .country,
   text "documentNumber" true 9 .none,
   text "surname" true 39 .none,
   text "givenNames" true 39 .none,
   text "dateOfBirth" true 8 .date,
   text "nationality" true 3 .country,
   text "gender" true 1 .gender,
   text "dateOfIssue" true 8 .date,
   text "dateOfExpiry" true 8 .date,
   text "issuingAuthority" false 50 .none,
   text "placeOfIssue" false 50 .none]

def mrvFields : List FieldSpec :=
  [text "docType" true 3 .none,
   text "issuingCountry" true 3 .country,
   text "documentNumber" true 9 .none,
   text "surname" true 39 .none,
   text "givenNames" true 39 .none,
   text "dateOfBirth" true 8 .date,
   text "nationality" true 3 .country,
   text "gender" true 1 .gender,
   text "visaCategory" true 10 .none,
   text "dateOfIssue" true 8 .date,
   text "dateOfExpiry" true 8 .date,
   text "validFrom" false 8 .date,
   text "validUntil" false 8 .date,
   text "numberOfEntries" false 10 .none,
   integer "durationOfStay" false,
   text "placeOfIssue" false 50 .none]

def eVisaFields : List FieldSpec :=
  [text "docType" true 10 .none,
   text "issuingCountry" true 3 .country,
   text "documentNumber" true 20 .none,
   text "surname" true 39 .none,
   text "givenNames" true 39 .none,
   text "dateOfBirth" true 8 .date,
   text "nationality" true 3 .country,
   text "gender" true 1 .gender,
   text "visaCategory" true 10 .none,
   text "dateOfIssue" true 8 .date,
   text "dateOfExpiry" true 8 .date,
   text "validFrom" false 8 .date,
   text "validUntil" false 8 .date,
   text "numberOfEntries" false 10 .none,
   text "purposeOfTravel" false 50 .none,
   text "placeOfIssue" false 50 .none,
   text "passportNumber" false 20 .none,
   text "passportCountry" false 3 .country,
   text "onlineReference" false 50 .none,
   integer "issuedAt" false,
   jsonField "policyConstraints" false]

def fields : DocumentType → List FieldSpec
  | .cmc => cmcFields
  | .mrv => mrvFields
  | .eVisa => eVisaFields

/-! ## Normalisation -/

/-- The characters that no text of an envelope may contain. -/
def isForbidden (c : Char) : Bool := c = '~' || Str.isControl c

def validateEnvelopeText (field : String) (value : Str) (maxChars : Nat) : Except Oid4vciError Str := do
  let normalized := value.trim
  reject (normalized = []) (profileError (field ++ " must not be empty"))
  reject (maxChars < normalized.length)
    (profileError (field ++ " exceeds maximum length " ++ toString maxChars))
  reject (normalized.any isForbidden = true)
    (profileError (field ++ " must not contain the envelope delimiter or control characters"))
  return normalized

section

variable {N : Type} (platform : Platform N) (spec : FieldSpec)

/-- The scalar as text. -/
def rawText : Json N → Except Oid4vciError Str
  | .str value => .ok value
  | .num value => .ok (platform.format.text value)
  | .bool value => .ok (if value then "true".toList else "false".toList)
  | _ => .error (profileError ("field '" ++ spec.key ++ "' must be a scalar string"))

def isAsciiUppercase (c : Char) : Bool := c.isUpper

def checkPattern (normalized : Str) : Except Oid4vciError Unit :=
  match spec.pattern with
  | .none => .ok ()
  | .date => do
    reject (normalized.len ≠ 8 ∨ normalized.all Char.isDigit = false)
      (profileError ("field '" ++ spec.key ++ "' must use YYYYMMDD"))
    reject (platform.isDate normalized = false)
      (profileError ("field '" ++ spec.key ++ "' is not a valid date"))
  | .gender =>
    reject (normalized ∉ ["M".toList, "F".toList, "X".toList])
      (profileError "field 'gender' must be M, F, or X")
  | .country =>
    reject (normalized.len ≠ 3 ∨ normalized.all isAsciiUppercase = false)
      (profileError ("field '" ++ spec.key ++ "' must contain three uppercase ASCII letters"))

def checkLength (normalized : Str) : Except Oid4vciError Unit :=
  match spec.maxChars with
  | some maxChars =>
    reject (maxChars < normalized.length)
      (profileError ("field '" ++ spec.key ++ "' exceeds maximum length " ++ toString maxChars))
  | none => .ok ()

/-- The checks on the normalised text. -/
def checkText (normalized : Str) : Except Oid4vciError Unit := do
  reject (normalized.any isForbidden = true)
    (profileError ("field '" ++ spec.key ++ "' must not contain the envelope delimiter or control characters"))
  checkLength spec normalized
  checkPattern platform spec normalized

def normalizeText (value : Json N) : Except Oid4vciError Str := do
  let raw ← rawText platform spec value
  let normalized := Str.toUppercase platform.unicode.toCaseMapping raw.trim
  checkText platform spec normalized
  return normalized

def normalizeInteger (value : Json N) : Except Oid4vciError Int :=
  let error := profileError ("field '" ++ spec.key ++ "' must be an integer")
  match value with
  | .num number => orFail error (platform.asI64 number)
  | .str value => orFail error (Str.parseSigned 64 value.trim)
  | _ => .error error

def checkDepth (field : String) (depth : Nat) : Except Oid4vciError Unit :=
  reject (16 < depth) (profileError ("field '" ++ field ++ "' exceeds maximum JSON depth"))

/-- An empty key, a long one, or one with a forbidden character. -/
def isInvalidKey (key : Str) : Prop := key = [] ∨ 64 < key.length ∨ key.any isForbidden = true

instance (key : Str) : Decidable (isInvalidKey key) := inferInstanceAs (Decidable (_ ∨ _ ∨ _))

mutual

def normalizeJson (field : String) (depth : Nat) : Json N → Except Oid4vciError (Json N)
  | .null => do
    checkDepth field depth
    return .null
  | .bool b => do
    checkDepth field depth
    return .bool b
  | .num n => do
    checkDepth field depth
    return .num n
  | .str text => do
    checkDepth field depth
    reject (text.any isForbidden = true)
      (profileError ("field '" ++ field ++ "' must not contain the envelope delimiter or control characters"))
    reject (512 < text.length)
      (profileError ("field '" ++ field ++ "' contains a string longer than 512 characters"))
    return .str text
  | .arr values => do
    checkDepth field depth
    reject (128 < values.length)
      (profileError ("field '" ++ field ++ "' contains more than 128 array entries"))
    let values ← normalizeValues field (depth + 1) values
    return .arr values
  | .obj members => do
    checkDepth field depth
    reject (128 < members.length)
      (profileError ("field '" ++ field ++ "' contains more than 128 object entries"))
    let canonical ← normalizeMembers field (depth + 1) members
    return .obj (Json.sortedMap canonical).entries

def normalizeValues (field : String) (depth : Nat) : List (Json N) → Except Oid4vciError (List (Json N))
  | [] => .ok []
  | v :: rest => do
    let v ← normalizeJson field depth v
    let rest ← normalizeValues field depth rest
    return v :: rest

/-- The members with their values normalised, in the order they are inserted. -/
def normalizeMembers (field : String) (depth : Nat) : List (Str × Json N) → Except Oid4vciError (List (Str × Json N))
  | [] => .ok []
  | (key, v) :: rest => do
    reject (isInvalidKey key) (profileError ("field '" ++ field ++ "' contains an invalid object key"))
    let v ← normalizeJson field depth v
    let rest ← normalizeMembers field depth rest
    return (key, v) :: rest

end

def normalizeField (value : Json N) : Except Oid4vciError (Json N) :=
  match spec.kind with
  | .text => do
    let normalized ← normalizeText platform spec value
    return .str normalized
  | .integer => do
    let n ← normalizeInteger platform spec value
    return .num (platform.ofI64 n)
  | .json => normalizeJson spec.key 0 value

/-- The loop over the fields of the profile: the members it inserts. -/
def canonicalMembers (input : List (Str × Json N)) : List FieldSpec → Except Oid4vciError (List (Str × Json N))
  | [] => .ok []
  | spec :: rest =>
    match lookup spec.key.toList input with
    | none => do
      reject (spec.required = true) (profileError ("required field '" ++ spec.key ++ "' is missing"))
      canonicalMembers input rest
    | some value => do
      let normalized ← normalizeField platform spec value
      let members ← canonicalMembers input rest
      return (spec.key.toList, normalized) :: members

/-- The keys that are not fields of the profile. -/
def extraKeys (allowed : List FieldSpec) (input : List (Str × Json N)) : List Str :=
  (input.map Prod.fst).filter (fun key => key ∉ allowed.map (fun spec => spec.key.toList))

def canonicalizeDocument (documentType : DocumentType) (input : List (Str × Json N)) :
    Except Oid4vciError (SortedMap Str (Json N)) := do
  let members ← canonicalMembers platform input (fields documentType)
  let canonical := Json.sortedMap members
  let extra := extraKeys (fields documentType) input
  reject (extra ≠ [])
    (profileError ("extra fields are not allowed: " ++ ", ".intercalate (extra.map String.ofList)))
  let actualType ← orFail (profileError "docType is missing")
    ((canonical.get? "docType".toList).bind Json.asStr)
  let parsed ← DocumentType.parse actualType
  reject (parsed ≠ documentType) (profileError "docType does not match the requested profile")
  return canonical

end

/-! ## Metadata -/

structure Metadata where
  version : Str
  documentType : Str
  issuerId : Str
  keyId : Str
  certificateReference : Option Str
  algorithm : Str
deriving DecidableEq

def metadataNames : List Str :=
  ["version".toList, "documentType".toList, "issuerId".toList, "keyId".toList, "certificateReference".toList,
    "algorithm".toList]

namespace Metadata

variable {N : Type}

/-- The members in the order of declaration; an absent reference is not written. -/
def members (metadata : Metadata) : List (Str × Json N) :=
  [("version".toList, .str metadata.version), ("documentType".toList, .str metadata.documentType),
    ("issuerId".toList, .str metadata.issuerId), ("keyId".toList, .str metadata.keyId)] ++
  metadata.certificateReference.toList.map (fun reference => ("certificateReference".toList, .str reference)) ++
  [("algorithm".toList, .str metadata.algorithm)]

/-- `serde_json::to_value`. -/
def toValue (order : Json.MapOrder) (metadata : Metadata) : Json N := .obj (order.arrange metadata.members)

def read : Json.Fields N Metadata := do
  let version ← Json.Fields.next (Json.required Json.asStr)
  let documentType ← Json.Fields.next (Json.required Json.asStr)
  let issuerId ← Json.Fields.next (Json.required Json.asStr)
  let keyId ← Json.Fields.next (Json.required Json.asStr)
  let certificateReference ← Json.Fields.option Json.asStr
  let algorithm ← Json.Fields.next (Json.required Json.asStr)
  return { version, documentType, issuerId, keyId, certificateReference, algorithm }

/-- Unknown members are refused. -/
def fromValue (v : Json N) : Option Metadata :=
  match v with
  | .obj members =>
    if members.all (fun m => decide (m.1 ∈ metadataNames)) = true then Json.struct metadataNames read (.obj members)
    else none
  | v => Json.struct metadataNames read v

end Metadata

def isSupportedAlgorithm (algorithm : Str) : Bool :=
  algorithm ∈ ["ES256".toList, "ES384".toList, "EdDSA".toList, "PS256".toList, "PS384".toList, "PS512".toList]

/-! ## Issuing -/

section

variable {N : Type} (platform : Platform N)

def maxBarcodeBytes : Nat := 64 * 1024

def maxPayloadBytes : Nat := 48 * 1024

/-- Insertion under a key that is not there. -/
def insertNew (key : String) (value : Json N) (input : List (Str × Json N)) : List (Str × Json N) :=
  platform.mapOrder.arrange (input ++ [(key.toList, value)])

/-- The value under a key, and the map without it. -/
def take (key : String) (input : List (Str × Json N)) : Option (Json N) × List (Str × Json N) :=
  (lookup key.toList input, platform.mapOrder.remove key.toList input)

def withDocumentType (documentType : DocumentType) (input : List (Str × Json N)) : List (Str × Json N) :=
  if (lookup "docType".toList input).isSome then input
  else insertNew platform "docType" (.str documentType.asStr.toList) input

/-- The first alias that is there becomes the issuing country. -/
def renameAlias (input : List (Str × Json N)) : List String → List (Str × Json N)
  | [] => input
  | name :: rest =>
    match take platform name input with
    | (some value, others) => insertNew platform "issuingCountry" value others
    | (none, _) => renameAlias input rest

def withCountry (input : List (Str × Json N)) : List (Str × Json N) :=
  if (lookup "issuingCountry".toList input).isSome then input
  else renameAlias platform input ["issuing_country", "issuer_country", "country_code"]

def signerIdentity (issuerId : Str) : Option (Json N) → Except Oid4vciError Str
  | some (.str value) => validateEnvelopeText "signerId" value 512
  | some _ => .error (profileError "signerId must be a non-empty string")
  | none => validateEnvelopeText "issuer_id" issuerId 512

def readCertificateReference : Option (Json N) → Except Oid4vciError (Option Str)
  | some (.str value) => (validateEnvelopeText "certificateReference" value 16).map some
  | some _ =>
    .error (profileError "certificateReference must be a non-empty string of at most 16 characters")
  | none => .ok none

/-- What is signed, before it is written. -/
structure Profile (N : Type) where
  documentType : DocumentType
  document : SortedMap Str (Json N)
  metadata : Metadata

def buildProfile (claims : List (Str × Json N)) (credentialType issuerId keyId algorithm : Str) :
    Except Oid4vciError (Profile N) := do
  reject (isSupportedAlgorithm algorithm = false)
    (profileError ("unsupported signature algorithm '" ++ String.ofList algorithm ++ "'"))
  let input := platform.mapOrder.arrange claims
  let documentTypeValue := ((lookup "docType".toList input).bind Json.asStr).getD credentialType
  let documentType ← DocumentType.parse documentTypeValue
  let input := withCountry platform (withDocumentType platform documentType input)
  let (signer, input) := take platform "signerId" input
  let signerId ← signerIdentity issuerId signer
  let (reference, input) := take platform "certificateReference" input
  let certificateReference ← readCertificateReference reference
  let document ← canonicalizeDocument platform documentType input
  let keyId ← validateEnvelopeText "key_id" keyId 512
  return {
    documentType := documentType
    document := document
    metadata := ⟨"1.0".toList, documentType.asStr.toList, signerId, keyId, certificateReference, algorithm⟩ }

/-- The document with its metadata. -/
def Profile.canonical (profile : Profile N) : SortedMap Str (Json N) :=
  profile.document.insert "_vds".toList (profile.metadata.toValue platform.mapOrder)

def Profile.payload (profile : Profile N) : Json N := .obj (profile.canonical platform).entries

def buildProfilePayload (claims : List (Str × Json N)) (credentialType issuerId keyId algorithm : Str) :
    Exec Oid4vciError (Str × DocumentType × Str) := do
  let profile ← ((buildProfile platform claims credentialType issuerId keyId algorithm).mapError Fault.err :
    Exec Oid4vciError (Profile N))
  let payloadJson := Json.text platform.format.text (profile.payload platform)
  Exec.reject (maxPayloadBytes < payloadJson.len)
    (profileError ("payload exceeds " ++ toString maxPayloadBytes ++ " bytes"))
  let country ← Exec.expect "validated issuingCountry"
    (((profile.canonical platform).get? "issuingCountry".toList).bind Json.asStr)
  return (payloadJson, profile.documentType, country)

end

/-! ## Parsing -/

section

variable {N : Type} (platform : Platform N)

structure ParsedVdsNc (N : Type) where
  header : Str
  country : Str
  payloadJson : Str
  payload : Json N
  signatureB64 : Str
  signingInput : Str
  metadata : Metadata

/-- The slice behind the fourth byte is on a character boundary, since the text begins with four ASCII letters. -/
def parseHeader (header : Str) : Except Oid4vciError Str := do
  reject (header.len ≠ 7 ∨ ¬ "DC03".toList.isPrefixOf header = true)
    (profileError "header must be exactly DC03 followed by a 3-letter country code")
  let country := header.drop 4
  reject (country.all isAsciiUppercase = false)
    (profileError "header country code must contain three uppercase ASCII letters")
  return country

/-- `validate_envelope_text(field, text, max)? != text`. -/
def checkCanonicalText (field : String) (text : Str) (maxChars : Nat) : Except Oid4vciError Unit := do
  let normalized ← validateEnvelopeText field text maxChars
  reject (normalized ≠ text) (profileError (field ++ " is not canonical"))

def checkReference : Option Str → Except Oid4vciError Unit
  | some reference => checkCanonicalText "_vds certificateReference" reference 16
  | none => .ok ()

def validateMetadata (metadata : Metadata) : Except Oid4vciError DocumentType := do
  reject (metadata.version ≠ "1.0".toList) (profileError "unsupported _vds profile version")
  let documentType ← DocumentType.parse metadata.documentType
  reject (metadata.documentType ≠ documentType.asStr.toList)
    (profileError "_vds documentType must use its canonical profile name")
  checkCanonicalText "_vds issuerId" metadata.issuerId 512
  checkCanonicalText "_vds keyId" metadata.keyId 512
  checkReference metadata.certificateReference
  reject (isSupportedAlgorithm metadata.algorithm = false)
    (profileError ("unsupported signature algorithm '" ++ String.ofList metadata.algorithm ++ "'"))
  return documentType

def validatePayload (payloadJson country : Str) : Except Oid4vciError (Json N × Metadata) := do
  reject (maxPayloadBytes < payloadJson.len)
    (profileError ("payload exceeds " ++ toString maxPayloadBytes ++ " bytes"))
  let payload ← (platform.parse payloadJson).mapError (fun error =>
    profileError ("payload is not valid JSON: " ++ error))
  match payload with
  | .obj object =>
    reject (Json.text platform.format.text payload ≠ payloadJson)
      (profileError "payload is not in canonical JSON form")
    let vds ← orFail (profileError "payload is missing _vds metadata")
      (lookup "_vds".toList object)
    let metadata ← orFail (profileError ("invalid _vds metadata: " ++ platform.metadataError vds))
      (Metadata.fromValue vds)
    let documentType ← validateMetadata metadata
    let document := platform.mapOrder.remove "_vds".toList object
    let canonical ← canonicalizeDocument platform documentType document
    reject (Json.same platform.sameNumber (.obj canonical.entries) (.obj document) = false)
      (profileError "payload document fields are not canonical")
    reject ((lookup "issuingCountry".toList object).bind Json.asStr ≠ some country)
      (profileError "header country does not match payload issuingCountry")
    return (payload, metadata)
  | _ => .error (profileError "payload must be a JSON object")

def parseBarcode (barcode : Str) : Except Oid4vciError (ParsedVdsNc N) := do
  reject (barcode = [] ∨ maxBarcodeBytes < barcode.len ∨ Char.ofNat 0 ∈ barcode)
    (profileError ("barcode must contain 1..=" ++ toString maxBarcodeBytes ++ " bytes and no NUL"))
  let parts := barcode.splitOn '~'
  let header := parts.getD 0 []
  let payloadJson := parts.getD 1 []
  let signatureB64 := parts.getD 2 []
  reject (header = [] ∨ payloadJson = [] ∨ signatureB64 = [] ∨ 3 < parts.length)
    (profileError "barcode must contain exactly three non-empty tilde-separated segments")
  let country ← parseHeader header
  let (payload, metadata) ← validatePayload platform payloadJson country
  return ⟨header, country, payloadJson, payload, signatureB64, header ++ '~' :: payloadJson, metadata⟩

def validateSigningInput (signingInput : Str) : Except Oid4vciError (Str × Str) := do
  let parts := signingInput.splitOn '~'
  let header := parts.getD 0 []
  let payload := parts.getD 1 []
  reject (header = [] ∨ payload = [] ∨ 2 < parts.length)
    (profileError "signing input must contain exactly header~payload")
  let country ← parseHeader header
  let _ ← validatePayload platform payload country
  return (header, payload)

end

end MartyCore.VdsNc
