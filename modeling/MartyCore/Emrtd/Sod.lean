import MartyCore.Chain.Model
import MartyCore.Lib.SortedMap

/-!
# `Emrtd.Sod` — the Document Security Object of a travel document

The embedding of `marty-verification/src/asn1/sod.rs` and `cms_structure.rs`: a CMS SignedData whose content is the
LDS security object (the hashes of the data groups), with the certificate of its signer embedded. Parsing and signature
verification each start from the bytes and each select the signer's certificate again.

DER and PEM, the extension decoders, hashing and signatures are foreign code and come in as a `Platform`, with the
two laws that encoders are inverted by their decoders; an error of theirs is its text. An object identifier is its
dotted text. Certificates are those of `Chain.Model`, with the serial number and the subject key, which are read on
their own here.
-/

namespace MartyCore.Emrtd

open Result
open Chain (Name Extension BasicConstraints getExtension)

/-! ## Errors -/

/-- The variants of `VerificationError` that are built here. -/
inductive VerificationError where
  | derError (reason : String)
  | internal (reason : String)
  | noTrustAnchor (details : String)
  | invalidSignature (subject reason : String)
deriving DecidableEq

def VerificationError.display : VerificationError → String
  | .derError reason => "[E601] DER encoding/decoding error: " ++ reason
  | .internal reason => "[E999] Internal error: " ++ reason
  | .noTrustAnchor details => "[E201] No valid trust anchor found for certificate chain. " ++ details
  | .invalidSignature subject reason =>
    "[E303] Certificate signature verification failed for " ++ subject ++ ": " ++ reason

/-! ## Hash algorithms -/

inductive HashAlgorithm where
  | sha1 | sha256 | sha384 | sha512
deriving DecidableEq

namespace HashAlgorithm

/-- The error is the text of the crypto error. -/
def fromOid (oid : String) : Except String HashAlgorithm :=
  if oid = "1.3.14.3.2.26" then .ok .sha1
  else if oid = "2.16.840.1.101.3.4.2.1" then .ok .sha256
  else if oid = "2.16.840.1.101.3.4.2.2" then .ok .sha384
  else if oid = "2.16.840.1.101.3.4.2.3" then .ok .sha512
  else .error ("Unsupported algorithm: Unsupported hash algorithm OID: " ++ oid)

def digestSize : HashAlgorithm → Nat
  | .sha1 => 20
  | .sha256 => 32
  | .sha384 => 48
  | .sha512 => 64

end HashAlgorithm

/-! ## ASN.1 structures -/

structure AlgorithmIdentifier where
  oid : String
  parameters : Option Bytes

/-- `x509_cert::Certificate`. -/
structure Certificate extends Chain.Certificate where
  serialNumber : Bytes
  subjectPublicKeyInfo : Bytes
deriving DecidableEq

/-- The X.509 KeyUsage value, as far as it is read here. -/
structure X509KeyUsage where
  digitalSignature : Bool
  keyCertSign : Bool
  crlSign : Bool
deriving DecidableEq

structure ContentInfo where
  contentType : String
  content : Bytes

inductive SignerIdentifier where
  | issuerAndSerialNumber (issuer : Name) (serialNumber : Bytes)
  | subjectKeyIdentifier (expected : Bytes)

/-- A CMS attribute; each value is its DER. -/
structure Attribute where
  oid : String
  values : List Bytes

structure SignerInfo where
  sid : SignerIdentifier
  digestAlg : AlgorithmIdentifier
  signedAttrs : Option (List Attribute)
  signatureAlgorithm : AlgorithmIdentifier
  signature : Bytes

inductive CertificateChoices where
  | certificate (cert : Certificate)
  | other (raw : Bytes)

structure SignedData where
  digestAlgorithms : List AlgorithmIdentifier
  /-- `encap_content_info.econtent_type` -/
  econtentType : String
  /-- `encap_content_info.econtent`, as its value octets -/
  econtent : Option Bytes
  certificates : Option (List CertificateChoices)
  signerInfos : List SignerInfo

structure Asn1DataGroupHash where
  dataGroupNumber : Nat
  dataGroupHashValue : Bytes

structure LdsVersionInfo where
  ldsVersion : String
  unicodeVersion : String

structure Asn1LdsSecurityObject where
  version : Nat
  /-- `hash_algorithm.oid` -/
  hashAlgorithm : String
  dataGroupHashValues : List Asn1DataGroupHash
  ldsVersionInfo : Option LdsVersionInfo

/-- An entry of a CRL. -/
structure RevokedCert where
  serialNumber : Bytes
  crlEntryExtensions : Option (List Extension)

/-- `x509_cert::crl::CertificateList`. `remainder` is what no function here reads on its own. Times are seconds since
    the epoch. -/
structure CertificateList where
  issuer : Name
  /-- `tbs_cert_list.signature.oid` -/
  tbsSignatureOid : String
  signatureAlgorithm : AlgorithmIdentifier
  thisUpdate : Nat
  nextUpdate : Option Nat
  revokedCertificates : Option (List RevokedCert)
  crlExtensions : Option (List Extension)
  /-- `signature.as_bytes()` -/
  signature : Option Bytes
  remainder : Bytes

/-- The foreign code. -/
structure Platform where
  displayName : Name → String
  displaySerialNumber : Bytes → String
  contentInfoFromDer : Bytes → Except String ContentInfo
  /-- `content.decode_as::<SignedData>()` -/
  signedDataDecode : Bytes → Except String SignedData
  ldsSecurityObjectFromDer : Bytes → Except String Asn1LdsSecurityObject
  certificateFromDer : Bytes → Except String Certificate
  certificateToDer : Certificate → Except String Bytes
  certificateFromDer_toDer : ∀ cert der, certificateToDer cert = .ok der → certificateFromDer der = .ok cert
  /-- `pem_rfc7468::encode_string("CERTIFICATE", LineEnding::LF, der)` -/
  pemEncode : Bytes → Except String String
  pemDecode : String → Except String (String × Bytes)
  pemDecode_encode : ∀ der pem, pemEncode der = .ok pem → pemDecode pem = .ok ("CERTIFICATE", der)
  spkiToDer : Bytes → Except String Bytes
  subjectKeyIdentifierFromDer : Bytes → Except String Bytes
  basicConstraintsFromDer : Bytes → Except String BasicConstraints
  keyUsageFromDer : Bytes → Except String X509KeyUsage
  /-- `decode_as::<ObjectIdentifier>()` -/
  oidFromDer : Bytes → Except String String
  /-- `decode_as::<OctetString>()` -/
  octetStringFromDer : Bytes → Except String Bytes
  attributesToDer : List Attribute → Except String Bytes
  hash : HashAlgorithm → Bytes → Bytes
  /-- Algorithm, key, data and signature. -/
  verifySignatureWithAlgorithmIdentifier : AlgorithmIdentifier → Bytes → Bytes → Bytes → Except String Bool
  /-- Subject, then issuer. -/
  verifyParsedCertificateSignature : Certificate → Certificate → Except String Bool
  certificateListFromDer : Bytes → Except String CertificateList
  tbsCertListToDer : CertificateList → Except String Bytes

variable (platform : Platform)

def idCeSubjectKeyIdentifier : String := "2.5.29.14"

def getSubjectKeyIdentifier (cert : Certificate) : Except String (Option Bytes) :=
  getExtension platform.subjectKeyIdentifierFromDer idCeSubjectKeyIdentifier cert.toCertificate

def getBasicConstraints (cert : Certificate) : Except String (Option BasicConstraints) :=
  getExtension platform.basicConstraintsFromDer Chain.idCeBasicConstraints cert.toCertificate

def getKeyUsage (cert : Certificate) : Except String (Option X509KeyUsage) :=
  getExtension platform.keyUsageFromDer Chain.idCeKeyUsage cert.toCertificate

/-! ## Common CMS checks -/

section

inductive DocumentKind where
  | sod
  | masterList
deriving DecidableEq

def DocumentKind.name : DocumentKind → String
  | .sod => "SOD"
  | .masterList => "Master List"

def DocumentKind.missingCertificate : DocumentKind → String
  | .sod => "No certificate matches the SOD signer identifier"
  | .masterList => "No embedded certificate matches the Master List signer"

def DocumentKind.duplicateCertificate : DocumentKind → String
  | .sod => "Multiple certificates match the SOD signer identifier"
  | .masterList => "Multiple embedded certificates match the Master List signer"

def exactlyOneSigner (signedData : SignedData) (kind : DocumentKind) : Except VerificationError SignerInfo :=
  match signedData.signerInfos with
  | [] => .error (.derError (kind.name ++ " has no signer information"))
  | [signer] => .ok signer
  | _ :: _ :: _ => .error (.derError (kind.name ++ " must contain exactly one signer"))

def signerIdMatches (cert : Certificate) : SignerIdentifier → Except VerificationError Bool
  | .issuerAndSerialNumber issuer serialNumber =>
    .ok (decide (cert.issuer = issuer ∧ cert.serialNumber = serialNumber))
  | .subjectKeyIdentifier expected => do
    let actual ← (getSubjectKeyIdentifier platform cert).mapError
      (fun e => .derError ("Invalid signer SubjectKeyIdentifier extension: " ++ e))
    .ok (decide (actual = some expected))

/-- The loop of `find_signer_certificate`. -/
def searchSigner (signerId : SignerIdentifier) (kind : DocumentKind) :
    List CertificateChoices → Option Certificate → Except VerificationError (Option Certificate)
  | [], found => .ok found
  | .other _ :: rest, found => searchSigner signerId kind rest found
  | .certificate cert :: rest, found => do
    if ← signerIdMatches platform cert signerId then
      match found with
      | some _ => .error (.derError kind.duplicateCertificate)
      | none => searchSigner signerId kind rest (some cert)
    else searchSigner signerId kind rest found

def findSignerCertificate (certs : List CertificateChoices) (signerId : SignerIdentifier) (kind : DocumentKind) :
    Except VerificationError Certificate := do
  let found ← searchSigner platform signerId kind certs none
  orFail (.derError kind.missingCertificate) found

def singleSignedAttributeValue (attributes : List Attribute) (oid : String) : Except VerificationError Bytes :=
  match attributes.filter (fun attr => attr.oid == oid) with
  | [] => .error (.derError ("Missing required CMS signed attribute " ++ oid))
  | _ :: _ :: _ => .error (.derError ("Duplicate CMS signed attribute " ++ oid))
  | [attr] =>
    match attr.values with
    | [] => .error (.derError ("CMS signed attribute " ++ oid ++ " has no value"))
    | [value] => .ok value
    | _ :: _ :: _ => .error (.derError ("CMS signed attribute " ++ oid ++ " has multiple values"))

end

/-! ## The LDS security object -/

section

def idIcaoLdsSecurityObject : String := "2.23.136.1.1.1"
def idSignedData : String := "1.2.840.113549.1.7.2"
def idContentType : String := "1.2.840.113549.1.9.3"
def idMessageDigest : String := "1.2.840.113549.1.9.4"

/-- `hash_value` is the hexadecimal text of `hash_bytes`, and is not read. -/
structure DataGroupHash where
  dataGroupNumber : Nat
  hashBytes : Bytes
deriving DecidableEq

structure LdsSecurityObject where
  version : Nat
  hashAlgorithm : String
  dataGroupHashes : List DataGroupHash
  ldsVersionInfo : Option LdsVersionInfo

/-- The loop over the data-group hashes; `seen` are the numbers so far. -/
def parseDataGroupHashes (hashAlgorithm : String) (expectedHashLen : Nat) :
    List Asn1DataGroupHash → List Nat → Except VerificationError (List DataGroupHash)
  | [], _ => .ok []
  | entry :: rest, seen => do
    reject (¬ (1 ≤ entry.dataGroupNumber ∧ entry.dataGroupNumber ≤ 16))
      (.derError ("Invalid data-group number: " ++ toString entry.dataGroupNumber))
    reject (entry.dataGroupNumber ∈ seen)
      (.derError ("Duplicate data-group hash for DG" ++ toString entry.dataGroupNumber))
    reject (entry.dataGroupHashValue.length ≠ expectedHashLen)
      (.derError ("DG" ++ toString entry.dataGroupNumber ++ " hash length "
        ++ toString entry.dataGroupHashValue.length ++ " does not match algorithm " ++ hashAlgorithm))
    let parsed ← parseDataGroupHashes hashAlgorithm expectedHashLen rest (entry.dataGroupNumber :: seen)
    .ok (⟨entry.dataGroupNumber, entry.dataGroupHashValue⟩ :: parsed)

def parseLdsSecurityObject (derBytes : Bytes) : Except VerificationError LdsSecurityObject := do
  let parsed ← (platform.ldsSecurityObjectFromDer derBytes).mapError
    (fun e => .derError ("Invalid LDSSecurityObject ASN.1: " ++ e))
  reject (parsed.version > 1)
    (.derError ("Unsupported LDSSecurityObject version: " ++ toString parsed.version))
  reject (parsed.version = 1 ∧ parsed.ldsVersionInfo.isNone = true)
    (.derError "LDSSecurityObject version 1 is missing LDSVersionInfo")
  reject (parsed.dataGroupHashValues.isEmpty = true)
    (.derError "LDSSecurityObject contains no data-group hashes")
  let algorithm ← (HashAlgorithm.fromOid parsed.hashAlgorithm).mapError .internal
  let dataGroupHashes ← parseDataGroupHashes parsed.hashAlgorithm algorithm.digestSize parsed.dataGroupHashValues []
  .ok ⟨parsed.version, parsed.hashAlgorithm, dataGroupHashes, parsed.ldsVersionInfo⟩

def extractLdsSecurityObject (signedData : SignedData) : Except VerificationError LdsSecurityObject := do
  reject (signedData.econtentType ≠ idIcaoLdsSecurityObject)
    (.derError ("Unexpected SOD encapsulated content type: " ++ signedData.econtentType))
  let content ← orFail (.derError "SOD has no encapsulated content") signedData.econtent
  parseLdsSecurityObject platform content

end

/-! ## Parsing and signature verification -/

section

structure DocumentSecurityObject where
  ldsVersion : String
  hashAlgorithm : String
  dataGroupHashes : List DataGroupHash
  /-- PEM -/
  documentSignerCert : Option String

def extractDocumentSignerCert (signedData : SignedData) : Except VerificationError (Option String) :=
  match signedData.certificates with
  | none => .ok none
  | some certs => do
    let signerInfo ← exactlyOneSigner signedData .sod
    let cert ← findSignerCertificate platform certs signerInfo.sid .sod
    let der ← (platform.certificateToDer cert).mapError
      (fun e => .internal ("Failed to encode signer certificate: " ++ e))
    let pem ← (platform.pemEncode der).mapError (fun e => .internal ("Failed to PEM encode: " ++ e))
    .ok (some pem)

def parseSod (derBytes : Bytes) : Except VerificationError DocumentSecurityObject := do
  let contentInfo ← (platform.contentInfoFromDer derBytes).mapError
    (fun e => .derError ("Failed to parse SOD ContentInfo: " ++ e))
  reject (contentInfo.contentType ≠ idSignedData)
    (.derError ("Expected SignedData, got ObjectIdentifier(" ++ contentInfo.contentType ++ ")"))
  let signedData ← (platform.signedDataDecode contentInfo.content).mapError
    (fun e => .derError ("Failed to parse SOD SignedData: " ++ e))
  let ldsSo ← extractLdsSecurityObject platform signedData
  let dscPem ← extractDocumentSignerCert platform signedData
  .ok
    { ldsVersion := (ldsSo.ldsVersionInfo.map LdsVersionInfo.ldsVersion).getD "0107"
      hashAlgorithm := ldsSo.hashAlgorithm
      dataGroupHashes := ldsSo.dataGroupHashes
      documentSignerCert := dscPem }

/-- The bytes that the signature is over; `none` where the attributes do not match the content. -/
def dataToVerify (signedData : SignedData) (signerInfo : SignerInfo) (content : Bytes)
    (digestAlgorithm : HashAlgorithm) : Except VerificationError (Option Bytes) :=
  match signerInfo.signedAttrs with
  | none => .ok (some content)
  | some signedAttrs => do
    let contentTypeAttr ← singleSignedAttributeValue signedAttrs idContentType
    let contentTypeValue ← (platform.oidFromDer contentTypeAttr).mapError
      (fun e => .derError ("Invalid contentType attribute: " ++ e))
    if contentTypeValue ≠ signedData.econtentType then .ok none
    else do
      let digestAttr ← singleSignedAttributeValue signedAttrs idMessageDigest
      let messageDigest ← (platform.octetStringFromDer digestAttr).mapError
        (fun e => .derError ("Invalid messageDigest attribute: " ++ e))
      if platform.hash digestAlgorithm content ≠ messageDigest then .ok none
      else do
        let der ← (platform.attributesToDer signedAttrs).mapError
          (fun e => .internal ("Failed to encode signed attributes: " ++ e))
        .ok (some der)

def verifySodSignature (sodDer : Bytes) : Except VerificationError Bool := do
  let contentInfo ← (platform.contentInfoFromDer sodDer).mapError (fun e => .derError ("Failed to parse SOD: " ++ e))
  let signedData ← (platform.signedDataDecode contentInfo.content).mapError
    (fun e => .derError ("Failed to parse SignedData: " ++ e))
  let certs ← orFail (.derError "SOD has no certificates") signedData.certificates
  let signerInfo ← exactlyOneSigner signedData .sod
  let dsc ← findSignerCertificate platform certs signerInfo.sid .sod
  let publicKeyDer ← (platform.spkiToDer dsc.subjectPublicKeyInfo).mapError
    (fun e => .internal ("Failed to encode SPKI: " ++ e))
  let content ← orFail (.derError "SOD has no content") signedData.econtent
  reject (signerInfo.digestAlg.oid ∉ signedData.digestAlgorithms.map AlgorithmIdentifier.oid)
    (.derError "Signer digest algorithm is absent from SignedData digestAlgorithms")
  let digestAlgorithm ← (HashAlgorithm.fromOid signerInfo.digestAlg.oid).mapError .internal
  let data ← dataToVerify platform signedData signerInfo content digestAlgorithm
  match data with
  | none => .ok false
  | some data =>
    (platform.verifySignatureWithAlgorithmIdentifier signerInfo.signatureAlgorithm publicKeyDer data
      signerInfo.signature).mapError .internal

end

end MartyCore.Emrtd
