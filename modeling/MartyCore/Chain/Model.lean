import Mathlib.Data.String.Basic
import MartyCore.Lib.Bytes
import MartyCore.Lib.Exec

/-!
# `Chain.Model` — X.509 certificate chain validation

The embedding of `marty-verification/src/verification/chain.rs`: `ChainValidator::validate_parsed_chain` and
everything it calls. Each check returns `Result<(), String>` in the source and cannot panic, so it is an
`Except String` here; the one panic is `chain[0]` on an empty chain. The verdict is a fold: every check that
fails appends its message and clears `valid`, revocation findings first pass through the mode.

DER, the extension decoders, signature verification and the CRL and OCSP validators are foreign code and come
in as a `Platform`; an error of theirs is its text. Instants are nanoseconds since the epoch, and `Utc::now` is
a parameter. An object identifier is its dotted text, which is what the source compares.
-/

namespace MartyCore.Chain

open Result

/-- A distinguished name, as its DER. -/
abbrev Name := Bytes

structure Extension where
  extnId : String
  critical : Bool
  extnValue : Bytes
deriving DecidableEq

/-- `x509_cert::Certificate`. `remainder` is what no function here reads on its own: version, serial number,
    subject key, unique identifiers, algorithm parameters and the signature. -/
structure Certificate where
  subject : Name
  issuer : Name
  notBefore : Int
  notAfter : Int
  /-- `tbs_certificate.signature.oid` -/
  tbsSignatureOid : String
  /-- `signature_algorithm.oid` -/
  signatureAlgorithmOid : String
  extensions : Option (List Extension)
  remainder : Bytes
deriving DecidableEq

structure BasicConstraints where
  ca : Bool
  pathLenConstraint : Option Nat
deriving DecidableEq

/-- The X.509 KeyUsage value, as far as it is read here. -/
structure X509KeyUsage where
  keyCertSign : Bool
deriving DecidableEq

inductive OcspCertStatus where
  | good | revoked | unknown
deriving DecidableEq

/-- The foreign code. -/
structure Platform where
  displayName : Name → String
  toDer : Certificate → Except String Bytes
  basicConstraintsFromDer : Bytes → Except String BasicConstraints
  keyUsageFromDer : Bytes → Except String X509KeyUsage
  bitStringFromDer : Bytes → Except String Bytes
  /-- Subject, then issuer. -/
  verifyParsedCertificateSignature : Certificate → Certificate → Except String Bool
  /-- CRL, certificate and issuer; the result is `status.revoked`. -/
  validateCrlForCertificate : Bytes → Bytes → Bytes → Except String Bool
  /-- Response, certificate and issuer; the result is `response.cert_status`. -/
  validateOcspResponse : Bytes → Bytes → Bytes → Except String OcspCertStatus

/-! ## Configuration and result -/

inductive KeyUsage where
  | digitalSignature | nonRepudiation | keyEncipherment | dataEncipherment | keyAgreement | keyCertSign
  | crlSign | encipherOnly | decipherOnly
deriving DecidableEq

structure ChainValidatorConfig where
  checkCrl : Bool
  checkOcsp : Bool
  revocationMode : String
  validationMoment : Option Int
  requiredKeyUsage : List KeyUsage

structure ChainValidator where
  trustAnchors : List Certificate
  intermediates : List Certificate
  config : ChainValidatorConfig
  crls : List Bytes
  ocspResponses : List Bytes

structure ChainValidationResult where
  valid : Bool
  subject : Option String
  issuer : Option String
  chainDepth : Nat
  errors : List String
  warnings : List String
deriving DecidableEq

namespace ChainValidationResult

/-- `result.valid = false; result.errors.push(message)`. -/
def pushError (result : ChainValidationResult) (message : String) : ChainValidationResult :=
  { result with valid := false, errors := result.errors ++ [message] }

/-- `result.warnings.push(message)`. -/
def pushWarning (result : ChainValidationResult) (message : String) : ChainValidationResult :=
  { result with warnings := result.warnings ++ [message] }

/-- A revocation finding: an error in mode `hard_fail`, a warning in every other mode. -/
def report (mode : String) (result : ChainValidationResult) (message : String) : ChainValidationResult :=
  if mode = "hard_fail" then result.pushError message else result.pushWarning message

/-- `if let Err(e) = check { result.valid = false; result.errors.push(describe(e)) }`. -/
def record {α : Type} (check : Except String α) (describe : String → String)
    (result : ChainValidationResult) : ChainValidationResult :=
  match check with
  | .ok _ => result
  | .error e => result.pushError (describe e)

end ChainValidationResult

section

variable (platform : Platform)

/-! ## Validity and signatures -/

def checkValidity (cert : Certificate) (now : Int) : Except String Unit := do
  reject (now < cert.notBefore) "Certificate not yet valid"
  reject (now > cert.notAfter) "Certificate has expired"

/-- The loop over the chain that records every certificate outside its validity period. -/
def checkValidities (now : Int) : Nat → List Certificate → ChainValidationResult → ChainValidationResult
  | _, [], result => result
  | i, cert :: rest, result =>
    checkValidities now (i + 1) rest
      (result.record (checkValidity cert now) (fun e => "Certificate " ++ toString i ++ ": " ++ e))

/-- The texts are those of `VerificationError::internal` and of a converted crypto error. -/
def verifyCertificateSignature (subject issuer : Certificate) : Except String Unit :=
  match platform.verifyParsedCertificateSignature subject issuer with
  | .ok true => .ok ()
  | .ok false => .error "[E999] Internal error: Certificate signature verification failed"
  | .error e => .error ("[E999] Internal error: " ++ e)

/-- Each certificate against the next one, from index `i` on. -/
def verifyChainSignatures : Nat → List Certificate → Except String Unit
  | i, subject :: issuer :: rest => do
    reject (subject.issuer ≠ issuer.subject)
      ("Chain broken: cert " ++ toString i ++ " issuer '" ++ platform.displayName subject.issuer
        ++ "' != cert " ++ toString (i + 1) ++ " subject '" ++ platform.displayName issuer.subject ++ "'")
    (verifyCertificateSignature platform subject issuer).mapError
      (fun e => "Signature verification failed for cert " ++ toString i ++ ": " ++ e)
    verifyChainSignatures (i + 1) (issuer :: rest)
  | _, _ => .ok ()

/-! ## Path constraints -/

def understoodCriticalExtensions : List String :=
  ["2.5.29.9", "2.5.29.14", "2.5.29.15", "2.5.29.16", "2.5.29.17", "2.5.29.18", "2.5.29.19", "2.5.29.30",
    "2.5.29.31", "2.5.29.32", "2.5.29.33", "2.5.29.35", "2.5.29.36", "2.5.29.37", "2.5.29.46", "2.5.29.54",
    "1.3.6.1.5.5.7.1.1", "1.3.6.1.5.5.7.1.11"]

def unimplementedConstraints : List String := ["2.5.29.30", "2.5.29.33", "2.5.29.36", "2.5.29.54"]

def idCeBasicConstraints : String := "2.5.29.19"
def idCeKeyUsage : String := "2.5.29.15"

/-- `TbsCertificate::get`: the sole extension of that type, decoded; a repeated one is an error. -/
def getExtension {T : Type} (fromDer : Bytes → Except String T) (oid : String) (cert : Certificate) :
    Except String (Option T) :=
  match (cert.extensions.getD []).filter (fun extension => extension.extnId == oid) with
  | [] => .ok none
  | [extension] => (fromDer extension.extnValue).map some
  | _ :: _ :: _ => .error "operation failed"

def getBasicConstraints : Certificate → Except String (Option BasicConstraints) :=
  getExtension platform.basicConstraintsFromDer idCeBasicConstraints

def getKeyUsage : Certificate → Except String (Option X509KeyUsage) :=
  getExtension platform.keyUsageFromDer idCeKeyUsage

/-- The loop over one certificate's extensions. -/
def checkExtensions (index : Nat) : List Extension → List String → Except String Unit
  | [], _ => .ok ()
  | extension :: rest, seen => do
    let oid := extension.extnId
    reject (oid ∈ seen) ("Certificate " ++ toString index ++ " has duplicate extension " ++ oid)
    -- some of the understood ones are refused right below, critical or not
    reject (extension.critical = true ∧ oid ∉ understoodCriticalExtensions)
      ("Certificate " ++ toString index ++ " has unsupported critical extension " ++ oid)
    reject (oid ∈ unimplementedConstraints)
      ("Certificate " ++ toString index ++ " contains constraint extension " ++ oid
        ++ " that cannot yet be safely enforced")
    checkExtensions index rest (oid :: seen)

/-- The end entity of a longer chain must not be a CA. -/
def checkEndEntity (cert : Certificate) : Except String Unit := do
  let constraints ← (getBasicConstraints platform cert).mapError
    (fun error => "Invalid end-entity BasicConstraints: " ++ error)
  reject (constraints.any BasicConstraints.ca = true) "End-entity certificate is marked as a CA"

/-- The first loop of `check_chain_constraints`. -/
def checkCertificates (chainLen : Nat) : Nat → List Certificate → Except String Unit
  | _, [] => .ok ()
  | index, cert :: rest => do
    reject (cert.tbsSignatureOid ≠ cert.signatureAlgorithmOid)
      ("Certificate " ++ toString index ++ " inner and outer signature algorithms differ")
    checkExtensions index (cert.extensions.getD []) []
    if index = 0 ∧ chainLen > 1 then checkEndEntity platform cert else .ok ()
    checkCertificates chainLen (index + 1) rest

/-- Subject and issuer names differ. -/
def notSelfIssued (cert : Certificate) : Bool := cert.subject != cert.issuer

/-- One CA certificate at `issuerIndex`; `subordinates` is `chain[1..issuerIndex]`. -/
def checkIssuer (issuerIndex : Nat) (subordinates : List Certificate) (issuer : Certificate) : Except String Unit := do
  let found ← (getBasicConstraints platform issuer).mapError
    (fun error => "Invalid BasicConstraints on CA certificate " ++ toString issuerIndex ++ ": " ++ error)
  let constraints ← orFail
    ("CA certificate " ++ toString issuerIndex ++ " lacks BasicConstraints") found
  reject (constraints.ca = false)
    ("Certificate " ++ toString issuerIndex ++ " is not authorized as a CA")
  let keyUsage ← (getKeyUsage platform issuer).mapError
    (fun error => "Invalid KeyUsage on CA certificate " ++ toString issuerIndex ++ ": " ++ error)
  -- a CA without a KeyUsage extension may sign
  reject (keyUsage.any (fun usage => !usage.keyCertSign) = true)
    ("CA certificate " ++ toString issuerIndex ++ " KeyUsage lacks keyCertSign")
  let subordinateCaCount := (subordinates.filter notSelfIssued).length
  match constraints.pathLenConstraint with
  | some pathLen =>
    reject (subordinateCaCount > pathLen)
      ("CA certificate " ++ toString issuerIndex ++ " pathLenConstraint " ++ toString pathLen
        ++ " was exceeded")
  | none => .ok ()

/-- The second loop of `check_chain_constraints`. -/
def checkIssuers : Nat → List Certificate → List Certificate → Except String Unit
  | _, _, [] => .ok ()
  | issuerIndex, subordinates, issuer :: rest => do
    checkIssuer platform issuerIndex subordinates issuer
    checkIssuers (issuerIndex + 1) (subordinates ++ [issuer]) rest

def checkChainConstraints (chain : List Certificate) : Except String Unit := do
  checkCertificates platform chain.length 0 chain
  checkIssuers platform 1 [] (chain.drop 1)

/-! ## The trust anchor -/

/-- The loop that compares a self-issued last certificate with the anchors of its name. -/
def matchesAnchor (last : Certificate) : List Certificate → Except String Bool
  | [] => .ok false
  | anchor :: rest =>
    if anchor.subject = last.subject then do
      let lastDer ← (platform.toDer last).mapError (fun e => "Failed to encode chain root: " ++ e)
      let anchorDer ← (platform.toDer anchor).mapError (fun e => "Failed to encode trust anchor: " ++ e)
      if lastDer = anchorDer then .ok true else matchesAnchor last rest
    else matchesAnchor last rest

/-- The last certificate is a self-issued root among the anchors. -/
def isTrustedRoot (last : Certificate) (anchors : List Certificate) : Except String Bool :=
  if last.issuer = last.subject then matchesAnchor platform last anchors else .ok false

/-- Names match and `verify_certificate_signature(..).is_ok()`. -/
def isIssuedBy (subject issuer : Certificate) : Bool :=
  decide (issuer.subject = subject.issuer) && (verifyCertificateSignature platform subject issuer).isOk

variable (validator : ChainValidator)

/-- The `expect` on `chain.last()` comes after the test for the empty chain and is that test here. -/
def verifyTrustAnchor (chain : List Certificate) : Except String Unit := do
  reject (validator.trustAnchors = []) "No trust anchors configured"
  let last ← orFail "Certificate chain is empty" chain.getLast?
  let isRoot ← isTrustedRoot platform last validator.trustAnchors
  if isRoot then .ok ()
  else if validator.trustAnchors.any (isIssuedBy platform last) then .ok ()
  -- only names and signatures of the intermediate are looked at
  else if validator.intermediates.any (fun intermediate => isIssuedBy platform last intermediate
      && validator.trustAnchors.any (isIssuedBy platform intermediate)) then .ok ()
  else .error ("No trust anchor found for issuer: " ++ platform.displayName last.issuer)

/-! ## Key usage of the end entity -/

/-- The byte of the BIT STRING and the mask of a usage. -/
def KeyUsage.bit : KeyUsage → Nat × UInt8
  | .digitalSignature => (0, 0x80)
  | .nonRepudiation => (0, 0x40)
  | .keyEncipherment => (0, 0x20)
  | .dataEncipherment => (0, 0x10)
  | .keyAgreement => (0, 0x08)
  | .keyCertSign => (0, 0x04)
  | .crlSign => (0, 0x02)
  | .encipherOnly => (0, 0x01)
  | .decipherOnly => (1, 0x80)

/-- The `Debug` text. -/
def KeyUsage.debug : KeyUsage → String
  | .digitalSignature => "DigitalSignature"
  | .nonRepudiation => "NonRepudiation"
  | .keyEncipherment => "KeyEncipherment"
  | .dataEncipherment => "DataEncipherment"
  | .keyAgreement => "KeyAgreement"
  | .keyCertSign => "KeyCertSign"
  | .crlSign => "CrlSign"
  | .encipherOnly => "EncipherOnly"
  | .decipherOnly => "DecipherOnly"

def requireUsages (raw : Bytes) : List KeyUsage → Except String Unit
  | [] => .ok ()
  | required :: rest => do
    reject ((raw[required.bit.1]?.getD 0) &&& required.bit.2 = 0)
      ("Certificate missing required key usage: " ++ required.debug)
    requireUsages raw rest

def checkKeyUsage (config : ChainValidatorConfig) (cert : Certificate) : Except String Unit :=
  if config.requiredKeyUsage = [] then .ok ()
  else
    match cert.extensions with
    -- a certificate that restricts nothing has every usage
    | none => .ok ()
    | some extensions =>
      match extensions.find? (fun extension => extension.extnId == idCeKeyUsage) with
      | none => .ok ()
      | some extension => do
        let raw ← (platform.bitStringFromDer extension.extnValue).mapError
          (fun e => "Failed to parse KeyUsage extension: " ++ e)
        requireUsages raw config.requiredKeyUsage

/-! ## Revocation -/

/-- What one piece of evidence says about a certificate under one issuer. -/
inductive Judgement where
  | good
  | revoked
  | failure (message : String)

/-- The texts and the judge in which the CRL and the OCSP check differ. -/
structure EvidenceKind where
  encodeCertificate : String
  encodeIssuer : String
  noIssuer : String
  noMatch : String
  judge : Bytes → Bytes → Bytes → Judgement

/-- The two nested loops over evidence and issuers, as one loop over their pairs in that order. -/
def searchEvidence (kind : EvidenceKind) (certDer : Bytes) :
    List (Bytes × Certificate) → Bool → List String → Except String Bool
  | [], validEvidence, failures =>
    if validEvidence then .ok false else .error (kind.noMatch ++ "; ".intercalate failures)
  | (evidence, issuer) :: rest, validEvidence, failures => do
    let issuerDer ← (platform.toDer issuer).mapError (fun e => kind.encodeIssuer ++ e)
    match kind.judge evidence certDer issuerDer with
    -- the first "revoked" decides, whatever the evidence before it said
    | .revoked => .ok true
    | .good => searchEvidence kind certDer rest true failures
    | .failure message => searchEvidence kind certDer rest validEvidence (failures ++ [message])

/-- The certificates that could have issued `cert`. -/
def candidateIssuers (chain : List Certificate) (cert : Certificate) : List Certificate :=
  (validator.trustAnchors ++ validator.intermediates ++ chain).filter
    (fun candidate => candidate.subject == cert.issuer)

/-- The shape shared by `check_revocation` and `check_ocsp_status`. -/
def checkEvidence (kind : EvidenceKind) (evidence : List Bytes) (validator : ChainValidator)
    (chain : List Certificate) (cert : Certificate) : Except String Bool := do
  let certDer ← (platform.toDer cert).mapError (fun e => kind.encodeCertificate ++ e)
  let issuers := candidateIssuers validator chain cert
  reject (issuers = []) kind.noIssuer
  searchEvidence platform kind certDer (evidence.flatMap (fun item => issuers.map (Prod.mk item))) false []

def crlEvidence : EvidenceKind where
  encodeCertificate := "Failed to encode certificate for revocation check: "
  encodeIssuer := "Failed to encode CRL issuer: "
  noIssuer := "No issuer certificate is available for CRL authentication"
  noMatch := "No authenticated, current CRL matched the certificate: "
  judge crl certDer issuerDer :=
    match platform.validateCrlForCertificate crl certDer issuerDer with
    | .ok true => .revoked
    | .ok false => .good
    | .error e => .failure e

def ocspEvidence : EvidenceKind where
  encodeCertificate := "Failed to encode certificate for OCSP: "
  encodeIssuer := "Failed to encode OCSP issuer: "
  noIssuer := "No issuer certificate is available for OCSP authentication"
  noMatch := "No authenticated, current OCSP response matched the certificate: "
  judge response certDer issuerDer :=
    match platform.validateOcspResponse response certDer issuerDer with
    | .ok .good => .good
    | .ok .revoked => .revoked
    | .ok .unknown => .failure "authenticated responder returned unknown certificate status"
    | .error e => .failure e

def checkRevocation : List Certificate → Certificate → Except String Bool :=
  checkEvidence platform (crlEvidence platform) validator.crls validator

def checkOcspStatus : List Certificate → Certificate → Except String Bool :=
  checkEvidence platform (ocspEvidence platform) validator.ocspResponses validator

def isConfiguredTrustAnchor (cert : Certificate) : Bool :=
  match platform.toDer cert with
  | .error _ => false
  | .ok certDer => validator.trustAnchors.any (fun anchor =>
    match platform.toDer anchor with
    | .error _ => false
    | .ok anchorDer => anchorDer == certDer)

/-- The texts in which the two revocation blocks of `validate_parsed_chain` differ. -/
structure RevocationTexts where
  missing : String
  revoked : Nat → String
  failed : Nat → String → String

/-- One certificate's finding. -/
def reportFinding (texts : RevocationTexts) (mode : String) (i : Nat) (finding : Except String Bool)
    (result : ChainValidationResult) : ChainValidationResult :=
  match finding with
  | .ok false => result
  | .ok true => result.report mode (texts.revoked i)
  | .error e => result.report mode (texts.failed i e)

/-- The loop of a revocation block over the chain; configured anchors are skipped. -/
def reportFindings (texts : RevocationTexts) (mode : String) (isAnchor : Certificate → Bool)
    (check : Certificate → Except String Bool) :
    Nat → List Certificate → ChainValidationResult → ChainValidationResult
  | _, [], result => result
  | i, cert :: rest, result =>
    reportFindings texts mode isAnchor check (i + 1) rest
      (if isAnchor cert then result else reportFinding texts mode i (check cert) result)

/-- One revocation block: `evidence` was asked for and is searched for every certificate. -/
def revocationBlock (texts : RevocationTexts) (validator : ChainValidator) (evidence : List Bytes)
    (check : Certificate → Except String Bool) (chain : List Certificate)
    (result : ChainValidationResult) : ChainValidationResult :=
  if evidence = [] then result.report validator.config.revocationMode texts.missing
  else
    reportFindings texts validator.config.revocationMode (isConfiguredTrustAnchor platform validator) check
      0 chain result

def crlTexts : RevocationTexts where
  missing := "CRL checking requested but no CRL evidence was supplied"
  revoked i := "Certificate " ++ toString i ++ " is revoked"
  failed i e := "Revocation check failed for certificate " ++ toString i ++ ": " ++ e

def ocspTexts : RevocationTexts where
  missing := "OCSP checking requested but no certificate-bound response evidence was supplied"
  revoked i := "Certificate " ++ toString i ++ " is revoked by OCSP"
  failed i e := "OCSP check failed for certificate " ++ toString i ++ ": " ++ e

/-! ## `validate_parsed_chain` -/

/-- The validation moment. -/
def ChainValidator.now (utcNow : Int) : Int :=
  validator.config.validationMoment.getD utcNow

/-- The result before any check. -/
def initialResult (endEntity : Certificate) (chain : List Certificate) : ChainValidationResult where
  valid := true
  subject := some (platform.displayName endEntity.subject)
  issuer := some (platform.displayName endEntity.issuer)
  chainDepth := chain.length
  errors := []
  warnings := []

/-- The validity, signature and constraint checks of the presented chain. -/
def checkPresentedChain (utcNow : Int) (endEntity : Certificate) (chain : List Certificate) : ChainValidationResult :=
  ((checkValidities (validator.now utcNow) 0 chain (initialResult platform endEntity chain)).record
    (verifyChainSignatures platform 0 chain) id).record (checkChainConstraints platform chain) id

/-- The key usage check of the end entity. -/
def recordKeyUsage (config : ChainValidatorConfig) (endEntity : Certificate)
    (result : ChainValidationResult) : ChainValidationResult :=
  match checkKeyUsage platform config endEntity with
  | .ok _ => result
  | .error e =>
    if config.requiredKeyUsage = [] then result.pushWarning ("Key usage check: " ++ e)
    else result.pushError ("Key usage: " ++ e)

def crlBlock (chain : List Certificate) (result : ChainValidationResult) : ChainValidationResult :=
  if validator.config.checkCrl then
    revocationBlock platform crlTexts validator validator.crls (checkRevocation platform validator chain)
      chain result
  else result

def ocspBlock (chain : List Certificate) (result : ChainValidationResult) : ChainValidationResult :=
  if validator.config.checkOcsp then
    revocationBlock platform ocspTexts validator validator.ocspResponses
      (checkOcspStatus platform validator chain) chain result
  else result

def validateParsedChain (utcNow : Int) (chain : List Certificate) : Exec String ChainValidationResult :=
  match chain with
  | [] => .error (.panic "index out of bounds: the len is 0 but the index is 0")
  | endEntity :: _ =>
    let result := checkPresentedChain platform validator utcNow endEntity chain
    let result := recordKeyUsage platform validator.config endEntity result
    let result := crlBlock platform validator chain result
    let result := ocspBlock platform validator chain result
    -- the path above the presented chain is built last, when revocation has been checked
    .ok (result.record (verifyTrustAnchor platform validator chain) id)

end

end MartyCore.Chain
