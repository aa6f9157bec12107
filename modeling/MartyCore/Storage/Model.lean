import MartyCore.Lib.Calendar
import MartyCore.Lib.Instant
import MartyCore.Lib.JsonRead
import MartyCore.Lib.Method

/-!
# `Storage.Model` — trust packages in the database

The embedding of the trust tables of `marty-secure-storage/src/database.rs` and `database/provenance.rs`: the validators, the
writers `store_trust_anchor`, `store_open_badge_key` and `apply_trust_package_internal`, and the readers
`get_trust_anchor_records` and `get_open_badge_trust_records`. Columns hold the texts that are written to them, so the
readers parse them again. A transaction takes back what was written when it fails (`Method.atomically`).

The clock is read twice by a validator, and a reader validates every row again, so each validation has readings of its
own (`Clock`). RFC 3339, BLAKE3 and JSON texts are parameters. The tables `sync_state` and `audit_log`, which nothing here
reads, are left out.
-/

namespace MartyCore.Storage

open Exec Method Json

/-! ## Instants -/

/-- `DateTime<Utc>`. -/
abbrev DateTime := Instant

/-- `t + Duration::seconds(n)`. -/
def addSeconds {ε : Type} (t : DateTime) (n : Nat) : Exec ε DateTime :=
  match t.later n with
  | some t => .ok t
  | none => .error (.panic "`DateTime + TimeDelta` overflowed")

/-- The readings of one validation. The system's clock has no leap seconds. -/
structure Clock where
  now : DateTime
  later : DateTime
  plain : now.Plain

/-! ## Parameters -/

/-- The foreign code. -/
structure Platform (N : Type) where
  toRfc3339 : DateTime → Str
  parseRfc3339 : Str → Option DateTime
  /-- Years of other than four digits are written with a sign, which is not read. -/
  parse_toRfc3339 : ∀ t, parseRfc3339 (toRfc3339 t) = if t.InYears then some t else none
  /-- `blake3::hash(bytes).to_hex()`. -/
  blake3Hex : Bytes → Str
  toJson : Json N → Str
  fromJson : Str → Option (Json N)
  fromJson_toJson : ∀ v, fromJson (toJson v) = some v

/-! ### A platform -/

/-- An instant as one decimal number. -/
def sampleTime (t : DateTime) : Str := Str.digits 24 ((t.seconds + 10 ^ 13).toNat * 10 ^ 10 + t.nanos)

/-- The instant of a decimal number. -/
def readSampleTime (s : Str) : Option DateTime := do
  let n ← Str.parseDigits s
  let seconds := (n / 10 ^ 10 : Nat) - (10 : Int) ^ 13
  let nanos := n % 10 ^ 10
  if h : (-8334601228800 ≤ seconds ∧ seconds < 8210266876800) ∧
      (nanos < 10 ^ 9 ∨ seconds % 60 = 59 ∧ nanos < 2 * 10 ^ 9) then
    some ⟨seconds, nanos, h.1, h.2⟩
  else none

theorem readSampleTime_sampleTime (t : DateTime) : readSampleTime (sampleTime t) = some t := by
  obtain ⟨seconds, nanos, range, leap⟩ := t
  have hnanos : nanos < 2 * 10 ^ 9 := by omega
  have hparse : Str.parseDigits (sampleTime ⟨seconds, nanos, range, leap⟩) =
      some ((seconds + 10 ^ 13).toNat * 10 ^ 10 + nanos) :=
    Str.parseDigits_digits (by decide) (by simp only; omega)
  have hseconds : (((seconds + 10 ^ 13).toNat * 10 ^ 10 + nanos) / 10 ^ 10 : Nat) - (10 : Int) ^ 13 = seconds := by omega
  have hmod : ((seconds + 10 ^ 13).toNat * 10 ^ 10 + nanos) % 10 ^ 10 = nanos := by omega
  unfold readSampleTime
  rw [hparse, Option.bind_eq_bind, Option.bind_some]
  simp only [hseconds, hmod]
  exact dif_pos ⟨range, leap⟩

noncomputable def samplePlatform : Platform Int where
  toRfc3339 := sampleTime
  parseRfc3339 s := (readSampleTime s).filter (fun t => t.InYears)
  parse_toRfc3339 t := by
    rw [readSampleTime_sampleTime]
    by_cases h : t.InYears
    · simp [Option.filter, h]
    · simp [Option.filter, h]
  blake3Hex bytes := bytes.map (fun b => Char.ofNat b.toNat)
  toJson := text integer.text
  fromJson := Function.partialInv (text integer.text)
  fromJson_toJson := Function.partialInv_left (fun _ _ h => text_injective integer h)

/-- The beginning of 1970. -/
def epoch : DateTime := Instant.epoch

/-! ## Types -/

inductive Error where
  | database (message : String)
  | invalidQueueBatch (message : String)
  | invalidTrustPackage (message : String)
  | trustPackageReplay (domain : Str) (sequence : Nat)
  | trustPackageRollback (domain : Str) (currentSequence attemptedSequence : Nat)
  | trustPackageConflict (message : String)
  | trustPackageSignerChange (domain : Str)
deriving DecidableEq

inductive TrustAnchorType where
  | iaca | csca | dsc
deriving DecidableEq

inductive TrustAnchorSource where
  | aamvaDts | icaoPkd | usbImport | manual
deriving DecidableEq

inductive OpenBadgeKeySource where
  | sync | usbImport | manual
deriving DecidableEq

def TrustAnchorType.text : TrustAnchorType → Str
  | .iaca => "iaca".toList
  | .csca => "csca".toList
  | .dsc => "dsc".toList

def TrustAnchorSource.text : TrustAnchorSource → Str
  | .aamvaDts => "aamva_dts".toList
  | .icaoPkd => "icao_pkd".toList
  | .usbImport => "usb_import".toList
  | .manual => "manual".toList

def OpenBadgeKeySource.text : OpenBadgeKeySource → Str
  | .sync => "sync".toList
  | .usbImport => "usb_import".toList
  | .manual => "manual".toList

/-- A certificate that is trusted. -/
structure TrustAnchor where
  id : Str
  anchorType : TrustAnchorType
  jurisdiction : Str
  subject : Option Str
  issuer : Option Str
  serialNumber : Option Str
  notBefore : Option DateTime
  notAfter : Option DateTime
  certificateDer : Bytes
  certificateHash : Str
  source : TrustAnchorSource
  syncedAt : DateTime

/-- A key of an issuer of badges. -/
structure OpenBadgeVerificationMethod (N : Type) where
  id : Str
  document : Json N
  controller : Option Str
  issuer : Option Str
  kid : Option Str
  notBefore : Option DateTime
  notAfter : Option DateTime
  status : Option Str
  source : OpenBadgeKeySource
  syncedAt : DateTime

/-- What is known of a package. -/
structure TrustPackageProvenance where
  trustDomain : Str
  sequence : Nat
  packageVersion : Str
  createdAt : DateTime
  expiresAt : DateTime
  signerKeyId : Str
  packageDigest : Str
  importedAt : DateTime
deriving DecidableEq

/-- Who may sign later packages. -/
structure TrustPackageSignerPolicy where
  nextSignerKeyId : Option Str
  recoverySignerKeyId : Str

structure TrustPackageApplyResult where
  trustAnchors : Nat
  openBadgeMethods : Nat

/-! ## Tables -/

/-- The package columns of a record. -/
structure StoredProvenance where
  domain : Option Str
  sequence : Option Int
  version : Option Str
  created : Option Str
  expires : Option Str
  signer : Option Str
  digest : Option Str
  imported : Option Str
deriving DecidableEq

/-- A record of either table: its key, its own columns and the package columns. -/
structure Row (β : Type) where
  id : Str
  body : β
  provenance : StoredProvenance
deriving DecidableEq

structure AnchorColumns where
  anchorType : Str
  jurisdiction : Str
  subject : Option Str
  issuer : Option Str
  serialNumber : Option Str
  notBefore : Option Str
  notAfter : Option Str
  certificateDer : Bytes
  certificateHash : Str
  source : Str
  syncedAt : Str
deriving DecidableEq

structure MethodColumns where
  documentJson : Str
  controller : Option Str
  issuer : Option Str
  kid : Option Str
  notBefore : Option Str
  notAfter : Option Str
  status : Option Str
  source : Str
  syncedAt : Str
deriving DecidableEq

/-- The package in force in a domain. -/
structure PackageRow where
  trustDomain : Str
  sequence : Int
  packageVersion : Str
  packageCreatedAt : Str
  packageExpiresAt : Option Str
  signerKeyId : Str
  nextSignerKeyId : Option Str
  recoverySignerKeyId : Option Str
  packageDigest : Str
  importedAt : Str
deriving DecidableEq

structure Tables where
  trustAnchors : List (Row AnchorColumns)
  openBadgeKeys : List (Row MethodColumns)
  trustPackages : List PackageRow
deriving DecidableEq

def Tables.empty : Tables := ⟨[], [], []⟩

namespace Table

variable {β : Type}

/-- The record of a key. -/
def find (id : Str) (rows : List (Row β)) : Option (Row β) := rows.find? (fun row => row.id = id)

/-- `DELETE … WHERE trust_domain = ?`. -/
def deleteDomain (domain : Str) (rows : List (Row β)) : List (Row β) :=
  rows.filter (fun row => row.provenance.domain ≠ some domain)

/-- `INSERT`, with the key of the table. -/
def insert (name : String) (row : Row β) (rows : List (Row β)) : Exec Error (List (Row β)) := do
  reject ((find row.id rows).isSome = true) (.database ("UNIQUE constraint failed: " ++ name ++ ".id"))
  return rows ++ [row]

/-- `INSERT … ON CONFLICT(id) DO UPDATE … WHERE trust_domain IS NULL`, with the number of records changed. The package
    columns of an updated record are not written. -/
def upsertLegacy (row : Row β) (rows : List (Row β)) : List (Row β) × Nat :=
  match find row.id rows with
  | none => (rows ++ [row], 1)
  | some old =>
    if old.provenance.domain = none then
      (rows.map (fun r => if r.id = row.id then { row with provenance := r.provenance } else r), 1)
    else (rows, 0)

/-- A write outside any package. -/
def storeLegacy (conflict : Error) (row : Row β) (rows : List (Row β)) : Exec Error (List (Row β)) := do
  let governed := ((find row.id rows).bind (fun old => old.provenance.domain)).isSome
  reject (governed = true) conflict
  let (rows, changed) := upsertLegacy row rows
  reject (changed = 0) conflict
  return rows

end Table

/-- The package columns of a record that no package wrote. -/
def StoredProvenance.legacy : StoredProvenance := ⟨none, none, none, none, none, none, none, none⟩

section

variable {N : Type} (platform : Platform N) (provenance : TrustPackageProvenance)

/-- The package columns written by an application. -/
def StoredProvenance.of : StoredProvenance where
  domain := some provenance.trustDomain
  sequence := some provenance.sequence
  version := some provenance.packageVersion
  created := some (platform.toRfc3339 provenance.createdAt)
  expires := some (platform.toRfc3339 provenance.expiresAt)
  signer := some provenance.signerKeyId
  digest := some provenance.packageDigest
  imported := some (platform.toRfc3339 provenance.importedAt)

/-- What is written of an anchor. -/
def anchorRow (anchor : TrustAnchor) (syncedAt : DateTime) (provenance : StoredProvenance) : Row AnchorColumns where
  id := anchor.id
  body :=
    { anchorType := anchor.anchorType.text
      jurisdiction := anchor.jurisdiction
      subject := anchor.subject
      issuer := anchor.issuer
      serialNumber := anchor.serialNumber
      notBefore := anchor.notBefore.map platform.toRfc3339
      notAfter := anchor.notAfter.map platform.toRfc3339
      certificateDer := anchor.certificateDer
      certificateHash := anchor.certificateHash
      source := anchor.source.text
      syncedAt := platform.toRfc3339 syncedAt }
  provenance := provenance

/-- What is written of a method. -/
def methodRow (method : OpenBadgeVerificationMethod N) (syncedAt : DateTime) (provenance : StoredProvenance) :
    Row MethodColumns where
  id := method.id
  body :=
    { documentJson := platform.toJson method.document
      controller := method.controller
      issuer := method.issuer
      kid := method.kid
      notBefore := method.notBefore.map platform.toRfc3339
      notAfter := method.notAfter.map platform.toRfc3339
      status := method.status
      source := method.source.text
      syncedAt := platform.toRfc3339 syncedAt }
  provenance := provenance

/-- What is written of a package. -/
def packageRow (next recovery : Option Str) : PackageRow where
  trustDomain := provenance.trustDomain
  sequence := provenance.sequence
  packageVersion := provenance.packageVersion
  packageCreatedAt := platform.toRfc3339 provenance.createdAt
  packageExpiresAt := some (platform.toRfc3339 provenance.expiresAt)
  signerKeyId := provenance.signerKeyId
  nextSignerKeyId := next
  recoverySignerKeyId := recovery
  packageDigest := provenance.packageDigest
  importedAt := platform.toRfc3339 provenance.importedAt

/-! ## Validators -/

/-- A text that is not empty, has at most `limit` bytes and no control character. -/
def Printable (limit : Nat) (value : Str) : Prop :=
  value ≠ [] ∧ value.len ≤ limit ∧ ∀ c ∈ value, Str.isControl c = false

instance (limit : Nat) (value : Str) : Decidable (Printable limit value) := inferInstanceAs (Decidable (_ ∧ _ ∧ _))

def validateTrustPackageSignerId (value : Str) (role : String) : Exec Error Unit :=
  reject (¬ Printable 512 value) (.invalidTrustPackage (role ++ " key id must be a bounded printable value"))

def validateTrustPackageSignerPolicy (policy : TrustPackageSignerPolicy) : Exec Error Unit := do
  validateTrustPackageSignerId policy.recoverySignerKeyId "recovery signer"
  match policy.nextSignerKeyId with
  | none => return
  | some next =>
    validateTrustPackageSignerId next "next signer"
    reject (next = policy.recoverySignerKeyId) (.invalidTrustPackage "next and recovery signer ids must be distinct")

def validateTrustPackageSignerRelationships (policy : TrustPackageSignerPolicy) (signerKeyId : Str)
    (signerIsRecovery : Bool) : Exec Error Unit := do
  reject (policy.nextSignerKeyId = some signerKeyId)
    (.invalidTrustPackage "next signer must differ from the package signer")
  reject (policy.recoverySignerKeyId = signerKeyId ∧ signerIsRecovery = false)
    (.invalidTrustPackage "operational and recovery signer ids must be distinct")
  reject (signerIsRecovery = true ∧ policy.nextSignerKeyId = none)
    (.invalidTrustPackage "a recovery-signed package must authorize a next operational signer")

def validateStoredTrustPackageSignerPolicy (currentSigner : Str) (nextSigner recoverySigner : Option Str) :
    Exec Error Unit := do
  validateTrustPackageSignerId currentSigner "current signer"
  match recoverySigner, nextSigner with
  | none, next =>
    reject (next.isSome = true) (.invalidTrustPackage "stored next signer is missing its recovery policy")
  | some recovery, some next =>
    validateTrustPackageSignerId recovery "stored recovery signer"
    validateTrustPackageSignerId next "stored next signer"
    reject (next = currentSigner ∨ next = recovery)
      (.invalidTrustPackage "stored current, next, and recovery signer roles are not distinct")
  | some recovery, none =>
    validateTrustPackageSignerId recovery "stored recovery signer"
    reject (currentSigner = recovery)
      (.invalidTrustPackage "stored recovery signer is active without a next operational signer")

mutual

def containsPrivateKeyMaterial : Json N → Bool
  | .obj members => memberContainsPrivateKeyMaterial members
  | .arr values => valueContainsPrivateKeyMaterial values
  | _ => false

def valueContainsPrivateKeyMaterial : List (Json N) → Bool
  | [] => false
  | v :: rest => containsPrivateKeyMaterial v || valueContainsPrivateKeyMaterial rest

def memberContainsPrivateKeyMaterial : List (Str × Json N) → Bool
  | [] => false
  | (key, v) :: rest =>
    (if "privateKey".toList.isPrefixOf key || "secretKey".toList.isPrefixOf key then true
    else if key = "publicKeyJwk".toList then
      match v with
      | .obj jwk =>
        (match ((Json.obj jwk).get? "kty".toList).bind asStr with
          | none => true
          | some kty => kty = "oct".toList) ||
        ["d".toList, "p".toList, "q".toList, "dp".toList, "dq".toList, "qi".toList, "oth".toList, "k".toList].any
          (fun name => ((Json.obj jwk).get? name).isSome)
      | _ => true
    else containsPrivateKeyMaterial v) || memberContainsPrivateKeyMaterial rest

end

def maxPackageFutureSkewSeconds : Nat := 300

def isDomainChar (c : Char) : Bool := c.isAlphanum || c = '.' || c = '_' || c = '-' || c = ':'

def isDigestChar (c : Char) : Bool := c.isDigit || ('a' ≤ c && c ≤ 'f')

def name (id : Str) : String := String.ofList id

/-- What is checked of the provenance whatever the time is. -/
def validateProvenance : Exec Error Unit := do
  reject (provenance.trustDomain = [] ∨ 128 < provenance.trustDomain.len ∨
      ¬ provenance.trustDomain.all isDomainChar = true)
    (.invalidTrustPackage "trust domain must be 1-128 ASCII identifier characters")
  reject (provenance.sequence = 0) (.invalidTrustPackage "package sequence must be greater than zero")
  reject (2 ^ 63 ≤ provenance.sequence) (.invalidTrustPackage "package sequence exceeds SQLite range")
  reject (¬ Printable 128 provenance.packageVersion)
    (.invalidTrustPackage "package version must be a bounded printable value")
  reject (¬ Printable 512 provenance.signerKeyId)
    (.invalidTrustPackage "signer key id must be a bounded printable value")
  reject (provenance.packageDigest.len ≠ 64 ∨ ¬ provenance.packageDigest.all isDigestChar = true)
    (.invalidTrustPackage "package digest must be 64 lowercase hexadecimal characters")

variable (clock : Clock)

/-- What is checked of its times. -/
def validateTimes (provenance : TrustPackageProvenance) : Exec Error Unit := do
  let importLimit ← addSeconds provenance.importedAt maxPackageFutureSkewSeconds
  reject (importLimit < provenance.createdAt)
    (.invalidTrustPackage "package creation time exceeds the allowed import clock skew")
  let localLimit ← addSeconds clock.now maxPackageFutureSkewSeconds
  reject (localLimit < provenance.createdAt)
    (.invalidTrustPackage "package creation time exceeds the allowed local clock skew")
  reject (localLimit < provenance.importedAt)
    (.invalidTrustPackage "package import time exceeds the allowed local clock skew")
  reject (provenance.expiresAt ≤ provenance.createdAt)
    (.invalidTrustPackage "package expiry time must be after its creation time")
  reject (provenance.expiresAt < provenance.importedAt)
    (.invalidTrustPackage "package cannot be imported after its signed expiry time")
  reject (provenance.expiresAt < clock.later) (.invalidTrustPackage "package signed expiry time has passed")

/-- A validity interval that does not end before it begins. -/
def Positive : Option DateTime → Option DateTime → Prop
  | some notBefore, some notAfter => notBefore < notAfter
  | _, _ => True

instance : (notBefore notAfter : Option DateTime) → Decidable (Positive notBefore notAfter)
  | some notBefore, some notAfter => inferInstanceAs (Decidable (notBefore < notAfter))
  | some _, none => isTrue trivial
  | none, _ => isTrue trivial

/-- What is checked of a method, after its id. -/
def validateMethod (method : OpenBadgeVerificationMethod N) : Exec Error Unit := do
  reject (method.source = .manual)
    (.invalidTrustPackage ("method " ++ name method.id ++ " uses manual source in an authenticated package"))
  reject (¬ Positive method.notBefore method.notAfter)
    (.invalidTrustPackage ("method " ++ name method.id ++ " has a non-positive validity interval"))
  match method.document with
  | .obj _ =>
    reject ((method.document.get? "id".toList).bind asStr ≠ some method.id)
      (.invalidTrustPackage ("method " ++ name method.id ++ " document id does not match its record id"))
    match method.controller with
    | none => fail (.invalidTrustPackage ("method " ++ name method.id ++ " is missing controller metadata"))
    | some controller =>
      reject ((method.document.get? "controller".toList).bind asStr ≠ some controller)
        (.invalidTrustPackage ("method " ++ name method.id ++ " document controller does not match its record controller"))
      reject (containsPrivateKeyMaterial method.document = true)
        (.invalidTrustPackage ("method " ++ name method.id ++ " contains private or symmetric key material"))
  | _ => fail (.invalidTrustPackage ("method " ++ name method.id ++ " document must be an object"))

/-- What is checked of an anchor, after its id. -/
def validateAnchor (anchor : TrustAnchor) : Exec Error Unit := do
  reject (¬ Printable 512 anchor.jurisdiction)
    (.invalidTrustPackage ("trust anchor " ++ name anchor.id ++ " has invalid jurisdiction metadata"))
  reject (anchor.source = .manual)
    (.invalidTrustPackage ("trust anchor " ++ name anchor.id ++ " uses manual source in an authenticated package"))
  reject (anchor.syncedAt ≠ provenance.createdAt)
    (.invalidTrustPackage ("trust anchor " ++ name anchor.id ++ " freshness does not match signed package time"))
  reject (anchor.certificateDer = [])
    (.invalidTrustPackage ("trust anchor " ++ name anchor.id ++ " has empty certificate DER"))
  reject (anchor.certificateHash ≠ platform.blake3Hex anchor.certificateDer ∨
      anchor.id ≠ platform.blake3Hex anchor.certificateDer)
    (.invalidTrustPackage ("trust anchor " ++ name anchor.id ++ " does not match its certificate digest"))
  reject (¬ Positive anchor.notBefore anchor.notAfter)
    (.invalidTrustPackage ("trust anchor " ++ name anchor.id ++ " has a non-positive validity interval"))

/-- The loop over the records of a package: an id that is empty, longer than `limit` or not new is refused. -/
def validateRecords {α : Type} (label : String) (limit : Nat) (id : α → Str) (check : α → Exec Error Unit) :
    List Str → List α → Exec Error Unit
  | _, [] => .ok ()
  | seen, record :: rest => do
    reject (id record = [] ∨ limit < (id record).len ∨ id record ∈ seen)
      (.invalidTrustPackage (label ++ " id " ++ name (id record) ++ " is empty, oversized, or duplicated"))
    check record
    validateRecords label limit id check (id record :: seen) rest

def validateOpenBadgePackage (provenance : TrustPackageProvenance)
    (methods : List (OpenBadgeVerificationMethod N)) : Exec Error Unit := do
  validateProvenance provenance
  validateTimes clock provenance
  validateRecords "method" 2048 OpenBadgeVerificationMethod.id validateMethod [] methods

def validateTrustPackage (provenance : TrustPackageProvenance) (anchors : List TrustAnchor)
    (methods : List (OpenBadgeVerificationMethod N)) : Exec Error Unit := do
  validateOpenBadgePackage clock provenance methods
  validateRecords "trust anchor" 512 TrustAnchor.id (validateAnchor platform provenance) [] anchors

/-! ## Applications -/

/-- Who signs a package. -/
inductive SignerRole where
  | current | next | recovery
deriving DecidableEq

/-- The role in which a package is signed. -/
def signerRole (current : PackageRow) : Exec Error SignerRole :=
  if provenance.signerKeyId = current.signerKeyId then .ok .current
  else if current.nextSignerKeyId = some provenance.signerKeyId then .ok .next
  else if current.recoverySignerKeyId = some provenance.signerKeyId then .ok .recovery
  else fail (.trustPackageSignerChange provenance.trustDomain)

/-- A recovery signer stays once it is known, and only the current signer makes one known. -/
def checkRecoverySigner (current : PackageRow) (role : SignerRole)
    (policy : TrustPackageSignerPolicy) : Exec Error Unit :=
  match current.recoverySignerKeyId with
  | some stored => reject (policy.recoverySignerKeyId ≠ stored) (.trustPackageSignerChange provenance.trustDomain)
  | none => reject (role ≠ .current) (.trustPackageSignerChange provenance.trustDomain)

/-- The next and the recovery signer after an application to a known domain. -/
def effectiveSigners (current : PackageRow) (role : SignerRole) :
    Option TrustPackageSignerPolicy → Exec Error (Option Str × Option Str)
  | some policy => do
    checkRecoverySigner provenance current role policy
    validateTrustPackageSignerRelationships policy provenance.signerKeyId
      (decide (role = .recovery ∨ current.recoverySignerKeyId = some provenance.signerKeyId))
    return (policy.nextSignerKeyId, some policy.recoverySignerKeyId)
  | none => do
    reject (role ≠ .current) (.trustPackageSignerChange provenance.trustDomain)
    return (current.nextSignerKeyId, current.recoverySignerKeyId)

/-- The next and the recovery signer after the first application to a domain. -/
def bootstrapSigners : Option TrustPackageSignerPolicy → Exec Error (Option Str × Option Str)
  | some policy => do
    validateTrustPackageSignerRelationships policy provenance.signerKeyId false
    return (policy.nextSignerKeyId, some policy.recoverySignerKeyId)
  | none => .ok (none, none)

/-- The comparison with the package that is in force. -/
def succeed (policy : Option TrustPackageSignerPolicy) : Option PackageRow → Exec Error (Option Str × Option Str)
  | none => bootstrapSigners provenance policy
  | some current => do
    validateStoredTrustPackageSignerPolicy current.signerKeyId current.nextSignerKeyId current.recoverySignerKeyId
    reject (current.sequence < 0)
      (.invalidTrustPackage "stored package sequence is negative or out of range")
    let currentSequence := current.sequence.toNat
    reject (provenance.sequence < currentSequence)
      (.trustPackageRollback provenance.trustDomain currentSequence provenance.sequence)
    reject (provenance.sequence = currentSequence ∧ provenance.packageDigest = current.packageDigest)
      (.trustPackageReplay provenance.trustDomain provenance.sequence)
    reject (provenance.sequence = currentSequence)
      (.trustPackageConflict ("domain " ++ name provenance.trustDomain ++ " sequence " ++ toString provenance.sequence ++
        " has a different digest"))
    let role ← signerRole provenance current
    let signers ← effectiveSigners provenance current role policy
    reject (provenance.packageVersion = current.packageVersion)
      (.trustPackageConflict ("domain " ++ name provenance.trustDomain ++ " version " ++ name provenance.packageVersion ++
        " has a different sequence or digest"))
    reject (provenance.packageDigest = current.packageDigest)
      (.trustPackageConflict ("domain " ++ name provenance.trustDomain ++ " reused digest " ++
        name provenance.packageDigest ++ " at a newer sequence"))
    let currentCreatedAt ← orFail (.invalidTrustPackage "stored package creation time is malformed")
      (platform.parseRfc3339 current.packageCreatedAt)
    let currentExpiresAt ← orFail (.invalidTrustPackage "stored package expiry time is missing")
      current.packageExpiresAt
    let _ ← orFail (.invalidTrustPackage "stored package expiry time is malformed")
      (platform.parseRfc3339 currentExpiresAt)
    reject (provenance.createdAt ≤ currentCreatedAt)
      (.trustPackageConflict ("domain " ++ name provenance.trustDomain ++ " package creation time did not advance"))
    return signers

/-- The row of a domain. -/
def Tables.package (domain : Str) (tables : Tables) : Option PackageRow :=
  tables.trustPackages.find? (fun row => row.trustDomain = domain)

/-- `INSERT … ON CONFLICT(trust_domain) DO UPDATE`. -/
def upsertPackage (row : PackageRow) (rows : List PackageRow) : List PackageRow :=
  if rows.any (fun r => r.trustDomain = row.trustDomain) then
    rows.map (fun r => if r.trustDomain = row.trustDomain then row else r)
  else rows ++ [row]

/-- No record of another or no domain has one of these ids. -/
def checkOwners {β : Type} (label : String) (rows : List (Row β)) (ids : List Str) : Exec Error Unit :=
  ids.forM (fun id => reject ((Table.find id rows).isSome = true)
    (.trustPackageConflict (label ++ " " ++ name id ++ " is already owned by another or legacy trust source")))

def insertRows {β : Type} (table : String) (new : List (Row β)) (rows : List (Row β)) : Exec Error (List (Row β)) :=
  new.foldlM (fun rows row => Table.insert table row rows) rows

/-- The transaction of an application, on a package that is valid. -/
def replaceDomain (anchors : List TrustAnchor)
    (methods : List (OpenBadgeVerificationMethod N)) (policy : Option TrustPackageSignerPolicy) :
    Method Tables Error Unit := do
  let tables ← get
  let (next, recovery) ← call (succeed platform provenance policy (tables.package provenance.trustDomain))
  let stored := StoredProvenance.of platform provenance
  set ({ tables with
    trustAnchors := Table.deleteDomain provenance.trustDomain tables.trustAnchors
    openBadgeKeys := Table.deleteDomain provenance.trustDomain tables.openBadgeKeys } : Tables)
  let tables ← get
  call (checkOwners "trust anchor" tables.trustAnchors (anchors.map TrustAnchor.id))
  call (checkOwners "method" tables.openBadgeKeys (methods.map OpenBadgeVerificationMethod.id))
  let trustAnchors ← call (insertRows "trust_anchors"
    (anchors.map (fun anchor => anchorRow platform anchor provenance.createdAt stored)) tables.trustAnchors)
  set ({ tables with trustAnchors := trustAnchors } : Tables)
  let tables ← get
  let openBadgeKeys ← call (insertRows "open_badge_keys"
    (methods.map (fun method => methodRow platform method provenance.createdAt stored)) tables.openBadgeKeys)
  set ({ tables with
    openBadgeKeys := openBadgeKeys
    trustPackages := upsertPackage (packageRow platform provenance next recovery) tables.trustPackages } : Tables)

def applyTrustPackageInternal (provenance : TrustPackageProvenance) (anchors : List TrustAnchor)
    (methods : List (OpenBadgeVerificationMethod N)) (policy : Option TrustPackageSignerPolicy) :
    Method Tables Error TrustPackageApplyResult := do
  call (validateTrustPackage platform clock provenance anchors methods)
  atomically (replaceDomain platform provenance anchors methods policy)
  return ⟨anchors.length, methods.length⟩

def applyTrustPackage (provenance : TrustPackageProvenance) (anchors : List TrustAnchor)
    (methods : List (OpenBadgeVerificationMethod N)) : Method Tables Error TrustPackageApplyResult :=
  applyTrustPackageInternal platform clock provenance anchors methods none

def applyTrustPackageWithSignerPolicy (provenance : TrustPackageProvenance) (anchors : List TrustAnchor)
    (methods : List (OpenBadgeVerificationMethod N)) (policy : TrustPackageSignerPolicy) :
    Method Tables Error TrustPackageApplyResult := do
  call (validateTrustPackageSignerPolicy policy)
  applyTrustPackageInternal platform clock provenance anchors methods (some policy)

/-! ## Writes outside packages -/

/-- Writes an anchor of no package. -/
def storeTrustAnchor (anchor : TrustAnchor) : Method Tables Error Unit := do
  let tables ← get
  let rows ← call (Table.storeLegacy
    (.trustPackageConflict ("legacy write cannot replace governed trust anchor " ++ name anchor.id))
    (anchorRow platform anchor anchor.syncedAt .legacy) tables.trustAnchors)
  set ({ tables with trustAnchors := rows } : Tables)

/-- Writes a method of no package. -/
def storeOpenBadgeKey (method : OpenBadgeVerificationMethod N) : Method Tables Error Unit := do
  let tables ← get
  let rows ← call (Table.storeLegacy
    (.trustPackageConflict ("legacy write cannot replace governed method " ++ name method.id))
    (methodRow platform method method.syncedAt .legacy) tables.openBadgeKeys)
  set ({ tables with openBadgeKeys := rows } : Tables)

/-! ## Readers -/

def parseStoredTimestamp (id : Str) (field : String) (value : Option Str) : Exec Error DateTime := do
  let value ← orFail (.invalidTrustPackage ("record " ++ name id ++ " is missing " ++ field)) value
  orFail (.invalidTrustPackage ("record " ++ name id ++ " has malformed " ++ field)) (platform.parseRfc3339 value)

def parseOptionalStoredTimestamp (id : Str) (field : String) : Option Str → Exec Error (Option DateTime)
  | none => .ok none
  | some value => do return some (← parseStoredTimestamp platform id field (some value))

def requiredStoredValue (id : Str) (field : String) (value : Option Str) : Exec Error Str :=
  orFail (.invalidTrustPackage ("record " ++ name id ++ " is missing " ++ field)) (value.filter (fun v => !v.isEmpty))

inductive RecordKind where
  | anchor | method
deriving DecidableEq

def RecordKind.label : RecordKind → String
  | .anchor => "trust anchor"
  | .method => "method"

/-- The times of a method's package are read before its version. -/
def methodTimes (kind : RecordKind) (id : Str) (stored : StoredProvenance) : Exec Error (Option (DateTime × DateTime)) :=
  match kind with
  | .method => do
    let created ← parseStoredTimestamp platform id "package creation time" stored.created
    let imported ← parseStoredTimestamp platform id "package import time" stored.imported
    return some (created, imported)
  | .anchor => .ok none

/-- A time that has been read already, or the reading of it. -/
def timeOr (time : Option DateTime) (read : Exec Error DateTime) : Exec Error DateTime :=
  match time with
  | some t => .ok t
  | none => read

def StoredProvenance.decode (kind : RecordKind) (id : Str) (stored : StoredProvenance) :
    Exec Error (Option TrustPackageProvenance) :=
  match stored.domain with
  | none => do
    reject (stored ≠ .legacy)
      (.invalidTrustPackage (kind.label ++ " " ++ name id ++ " has partial package provenance"))
    return none
  | some domain => do
    let sequence ← orFail (.invalidTrustPackage (kind.label ++ " " ++ name id ++ " is missing package sequence"))
      stored.sequence
    reject (sequence < 0)
      (.invalidTrustPackage (kind.label ++ " " ++ name id ++ " has invalid package sequence"))
    let times ← methodTimes platform kind id stored
    let version ← requiredStoredValue id "package version" stored.version
    let createdAt ← timeOr (times.map Prod.fst) (parseStoredTimestamp platform id "package creation time" stored.created)
    let expiresAt ← parseStoredTimestamp platform id "package expiry time" stored.expires
    let signerKeyId ← requiredStoredValue id "package signer key id" stored.signer
    let packageDigest ← requiredStoredValue id "package digest" stored.digest
    let importedAt ← timeOr (times.map Prod.snd) (parseStoredTimestamp platform id "package import time" stored.imported)
    return some ⟨domain, sequence.toNat, version, createdAt, expiresAt, signerKeyId, packageDigest, importedAt⟩

def loadOpenBadgePackageProvenance (domain : Str) (tables : Tables) : Exec Error (Option TrustPackageProvenance) :=
  match tables.package domain with
  | none => .ok none
  | some row => do
    validateStoredTrustPackageSignerPolicy row.signerKeyId row.nextSignerKeyId row.recoverySignerKeyId
    reject (row.sequence < 0) (.invalidTrustPackage ("domain " ++ name domain ++ " has invalid stored sequence"))
    let createdAt ← orFail (.invalidTrustPackage ("domain " ++ name domain ++ " has malformed creation time"))
      (platform.parseRfc3339 row.packageCreatedAt)
    let expiresAt ← orFail (.invalidTrustPackage ("domain " ++ name domain ++ " is missing signed expiry time"))
      row.packageExpiresAt
    let expiresAt ← orFail (.invalidTrustPackage ("domain " ++ name domain ++ " has malformed expiry time"))
      (platform.parseRfc3339 expiresAt)
    let importedAt ← orFail (.invalidTrustPackage ("domain " ++ name domain ++ " has malformed import time"))
      (platform.parseRfc3339 row.importedAt)
    let provenance : TrustPackageProvenance := ⟨domain, row.sequence.toNat, row.packageVersion, createdAt, expiresAt,
      row.signerKeyId, row.packageDigest, importedAt⟩
    validateOpenBadgePackage clock provenance ([] : List (OpenBadgeVerificationMethod N))
    return some provenance

/-- The package of a domain, from the states loaded so far or from the table. -/
def packageState (clock : Str → Clock) (kind : RecordKind) (tables : Tables) (states : List (Str × TrustPackageProvenance))
    (id domain : Str) : Exec Error TrustPackageProvenance :=
  match SortedMap.lookup domain states with
  | some stored => .ok stored
  | none => do
    let loaded ← loadOpenBadgePackageProvenance platform (clock domain) domain tables
    orFail (.invalidTrustPackage (kind.label ++ " " ++ name id ++
      " references missing package state for domain " ++ name domain)) loaded

/-- The package of each governed record is the one in force. -/
def checkPackageStates (clock : Str → Clock) (kind : RecordKind) (tables : Tables) :
    List (Str × TrustPackageProvenance) → List (Str × Option TrustPackageProvenance) → Exec Error Unit
  | _, [] => .ok ()
  | states, (_, none) :: rest => checkPackageStates clock kind tables states rest
  | states, (id, some provenance) :: rest => do
    let stored ← packageState platform clock kind tables states id provenance.trustDomain
    reject (stored ≠ provenance) (.invalidTrustPackage (kind.label ++ " " ++ name id ++
      " provenance conflicts with package state for domain " ++ name provenance.trustDomain))
    checkPackageStates clock kind tables ((provenance.trustDomain, stored) :: states) rest

structure TrustAnchorRecord where
  anchor : TrustAnchor
  provenance : Option TrustPackageProvenance

structure OpenBadgeTrustRecord (N : Type) where
  method : OpenBadgeVerificationMethod N
  provenance : Option TrustPackageProvenance

def readAnchorType (id text : Str) : Exec Error TrustAnchorType :=
  orFail (.invalidTrustPackage ("trust anchor " ++ name id ++ " has unknown type " ++ name text))
    ([TrustAnchorType.iaca, .csca, .dsc].find? (fun t => t.text = text))

def readAnchorSource (id text : Str) : Exec Error TrustAnchorSource :=
  orFail (.invalidTrustPackage ("trust anchor " ++ name id ++ " has unknown source " ++ name text))
    ([TrustAnchorSource.aamvaDts, .icaoPkd, .usbImport, .manual].find? (fun s => s.text = text))

def readKeySource (id text : Str) : Exec Error OpenBadgeKeySource :=
  orFail (.invalidTrustPackage ("Open Badge method " ++ name id ++ " has unknown source " ++ name text))
    ([OpenBadgeKeySource.sync, .usbImport, .manual].find? (fun s => s.text = text))

def readAnchor (row : Row AnchorColumns) : Exec Error TrustAnchor := do
  let anchorType ← readAnchorType row.id row.body.anchorType
  let source ← readAnchorSource row.id row.body.source
  let notBefore ← parseOptionalStoredTimestamp platform row.id "not_before" row.body.notBefore
  let notAfter ← parseOptionalStoredTimestamp platform row.id "not_after" row.body.notAfter
  let syncedAt ← parseStoredTimestamp platform row.id "synced_at" (some row.body.syncedAt)
  return ⟨row.id, anchorType, row.body.jurisdiction, row.body.subject, row.body.issuer, row.body.serialNumber, notBefore,
    notAfter, row.body.certificateDer, row.body.certificateHash, source, syncedAt⟩

/-- A governed anchor is validated again, as a package of its own. -/
def revalidateAnchor (anchor : TrustAnchor) : Option TrustPackageProvenance → Exec Error Unit
  | some provenance =>
    validateTrustPackage platform clock provenance [anchor] ([] : List (OpenBadgeVerificationMethod N))
  | none => .ok ()

def mapTrustAnchorRecord (row : Row AnchorColumns) : Exec Error TrustAnchorRecord := do
  let anchor ← readAnchor platform row
  let provenance ← row.provenance.decode platform .anchor row.id
  revalidateAnchor platform clock anchor provenance
  return ⟨anchor, provenance⟩

def mapOpenBadgeKeyStrict (row : Row MethodColumns) : Exec Error (OpenBadgeVerificationMethod N) := do
  let document ← orFail
    (.invalidTrustPackage ("Open Badge method " ++ name row.id ++ " has malformed document JSON"))
    (platform.fromJson row.body.documentJson)
  let source ← readKeySource row.id row.body.source
  let notBefore ← parseOptionalStoredTimestamp platform row.id "not_before" row.body.notBefore
  let notAfter ← parseOptionalStoredTimestamp platform row.id "not_after" row.body.notAfter
  let syncedAt ← parseStoredTimestamp platform row.id "synced_at" (some row.body.syncedAt)
  return ⟨row.id, document, row.body.controller, row.body.issuer, row.body.kid, notBefore, notAfter, row.body.status,
    source, syncedAt⟩

def isObject : Json N → Bool
  | .obj _ => true
  | _ => false

/-- A governed method is validated again, as a package of its own. -/
def revalidateMethod (method : OpenBadgeVerificationMethod N) : Option TrustPackageProvenance → Exec Error Unit
  | some provenance => do
    reject (method.syncedAt ≠ provenance.createdAt)
      (.invalidTrustPackage ("governed method " ++ name method.id ++ " freshness does not match signed package time"))
    validateOpenBadgePackage clock provenance [method]
  | none => .ok ()

def mapOpenBadgeTrustRecord (row : Row MethodColumns) : Exec Error (OpenBadgeTrustRecord N) := do
  let method ← mapOpenBadgeKeyStrict platform row
  reject (row.provenance.domain.isSome = true ∧ isObject method.document = false)
    (.invalidTrustPackage ("governed method " ++ name method.id ++ " has malformed document JSON"))
  let provenance ← row.provenance.decode platform .method method.id
  revalidateMethod clock method provenance
  return ⟨method, provenance⟩

/-- The readings for each record, by its id, and for each package, by its domain. -/
structure ReaderClock where
  record : Str → Clock
  package : Str → Clock

def getTrustAnchorRecords (clock : ReaderClock) (anchorType : TrustAnchorType) (jurisdiction : Option Str)
    (tables : Tables) : Exec Error (List TrustAnchorRecord) := do
  let rows := tables.trustAnchors.filter (fun row =>
    row.body.anchorType = anchorType.text && (jurisdiction.all (fun j => row.body.jurisdiction = j)))
  let records ← rows.mapM (fun row => mapTrustAnchorRecord platform (clock.record row.id) row)
  checkPackageStates platform clock.package .anchor tables [] (records.map (fun r => (r.anchor.id, r.provenance)))
  return records

def getOpenBadgeTrustRecords (clock : ReaderClock) (tables : Tables) : Exec Error (List (OpenBadgeTrustRecord N)) := do
  let records ← tables.openBadgeKeys.mapM (fun row => mapOpenBadgeTrustRecord platform (clock.record row.id) row)
  checkPackageStates platform clock.package .method tables [] (records.map (fun r => (r.method.id, r.provenance)))
  return records

/-! ## Runs -/

/-- A call that may write. -/
inductive Call (N : Type) where
  | storeTrustAnchor (anchor : TrustAnchor)
  | storeOpenBadgeKey (method : OpenBadgeVerificationMethod N)
  | apply (clock : Clock) (provenance : TrustPackageProvenance) (anchors : List TrustAnchor)
      (methods : List (OpenBadgeVerificationMethod N)) (policy : Option TrustPackageSignerPolicy)

/-- The outcome and the tables after a call. -/
def Call.perform (call : Call N) (tables : Tables) : Exec Error Unit × Tables :=
  match call with
  | .storeTrustAnchor anchor => (Storage.storeTrustAnchor platform anchor).run tables
  | .storeOpenBadgeKey method => (Storage.storeOpenBadgeKey platform method).run tables
  | .apply clock provenance anchors methods none =>
    (applyTrustPackage platform clock provenance anchors methods >>= fun _ => pure ()).run tables
  | .apply clock provenance anchors methods (some policy) =>
    (applyTrustPackageWithSignerPolicy platform clock provenance anchors methods policy >>= fun _ => pure ()).run tables

end

end MartyCore.Storage
