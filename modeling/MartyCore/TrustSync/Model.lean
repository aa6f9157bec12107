import Mathlib.Data.String.Basic
import MartyCore.Lib.Bytes
import MartyCore.Lib.Exec
import MartyCore.Lib.SortedMap

/-!
# `TrustSync.Model` — evaluating a paged trust-registry feed

The embedding of the synchronization core of `marty-verification/src/trust_sync.rs`: the shape checks of a
feed page and of a stored state, the certificate check of one entry, the revalidation of the stored entries,
and `evaluatePages`, which folds a list of pages over the stored state.

Certificate parsing and RFC 3339 text are foreign code and come in as a `Platform`. `evaluatePages` is
`evaluatePagesWith` at the certificate check of this module; the results that do not depend on that check are
proved for an arbitrary one. Instants are nanoseconds since the epoch. The sequence is only compared and
copied, never computed with, so it is a `Nat`.
-/

namespace MartyCore.TrustSync

open Exec

/-! ## UUID texts -/

namespace Uuid

def hexDigit (c : Char) : Option Nat :=
  if '0' ≤ c ∧ c ≤ '9' then some (c.toNat - '0'.toNat)
  else if 'a' ≤ c ∧ c ≤ 'f' then some (c.toNat - 'a'.toNat + 10)
  else if 'A' ≤ c ∧ c ≤ 'F' then some (c.toNat - 'A'.toNat + 10)
  else none

/-- Hexadecimal digits, most significant first. -/
def parseSimple (digits : List Char) : Option Nat :=
  digits.foldlM (fun value c => (hexDigit c).map (fun d => value * 16 + d)) 0

/-- `8-4-4-4-12` digits, of 36 characters. -/
def parseHyphenated (s : List Char) : Option Nat :=
  if s[8]? = some '-' ∧ s[13]? = some '-' ∧ s[18]? = some '-' ∧ s[23]? = some '-' then
    parseSimple (s.take 8 ++ (s.drop 9).take 4 ++ (s.drop 14).take 4 ++ (s.drop 19).take 4 ++ s.drop 24)
  else none

/-- `Uuid::parse_str`: simple, hyphenated, braced or URN, told apart by length. The crate works on bytes; every
    byte it accepts is ASCII, so characters are bytes on every text it accepts. -/
def parseStr (input : String) : Option Nat :=
  let s := input.toList
  if s.length = 32 then parseSimple s
  else if s.length = 36 then parseHyphenated s
  else if s.length = 38 ∧ s.head? = some '\x7b' ∧ s.getLast? = some '\x7d' then
    parseHyphenated ((s.drop 1).take 36)
  else if s.length = 45 ∧ s.take 9 = "urn:uuid:".toList then parseHyphenated (s.drop 9)
  else none

end Uuid

/-! ## Registry data -/

structure TrustSyncError where
  code : String
  message : String
deriving DecidableEq, Repr

inductive AnchorType where
  | csca | dsc
deriving DecidableEq, Repr

inductive RegistryOperation where
  | add | remove
deriving DecidableEq, Repr

inductive RegistrySource where
  | icaoPkd | aamva | eudiLotl | manual
deriving DecidableEq, Repr

/-- `DateTime<Utc>`, in nanoseconds. -/
abbrev DateTime := Int

structure RegistryEntry where
  entryId : String
  anchorType : AnchorType
  operation : RegistryOperation
  countryCode : String
  certificatePem : Option String
  subjectKeyId : Option String
  notBefore : Option DateTime
  notAfter : Option DateTime
  source : RegistrySource
deriving DecidableEq

structure RegistryFeed where
  syncToken : String
  sequence : Nat
  entries : List RegistryEntry
  hasMore : Bool
  generatedAt : DateTime
deriving DecidableEq

structure ImportedRegistryEntry where
  entryId : String
  anchorType : AnchorType
  countryCode : String
  certificatePem : String
  source : RegistrySource
  subjectKeyId : Option String
  notBefore : Option String
  notAfter : Option String
deriving DecidableEq, Repr

/-- The entries of a stored state, by storage id. -/
abbrev EntryMap := SortedMap String ImportedRegistryEntry

structure RegistryImportState where
  syncToken : Option String
  sequence : Nat
  entries : EntryMap
  synchronizedAt : Option DateTime
deriving DecidableEq

/-- `RegistryImportState::default()`. -/
def RegistryImportState.default : RegistryImportState where
  syncToken := none
  sequence := 0
  entries := SortedMap.empty
  synchronizedAt := none

structure RegistryEvaluation where
  complete : Bool
  pages : Nat
  nextToken : String
  state : Option RegistryImportState
deriving DecidableEq

def maxPages : Nat := 100
def maxEntriesPerPage : Nat := 10000

/-! ## Shape checks -/

/-- Lengths are in UTF-8 bytes; an upper-case ASCII byte is an upper-case ASCII character. -/
def validateCountry (country : String) : Exec TrustSyncError Unit :=
  reject
    (¬ (2 ≤ country.utf8ByteSize ∧ country.utf8ByteSize ≤ 3) ∨ country.toList.all Char.isUpper = false)
    ⟨"INVALID_COUNTRY", "registry country_code must contain 2 or 3 uppercase ASCII letters"⟩

def validateRemoteEntryShape (entry : RegistryEntry) : Exec TrustSyncError Unit := do
  reject (Uuid.parseStr entry.entryId = none) ⟨"INVALID_ENTRY", "registry entry_id must be a UUID"⟩
  validateCountry entry.countryCode
  reject (entry.subjectKeyId.any (fun value => decide (value.utf8ByteSize > 512)) = true)
    ⟨"INVALID_ENTRY", "registry subject_key_id exceeds the size limit"⟩
  match entry.operation with
  | .add =>
    let pem ← orFail ⟨"MISSING_CERTIFICATE", "ADD registry entries require certificate_pem"⟩
      entry.certificatePem
    reject (pem.utf8ByteSize > 64 * 1024)
      ⟨"CERTIFICATE_TOO_LARGE", "registry certificate exceeds the size limit"⟩
  | .remove =>
    reject (entry.certificatePem.isSome = true)
      ⟨"UNEXPECTED_CERTIFICATE", "REMOVE registry entries must not include certificate_pem"⟩

def validateEntryShapes : List RegistryEntry → Exec TrustSyncError Unit
  | [] => .ok ()
  | entry :: rest => do
    validateRemoteEntryShape entry
    validateEntryShapes rest

def validateFeed (feed : RegistryFeed) : Exec TrustSyncError Unit := do
  reject (feed.syncToken.isEmpty = true ∨ feed.syncToken.utf8ByteSize > 2048)
    ⟨"INVALID_SYNC_TOKEN", "registry sync token must contain between 1 and 2048 bytes"⟩
  reject (feed.entries.length > maxEntriesPerPage)
    ⟨"TOO_MANY_ENTRIES", "registry page exceeds the entry limit"⟩
  validateEntryShapes feed.entries

/-- The loop of `validate_state_shape` over the stored entries. -/
def validateStoredEntries : List (String × ImportedRegistryEntry) → Exec TrustSyncError Unit
  | [] => .ok ()
  | (storageId, entry) :: rest => do
    reject (storageId ≠ entry.entryId ∨ Uuid.parseStr storageId = none)
      ⟨"INVALID_STATE", "stored registry entry identity is inconsistent"⟩
    mapErr (fun _ => ⟨"INVALID_STATE", "stored registry entry is invalid"⟩)
      (validateCountry entry.countryCode)
    reject (entry.certificatePem.utf8ByteSize > 64 * 1024)
      ⟨"INVALID_STATE", "stored registry entry is invalid"⟩
    validateStoredEntries rest

def validateStateShape (state : RegistryImportState) : Exec TrustSyncError Unit := do
  reject
    (state.syncToken.any (fun token => token.isEmpty || decide (token.utf8ByteSize > 2048)) = true)
    ⟨"INVALID_STATE", "stored registry sync token is invalid"⟩
  validateStoredEntries state.entries.entries

/-! ## The certificate check -/

/-- What `get_certificate_info` reports, as far as it is read here. -/
structure CertificateInfo where
  notBefore : String
  notAfter : String
  isCa : Bool
  keyUsage : List String
deriving DecidableEq

/-- The foreign code: PEM and certificate parsing, RFC 3339 text. -/
structure Platform where
  loadCertificatePem : String → Option Bytes
  getCertificateInfo : Bytes → Option CertificateInfo
  parseFromRfc3339 : String → Option DateTime
  toRfc3339 : DateTime → String

/-- `TimeDelta::num_milliseconds`: whole milliseconds, towards zero. -/
def numMilliseconds (delta : Int) : Int := delta.tdiv 1000000

/-- `expected` is more than a second away from `actual`, in whole milliseconds. -/
def timeMismatch (expected : Option DateTime) (actual : DateTime) : Bool :=
  expected.any (fun expected => decide ((numMilliseconds (expected - actual)).natAbs > 1000))

/-- The certificate profile an anchor type asks for. -/
def validateProfile (anchorType : AnchorType) (info : CertificateInfo) : Exec TrustSyncError Unit :=
  let hasKeyCertSign := info.keyUsage.contains "keyCertSign"
  let hasDigitalSignature := info.keyUsage.contains "digitalSignature"
  match anchorType with
  | .csca =>
    reject (info.isCa = false ∨ hasKeyCertSign = false)
      ⟨"INVALID_CSCA_PROFILE", "CSCA entry is not a certificate-signing CA"⟩
  | .dsc =>
    reject (info.isCa = true ∨ hasDigitalSignature = false)
      ⟨"INVALID_DSC_PROFILE", "DSC entry is not a document-signing certificate"⟩

def validateCertificate (platform : Platform) (entry : RegistryEntry) (now : DateTime) :
    Exec TrustSyncError ImportedRegistryEntry := do
  let pem ← expect "ADD entry shape validation guarantees certificate material" entry.certificatePem
  let der ← orFail ⟨"INVALID_CERTIFICATE", "registry entry contains an invalid certificate"⟩
    (platform.loadCertificatePem pem)
  let info ← orFail ⟨"INVALID_CERTIFICATE", "registry entry contains an invalid certificate"⟩
    (platform.getCertificateInfo der)
  let notBefore ← orFail ⟨"INVALID_CERTIFICATE", "certificate validity is invalid"⟩
    (platform.parseFromRfc3339 info.notBefore)
  let notAfter ← orFail ⟨"INVALID_CERTIFICATE", "certificate validity is invalid"⟩
    (platform.parseFromRfc3339 info.notAfter)
  -- the last instant is excluded
  reject (now < notBefore ∨ now ≥ notAfter)
    ⟨"CERTIFICATE_NOT_CURRENT", "registry entry certificate is not currently valid"⟩
  reject (timeMismatch entry.notBefore notBefore = true)
    ⟨"CERTIFICATE_TIME_MISMATCH", "registry entry not_before does not match its certificate"⟩
  reject (timeMismatch entry.notAfter notAfter = true)
    ⟨"CERTIFICATE_TIME_MISMATCH", "registry entry not_after does not match its certificate"⟩
  validateProfile entry.anchorType info
  .ok { entryId := entry.entryId
        anchorType := entry.anchorType
        countryCode := entry.countryCode
        certificatePem := pem
        source := entry.source
        subjectKeyId := entry.subjectKeyId
        notBefore := some (platform.toRfc3339 notBefore)
        notAfter := some (platform.toRfc3339 notAfter) }

/-! ## Revalidating stored entries -/

/-- A check of one ADD entry at an instant: `validateCertificate platform`, or any other. -/
abbrev EntryCheck := RegistryEntry → DateTime → Exec TrustSyncError ImportedRegistryEntry

section

variable (parseFromRfc3339 : String → Option DateTime) (check : EntryCheck)

def parseOptionalTime (value : Option String) : Exec TrustSyncError (Option DateTime) :=
  match value with
  | none => .ok none
  | some raw =>
    match parseFromRfc3339 raw with
    | some time => .ok (some time)
    | none => fail ⟨"INVALID_STATE", "stored registry entry is invalid"⟩

/-- One stored entry: rebuilt as an ADD, checked for shape and against its certificate. -/
def revalidateEntry (storageId : String) (imported : ImportedRegistryEntry) (now : DateTime) :
    Exec TrustSyncError ImportedRegistryEntry := do
  reject (storageId ≠ imported.entryId)
    ⟨"INVALID_STATE", "stored registry entry identity is inconsistent"⟩
  let notBefore ← parseOptionalTime parseFromRfc3339 imported.notBefore
  let notAfter ← parseOptionalTime parseFromRfc3339 imported.notAfter
  let candidate : RegistryEntry :=
    { entryId := imported.entryId
      anchorType := imported.anchorType
      operation := .add
      countryCode := imported.countryCode
      certificatePem := some imported.certificatePem
      subjectKeyId := imported.subjectKeyId
      notBefore := notBefore
      notAfter := notAfter
      source := imported.source }
  mapErr (fun _ => ⟨"INVALID_STATE", "stored registry entry is invalid"⟩)
    (validateRemoteEntryShape candidate)
  check candidate now

/-- The loop of `revalidate_entries`, in key order. -/
def revalidateLoop (now : DateTime) : List (String × ImportedRegistryEntry) → EntryMap → Exec TrustSyncError EntryMap
  | [], validated => .ok validated
  | (storageId, imported) :: rest, validated => do
    let entry ← revalidateEntry parseFromRfc3339 check storageId imported now
    revalidateLoop now rest (validated.insert storageId entry)

def revalidateEntries (entries : EntryMap) (now : DateTime) : Exec TrustSyncError EntryMap :=
  revalidateLoop parseFromRfc3339 check now entries.entries SortedMap.empty

/-! ## Evaluating the pages -/

/-- One remote entry against the working map and the ids seen so far. -/
def applyEntry (initialSync : Bool) (now : DateTime) (remote : RegistryEntry) (entries : EntryMap)
    (seen : List String) : Exec TrustSyncError (EntryMap × List String) := do
  -- ids are compared as texts, here and in the map
  reject (remote.entryId ∈ seen)
    ⟨"DUPLICATE_ENTRY", "registry sync contains a duplicate entry"⟩
  match remote.operation with
  | .remove =>
    reject (initialSync = true)
      ⟨"INITIAL_REMOVAL", "initial registry sync contains a removal"⟩
    reject (entries.get? remote.entryId = none)
      ⟨"UNKNOWN_REMOVAL", "registry removed an unknown source entry"⟩
    .ok (entries.erase remote.entryId, remote.entryId :: seen)
  | .add =>
    let imported ← check remote now
    .ok (entries.insert remote.entryId imported, remote.entryId :: seen)

def applyEntries (initialSync : Bool) (now : DateTime) :
    List RegistryEntry → EntryMap → List String → Exec TrustSyncError (EntryMap × List String)
  | [], entries, seen => .ok (entries, seen)
  | remote :: rest, entries, seen => do
    let (entries, seen) ← applyEntry check initialSync now remote entries seen
    applyEntries initialSync now rest entries seen

/-- The mutable variables of the page loop. -/
structure PageLoop where
  entries : EntryMap
  currentSequence : Nat
  previousPageToken : Option String
  seen : List String

/-- One page, at its index among `pageCount` pages. -/
def applyPage (previous : RegistryImportState) (now : DateTime) (pageCount index : Nat)
    (feed : RegistryFeed) (state : PageLoop) : Exec TrustSyncError PageLoop := do
  validateFeed feed
  reject (index + 1 < pageCount ∧ feed.hasMore = false)
    ⟨"UNEXPECTED_PAGE", "registry supplied a page after synchronization completed"⟩
  reject (feed.sequence < state.currentSequence)
    ⟨"SEQUENCE_ROLLBACK", "registry sequence rollback was rejected"⟩
  -- looks at the entries of the first page only
  reject (index = 0 ∧ previous.syncToken ≠ none ∧ feed.entries ≠ [] ∧ feed.sequence = previous.sequence)
    ⟨"SEQUENCE_NOT_ADVANCED", "registry changes did not advance the sequence"⟩
  reject (state.previousPageToken = some feed.syncToken)
    ⟨"REPEATED_TOKEN", "registry repeated a pagination token"⟩
  let (entries, seen) ←
    applyEntries check previous.syncToken.isNone now feed.entries state.entries state.seen
  .ok { entries := entries
        currentSequence := feed.sequence
        previousPageToken := some feed.syncToken
        seen := seen }

def applyPages (previous : RegistryImportState) (now : DateTime) (pageCount : Nat) :
    Nat → List RegistryFeed → PageLoop → Exec TrustSyncError PageLoop
  | _, [], state => .ok state
  | index, feed :: rest, state => do
    let state ← applyPage check previous now pageCount index feed state
    applyPages previous now pageCount (index + 1) rest state

/-- The working map a synchronization starts from: empty on an initial one. -/
def baseEntries (previous : RegistryImportState) : EntryMap :=
  if previous.syncToken.isNone then SortedMap.empty else previous.entries

/-- The loop variables before the first page. -/
def initialLoop (previous : RegistryImportState) : PageLoop where
  entries := baseEntries previous
  currentSequence := previous.sequence
  previousPageToken := none
  seen := []

/-- `evaluate_pages` with its certificate check as a parameter. -/
def evaluatePagesWith (previous : RegistryImportState) (pages : List RegistryFeed) (now : DateTime) :
    Exec TrustSyncError RegistryEvaluation := do
  validateStateShape previous
  reject (pages = []) ⟨"MISSING_PAGE", "registry synchronization requires at least one page"⟩
  reject (pages.length > maxPages) ⟨"PAGE_LIMIT", "registry pagination exceeded the page limit"⟩
  let state ← applyPages check previous now pages.length 0 pages (initialLoop previous)
  let last ← expect "pages was checked as non-empty" pages.getLast?
  if last.hasMore then do
    reject (pages.length = maxPages) ⟨"PAGE_LIMIT", "registry pagination exceeded the page limit"⟩
    .ok { complete := false, pages := pages.length, nextToken := last.syncToken, state := none }
  else do
    -- also the entries that no page named
    let entries ← revalidateEntries parseFromRfc3339 check state.entries now
    .ok { complete := true
          pages := pages.length
          nextToken := last.syncToken
          state := some { syncToken := some last.syncToken
                          sequence := state.currentSequence
                          entries := entries
                          synchronizedAt := some now } }

end

/-- `evaluate_pages`. -/
def evaluatePages (platform : Platform) (previous : RegistryImportState) (pages : List RegistryFeed)
    (now : DateTime) : Exec TrustSyncError RegistryEvaluation :=
  evaluatePagesWith platform.parseFromRfc3339 (validateCertificate platform) previous pages now

end MartyCore.TrustSync
