import MartyCore.Lib.SortedMap
import MartyCore.Lib.Str

/-!
# `Integrity.Model` — data-group integrity reports

The embedding of `marty-verification/src/passport_integrity.rs`: `compare` goes over the expected hashes, then over the
computed hashes that nothing is expected for, counts what it finds and decides validity from the counters.

The arithmetic of `f64` and the `Debug` form of a character come in as a `Platform`. Every error of this file is a
`VerificationError::internal` and is its reason. The results and severities that the source writes as string literals
are enumerations with those texts.
-/

namespace MartyCore.Integrity

/-- The foreign code. -/
structure Platform where
  F : Type
  /-- `as f64`; the literals of the source are whole numbers as well -/
  ofNat : Nat → F
  div : F → F → F
  mul : F → F → F
  lt : F → F → Bool
  le : F → F → Bool
  round : F → F
  debugChar : Char → String

/-! ## Requests -/

structure ComputedHash where
  dataGroup : Nat
  hash : Str
  algorithm : Str
  success : Bool
  errorMessage : Option String

structure IntegrityRequest where
  algorithm : Str
  expectedHashes : SortedMap Nat Str
  computedHashes : List ComputedHash

/-! ## Reports -/

/-- The result of an entry, a text in the source (`matched` is "match"). -/
inductive ComparisonResult where
  | matched | mismatch | missingComputed | missingExpected | algorithmError
deriving DecidableEq

/-- The severity of an entry, a text in the source. -/
inductive Severity where
  | info | warning | error | critical
deriving DecidableEq

/-- What `normalize_algorithm` returns. -/
inductive Algorithm where
  | sha1 | sha256 | sha384 | sha512
deriving DecidableEq

def Algorithm.asStr : Algorithm → String
  | .sha1 => "sha1"
  | .sha256 => "sha256"
  | .sha384 => "sha384"
  | .sha512 => "sha512"

structure IntegrityEntry where
  dataGroup : Nat
  dataGroupName : String
  description : String
  result : ComparisonResult
  severity : Severity
  isMandatory : Bool
  isBiometric : Bool
  expectedHash : Option Str
  computedHash : Option Str
  algorithm : Algorithm
  message : String
  isValid : Bool
  isCriticalError : Bool

structure SimilarityAnalysis (F : Type) where
  matchingBytes : Nat
  totalBytes : Nat
  similarityPercent : F

structure MismatchDetail (F : Type) where
  dataGroup : String
  description : String
  mismatchType : String
  severity : Severity
  isMandatory : Bool
  isBiometric : Bool
  expectedHash : Option Str
  computedHash : Option Str
  hashSizeBytes : Nat
  similarityAnalysis : Option (SimilarityAnalysis F)

structure SecurityImplications where
  riskLevel : String
  riskDescription : String
  affectedMandatoryDgs : Nat
  affectedBiometricDgs : Nat
  totalAffectedDgs : Nat
  recommendations : List String

structure MismatchAnalysis (F : Type) where
  summary : String
  totalMismatches : Nat
  analysis : Option String
  detailedMismatches : List (MismatchDetail F)
  securityImplications : Option SecurityImplications

structure IntegrityReport (F : Type) where
  totalDataGroups : Nat
  successfulVerifications : Nat
  failedVerifications : Nat
  criticalErrors : Nat
  warnings : Nat
  algorithm : Algorithm
  comparisonEntries : List IntegrityEntry
  overallStatus : String
  successRatePercent : F
  mandatoryDataGroups : Nat
  isPassportValid : Bool
  mismatchAnalysis : MismatchAnalysis F

/-! ## Data groups -/

structure DataGroupInfo where
  number : Nat
  name : String
  description : String
  mandatory : Bool
  biometric : Bool

def names : List String :=
  ["DG1_MRZ", "DG2_FACE", "DG3_FINGERPRINT", "DG4_IRIS", "DG5_PORTRAIT", "DG6_RESERVED", "DG7_SIGNATURE",
    "DG8_DATA_FEATURES", "DG9_STRUCTURE_FEATURES", "DG10_SUBSTANCE_FEATURES", "DG11_ADDITIONAL_PERSONAL",
    "DG12_ADDITIONAL_DOCUMENT", "DG13_OPTIONAL_DETAILS", "DG14_SECURITY_INFOS", "DG15_ACTIVE_AUTH"]

def descriptions : List String :=
  ["Machine Readable Zone (MRZ) data", "Encoded face biometric data", "Encoded fingerprint biometric data",
    "Encoded iris biometric data", "Displayed portrait image", "Reserved for future use",
    "Displayed signature or mark", "Data features", "Structure features", "Substance features",
    "Additional personal details", "Additional document details", "Optional details", "Security infos",
    "Active authentication public key info"]

def dataGroupInfo (number : Nat) : Option DataGroupInfo :=
  if number = 0 then none
  else do
    let name ← names[number - 1]?
    let description ← descriptions[number - 1]?
    some
      { number := number
        name := name
        description := description
        mandatory := number = 1 ∨ number = 2
        biometric := 2 ≤ number ∧ number ≤ 4 }

/-! ## Hashes in hexadecimal -/

section

variable (platform : Platform)

/-- `val` of the `hex` crate. -/
def hexVal (c : UInt8) (index : Nat) : Except String UInt8 :=
  if 65 ≤ c ∧ c ≤ 70 then .ok (c - 65 + 10)
  else if 97 ≤ c ∧ c ≤ 102 then .ok (c - 97 + 10)
  else if 48 ≤ c ∧ c ≤ 57 then .ok (c - 48)
  else .error ("Invalid character " ++ platform.debugChar (Str.charOfByte c) ++ " at position " ++ toString index)

/-- Pair by pair, from byte `index` on. -/
def hexPairs : Nat → Bytes → Except String Bytes
  | index, high :: low :: rest => do
    let high ← hexVal platform high index
    let low ← hexVal platform low (index + 1)
    let bytes ← hexPairs (index + 2) rest
    .ok ((high <<< 4 ||| low) :: bytes)
  | _, _ => .ok []

/-- `hex::decode`. -/
def hexDecode (value : Str) : Except String Bytes := do
  Result.reject (value.bytes.length % 2 ≠ 0) "Odd number of digits"
  hexPairs platform 0 value.bytes

def upperHexDigit (n : Nat) : Char := if n < 10 then Char.ofNat (48 + n) else Char.ofNat (55 + n)

def hexUpper (value : Bytes) : Str :=
  value.flatMap (fun b => [upperHexDigit (b.toNat / 16), upperHexDigit (b.toNat % 16)])

def decodeHash (value : Str) (kind : String) (dg : Nat) : Except String Bytes :=
  (hexDecode platform value).mapError
    (fun error => "invalid " ++ kind ++ " hash for DG" ++ toString dg ++ ": " ++ error)

def decodeOptional : Option Str → Except String (Option Bytes)
  | none => .ok none
  | some value => (decodeHash platform value "report" 0).map some

end

/-! ## Comparison -/

section

/-- `to_ascii_lowercase` and the removal of hyphens. -/
def normalizedName (value : Str) : Str := (value.map Char.toLower).filter (· ≠ '-')

def normalizeAlgorithm (value : Str) : Except String Algorithm :=
  if normalizedName value = "sha1".toList then .ok .sha1
  else if normalizedName value = "sha256".toList then .ok .sha256
  else if normalizedName value = "sha384".toList then .ok .sha384
  else if normalizedName value = "sha512".toList then .ok .sha512
  else .error ("unsupported hash algorithm: " ++ String.ofList value)

def makeEntry (info : DataGroupInfo) (result : ComparisonResult) (severity : Severity) (expected computed : Option Bytes)
    (algorithm : Algorithm) (message : String) : IntegrityEntry where
  dataGroup := info.number
  dataGroupName := info.name
  description := info.description
  result := result
  severity := severity
  isMandatory := info.mandatory
  isBiometric := info.biometric
  expectedHash := expected.map hexUpper
  computedHash := computed.map hexUpper
  algorithm := algorithm
  message := message
  isValid := result = .matched
  isCriticalError := severity = .critical ∨ (result = .mismatch ∧ info.mandatory = true)

/-- The loop that collects the computed hashes. -/
def collectComputed : List ComputedHash → SortedMap Nat ComputedHash → Except String (SortedMap Nat ComputedHash)
  | [], computed => .ok computed
  | item :: rest, computed => do
    Result.reject ((computed.get? item.dataGroup).isSome = true)
      ("duplicate computed hash for DG" ++ toString item.dataGroup)
    collectComputed rest (computed.insert item.dataGroup item)

/-- `if info.mandatory { "critical" } else { "warning" }`. -/
def DataGroupInfo.missSeverity (info : DataGroupInfo) : Severity := if info.mandatory then .critical else .warning

variable (platform : Platform)

/-- The comparison of two hashes that were both computed. -/
def comparisonEntry (info : DataGroupInfo) (algorithm computedAlgorithm : Algorithm) (expected actual : Bytes) :
    IntegrityEntry :=
  if computedAlgorithm ≠ algorithm then
    makeEntry info .algorithmError .error (some expected) (some actual) algorithm
      ("Algorithm mismatch: expected " ++ algorithm.asStr ++ ", got " ++ computedAlgorithm.asStr)
  else if expected.length ≠ actual.length then
    -- critical for an optional group too
    makeEntry info .mismatch .critical (some expected) (some actual) algorithm
      ("Hash size mismatch: expected " ++ toString expected.length ++ " bytes, got " ++ toString actual.length
        ++ " bytes")
  else if expected = actual then
    makeEntry info .matched .info (some expected) (some actual) algorithm
      ("Hash verification successful for " ++ info.description)
  else
    makeEntry info .mismatch info.missSeverity (some expected) (some actual) algorithm
      ("Hash mismatch detected for " ++ info.description)

/-- The entry for one expected hash. -/
def expectedEntry (algorithm : Algorithm) (computed : SortedMap Nat ComputedHash) (info : DataGroupInfo) (dg : Nat)
    (expectedHex : Str) : Except String IntegrityEntry := do
  let expected ← decodeHash platform expectedHex "expected" dg
  match computed.get? dg with
  | none =>
    .ok (makeEntry info .missingComputed info.missSeverity (some expected) none algorithm
      ("Computed hash missing for " ++ info.description))
  | some value =>
    if value.success then do
      let computedAlgorithm ← normalizeAlgorithm value.algorithm
      let actual ← decodeHash platform value.hash "computed" dg
      .ok (comparisonEntry info algorithm computedAlgorithm expected actual)
    else
      .ok (makeEntry info .missingComputed info.missSeverity (some expected) none algorithm
        (value.errorMessage.getD ("Computed hash missing for " ++ info.description)))

/-- The entries so far, and the counters. -/
structure Tally where
  entries : List IntegrityEntry
  successful : Nat
  failed : Nat
  critical : Nat
  warnings : Nat

def Tally.empty : Tally := ⟨[], 0, 0, 0, 0⟩

def Tally.record (tally : Tally) (entry : IntegrityEntry) : Tally :=
  if entry.isValid then { tally with entries := tally.entries ++ [entry], successful := tally.successful + 1 }
  else if entry.isCriticalError then
    { tally with
      entries := tally.entries ++ [entry]
      failed := tally.failed + 1
      critical := tally.critical + 1 }
  else
    { tally with
      entries := tally.entries ++ [entry]
      failed := tally.failed + 1
      warnings := tally.warnings + 1 }

/-- The loop over the expected hashes; a number that is no data group is skipped before its hash is looked at. -/
def compareExpected (algorithm : Algorithm) (computed : SortedMap Nat ComputedHash) :
    List (Nat × Str) → Tally → Except String Tally
  | [], tally => .ok tally
  | (dg, expectedHex) :: rest, tally =>
    match dataGroupInfo dg with
    | none => compareExpected algorithm computed rest tally
    | some info => do
      let entry ← expectedEntry platform algorithm computed info dg expectedHex
      compareExpected algorithm computed rest (tally.record entry)

/-- The loop over the computed hashes for which none is expected; these entries are not counted. -/
def compareUnexpected (algorithm : Algorithm) (expectedHashes : SortedMap Nat Str) :
    List ComputedHash → Except String (List IntegrityEntry)
  | [] => .ok []
  | item :: rest =>
    if (expectedHashes.get? item.dataGroup).isSome then compareUnexpected algorithm expectedHashes rest
    else
      match dataGroupInfo item.dataGroup with
      | none => compareUnexpected algorithm expectedHashes rest
      | some info => do
        let actual ← decodeHash platform item.hash "computed" item.dataGroup
        let entries ← compareUnexpected algorithm expectedHashes rest
        .ok (makeEntry info .missingExpected .info none (some actual) algorithm
          ("No expected hash in SOD for " ++ info.description) :: entries)

end

/-! ## Mismatch analysis -/

section

variable (platform : Platform)

def round2 (value : platform.F) : platform.F :=
  platform.div (platform.round (platform.mul value (platform.ofNat 100))) (platform.ofNat 100)

/-- `part as f64 / whole as f64 * 100.0`. -/
def percent (part whole : Nat) : platform.F :=
  platform.mul (platform.div (platform.ofNat part) (platform.ofNat whole)) (platform.ofNat 100)

def mismatchSimilarity : Option Bytes → Option Bytes → String × Option (SimilarityAnalysis platform.F)
  | some expected, some computed =>
    if expected.length ≠ computed.length then ("size_mismatch", none)
    else if expected = [] then ("unknown", none)
    else
      let matching := (expected.zip computed).countP (fun pair => pair.1 = pair.2)
      let similarity := percent platform matching expected.length
      if platform.lt similarity (platform.ofNat 10) then ("completely_different", none)
      else
        (if platform.lt similarity (platform.ofNat 50) then "partially_different" else "minor_difference",
          some ⟨matching, expected.length, round2 platform similarity⟩)
  | _, _ => ("unknown", none)

def mismatchDetail (entry : IntegrityEntry) : Except String (MismatchDetail platform.F) := do
  let expected ← decodeOptional platform entry.expectedHash
  let computed ← decodeOptional platform entry.computedHash
  let (kind, similarity) := mismatchSimilarity platform expected computed
  .ok
    { dataGroup := entry.dataGroupName
      description := entry.description
      mismatchType := kind
      severity := entry.severity
      isMandatory := entry.isMandatory
      isBiometric := entry.isBiometric
      expectedHash := entry.expectedHash
      computedHash := entry.computedHash
      hashSizeBytes := (expected.map List.length).getD 0
      similarityAnalysis := similarity }

def mismatchDetails : List IntegrityEntry → Except String (List (MismatchDetail platform.F))
  | [] => .ok []
  | entry :: rest => do
    let detail ← mismatchDetail platform entry
    let details ← mismatchDetails rest
    .ok (detail :: details)

/-- Level, description and recommendations. -/
def riskAssessment (critical mandatory biometric total : Nat) : String × String × List String :=
  if critical > 0 ∨ mandatory > 0 then
    ("HIGH", "Critical security risk - mandatory data groups compromised",
      ["REJECT passport - critical security failure detected",
        "Verify passport authenticity through alternative means",
        "Report potential document tampering to authorities",
        "Do not rely on digital verification for this document"])
  else if biometric > 0 ∨ total > 3 then
    ("MEDIUM",
      if biometric > 0 then "Moderate security risk - biometric data integrity compromised"
      else "Moderate security risk - multiple data groups affected",
      ["Exercise caution - moderate security concerns detected",
        "Perform additional manual verification steps",
        "Consider secondary authentication methods",
        "Review biometric data integrity if affected"])
  else
    ("LOW", "Low security risk - limited impact to optional data groups",
      ["Proceed with caution - minor integrity issues detected",
        "Document findings for audit trail",
        "Consider re-scanning if possible"])

def joinNames (entries : List IntegrityEntry) : String :=
  String.intercalate ", " (entries.map IntegrityEntry.dataGroupName)

def securityImplications (mismatches : List IntegrityEntry) : SecurityImplications :=
  let mandatory := mismatches.filter IntegrityEntry.isMandatory
  let biometric := mismatches.filter IntegrityEntry.isBiometric
  let critical := mismatches.countP IntegrityEntry.isCriticalError
  let (risk, description, recommendations) :=
    riskAssessment critical mandatory.length biometric.length mismatches.length
  { riskLevel := risk
    riskDescription := description
    affectedMandatoryDgs := mandatory.length
    affectedBiometricDgs := biometric.length
    totalAffectedDgs := mismatches.length
    recommendations := recommendations
      ++ (if mandatory = [] then []
          else ["Pay special attention to mandatory data groups: " ++ joinNames mandatory])
      ++ (if biometric = [] then [] else ["Verify biometric data independently: " ++ joinNames biometric]) }

def analyzeMismatches (entries : List IntegrityEntry) : Except String (MismatchAnalysis platform.F) := do
  let mismatches := entries.filter (fun entry => entry.result = .mismatch)
  if mismatches.isEmpty then
    .ok
      { summary := "No hash mismatches detected"
        totalMismatches := 0
        analysis := some "All data group hashes match their expected values"
        detailedMismatches := []
        securityImplications := none }
  else do
    let details ← mismatchDetails platform mismatches
    .ok
      { summary := toString mismatches.length ++ " hash mismatches detected"
        totalMismatches := mismatches.length
        analysis := none
        detailedMismatches := details
        securityImplications := some (securityImplications mismatches) }

end

/-! ## The report -/

section

variable (platform : Platform)

def overallStatus (tally : Tally) : String :=
  if tally.critical > 0 then "FAILED - Critical errors detected"
  else if tally.failed > tally.successful then "FAILED - More failures than successes"
  else if tally.warnings > 0 then "PASSED - With warnings"
  else "PASSED - All verifications successful"

def successRate (tally : Tally) (total : Nat) : platform.F :=
  if total = 0 then platform.ofNat 0 else percent platform tally.successful total

def isValid (tally : Tally) (entries : List IntegrityEntry) : Bool :=
  decide (tally.critical = 0) && decide (tally.successful ≥ entries.countP IntegrityEntry.isMandatory) &&
    platform.le (platform.ofNat 80) (successRate platform tally entries.length)

def compare (request : IntegrityRequest) : Except String (IntegrityReport platform.F) := do
  let algorithm ← normalizeAlgorithm request.algorithm
  let computed ← collectComputed request.computedHashes .empty
  let tally ← compareExpected platform algorithm computed request.expectedHashes.entries .empty
  let unexpected ← compareUnexpected platform algorithm request.expectedHashes request.computedHashes
  let entries := (tally.entries ++ unexpected).insertionSort (fun a b => a.dataGroup ≤ b.dataGroup)
  let mismatchAnalysis ← analyzeMismatches platform entries
  .ok
    { totalDataGroups := entries.length
      successfulVerifications := tally.successful
      failedVerifications := tally.failed
      criticalErrors := tally.critical
      warnings := tally.warnings
      algorithm := algorithm
      comparisonEntries := entries
      overallStatus := overallStatus tally
      successRatePercent := round2 platform (successRate platform tally entries.length)
      mandatoryDataGroups := entries.countP IntegrityEntry.isMandatory
      isPassportValid := isValid platform tally entries
      mismatchAnalysis := mismatchAnalysis }

end

end MartyCore.Integrity
