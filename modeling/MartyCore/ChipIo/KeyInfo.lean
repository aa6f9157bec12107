import MartyCore.Mrz.Model

/-!
# `ChipIo.KeyInfo` — access keys from a machine-readable zone

The embedding of the key derivation of `marty-verification/src/chip_io/mod.rs`: the validated fields of a BAC
access key (`MrzKeyInfo`), the keys derived from them, and the password key of the compatibility PACE exchange,
which parses a whole zone.

Both hash a text and go on from its hash. The texts are definitions of their own (`MrzKeyInfo.mrzInfo`,
`pacePasswordText`); SHA-1 is foreign code.
-/

namespace MartyCore.ChipIo

/-! ## Check digits -/

/-- The filler and every other byte count nothing. -/
def byteValue (b : UInt8) : UInt32 :=
  if 0x30 ≤ b ∧ b ≤ 0x39 then (b - 0x30).toUInt32
  else if 0x41 ≤ b ∧ b ≤ 0x5A then (b - 0x41 + 10).toUInt32
  else 0

/-- The second check-digit function of the repository, on bytes. -/
def mrzCheckDigit (data : Bytes) : UInt8 := 0x30 + (Mrz.weightedSum (data.map byteValue) % 10).toUInt8

/-- A field and its check digit. -/
def withCheckDigit (field : Str) : Str := field ++ [Str.charOfByte (mrzCheckDigit (Str.bytes field))]

/-! ## BAC -/

structure MrzKeyInfo where
  docNumberWithCheck : Str
  dobWithCheck : Str
  expiryWithCheck : Str
deriving DecidableEq

def MrzKeyInfo.tryFromMrzFields (docNumber dob expiry : Str) : Exec String MrzKeyInfo := do
  Exec.reject (docNumber.len ≠ 9 ∨ docNumber.all (fun c => c.isUpper || c.isDigit || c == '<') = false)
    "BAC document number must be exactly 9 uppercase MRZ characters"
  Exec.reject (dob.len ≠ 6 ∨ expiry.len ≠ 6 ∨ dob.all Char.isDigit = false ∨ expiry.all Char.isDigit = false)
    "BAC dates must be exactly 6 ASCII digits"
  -- all three are ASCII now, so their lengths in bytes are lengths in characters
  .ok ⟨withCheckDigit docNumber, withCheckDigit dob, withCheckDigit expiry⟩

/-- The text that is hashed for BAC. -/
def MrzKeyInfo.mrzInfo (mrz : MrzKeyInfo) : Str :=
  mrz.docNumberWithCheck ++ mrz.dobWithCheck ++ mrz.expiryWithCheck

/-- `hash[..16]`. -/
def firstSixteen (hash : Block 20) : Block 16 where
  bytes := hash.bytes.take 16
  length_eq := by rw [List.length_take, hash.length_eq]; rfl

/-- Flips the lowest bit where the parity is even. -/
def adjustDesParity (key : Block 16) : Block 16 where
  bytes := key.bytes.map (fun b => if countOnes b % 2 = 0 then b ^^^ 0x01 else b)
  length_eq := by rw [List.length_map, key.length_eq]

def bacKdf16 (sha1 : Bytes → Block 20) (seed : Block 16) (counter : UInt8) : Block 16 :=
  adjustDesParity (firstSixteen (sha1 (seed.bytes ++ [0x00, 0x00, 0x00, counter])))

structure BacKeys where
  kEnc : Block 16
  kMac : Block 16
deriving DecidableEq

def deriveBacBaseKeysInner (sha1 : Bytes → Block 20) (mrz : MrzKeyInfo) : Exec String BacKeys := do
  Exec.reject (mrz.mrzInfo.len ≠ 24)
    ("BAC: MRZ key info must be 24 chars (doc10+dob7+exp7), got " ++ toString mrz.mrzInfo.len)
  let kseed := firstSixteen (sha1 (Str.bytes mrz.mrzInfo))
  .ok ⟨bacKdf16 sha1 kseed 1, bacKdf16 sha1 kseed 2⟩

/-! ## PACE -/

/-- The key information of a parsed zone: only letters and digits of the document number are kept. -/
def paceInformation (parsed : Mrz) : Str :=
  -- this drops the fillers inside the number too, and the padding puts as many behind it
  let normalized := ((parsed.documentNumber.map Char.toUpper).filter Char.isAlphanum).take 9
  let documentNumber := Str.replace ' ' '<' (Str.padRight 9 normalized)
  withCheckDigit documentNumber ++ withCheckDigit parsed.dateOfBirth ++ withCheckDigit parsed.dateOfExpiry

/-- The display form of `VerificationError::encoding_error(reason)`. -/
def encodingErrorText (reason : String) : String := "[E601] DER encoding/decoding error: Encoding error: " ++ reason

/-- The text that is hashed for PACE: a short number as it is, or the key information of a zone. -/
def pacePasswordText (unicode : Str.CaseMapping) (password : Str) : Exec String Str := do
  Exec.reject (password.len > 128) "PACE password or MRZ input must not exceed 128 bytes"
  if password.all Char.isDigit = true ∧ 6 ≤ password.len ∧ password.len ≤ 10 then .ok password
  else do
    let parsed ← Exec.mapErr (fun e => "Unsupported PACE password format: " ++ encodingErrorText e)
      (Mrz.parseMrzString unicode password)
    .ok (paceInformation parsed)

def deriveCompatibilityPacePasswordKeyInner (unicode : Str.CaseMapping) (sha1 : Bytes → Block 20)
    (password : Str) : Exec String (Block 16) := do
  let text ← pacePasswordText unicode password
  .ok (adjustDesParity (firstSixteen (sha1 (Str.bytes text))))

end MartyCore.ChipIo
