import MartyCore.Iso18013.Encryption
import MartyCore.Lib.SortedMap
import MartyCore.Lib.Str

/-!
# `Iso18013.Engagement` — device engagements and their encoding

The embedding of `DeviceEngagement` in `marty-iso18013/src/core.rs`: how it is built, `to_iso` and `from_iso`, `to_cbor` and
`from_cbor`. The types of the `isomdl` library are here with the fields that are read (`Iso`); what is only asked for its
presence is left as bytes. The library's encoder and decoder, the texts of UUIDs and the curve are parameters (`Isomdl`,
`P256`). A `HashMap` is the list of its entries.
-/

namespace MartyCore.Iso18013

open Result List

/-! ## Types of the library -/

abbrev Uuid := Block 16

inductive EC2Curve where
  | p256 | p384 | p521 | p256k
deriving DecidableEq

inductive EC2Y where
  | value (y : Bytes)
  | signBit (odd : Bool)
deriving DecidableEq

inductive OKPCurve where
  | x25519 | x448 | ed25519 | ed448
deriving DecidableEq

inductive CoseKey where
  | ec2 (crv : EC2Curve) (x : Bytes) (y : EC2Y)
  | okp (crv : OKPCurve) (x : Bytes)
deriving DecidableEq

/-- A value with the bytes it was read from, or is written as. -/
structure Tag24 (α : Type) where
  inner : α
  innerBytes : Bytes
deriving DecidableEq

structure PeripheralServerMode where
  uuid : Uuid
  bleDeviceAddress : Option Bytes
deriving DecidableEq

structure CentralClientMode where
  uuid : Uuid
deriving DecidableEq

structure BleOptions where
  peripheralServerMode : Option PeripheralServerMode
  centralClientMode : Option CentralClientMode
deriving DecidableEq

structure NfcOptions where
  maxLenCommandDataField : Nat
  maxLenResponseDataField : Nat
deriving DecidableEq

inductive DeviceRetrievalMethod where
  | wifi (options : Bytes)
  | ble (options : BleOptions)
  | nfc (options : NfcOptions)
deriving DecidableEq

/-- A list with an element. -/
abbrev NonEmptyVec (α : Type) := { values : List α // values ≠ [] }

def NonEmptyVec.maybeNew {α : Type} : List α → Option (NonEmptyVec α)
  | [] => none
  | a :: rest => some ⟨a :: rest, cons_ne_nil a rest⟩

structure Security where
  cipherSuite : Nat
  deviceKey : Tag24 CoseKey
deriving DecidableEq

namespace Iso

structure DeviceEngagement where
  version : Str
  security : Security
  deviceRetrievalMethods : Option (NonEmptyVec DeviceRetrievalMethod)
  serverRetrievalMethods : Option Bytes
  protocolInfo : Option Bytes
deriving DecidableEq

end Iso

/-! ## Parameters -/

structure Isomdl where
  /-- `isomdl::cbor::to_vec`, and the decoder with the number of bytes it has read. -/
  encode : Iso.DeviceEngagement → Except String Bytes
  decode : Bytes → Except String (Iso.DeviceEngagement × Nat)
  decode_of_encode : ∀ {value : Iso.DeviceEngagement} {bytes : Bytes}, encode value = .ok bytes →
    decode bytes = .ok (value, bytes.length)
  /-- The bytes of a key; maps of byte strings can be written. -/
  encodeKey : CoseKey → Except String Bytes
  encodeKey_ok : ∀ key, ∃ bytes, encodeKey key = .ok bytes
  /-- The tagged transcript of an engagement's bytes and a reader key's, for a handover by QR code. -/
  encodeTranscript : Bytes → Bytes → Except String Bytes
  encodeTranscript_ok : ∀ engagement readerKey, ∃ bytes, encodeTranscript engagement readerKey = .ok bytes
  /-- `NfcOptions::default()`. -/
  defaultNfcOptions : NfcOptions
  /-- `Uuid::hyphenated` and `Uuid::parse_str`. -/
  hyphenated : Uuid → Str
  parseStr : Str → Except String Uuid
  parseStr_hyphenated : ∀ uuid, parseStr (hyphenated uuid) = .ok uuid
  length_hyphenated : ∀ uuid, (Str.bytes (hyphenated uuid)).length = 36

/-- The curve, for key pairs of type `κ`. -/
structure P256 (κ : Type) where
  /-- `PublicKey::from_sec1_bytes` accepts, or the text of its error. -/
  validate : Bytes → Except String Unit
  /-- `public_key_uncompressed`. -/
  publicKey : κ → Bytes
  /-- The x-coordinate of the shared point with a peer's public key. -/
  sharedSecret : κ → Bytes → Bytes
  validate_publicKey : ∀ keyPair, validate (publicKey keyPair) = .ok ()
  length_publicKey : ∀ keyPair, (publicKey keyPair).length = 65
  head?_publicKey : ∀ keyPair, (publicKey keyPair).head? = some 4

def validateP256PublicKey {κ : Type} (p256 : P256 κ) (publicKey : Bytes) : Except CryptoError Unit :=
  (p256.validate publicKey).mapError (fun error => .internal ("Invalid P-256 public key: " ++ error))

/-! ## Engagements -/

inductive TransportMethod where
  | ble | nfc | wifiAware | https
deriving DecidableEq

inductive EngagementMethod where
  | qr | nfc
deriving DecidableEq

structure TransportInfo where
  method : TransportMethod
  parameters : List (Str × Bytes)
deriving DecidableEq

/-- The key pair is in a cell that is emptied when it is taken; there is no cell in a decoded engagement. -/
structure DeviceEngagement (κ : Type) where
  version : Str
  transports : List TransportInfo
  engagementMethod : EngagementMethod
  deviceKey : Bytes
  deviceData : Option (List (Str × Bytes))
  ephemeralKey : Option (Option κ)

def maxDeviceEngagementCborBytes : Nat := 64 * 1024

def maxDeviceRetrievalMethods : Nat := 8

def maxTransportParameters : Nat := 16

def maxTransportParameterNameBytes : Nat := 64

def maxTransportParameterValueBytes : Nat := 4096

def validateTransport (transport : TransportInfo) : Except Error Unit := do
  reject (maxTransportParameters < transport.parameters.length)
    (.invalidEngagement ("too many transport parameters; maximum is " ++ toString maxTransportParameters))
  reject (∃ p ∈ transport.parameters,
      maxTransportParameterNameBytes < p.1.len ∨ maxTransportParameterValueBytes < p.2.length)
    (.invalidEngagement "transport parameter exceeds its encoded size limit")

def coseKeyFromSec1 (publicKey : Bytes) : Except Error CoseKey := do
  reject (publicKey.length ≠ 65 ∨ publicKey.head? ≠ some 4)
    (.invalidEngagement "EDeviceKey must be an uncompressed P-256 point")
  return .ec2 .p256 ((publicKey.drop 1).take 32) (.value ((publicKey.drop 33).take 32))

/-- The only form of a point that is taken apart. -/
def Uncompressed (key : Bytes) : Prop := key.length = 65 ∧ key.head? = some 4

theorem coseKeyFromSec1_of_uncompressed {key : Bytes} (h : Uncompressed key) : ∃ coseKey, coseKeyFromSec1 key = .ok coseKey := by
  refine ⟨_, reject_bind_ok_iff.mpr ⟨?_, rfl⟩⟩
  rw [h.1, h.2]
  simp

def coseKeyToSec1 {κ : Type} (p256 : P256 κ) (coseKey : CoseKey) : Except Error Bytes :=
  let unsupported := Error.invalidEngagement "only an uncompressed P-256 EDeviceKey is supported"
  match coseKey with
  | .ec2 .p256 x (.value y) =>
    if x.length = 32 ∧ y.length = 32 then do
      let publicKey := 4 :: (x ++ y)
      liftCrypto (validateP256PublicKey p256 publicKey)
      return publicKey
    else .error unsupported
  | _ => .error unsupported

/-- The identifier of a BLE method: of the peripheral server mode if there is one, or else of the central client mode. -/
def BleOptions.uuid (options : BleOptions) : Option Uuid :=
  match options.peripheralServerMode, options.centralClientMode with
  | some mode, _ => some mode.uuid
  | none, some mode => some mode.uuid
  | none, none => none

section

variable (isomdl : Isomdl)

/-- The identifier a BLE transport is for. -/
def serviceUuid (transport : TransportInfo) : Except Error Uuid := do
  let value ← orFail (.invalidEngagement "BLE transport is missing serviceUuid")
    (SortedMap.lookup "serviceUuid".toList transport.parameters)
  let text ← orFail (.invalidEngagement "BLE serviceUuid is not UTF-8") (Str.fromUtf8 value)
  (isomdl.parseStr text).mapError (fun error => .invalidEngagement ("invalid BLE serviceUuid: " ++ error))

def toRetrievalMethod (transport : TransportInfo) : Except Error DeviceRetrievalMethod :=
  match transport.method with
  | .ble => do
    let uuid ← serviceUuid isomdl transport
    return .ble ⟨some ⟨uuid, none⟩, none⟩
  | .nfc => .ok (.nfc isomdl.defaultNfcOptions)
  | .wifiAware => .error (.invalidEngagement "Wi-Fi Aware parameters are not implemented")
  | .https => .error (.invalidEngagement
      "HTTPS is a server-retrieval transport and cannot be encoded as a device retrieval method")

def ofRetrievalMethod : DeviceRetrievalMethod → Except Error TransportInfo
  | .ble options => do
    let uuid ← orFail (.invalidEngagement "BLE retrieval method enables neither mode") options.uuid
    return ⟨.ble, [("serviceUuid".toList, Str.bytes (isomdl.hyphenated uuid))]⟩
  | .nfc _ => .ok ⟨.nfc, []⟩
  | .wifi _ => .error (.invalidEngagement "Wi-Fi Aware parameters are not implemented")

/-- `Tag24::new`. -/
def tagKey (key : CoseKey) : Except Error (Tag24 CoseKey) := do
  let bytes ← (isomdl.encodeKey key).mapError Error.invalidEngagement
  return ⟨key, bytes⟩

end

namespace DeviceEngagement

variable {κ : Type} (isomdl : Isomdl) (p256 : P256 κ) (self : DeviceEngagement κ)

def validateResourceBounds : Except Error Unit := do
  reject (maxDeviceRetrievalMethods < self.transports.length)
    (.invalidEngagement ("too many retrieval methods; maximum is " ++ toString maxDeviceRetrievalMethods))
  self.transports.forM validateTransport

/-! ### Building -/

def newQr (keyPair : κ) : DeviceEngagement κ where
  version := "1.0".toList
  transports := []
  engagementMethod := .qr
  deviceKey := p256.publicKey keyPair
  deviceData := none
  ephemeralKey := some (some keyPair)

def addBleTransport (serviceUuid : Str) (self : DeviceEngagement κ) : DeviceEngagement κ :=
  { self with transports := self.transports ++ [⟨.ble, [("serviceUuid".toList, serviceUuid.bytes)]⟩] }

def addNfcTransport : DeviceEngagement κ :=
  { self with transports := self.transports ++ [⟨.nfc, []⟩] }

def addHttpsTransport (url : Str) (self : DeviceEngagement κ) : DeviceEngagement κ :=
  { self with transports := self.transports ++ [⟨.https, [("url".toList, url.bytes)]⟩] }

/-- The key pair, and the engagement without it. -/
def takeEphemeralKeyPair : Except Error (κ × DeviceEngagement κ) := do
  let state ← orFail
    (.invalidEngagement "holder session requires a locally generated DeviceEngagement key") self.ephemeralKey
  let keyPair ← orFail (.invalidState "DeviceEngagement key was already consumed") state
  return (keyPair, { self with ephemeralKey := some none })

/-! ### Encoding and decoding -/

def toIso : Except Error Iso.DeviceEngagement := do
  self.validateResourceBounds
  reject (self.version ≠ "1.0".toList)
    (.invalidEngagement ("unsupported DeviceEngagement version " ++ String.ofList self.version))
  reject (self.deviceData.isSome = true)
    (.invalidEngagement "device_data cannot be encoded as ISO 18013-5 protocolInfo")
  let coseKey ← coseKeyFromSec1 self.deviceKey
  let deviceKey ← tagKey isomdl coseKey
  let retrievalMethods ← self.transports.mapM (toRetrievalMethod isomdl)
  return {
    version := self.version
    security := ⟨1, deviceKey⟩
    deviceRetrievalMethods := NonEmptyVec.maybeNew retrievalMethods
    serverRetrievalMethods := none
    protocolInfo := none }

/-- The methods, if there is a list of them. -/
def retrievalMethods (value : Iso.DeviceEngagement) : List DeviceRetrievalMethod :=
  match value.deviceRetrievalMethods with
  | some methods => methods.1
  | none => []

def fromIso (value : Iso.DeviceEngagement) : Except Error (DeviceEngagement κ) := do
  reject (value.version ≠ "1.0".toList ∨ value.security.cipherSuite ≠ 1)
    (.invalidEngagement "unsupported DeviceEngagement version or cipher suite")
  reject (value.serverRetrievalMethods.isSome = true ∨ value.protocolInfo.isSome = true)
    (.invalidEngagement "server retrieval and protocolInfo are not supported")
  let deviceKey ← coseKeyToSec1 p256 value.security.deviceKey.inner
  let transports ← (retrievalMethods value).mapM (ofRetrievalMethod isomdl)
  let engagement : DeviceEngagement κ := {
    version := value.version
    transports := transports
    engagementMethod := .qr
    deviceKey := deviceKey
    deviceData := none
    ephemeralKey := none }
  engagement.validateResourceBounds
  return engagement

def toCbor : Except Error Bytes := do
  let value ← self.toIso isomdl
  (isomdl.encode value).mapError Error.invalidEngagement

def fromCbor (data : Bytes) : Except Error (DeviceEngagement κ) := do
  reject (maxDeviceEngagementCborBytes < data.length)
    (.invalidEngagement ("DeviceEngagement CBOR exceeds " ++ toString maxDeviceEngagementCborBytes ++ " bytes"))
  let (value, position) ← (isomdl.decode data).mapError Error.cborDecode
  reject (position ≠ data.length) (.invalidEngagement "trailing bytes after DeviceEngagement")
  fromIso isomdl p256 value

end DeviceEngagement

/-! ## An instance

The laws of the parameters can be met: a library that can write two engagements, and a curve with two key pairs. -/

def sampleDigit (n : Nat) : Char := Char.ofNat (97 + n)

def sampleValue (c : Char) : Nat := c.toNat - 97

/-- The digits of a UUID, with the hyphens at the end. -/
def sampleHyphenated (uuid : Uuid) : Str :=
  uuid.bytes.flatMap (fun b => [sampleDigit (b.toNat / 16), sampleDigit (b.toNat % 16)]) ++ ['-', '-', '-', '-']

def sampleBytes : Str → Bytes
  | '-' :: _ => []
  | high :: low :: rest => UInt8.ofNat (16 * sampleValue high + sampleValue low) :: sampleBytes rest
  | _ => []

def sampleParse (text : Str) : Except String Uuid :=
  if h : (sampleBytes text).length = 16 then .ok ⟨sampleBytes text, h⟩ else .error "invalid length"

theorem sampleDigit_spec {n : Nat} (h : n < 16) :
    sampleValue (sampleDigit n) = n ∧ sampleDigit n ≠ '-' ∧ Text.isAscii (sampleDigit n) = true := by
  have hall : ∀ n : Fin 16, sampleValue (sampleDigit n) = n ∧ sampleDigit n ≠ '-' ∧ Text.isAscii (sampleDigit n) = true := by
    decide
  exact hall ⟨n, h⟩

theorem sampleBytes_hyphenated (bytes : Bytes) :
    sampleBytes (bytes.flatMap (fun b => [sampleDigit (b.toNat / 16), sampleDigit (b.toNat % 16)]) ++
      ['-', '-', '-', '-']) = bytes := by
  induction bytes with
  | nil => rfl
  | cons b rest ih =>
    have hb := b.toNat_lt
    have hhigh := sampleDigit_spec (n := b.toNat / 16) (by omega)
    have hlow := sampleDigit_spec (n := b.toNat % 16) (by omega)
    simp only [flatMap_cons, cons_append, nil_append]
    rw [sampleBytes.eq_2 _ _ _ (fun h => hhigh.2.1 h), ih, hhigh.1, hlow.1, Nat.div_add_mod, UInt8.ofNat_toNat]

theorem isAscii_sampleHyphenated (uuid : Uuid) : ∀ c ∈ sampleHyphenated uuid, Text.isAscii c = true := by
  intro c hc
  rcases mem_append.mp hc with hdigit | hhyphen
  · obtain ⟨b, -, hc⟩ := mem_flatMap.mp hdigit
    have hb := b.toNat_lt
    simp only [mem_cons, not_mem_nil, or_false] at hc
    rcases hc with rfl | rfl
    · exact (sampleDigit_spec (by omega)).2.2
    · exact (sampleDigit_spec (by omega)).2.2
  · simp only [mem_cons, not_mem_nil, or_false, or_self] at hhyphen
    rw [hhyphen]
    rfl

def sampleIsomdl (first second : Iso.DeviceEngagement) : Isomdl where
  encode value := if value = first then .ok [1] else if value = second then .ok [2] else .error "not a sample"
  decode bytes :=
    if bytes = [1] then .ok (first, 1) else if bytes = [2] then .ok (second, 1) else .error "not a sample"
  decode_of_encode := by
    intro value bytes h
    split at h
    · rename_i heq
      cases h
      simp [heq]
    · split at h
      · rename_i heq
        cases h
        simp [heq]
      · cases h
  encodeKey _ := .ok [3]
  encodeKey_ok _ := ⟨[3], rfl⟩
  encodeTranscript engagement readerKey := .ok (engagement ++ readerKey)
  encodeTranscript_ok engagement readerKey := ⟨engagement ++ readerKey, rfl⟩
  defaultNfcOptions := ⟨255, 256⟩
  hyphenated := sampleHyphenated
  parseStr := sampleParse
  parseStr_hyphenated := by
    intro uuid
    have hbytes : sampleBytes (sampleHyphenated uuid) = uuid.bytes := sampleBytes_hyphenated uuid.bytes
    rw [sampleParse, dif_pos (by rw [hbytes, uuid.length_eq])]
    simp only [hbytes]
  length_hyphenated := by
    intro uuid
    rw [Str.bytes_of_isAscii (isAscii_sampleHyphenated uuid), length_map]
    simp [sampleHyphenated, uuid.length_eq]

def sampleP256 : P256 Bool where
  validate key :=
    if key.length = 65 ∧ key.head? = some 4 ∨ key.length = 33 ∧ key.head? = some 2 then .ok () else .error "crypto error"
  publicKey keyPair := 4 :: List.replicate 64 (if keyPair then 1 else 0)
  sharedSecret _ _ := []
  validate_publicKey _ := by simp
  length_publicKey _ := by simp
  head?_publicKey _ := rfl

end MartyCore.Iso18013
