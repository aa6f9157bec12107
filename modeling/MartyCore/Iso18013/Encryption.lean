import MartyCore.Lib.Aead
import MartyCore.Lib.Method

/-!
# `Iso18013.Encryption` — the encryption state of one party of a session

The embedding of `SessionEncryption` in `marty-iso18013/src/session.rs`, with the functions of `marty-crypto` it calls:
`derive_mdl_session_keys` and the checks of `aes_256_gcm_encrypt` and `aes_256_gcm_decrypt`. The block cipher and the key
derivation are parameters (`Aead.Cipher`, `Kdf`). A method keeps what it has written when it fails (`Method`), so that a
failed call changes nothing is a theorem (`encrypt_commits`, `decrypt_commits`).
-/

namespace MartyCore.Iso18013

open Method.Commits Result

/-! ## Errors -/

inductive CryptoError where
  | internal (message : String)
deriving DecidableEq

inductive Error where
  | sessionEstablishment (message : String)
  | invalidState (message : String)
  | timeout
  | encryption (message : String)
  | decryption (message : String)
  | cborDecode (message : String)
  | crypto (error : CryptoError)
  | invalidEngagement (message : String)
  | invalidRequest (message : String)
  | invalidResponse (message : String)
deriving DecidableEq

/-- `?` on the result of a function of `marty-crypto`. -/
def liftCrypto {α : Type} (x : Except CryptoError α) : Except Error α := x.mapError Error.crypto

/-! ## Key derivation -/

structure Kdf where
  sha256 : Bytes → Bytes
  hkdfSha256 : Bytes → Bytes → Bytes → Nat → Except CryptoError Bytes
  /-- Only the length of the output is refused. -/
  hkdfSha256_ok : ∀ ikm salt info length, length ≤ 255 * 32 →
    ∃ key, hkdfSha256 ikm salt info length = .ok key ∧ key.length = length

def skDevice : Bytes := [0x53, 0x4B, 0x44, 0x65, 0x76, 0x69, 0x63, 0x65]

def skReader : Bytes := [0x53, 0x4B, 0x52, 0x65, 0x61, 0x64, 0x65, 0x72]

/-- The keys of the device and of the reader. -/
def deriveMdlSessionKeys (kdf : Kdf) (sharedSecret sessionTranscript : Bytes) : Except CryptoError (Bytes × Bytes) := do
  let salt := kdf.sha256 sessionTranscript
  let deviceKey ← kdf.hkdfSha256 sharedSecret salt skDevice 32
  let readerKey ← kdf.hkdfSha256 sharedSecret salt skReader 32
  return (deviceKey, readerKey)

/-! ## The cipher -/

abbrev Cipher := Aead.Cipher CryptoError

/-- The checks in front of the cipher. -/
def checkLengths (key nonce : Bytes) : Except CryptoError Unit := do
  reject (key.length ≠ 32) (.internal "AES-256-GCM requires 32-byte key")
  reject (nonce.length ≠ 12) (.internal "AES-GCM requires 12-byte nonce")

def aes256GcmEncrypt (cipher : Cipher) (key nonce plaintext aad : Bytes) : Except CryptoError Bytes := do
  checkLengths key nonce
  cipher.encrypt key nonce plaintext aad

def aes256GcmDecrypt (cipher : Cipher) (key nonce ciphertext aad : Bytes) : Except CryptoError Bytes := do
  checkLengths key nonce
  cipher.decrypt key nonce ciphertext aad

/-! ## Directions -/

inductive SessionDirection where
  | reader | device
deriving DecidableEq

namespace SessionDirection

def peer : SessionDirection → SessionDirection
  | .device => .reader
  | .reader => .device

/-- The order of declaration. -/
def ivMarker : SessionDirection → UInt8
  | .reader => 0
  | .device => 1

@[simp] theorem peer_ne (direction : SessionDirection) : direction.peer ≠ direction := by
  cases direction <;> simp [peer]

theorem eq_or_eq_peer (side direction : SessionDirection) : side = direction ∨ side = direction.peer := by
  cases side <;> cases direction <;> simp [peer]

theorem ivMarker_injective {a b : SessionDirection} (h : a.ivMarker = b.ivMarker) : a = b := by
  cases a <;> cases b <;> first | rfl | exact absurd h (by decide)

end SessionDirection

/-- The initialisation vector of a message: the direction in byte 7 and the counter in the last four. -/
def iv (direction : SessionDirection) (counter : UInt32) : Bytes :=
  [0, 0, 0, 0, 0, 0, 0, direction.ivMarker] ++ Bytes.be32 counter

theorem length_iv (direction : SessionDirection) (counter : UInt32) : (iv direction counter).length = 12 := rfl

theorem iv_injective {a b : SessionDirection} {m n : UInt32} (h : iv a m = iv b n) : a = b ∧ m = n := by
  obtain ⟨hmarker, hcounter⟩ := List.append_inj h rfl
  have hmarkers : a.ivMarker = b.ivMarker := by simpa using hmarker
  exact ⟨SessionDirection.ivMarker_injective hmarkers, Bytes.be32_injective hcounter⟩

/-! ## Counters -/

/-- `checked_add(1)`. -/
def checkedSucc (counter : UInt32) : Option UInt32 :=
  if counter.toNat + 1 < 2 ^ 32 then some (counter + 1) else none

theorem toNat_of_checkedSucc {counter next : UInt32} (h : checkedSucc counter = some next) :
    next.toNat = counter.toNat + 1 := by
  unfold checkedSucc at h
  split at h
  · rename_i hlt
    cases h
    exact Nat.mod_eq_of_lt hlt
  · cases h

/-! ## The state of one party -/

structure SessionEncryption where
  sendKey : Bytes
  receiveKey : Bytes
  sendCounter : UInt32
  receiveCounter : UInt32
  sendDirection : SessionDirection
  receiveDirection : SessionDirection
deriving DecidableEq

namespace SessionEncryption

def newDirectional (kdf : Kdf) (sharedSecret sessionTranscript : Bytes) (sendDirection : SessionDirection) :
    Except Error SessionEncryption := do
  let (deviceKey, readerKey) ← liftCrypto (deriveMdlSessionKeys kdf sharedSecret sessionTranscript)
  let (sendKey, receiveKey) :=
    match sendDirection with
    | .device => (deviceKey, readerKey)
    | .reader => (readerKey, deviceKey)
  return {
    sendKey := sendKey
    receiveKey := receiveKey
    sendCounter := 0
    receiveCounter := 0
    sendDirection := sendDirection
    receiveDirection := sendDirection.peer }

def encrypt (cipher : Cipher) (plaintext : Bytes) : Method SessionEncryption Error Bytes := do
  let self ← get
  let nextCounter ← Method.call (Exec.orFail (.encryption "message counter exhausted") (checkedSucc self.sendCounter))
  let ciphertext ← Method.call ((liftCrypto
    (aes256GcmEncrypt cipher self.sendKey (iv self.sendDirection nextCounter) plaintext [])).mapError Fault.err)
  set { self with sendCounter := nextCounter }
  return ciphertext

def decrypt (cipher : Cipher) (ciphertext : Bytes) : Method SessionEncryption Error Bytes := do
  let self ← get
  let nextCounter ← Method.call (Exec.orFail (.decryption "message counter exhausted") (checkedSucc self.receiveCounter))
  let plaintext ← Method.call ((liftCrypto
    (aes256GcmDecrypt cipher self.receiveKey (iv self.receiveDirection nextCounter) ciphertext [])).mapError Fault.err)
  set { self with receiveCounter := nextCounter }
  return plaintext

end SessionEncryption

/-- Keys of 32 bytes can always be derived. -/
theorem newDirectional_ok (kdf : Kdf) (secret transcript : Bytes) (direction : SessionDirection) :
    ∃ encryption, SessionEncryption.newDirectional kdf secret transcript direction = .ok encryption := by
  obtain ⟨deviceKey, hdevice, -⟩ := kdf.hkdfSha256_ok secret (kdf.sha256 transcript) skDevice 32 (by decide)
  obtain ⟨readerKey, hreader, -⟩ := kdf.hkdfSha256_ok secret (kdf.sha256 transcript) skReader 32 (by decide)
  have hkeys : deriveMdlSessionKeys kdf secret transcript = .ok (deviceKey, readerKey) := by
    rw [deriveMdlSessionKeys, hdevice, ok_bind, hreader]
    rfl
  rw [SessionEncryption.newDirectional, hkeys]
  exact ⟨_, rfl⟩

/-! ## One call -/

namespace SessionEncryption

variable (cipher : Cipher) (self : SessionEncryption)

/-- A message is encrypted under the send key and the next counter of its direction, or nothing happens. -/
theorem encrypt_commits (plaintext : Bytes) :
    (encrypt cipher plaintext).Commits self (fun ciphertext after => ∃ nextCounter,
      checkedSucc self.sendCounter = some nextCounter ∧ after = { self with sendCounter := nextCounter } ∧
      cipher.encrypt self.sendKey (iv self.sendDirection nextCounter) plaintext [] = .ok ciphertext) := by
  apply get_bind
  apply call_bind
  intro nextCounter hcounter
  apply call_bind
  intro ciphertext hciphertext
  apply set_pure
  obtain ⟨-, -, hcall⟩ := of_bind (mapError_ok_iff.mp (mapError_ok_iff.mp hciphertext))
  exact ⟨nextCounter, Exec.orFail_ok_iff.mp hcounter, rfl, hcall⟩

/-- A message is decrypted under the receive key and the next counter of the peer's direction, or nothing happens. -/
theorem decrypt_commits (ciphertext : Bytes) :
    (decrypt cipher ciphertext).Commits self (fun plaintext after => ∃ nextCounter,
      checkedSucc self.receiveCounter = some nextCounter ∧ after = { self with receiveCounter := nextCounter } ∧
      cipher.decrypt self.receiveKey (iv self.receiveDirection nextCounter) ciphertext [] = .ok plaintext) := by
  apply get_bind
  apply call_bind
  intro nextCounter hcounter
  apply call_bind
  intro plaintext hplaintext
  apply set_pure
  obtain ⟨-, -, hcall⟩ := of_bind (mapError_ok_iff.mp (mapError_ok_iff.mp hplaintext))
  exact ⟨nextCounter, Exec.orFail_ok_iff.mp hcounter, rfl, hcall⟩

end SessionEncryption

end MartyCore.Iso18013
