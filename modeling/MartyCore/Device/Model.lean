import MartyCore.Lib.Json

/-!
# `Device.Model` — device challenges and the messages that are signed for them

The embedding of `DeviceChallengeRecord` in `marty-verification/src/device_auth.rs`: its validation and the message
that a device signs, in the legacy layout (version 1, lines) and in the current one (version 2, a line and a JSON
object with the fields of `ChallengeMessageV2` in the order of the struct). Serialising that struct cannot fail.
-/

namespace MartyCore.Device

def challengeAudience : Str := "marty-device-registration".toList

def maxKeyVersion : Nat := 9007199254740991

def maxChallengeMessageBytes : Nat := 16 * 1024

inductive DeviceAuthError where
  | invalidChallenge (message : Str)
deriving DecidableEq

structure DeviceChallengeRecord where
  challengeId : Str
  userId : Str
  deviceId : Str
  publicKeyKid : Str
  publicKeySha256 : Str
  nonce : Str
  createdAt : Str
  expiresAt : Str
  registrationId : Option Str
  keyVersion : Option Nat
  purpose : Str
  audience : Str
  messageVersion : Nat
deriving DecidableEq

/-- The loop over the fields that must have a text. -/
def validateFields : List (Str × Str) → Except DeviceAuthError Unit
  | [] => .ok ()
  | (name, value) :: rest => do
    Result.reject (value = [] ∨ value.len > 2048)
      (.invalidChallenge (name ++ " is empty or exceeds 2048 bytes".toList))
    validateFields rest

namespace DeviceChallengeRecord

variable (self : DeviceChallengeRecord)

def fields : List (Str × Str) :=
  [("challenge_id".toList, self.challengeId), ("user_id".toList, self.userId), ("device_id".toList, self.deviceId),
   ("public_key_kid".toList, self.publicKeyKid), ("public_key_sha256".toList, self.publicKeySha256),
   ("nonce".toList, self.nonce), ("created_at".toList, self.createdAt), ("expires_at".toList, self.expiresAt),
   ("purpose".toList, self.purpose), ("audience".toList, self.audience)]

def validate : Except DeviceAuthError Unit := do
  validateFields self.fields
  Result.reject (self.keyVersion.any (fun version => decide (version > maxKeyVersion)) = true)
    (.invalidChallenge "key_version exceeds the interoperable integer limit".toList)
  Result.reject (¬ (self.messageVersion = 1 ∨ self.messageVersion = 2))
    (.invalidChallenge "unsupported challenge message version".toList)

/-- `ChallengeMessageV2`, as it is serialised. -/
def payload : Json Nat := .obj
  [("audience".toList, .str self.audience), ("challenge_id".toList, .str self.challengeId),
   ("device_id".toList, .str self.deviceId), ("expires_at".toList, .str self.expiresAt),
   ("key_version".toList, self.keyVersion.elim .null .num), ("nonce".toList, .str self.nonce),
   ("public_key_kid".toList, .str self.publicKeyKid), ("purpose".toList, .str self.purpose),
   ("registration_id".toList, self.registrationId.elim .null .str), ("user_id".toList, .str self.userId)]

def messageV1 : Str :=
  "marty-device-registration-v1\n".toList ++ Code.joined '\n'
    [challengeAudience, self.challengeId, self.userId, self.deviceId, self.publicKeyKid, self.nonce]

def messageV2 : Str := "marty-device-registration-v2\n".toList ++ Json.text Json.decimal.text self.payload

def message : Except DeviceAuthError Bytes := do
  self.validate
  let message := Str.bytes (if self.messageVersion = 1 then self.messageV1 else self.messageV2)
  Result.reject (message.length > maxChallengeMessageBytes)
    (.invalidChallenge "challenge message exceeds its size limit".toList)
  return message

end DeviceChallengeRecord

end MartyCore.Device
