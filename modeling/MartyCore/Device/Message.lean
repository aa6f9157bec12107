import MartyCore.Device.Model

/-!
# `Device.Message` — what a signed challenge message binds

A signature is over the bytes of the message, so a message that two challenges share is a signature that two
challenges share. Version-2 messages are JSON objects with the same keys in the same order: their texts are injective
(`Json.text_injective`), so equal messages have equal payloads, and the payload has every field. The two versions
differ in the digit of their first line. Version 1 joins its fields with line breaks and escapes none.
-/

namespace MartyCore.Device
namespace DeviceChallengeRecord

/-- What a message that is built consists of. -/
theorem message_ok {record : DeviceChallengeRecord} {message : Bytes} (h : record.message = .ok message) :
    message = Str.bytes (if record.messageVersion = 1 then record.messageV1 else record.messageV2) := by
  obtain ⟨-, -, h⟩ := Result.of_bind h
  obtain ⟨-, h⟩ := Result.of_reject h
  injection h with h
  exact h.symm

/-- An absent value is `null`, which no text and no number is. -/
theorem elim_null_injective {α : Type} {f : α → Json Nat} (hf : ∀ {a b}, f a = f b → a = b) (hnull : ∀ a, f a ≠ .null)
    {x y : Option α} (h : x.elim .null f = y.elim .null f) : x = y := by
  cases x with
  | none =>
    cases y with
    | none => rfl
    | some b => exact absurd h.symm (hnull b)
  | some a =>
    cases y with
    | none => exact absurd h (hnull a)
    | some b => rw [hf h]

/-- The fields that a version-2 message is about. -/
structure SameBinding (a b : DeviceChallengeRecord) : Prop where
  audience : a.audience = b.audience
  challengeId : a.challengeId = b.challengeId
  deviceId : a.deviceId = b.deviceId
  expiresAt : a.expiresAt = b.expiresAt
  keyVersion : a.keyVersion = b.keyVersion
  nonce : a.nonce = b.nonce
  publicKeyKid : a.publicKeyKid = b.publicKeyKid
  purpose : a.purpose = b.purpose
  registrationId : a.registrationId = b.registrationId
  userId : a.userId = b.userId

theorem sameBinding_of_payload {a b : DeviceChallengeRecord} (h : a.payload = b.payload) : SameBinding a b := by
  simp only [payload, Json.obj.injEq, List.cons.injEq, Prod.mk.injEq, Json.str.injEq, true_and, and_true] at h
  obtain ⟨haudience, hchallenge, hdevice, hexpires, hversion, hnonce, hkid, hpurpose, hregistration, huser⟩ := h
  exact ⟨haudience, hchallenge, hdevice, hexpires,
    elim_null_injective Json.num.inj (fun _ => nofun) hversion, hnonce, hkid, hpurpose,
    elim_null_injective Json.str.inj (fun _ => nofun) hregistration, huser⟩

/-- **Version-2 challenge messages bind every field**, and no version-1 message is a version-2 message. -/
theorem challenge_messages_bind :
    (∀ (a b : DeviceChallengeRecord) (message : Bytes), a.messageVersion = 2 → b.messageVersion = 2 →
      a.message = .ok message → b.message = .ok message → SameBinding a b) ∧
    (∀ (a b : DeviceChallengeRecord) (message : Bytes), a.messageVersion = 1 → b.messageVersion = 2 →
      a.message = .ok message → b.message ≠ .ok message) := by
  constructor
  · intro a b message hversion hversion' ha hb
    have hbytes := (message_ok ha).symm.trans (message_ok hb)
    rw [hversion, hversion', if_neg (by decide), if_neg (by decide)] at hbytes
    exact sameBinding_of_payload (Json.text_injective Json.decimal (List.append_cancel_left (Str.bytes_injective hbytes)))
  · intro a b message hversion hversion' ha hb
    have hbytes := (message_ok ha).symm.trans (message_ok hb)
    rw [hversion, hversion', if_pos rfl, if_neg (by decide)] at hbytes
    exact absurd (List.append_inj_left (Str.bytes_injective hbytes) (by decide)) (by decide)

/-- A challenge whose device id has a quote and a line feed. -/
def sampleRecord (createdAt : Str) (messageVersion : Nat) : DeviceChallengeRecord where
  challengeId := ['c']
  userId := ['u']
  deviceId := ['"', '\n', ',']
  publicKeyKid := ['k']
  publicKeySha256 := ['d']
  nonce := ['n']
  createdAt := createdAt
  expiresAt := ['e']
  registrationId := none
  keyVersion := some 7
  purpose := ['p']
  audience := ['a']
  messageVersion := messageVersion

/-- The creation time is not in the message; the version is. -/
theorem challenge_messages_bind_sampleRecord :
    SameBinding (sampleRecord ['t'] 2) (sampleRecord ['x'] 2) ∧
    (sampleRecord ['t'] 1).message = .ok (Str.bytes (sampleRecord ['t'] 1).messageV1) ∧
    (sampleRecord ['t'] 2).message ≠ .ok (Str.bytes (sampleRecord ['t'] 1).messageV1) := by
  have hlegacy : (sampleRecord ['t'] 1).message = .ok (Str.bytes (sampleRecord ['t'] 1).messageV1) := by
    decide
  have hcurrent : ∀ createdAt ∈ [['t'], ['x']],
      (sampleRecord createdAt 2).message = .ok (Str.bytes (sampleRecord ['t'] 2).messageV2) := by decide +kernel
  exact ⟨challenge_messages_bind.1 _ _ _ rfl rfl (hcurrent ['t'] (by simp)) (hcurrent ['x'] (by simp)), hlegacy,
    challenge_messages_bind.2 _ _ _ rfl rfl hlegacy⟩

/-- The line breaks of each field but the last of a version-1 message. -/
def breaks (record : DeviceChallengeRecord) : List Nat :=
  [record.challengeId, record.userId, record.deviceId, record.publicKeyKid].map (List.count '\n')

/-- **Version-1 messages bind their fields exactly as far as the line breaks in them are known.** -/
theorem legacy_messages_bind_iff (a b : DeviceChallengeRecord) (message : Bytes) (hversion : a.messageVersion = 1)
    (hversion' : b.messageVersion = 1) (ha : a.message = .ok message) (hb : b.message = .ok message) :
    (a.challengeId = b.challengeId ∧ a.userId = b.userId ∧ a.deviceId = b.deviceId ∧
      a.publicKeyKid = b.publicKeyKid ∧ a.nonce = b.nonce) ↔ a.breaks = b.breaks := by
  have hbytes := (message_ok ha).symm.trans (message_ok hb)
  rw [hversion, hversion', if_pos rfl, if_pos rfl] at hbytes
  have hlines := List.append_cancel_left (Str.bytes_injective hbytes)
  simp only [Code.joined, List.flatMap_cons, List.flatMap_nil, List.append_nil] at hlines
  have hfields := List.cons.inj (List.append_cancel_left hlines)
  constructor
  · rintro ⟨hchallenge, huser, hdevice, hkid, -⟩
    simp only [breaks, hchallenge, huser, hdevice, hkid]
  · intro hbreaks
    simp only [breaks, List.map_cons, List.cons.injEq] at hbreaks
    obtain ⟨hchallenge, huser, hdevice, hkid, -⟩ := hbreaks
    obtain ⟨hchallenge, hrest⟩ := Code.separates_of_count hchallenge _ _ rfl rfl hfields.2
    obtain ⟨huser, hrest⟩ := Code.separates_of_count huser _ _ rfl rfl (List.cons.inj hrest).2
    obtain ⟨hdevice, hrest⟩ := Code.separates_of_count hdevice _ _ rfl rfl (List.cons.inj hrest).2
    obtain ⟨hkid, hrest⟩ := Code.separates_of_count hkid _ _ rfl rfl (List.cons.inj hrest).2
    exact ⟨hchallenge, huser, hdevice, hkid, (List.cons.inj hrest).2⟩

theorem legacy_messages_bind_iff_sampleRecord : (sampleRecord ['t'] 1).deviceId = (sampleRecord ['x'] 1).deviceId :=
  ((legacy_messages_bind_iff _ _ (Str.bytes (sampleRecord ['t'] 1).messageV1) rfl rfl (by decide)
    (by decide)).mpr rfl).2.2.1

/-- A line break at the end of the user id or at the start of the device id. -/
theorem legacy_messages_share_line_break :
    let a := { sampleRecord ['t'] 1 with userId := ['u', '\n', 'x'], deviceId := ['d'] }
    let b := { sampleRecord ['t'] 1 with userId := ['u'], deviceId := ['x', '\n', 'd'] }
    a.message = .ok (Str.bytes a.messageV1) ∧ b.message = a.message ∧ a.userId ≠ b.userId := by
  decide

end DeviceChallengeRecord
end MartyCore.Device
