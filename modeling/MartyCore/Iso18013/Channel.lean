import Mathlib.Data.List.Infix
import MartyCore.Iso18013.Encryption

/-!
# `Iso18013.Channel` — the two directions of a session over an untrusted network

Two parties hold encryption states derived from one secret and one transcript. They encrypt when they want, and between
them stands an adversary: a party may be given any byte string to decrypt, at any time and any number of times, so that
messages can be dropped, reordered, replayed, sent back to where they came from or made up. The cipher is ideal
(`Aead.Ideal`): relative to the ciphertexts that both parties have produced so far.

`Sound` is what every call preserves (`sound_step`): the counters count, the `i`-th message a party has encrypted is
under its key and counter `i + 1`, and what a party has decrypted are the first messages of its peer. From it follow
delivery in order, that no nonce is used twice, and that the next message can always be delivered
(`delivers_next`).
-/

namespace MartyCore.Iso18013

open Result List
open Aead (Sealed Ideal Genuine)

/-! ## The system -/

/-- One party, the calls of its cipher that returned a ciphertext and the plaintexts it has accepted. -/
structure Endpoint where
  session : SessionEncryption
  sealed : List Sealed
  decrypted : List Bytes

/-- The plaintexts a party has encrypted. -/
def Endpoint.encrypted (party : Endpoint) : List Bytes := party.sealed.map Sealed.plaintext

/-- The parties, by the direction they send in. -/
structure World where
  party : SessionDirection → Endpoint

/-- Every ciphertext there is. -/
def World.log (w : World) : List Sealed := (w.party .device).sealed ++ (w.party .reader).sealed

inductive Action where
  | encrypt (side : SessionDirection) (plaintext : Bytes)
  | decrypt (side : SessionDirection) (ciphertext : Bytes)

def Endpoint.encrypt (cipher : Cipher) (plaintext : Bytes) (party : Endpoint) : Endpoint :=
  match (SessionEncryption.encrypt cipher plaintext).run party.session with
  | (.ok ciphertext, session) =>
    { party with
      session := session
      sealed := party.sealed ++
        [⟨party.session.sendKey, iv party.session.sendDirection session.sendCounter, [], plaintext, ciphertext⟩] }
  | (.error _, session) => { party with session := session }

def Endpoint.decrypt (cipher : Cipher) (ciphertext : Bytes) (party : Endpoint) : Endpoint :=
  match (SessionEncryption.decrypt cipher ciphertext).run party.session with
  | (.ok plaintext, session) => { party with session := session, decrypted := party.decrypted ++ [plaintext] }
  | (.error _, session) => { party with session := session }

def World.step (ideal : Ideal CryptoError) (w : World) : Action → World
  | .encrypt side plaintext =>
    ⟨Function.update w.party side ((w.party side).encrypt (ideal.cipher w.log) plaintext)⟩
  | .decrypt side ciphertext =>
    ⟨Function.update w.party side ((w.party side).decrypt (ideal.cipher w.log) ciphertext)⟩

def World.run (ideal : Ideal CryptoError) (w : World) (actions : List Action) : World := actions.foldl (World.step ideal) w

/-- Before the first message. -/
def World.start (device reader : SessionEncryption) : World where
  party
    | .device => ⟨device, [], []⟩
    | .reader => ⟨reader, [], []⟩

/-! ## One call of one party -/

variable {ideal : Ideal CryptoError} {cipher : Cipher}

theorem Endpoint.encrypt_cases (cipher : Cipher) (plaintext : Bytes) (party : Endpoint) :
    party.encrypt cipher plaintext = party ∨
    ∃ nextCounter ciphertext, checkedSucc party.session.sendCounter = some nextCounter ∧
      cipher.encrypt party.session.sendKey (iv party.session.sendDirection nextCounter) plaintext [] = .ok ciphertext ∧
      party.encrypt cipher plaintext =
        { party with
          session := { party.session with sendCounter := nextCounter }
          sealed := party.sealed ++
            [⟨party.session.sendKey, iv party.session.sendDirection nextCounter, [], plaintext, ciphertext⟩] } := by
  unfold Endpoint.encrypt
  rcases SessionEncryption.encrypt_commits cipher party.session plaintext with
    ⟨e, hrun⟩ | ⟨ciphertext, after, hrun, nextCounter, hcounter, rfl, hciphertext⟩
  · rw [hrun]
    exact .inl rfl
  · rw [hrun]
    exact .inr ⟨nextCounter, ciphertext, hcounter, hciphertext, rfl⟩

theorem Endpoint.decrypt_cases (cipher : Cipher) (ciphertext : Bytes) (party : Endpoint) :
    party.decrypt cipher ciphertext = party ∨
    ∃ nextCounter plaintext, checkedSucc party.session.receiveCounter = some nextCounter ∧
      cipher.decrypt party.session.receiveKey (iv party.session.receiveDirection nextCounter) ciphertext [] =
        .ok plaintext ∧
      party.decrypt cipher ciphertext =
        { party with
          session := { party.session with receiveCounter := nextCounter }
          decrypted := party.decrypted ++ [plaintext] } := by
  unfold Endpoint.decrypt
  rcases SessionEncryption.decrypt_commits cipher party.session ciphertext with
    ⟨e, hrun⟩ | ⟨plaintext, after, hrun, nextCounter, hcounter, rfl, hplaintext⟩
  · rw [hrun]
    exact .inl rfl
  · rw [hrun]
    exact .inr ⟨nextCounter, plaintext, hcounter, hplaintext, rfl⟩

/-! ## The invariant -/

/-- The state is that of a party which sends in this direction, with these keys. -/
structure Assigned (keys : SessionDirection → Bytes) (side : SessionDirection) (session : SessionEncryption) : Prop where
  sendKey : session.sendKey = keys side
  receiveKey : session.receiveKey = keys side.peer
  sendDirection : session.sendDirection = side
  receiveDirection : session.receiveDirection = side.peer

/-- The `i`-th message of a party: under its key, with counter `i + 1`. -/
structure IsMessage (ideal : Ideal CryptoError) (keys : SessionDirection → Bytes) (side : SessionDirection) (i : Nat)
    (message : Sealed) : Prop where
  key : message.key = keys side
  nonce : ∃ counter : UInt32, counter.toNat = i + 1 ∧ message.nonce = iv side counter
  aad : message.aad = []
  genuine : ideal.encrypt message.key message.nonce message.plaintext message.aad = .ok message.ciphertext

/-- What a party keeps to by itself. -/
structure PartySound (ideal : Ideal CryptoError) (keys : SessionDirection → Bytes) (side : SessionDirection)
    (party : Endpoint) : Prop where
  assigned : Assigned keys side party.session
  sendCounter : party.session.sendCounter.toNat = party.sealed.length
  messages : ∀ i message, party.sealed[i]? = some message → IsMessage ideal keys side i message
  receiveCounter : party.session.receiveCounter.toNat = party.decrypted.length

structure Sound (ideal : Ideal CryptoError) (keys : SessionDirection → Bytes) (w : World) : Prop where
  party : ∀ side, PartySound ideal keys side (w.party side)
  inOrder : ∀ side, (w.party side).decrypted <+: (w.party side.peer).encrypted

variable {keys : SessionDirection → Bytes} {w : World} {message : Sealed}

theorem World.mem_log : message ∈ w.log ↔ ∃ side, message ∈ (w.party side).sealed := by
  rw [World.log, mem_append]
  constructor
  · rintro (h | h)
    · exact ⟨.device, h⟩
    · exact ⟨.reader, h⟩
  · rintro ⟨side, h⟩
    cases side with
    | device => exact .inl h
    | reader => exact .inr h

theorem Sound.genuine (h : Sound ideal keys w) : Genuine ideal.encrypt w.log := by
  intro message hmem
  obtain ⟨side, hmem⟩ := World.mem_log.mp hmem
  obtain ⟨i, hi⟩ := mem_iff_getElem?.mp hmem
  exact ((h.party side).messages i message hi).genuine

variable {side : SessionDirection}

/-- A message that decrypts is the next one of the peer. -/
theorem Sound.next_of_decrypt (h : Sound ideal keys w) (hkeys : Function.Injective keys) {nextCounter : UInt32}
    {ciphertext plaintext : Bytes} (hcounter : checkedSucc (w.party side).session.receiveCounter = some nextCounter)
    (hdecrypt : (ideal.cipher w.log).decrypt (w.party side).session.receiveKey
      (iv (w.party side).session.receiveDirection nextCounter) ciphertext [] = .ok plaintext) :
    (w.party side.peer).encrypted[(w.party side).decrypted.length]? = some plaintext := by
  have hmem := (ideal.decrypt_ok_iff h.genuine).mp hdecrypt
  obtain ⟨sender, hmem⟩ := World.mem_log.mp hmem
  obtain ⟨i, hi⟩ := mem_iff_getElem?.mp hmem
  have hmessage := (h.party sender).messages i _ hi
  -- the key tells the sender, so nothing of one's own is accepted; the nonce tells the position
  have hsender : sender = side.peer := hkeys (hmessage.key.symm.trans (h.party side).assigned.receiveKey)
  subst hsender
  obtain ⟨counter, hposition, hnonce⟩ := hmessage.nonce
  obtain ⟨-, rfl⟩ := iv_injective hnonce
  have hnext := toNat_of_checkedSucc hcounter
  have hindex : i = (w.party side).decrypted.length := by
    rw [hposition, (h.party side).receiveCounter] at hnext
    exact Nat.succ.inj hnext
  rw [Endpoint.encrypted, getElem?_map, ← hindex, hi]
  rfl

theorem prefix_concat {α : Type} {l m : List α} {a : α} (h : l <+: m) (ha : m[l.length]? = some a) : l ++ [a] <+: m := by
  obtain ⟨rest, rfl⟩ := h
  rw [getElem?_append_right (Nat.le_refl _), Nat.sub_self] at ha
  cases rest with
  | nil => cases ha
  | cons b rest =>
    obtain rfl : b = a := by simpa using ha
    exact ⟨rest, by simp⟩

/-- A party may move on if it stays sound, keeps what it has encrypted and has decrypted messages of its peer. -/
theorem Sound.update (h : Sound ideal keys w) {party : Endpoint} (hparty : PartySound ideal keys side party)
    (hencrypted : (w.party side).encrypted <+: party.encrypted)
    (hdecrypted : party.decrypted <+: (w.party side.peer).encrypted) :
    Sound ideal keys ⟨Function.update w.party side party⟩ := by
  constructor
  · intro other
    by_cases hother : other = side
    · subst hother
      simpa only [Function.update_self] using hparty
    · simpa only [Function.update_of_ne hother] using h.party other
  · intro other
    by_cases hother : other = side
    · subst hother
      simpa only [Function.update_self, Function.update_of_ne other.peer_ne] using hdecrypted
    · -- the party that has moved on is the other one's peer
      obtain rfl : side = other.peer := by
        rcases SessionDirection.eq_or_eq_peer side other with heq | heq
        · exact absurd heq.symm hother
        · exact heq
      simp only [Function.update_of_ne hother, Function.update_self]
      exact (h.inOrder other).trans hencrypted

/-- **One call keeps the invariant.** -/
theorem sound_step (hkeys : Function.Injective keys) (h : Sound ideal keys w) (action : Action) :
    Sound ideal keys (w.step ideal action) := by
  cases action with
  | encrypt side plaintext =>
    show Sound ideal keys ⟨Function.update _ _ _⟩
    obtain ⟨hassigned, hsent, hmessages, hreceived⟩ := h.party side
    rcases Endpoint.encrypt_cases (ideal.cipher w.log) plaintext (w.party side) with
      hsame | ⟨nextCounter, ciphertext, hcounter, hciphertext, hafter⟩
    · rw [hsame, Function.update_eq_self]
      exact h
    · rw [hafter]
      have hnext := toNat_of_checkedSucc hcounter
      refine h.update ⟨?_, ?_, ?_, hreceived⟩ ?_ (h.inOrder side)
      · exact ⟨hassigned.sendKey, hassigned.receiveKey, hassigned.sendDirection, hassigned.receiveDirection⟩
      · rw [length_append, ← hsent]
        exact hnext
      · intro i message hi
        by_cases hlt : i < (w.party side).sealed.length
        · rw [getElem?_append_left hlt] at hi
          exact hmessages i message hi
        · rw [getElem?_append_right (Nat.le_of_not_lt hlt), getElem?_singleton] at hi
          split at hi
          · cases hi
            have hindex : nextCounter.toNat = i + 1 := by omega
            exact ⟨hassigned.sendKey, ⟨nextCounter, hindex, by rw [hassigned.sendDirection]⟩, rfl, hciphertext⟩
          · cases hi
      · simp [Endpoint.encrypted]
  | decrypt side ciphertext =>
    show Sound ideal keys ⟨Function.update _ _ _⟩
    obtain ⟨hassigned, hsent, hmessages, hreceived⟩ := h.party side
    rcases Endpoint.decrypt_cases (ideal.cipher w.log) ciphertext (w.party side) with
      hsame | ⟨nextCounter, plaintext, hcounter, hplaintext, hafter⟩
    · rw [hsame, Function.update_eq_self]
      exact h
    · rw [hafter]
      have hnext := toNat_of_checkedSucc hcounter
      have hposition := h.next_of_decrypt hkeys hcounter hplaintext
      refine h.update ⟨?_, hsent, hmessages, ?_⟩ (prefix_refl _) (prefix_concat (h.inOrder side) hposition)
      · exact ⟨hassigned.sendKey, hassigned.receiveKey, hassigned.sendDirection, hassigned.receiveDirection⟩
      · rw [length_append, ← hreceived]
        exact hnext

/-- **Every interleaving keeps it.** -/
theorem sound_run (hkeys : Function.Injective keys) (h : Sound ideal keys w) (actions : List Action) :
    Sound ideal keys (w.run ideal actions) := by
  induction actions generalizing w with
  | nil => exact h
  | cons action rest ih => exact ih (sound_step hkeys h action)

/-! ## The start -/

theorem length_of_deriveMdlSessionKeys {kdf : Kdf} {sharedSecret sessionTranscript deviceKey readerKey : Bytes}
    (h : deriveMdlSessionKeys kdf sharedSecret sessionTranscript = .ok (deviceKey, readerKey)) :
    deviceKey.length = 32 ∧ readerKey.length = 32 := by
  have hlength : ∀ {info key : Bytes}, kdf.hkdfSha256 sharedSecret (kdf.sha256 sessionTranscript) info 32 = .ok key →
      key.length = 32 := by
    intro info key hkey
    obtain ⟨key', hkey', hlength⟩ := kdf.hkdfSha256_ok sharedSecret (kdf.sha256 sessionTranscript) info 32 (by decide)
    obtain rfl := Except.ok.inj (hkey'.symm.trans hkey)
    exact hlength
  obtain ⟨first, hfirst, h⟩ := of_bind h
  obtain ⟨second, hsecond, h⟩ := of_bind h
  obtain ⟨rfl, rfl⟩ := Prod.mk.inj (Except.ok.inj h)
  exact ⟨hlength hfirst, hlength hsecond⟩

/-! ## Consequences -/

/-- The pairs of a key and a nonce that ciphertexts have been made with, by any party. -/
def World.nonces (w : World) : List (Bytes × Bytes) := w.log.map (fun message => (message.key, message.nonce))

theorem PartySound.nodup {party : Endpoint} (h : PartySound ideal keys side party) :
    (party.sealed.map (fun message => (message.key, message.nonce))).Nodup := by
  rw [List.Nodup, pairwise_map, pairwise_iff_getElem]
  intro i j hi hj hlt heq
  obtain ⟨m, hm, hnonce⟩ := (h.messages i _ (getElem?_eq_getElem hi)).nonce
  obtain ⟨n, hn, hnonce'⟩ := (h.messages j _ (getElem?_eq_getElem hj)).nonce
  have hnonces : party.sealed[i].nonce = party.sealed[j].nonce := congrArg Prod.snd heq
  obtain ⟨-, rfl⟩ := iv_injective (hnonce.symm.trans (hnonces.trans hnonce'))
  omega

/-- No nonce is used twice under one key. -/
theorem Sound.nodup_nonces (hkeys : Function.Injective keys) (h : Sound ideal keys w) : w.nonces.Nodup := by
  rw [World.nonces, World.log, map_append, nodup_append]
  refine ⟨(h.party .device).nodup, (h.party .reader).nodup, ?_⟩
  intro pair hdevice other hreader heq
  obtain ⟨message, hmessage, rfl⟩ := mem_map.mp hdevice
  obtain ⟨message', hmessage', rfl⟩ := mem_map.mp hreader
  obtain ⟨i, hi⟩ := mem_iff_getElem?.mp hmessage
  obtain ⟨j, hj⟩ := mem_iff_getElem?.mp hmessage'
  have hkey := ((h.party .device).messages i message hi).key
  have hkey' := ((h.party .reader).messages j message' hj).key
  have hsame : message.key = message'.key := congrArg Prod.fst heq
  exact absurd (hkeys (hkey.symm.trans (hsame.trans hkey'))) (by decide)

/-- **The next message gets through.** While the peer is ahead, its next ciphertext is accepted. -/
theorem Sound.delivers_next (h : Sound ideal keys w)
    (hnext : (w.party side.peer).sealed[(w.party side).decrypted.length]? = some message)
    (hlength : (keys side.peer).length = 32) :
    ((w.party side).decrypt (ideal.cipher w.log) message.ciphertext).decrypted =
      (w.party side).decrypted ++ [message.plaintext] := by
  obtain ⟨hassigned, -, -, hreceived⟩ := h.party side
  have hmessage := (h.party side.peer).messages _ message hnext
  obtain ⟨counter, hcounter, hnonce⟩ := hmessage.nonce
  -- the peer has reached this counter, so one's own is not exhausted
  have hsucc : checkedSucc (w.party side).session.receiveCounter = some counter := by
    have hbound := counter.toNat_lt
    rw [checkedSucc, if_pos (by omega)]
    refine congrArg some (UInt32.toNat_inj.mp ?_)
    have hone : (1 : UInt32).toNat = 1 := rfl
    rw [UInt32.toNat_add, hcounter, hreceived, hone]
    exact Nat.mod_eq_of_lt (by omega)
  have hmem : message ∈ w.log := World.mem_log.mpr ⟨side.peer, mem_iff_getElem?.mpr ⟨_, hnext⟩⟩
  have hdecrypt : ideal.decrypt w.log (w.party side).session.receiveKey
      (iv (w.party side).session.receiveDirection counter) message.ciphertext [] = .ok message.plaintext := by
    rw [hassigned.receiveKey, hassigned.receiveDirection, ← hnonce, ← hmessage.key, ← hmessage.aad]
    exact (ideal.decrypt_ok_iff h.genuine).mpr hmem
  have hcall : aes256GcmDecrypt (ideal.cipher w.log) (w.party side).session.receiveKey
      (iv (w.party side).session.receiveDirection counter) message.ciphertext [] = .ok message.plaintext := by
    rw [hassigned.receiveKey] at hdecrypt ⊢
    rw [aes256GcmDecrypt, checkLengths, reject, if_neg (not_not.mpr hlength), ok_bind, reject,
      if_neg (not_not.mpr (length_iv _ _)), ok_bind]
    exact hdecrypt
  rw [Endpoint.decrypt, SessionEncryption.decrypt, Method.run_get_bind,
    Method.run_call_bind (Exec.orFail_ok_iff.mpr hsucc), hcall]
  rfl

/-! ## Sessions derived together -/

section

variable {kdf : Kdf} {sharedSecret sessionTranscript : Bytes} {device reader : SessionEncryption}

section

variable (hdevice : SessionEncryption.newDirectional kdf sharedSecret sessionTranscript .device = .ok device)
  (hreader : SessionEncryption.newDirectional kdf sharedSecret sessionTranscript .reader = .ok reader)
  (hdistinct : device.sendKey ≠ device.receiveKey)

include hdevice hreader hdistinct

/-- The key each direction has, of two states that were derived together. -/
theorem exists_keys (ideal : Ideal CryptoError) :
    ∃ keys : SessionDirection → Bytes, Function.Injective keys ∧ (∀ side, (keys side).length = 32) ∧
      Sound ideal keys (World.start device reader) := by
  obtain ⟨⟨deviceKey, readerKey⟩, hderived, hdevice⟩ := of_bind hdevice
  obtain ⟨pair, hderived', hreader⟩ := of_bind hreader
  obtain rfl : (deviceKey, readerKey) = pair := Except.ok.inj (hderived.symm.trans hderived')
  cases hdevice
  cases hreader
  obtain ⟨hdeviceLength, hreaderLength⟩ := length_of_deriveMdlSessionKeys (mapError_ok_iff.mp hderived)
  refine ⟨fun | .device => deviceKey | .reader => readerKey, ?_, ?_, ?_, ?_⟩
  · intro a b hab
    cases a <;> cases b <;> first | rfl | exact absurd hab hdistinct | exact absurd hab.symm hdistinct
  · intro side
    cases side with
    | device => exact hdeviceLength
    | reader => exact hreaderLength
  · intro side
    cases side with
    | device | reader => exact ⟨⟨rfl, rfl, rfl, rfl⟩, rfl, by simp [World.start], rfl⟩
  · intro side
    cases side with
    | device | reader => exact nil_prefix

/-- **While its peer is ahead, a party can be given the next message**, after any calls and any interference. -/
theorem next_message_delivered {actions : List Action} {w : World}
    (hrun : (World.start device reader).run ideal actions = w) {side : SessionDirection}
    (hnext : (w.party side.peer).sealed[(w.party side).decrypted.length]? = some message) :
    ((w.step ideal (.decrypt side message.ciphertext)).party side).decrypted =
      (w.party side).decrypted ++ [message.plaintext] := by
  obtain ⟨keys, hkeys, hlength, hstart⟩ := exists_keys hdevice hreader hdistinct ideal
  have hsound := sound_run hkeys hstart actions
  rw [hrun] at hsound
  show (Function.update w.party side _ side).decrypted = _
  rw [Function.update_self]
  exact hsound.delivers_next hnext (hlength side.peer)

end

/-- **The channel delivers in order, without replay or reflection.** Whatever the parties encrypt and whatever they are
    given to decrypt, at every moment a party has accepted the first plaintexts of its peer, in order; no key and nonce
    have been used for two ciphertexts; and a call that fails leaves its party as it was. -/
theorem channel_in_order (ideal : Ideal CryptoError)
    (hdevice : SessionEncryption.newDirectional kdf sharedSecret sessionTranscript .device = .ok device)
    (hreader : SessionEncryption.newDirectional kdf sharedSecret sessionTranscript .reader = .ok reader)
    (hdistinct : device.sendKey ≠ device.receiveKey) :
    (∀ (actions : List Action) (side : SessionDirection),
      (((World.start device reader).run ideal actions).party side).decrypted <+:
        (((World.start device reader).run ideal actions).party side.peer).encrypted) ∧
    (∀ actions : List Action, ((World.start device reader).run ideal actions).nonces.Nodup) ∧
    ∀ (cipher : Cipher) (session after : SessionEncryption) (text : Bytes) (e : Fault Error),
      ((SessionEncryption.encrypt cipher text).run session = (.error e, after) → after = session) ∧
      ((SessionEncryption.decrypt cipher text).run session = (.error e, after) → after = session) := by
  obtain ⟨keys, hkeys, -, hstart⟩ := exists_keys hdevice hreader hdistinct ideal
  refine ⟨?_, ?_, ?_⟩
  · intro actions side
    exact (sound_run hkeys hstart actions).inOrder side
  · intro actions
    exact (sound_run hkeys hstart actions).nodup_nonces hkeys
  · intro cipher session after text e
    exact ⟨(SessionEncryption.encrypt_commits cipher session text).of_error,
      (SessionEncryption.decrypt_commits cipher session text).of_error⟩

end

/-! ## A run with interference -/

/-- A key derivation that returns its label. -/
def sampleKdf : Kdf where
  sha256 transcript := transcript
  hkdfSha256 _ _ info length :=
    if length ≤ 255 * 32 then .ok ((info ++ List.replicate length 0).take length)
    else .error (.internal "HKDF expansion failed: output length too long")
  hkdfSha256_ok ikm salt info length h := ⟨_, if_pos h, by simp⟩

/-- An ideal cipher that shows its plaintexts. -/
def sampleIdeal : Ideal CryptoError :=
  Ideal.ofInjective (fun _ _ plaintext _ => .ok (plaintext ++ List.replicate 16 0))
    (.internal "AES-GCM decryption failed") (by
      intro key nonce aad p p' c h h'
      exact append_cancel_right ((Except.ok.inj h).trans (Except.ok.inj h').symm))

def sampleSession (direction : SessionDirection) : SessionEncryption where
  sendKey := (match direction with | .device => skDevice | .reader => skReader) ++ List.replicate 24 0
  receiveKey := (match direction with | .device => skReader | .reader => skDevice) ++ List.replicate 24 0
  sendCounter := 0
  receiveCounter := 0
  sendDirection := direction
  receiveDirection := direction.peer

theorem newDirectional_sample (direction : SessionDirection) :
    SessionEncryption.newDirectional sampleKdf [] [] direction = .ok (sampleSession direction) := by
  cases direction <;> rfl

/-- The device sends twice. Its first ciphertext is sent back to it, the second comes first, the first is replayed and
    one is made up. -/
def sampleActions : List Action :=
  let first := [1] ++ List.replicate 16 0
  let second := [2] ++ List.replicate 16 0
  [.encrypt .device [1], .encrypt .device [2], .decrypt .device first, .decrypt .reader second, .decrypt .reader first,
    .decrypt .reader first, .decrypt .reader (List.replicate 17 0), .decrypt .reader second]

theorem channel_in_order_sampleActions :
    (((World.start (sampleSession .device) (sampleSession .reader)).run sampleIdeal sampleActions).party
      .reader).decrypted = [[1], [2]] ∧
    (∀ side, (((World.start (sampleSession .device) (sampleSession .reader)).run sampleIdeal sampleActions).party
        side).decrypted <+:
      (((World.start (sampleSession .device) (sampleSession .reader)).run sampleIdeal sampleActions).party
        side.peer).encrypted) ∧
    ((World.start (sampleSession .device) (sampleSession .reader)).run sampleIdeal sampleActions).nonces.Nodup := by
  have hchannel := channel_in_order sampleIdeal (newDirectional_sample .device) (newDirectional_sample .reader) (by decide)
  exact ⟨by decide +kernel, hchannel.1 sampleActions, hchannel.2.1 sampleActions⟩

/-- With the interference before the last action. -/
theorem next_message_delivered_second :
    ∃ message : Sealed, ((((World.start (sampleSession .device) (sampleSession .reader)).run sampleIdeal
      sampleActions.dropLast).step sampleIdeal (.decrypt .reader message.ciphertext)).party .reader).decrypted =
        [[1], [2]] := by
  exact ⟨⟨_, _, _, [2], _⟩, next_message_delivered (newDirectional_sample .device) (newDirectional_sample .reader)
    (by decide) rfl (by rfl)⟩

end MartyCore.Iso18013
