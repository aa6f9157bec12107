import MartyCore.Iso18013.Engagement

/-!
# `Iso18013.Session` — sessions and the tasks that work on one

The embedding of `SessionKeyAgreement` in `marty-iso18013/src/session.rs` and of `Session` in
`marty-iso18013/src/protocol.rs`. A session has three cells, each behind a lock of its own: the state, the encryption and
the key agreement. Its methods are asynchronous, and any number of calls may be under way at the same time. A call gives
way to others only where it waits for a lock, so it is cut there (`Point`): what it does between two waits is one step
(`act`). The locks that a call keeps while it waits for another one are part of the shared state; the others are free
again by the end of the step that takes them.

Instants are natural numbers, and `now` may grow between any two steps. `verbose` is not read and is left out.
-/

namespace MartyCore.Iso18013

open Method

/-! ## Key agreement -/

structure SessionKeyAgreement (κ : Type) where
  keyPair : Option κ
  publicKey : Bytes
  peerPublicKey : Option Bytes
deriving DecidableEq

/-- Everything a session relies on. -/
structure Platform (κ : Type) where
  isomdl : Isomdl
  p256 : P256 κ
  kdf : Kdf
  cipher : Cipher

section

variable {κ : Type} (platform : Platform κ)

/-- `P256KeyPair::agree`, which takes the key pair. -/
def agree (keyPair : κ) (peerPublic : Bytes) : Except CryptoError Bytes := do
  validateP256PublicKey platform.p256 peerPublic
  return platform.p256.sharedSecret keyPair peerPublic

namespace SessionKeyAgreement

def fromKeyPair (keyPair : κ) : SessionKeyAgreement κ where
  keyPair := some keyPair
  publicKey := platform.p256.publicKey keyPair
  peerPublicKey := none

def clearPrivateState (self : SessionKeyAgreement κ) : SessionKeyAgreement κ :=
  { self with keyPair := none, peerPublicKey := none }

def validateAndSetPeerKey (peerKey : Bytes) : Method (SessionKeyAgreement κ) Error Unit := do
  let self ← get
  Method.call ((liftCrypto (validateP256PublicKey platform.p256 peerKey)).mapError Fault.err)
  set ({ self with peerPublicKey := some peerKey } : SessionKeyAgreement κ)

/-- The key pair is taken out of its place before it is used. -/
def deriveSharedSecret : Method (SessionKeyAgreement κ) Error Bytes := do
  let self ← get
  let peerKey ← Method.call (Exec.orFail (.invalidState "Peer public key not set") self.peerPublicKey)
  let keyPair ← Method.call (Exec.orFail (.invalidState "ECDH agreement already consumed") self.keyPair)
  set ({ self with keyPair := none } : SessionKeyAgreement κ)
  Method.call ((liftCrypto (agree platform keyPair peerKey)).mapError Fault.err)

end SessionKeyAgreement

/-! ## Sessions -/

inductive SessionState where
  | idle | engagement | establishing | established | processing | responding | terminated
deriving DecidableEq

structure SessionConfig where
  timeoutSecs : Nat
  maxMessageSize : Nat

def maxSessionMessageBytes : Nat := 1024 * 1024

def maxSessionTimeoutSecs : Nat := 60 * 60

def SessionConfig.validate (self : SessionConfig) : Except Error Unit :=
  Result.reject (¬ (1 ≤ self.timeoutSecs ∧ self.timeoutSecs ≤ maxSessionTimeoutSecs))
    (.invalidRequest ("Session timeout must be between 1 and " ++ toString maxSessionTimeoutSecs ++ " seconds"))

inductive SessionRole where
  | device | reader
deriving DecidableEq

/-- The part of a session that never changes. -/
structure Session where
  config : SessionConfig
  deadline : Nat
  role : SessionRole
  engagementBytes : Bytes
  engagementDeviceKey : Bytes

/-- The part behind locks. -/
structure Cells (κ : Type) where
  state : SessionState
  encryption : Option SessionEncryption
  keyAgreement : SessionKeyAgreement κ
deriving DecidableEq

namespace Session

variable (engagement : DeviceEngagement κ)

def newForRole (config : SessionConfig) (keyAgreement : SessionKeyAgreement κ)
    (role : SessionRole) (now : Nat) : Except Error (Session × Cells κ) := do
  config.validate
  let engagementBytes ← engagement.toCbor platform.isomdl
  return (⟨config, now + config.timeoutSecs, role, engagementBytes, engagement.deviceKey⟩,
    ⟨.engagement, none, keyAgreement⟩)

/-- The session of a device, from the engagement it has advertised. -/
def fromEngagement (config : SessionConfig) (now : Nat) : Except Error (Session × Cells κ) := do
  config.validate
  let (keyPair, engagement) ← engagement.takeEphemeralKeyPair
  let keyAgreement := SessionKeyAgreement.fromKeyPair platform keyPair
  Result.reject (keyAgreement.publicKey ≠ engagement.deviceKey)
    (.invalidEngagement "DeviceEngagement public key does not match its private key")
  newForRole platform engagement config keyAgreement .device now

/-- The session of a reader, with a key pair that was generated for it. -/
def readerFromEngagement (config : SessionConfig) (keyPair : κ) (now : Nat) : Except Error (Session × Cells κ) := do
  config.validate
  newForRole platform engagement config (SessionKeyAgreement.fromKeyPair platform keyPair) .reader now

def buildSessionTranscript (engagementBytes readerPublicKey : Bytes) : Except Error Bytes := do
  let _ ← (platform.isomdl.decode engagementBytes).mapError Error.invalidEngagement
  let coseKey ← coseKeyFromSec1 readerPublicKey
  let readerKey ← (platform.isomdl.encodeKey coseKey).mapError Error.sessionEstablishment
  (platform.isomdl.encodeTranscript engagementBytes readerKey).mapError Error.sessionEstablishment

def sendDirection : SessionRole → SessionDirection
  | .device => .device
  | .reader => .reader

/-- What `establish` does with the key agreement in its hands. -/
def deriveEncryption (self : Session) (peerPublicKey : Bytes) : Method (SessionKeyAgreement κ) Error SessionEncryption := do
  SessionKeyAgreement.validateAndSetPeerKey platform peerPublicKey
  let keyAgreement ← get
  let ourPublicKey := keyAgreement.publicKey
  let sharedSecret ← SessionKeyAgreement.deriveSharedSecret platform
  let readerPublicKey :=
    match self.role with
    | .device => peerPublicKey
    | .reader => ourPublicKey
  let sessionTranscript ← Method.call
    ((buildSessionTranscript platform self.engagementBytes readerPublicKey).mapError Fault.err)
  Method.call ((SessionEncryption.newDirectional platform.kdf sharedSecret sessionTranscript
    (sendDirection self.role)).mapError Fault.err)

def maximumMessageSize (self : Session) : Nat := min self.config.maxMessageSize maxSessionMessageBytes

end Session

/-! ## What `establish` does with the key agreement -/

section

variable {platform} {engagementBytes readerKey : Bytes}

variable {value : Iso.DeviceEngagement × Nat}

theorem buildSessionTranscript_of_uncompressed (hdecode : platform.isomdl.decode engagementBytes = .ok value)
    (h : Uncompressed readerKey) :
    ∃ transcript, Session.buildSessionTranscript platform engagementBytes readerKey = .ok transcript := by
  obtain ⟨coseKey, hcose⟩ := coseKeyFromSec1_of_uncompressed h
  obtain ⟨bytes, hbytes⟩ := platform.isomdl.encodeKey_ok coseKey
  obtain ⟨transcript, htranscript⟩ := platform.isomdl.encodeTranscript_ok engagementBytes bytes
  refine ⟨transcript, ?_⟩
  rw [Session.buildSessionTranscript, hdecode]
  show (coseKeyFromSec1 readerKey >>= _) = _
  rw [hcose, Result.ok_bind, hbytes]
  show (platform.isomdl.encodeTranscript engagementBytes bytes).mapError _ = _
  rw [htranscript]
  rfl

theorem buildSessionTranscript_of_not_uncompressed (hdecode : platform.isomdl.decode engagementBytes = .ok value)
    (h : ¬ Uncompressed readerKey) :
    Session.buildSessionTranscript platform engagementBytes readerKey =
      .error (.invalidEngagement "EDeviceKey must be an uncompressed P-256 point") := by
  rw [Session.buildSessionTranscript, hdecode]
  show (coseKeyFromSec1 readerKey >>= _) = _
  rw [coseKeyFromSec1, Result.reject, if_pos (not_and_or.mp h)]
  rfl

variable (platform) in
/-- What comes out, and what is left of the key agreement. -/
inductive Derives (session : Session) (ka : SessionKeyAgreement κ) (key : Bytes) :
    Exec Error SessionEncryption → SessionKeyAgreement κ → Prop
  | invalid (e : CryptoError) (hkey : platform.p256.validate key ≠ .ok ()) :
      Derives session ka key (.error (.err (.crypto e))) ka
  | consumed (hkey : platform.p256.validate key = .ok ()) (hpair : ka.keyPair = none) :
      Derives session ka key (.error (.err (.invalidState "ECDH agreement already consumed")))
        { ka with peerPublicKey := some key }
  | compressed (hkey : platform.p256.validate key = .ok ()) (hpair : ka.keyPair ≠ none)
      (hrole : session.role = .device) (hform : ¬ Uncompressed key) :
      Derives session ka key (.error (.err (.invalidEngagement "EDeviceKey must be an uncompressed P-256 point")))
        { ka with keyPair := none, peerPublicKey := some key }
  | derived (encryption : SessionEncryption) (hkey : platform.p256.validate key = .ok ()) (hpair : ka.keyPair ≠ none)
      (hform : session.role = .device → Uncompressed key) :
      Derives session ka key (.ok encryption) { ka with keyPair := none, peerPublicKey := some key }

variable {session : Session} {ka : SessionKeyAgreement κ} {key : Bytes}

theorem validateAndSetPeerKey_of_valid (h : platform.p256.validate key = .ok ()) :
    (SessionKeyAgreement.validateAndSetPeerKey platform key).run ka = (.ok (), { ka with peerPublicKey := some key }) := by
  rw [SessionKeyAgreement.validateAndSetPeerKey, run_get_bind, validateP256PublicKey, h]
  rfl

theorem validateAndSetPeerKey_of_invalid {message : String} (h : platform.p256.validate key = .error message) :
    (SessionKeyAgreement.validateAndSetPeerKey platform key).run ka =
      (.error (.err (.crypto (.internal ("Invalid P-256 public key: " ++ message)))), ka) := by
  rw [SessionKeyAgreement.validateAndSetPeerKey, run_get_bind, validateP256PublicKey, h]
  rfl

theorem deriveSharedSecret_of_some {keyPair : κ} (hkey : platform.p256.validate key = .ok ())
    (hpair : ka.keyPair = some keyPair) :
    (SessionKeyAgreement.deriveSharedSecret platform).run { ka with peerPublicKey := some key } =
      (.ok (platform.p256.sharedSecret keyPair key), { ka with keyPair := none, peerPublicKey := some key }) := by
  rw [SessionKeyAgreement.deriveSharedSecret, run_get_bind, hpair]
  show (Method.call ((liftCrypto (agree platform keyPair key)).mapError Fault.err)).run
    ({ ka with keyPair := none, peerPublicKey := some key } : SessionKeyAgreement κ) = _
  rw [agree, validateP256PublicKey, hkey]
  rfl

theorem deriveSharedSecret_of_none (hpair : ka.keyPair = none) :
    (SessionKeyAgreement.deriveSharedSecret platform).run { ka with peerPublicKey := some key } =
      (.error (.err (.invalidState "ECDH agreement already consumed")), { ka with peerPublicKey := some key }) := by
  rw [SessionKeyAgreement.deriveSharedSecret, run_get_bind, hpair]
  rfl

/-- **There are four ways this can end.** -/
theorem deriveEncryption_cases (hdecode : platform.isomdl.decode session.engagementBytes = .ok value)
    (hpublic : Uncompressed ka.publicKey) :
    Derives platform session ka key ((session.deriveEncryption platform key).run ka).1
      ((session.deriveEncryption platform key).run ka).2 := by
  rw [Session.deriveEncryption]
  cases hkey : platform.p256.validate key with
  | error message =>
    rw [run_bind_error (validateAndSetPeerKey_of_invalid hkey)]
    exact .invalid _ (by simp [hkey])
  | ok _ =>
    rw [run_bind_ok (validateAndSetPeerKey_of_valid hkey), run_get_bind]
    rcases Option.eq_none_or_eq_some ka.keyPair with hpair | ⟨keyPair, hpair⟩
    · rw [run_bind_error (deriveSharedSecret_of_none hpair)]
      exact .consumed hkey hpair
    rw [run_bind_ok (deriveSharedSecret_of_some hkey hpair)]
    by_cases hform : session.role = .device → Uncompressed key
    · have hreader : Uncompressed (match session.role with | .device => key | .reader => ka.publicKey) := by
        cases hrole : session.role with
        | device => exact hform hrole
        | reader => exact hpublic
      obtain ⟨transcript, htranscript⟩ := buildSessionTranscript_of_uncompressed hdecode hreader
      obtain ⟨encryption, hencryption⟩ := newDirectional_ok platform.kdf (platform.p256.sharedSecret keyPair key)
        transcript (Session.sendDirection session.role)
      rw [run_call_bind (by rw [htranscript]; rfl), hencryption]
      exact .derived encryption hkey (by simp [hpair]) hform
    · obtain ⟨hrole, hform⟩ := Classical.not_imp.mp hform
      simp only [hrole]
      rw [run_call_error_bind (by rw [buildSessionTranscript_of_not_uncompressed hdecode hform]; rfl)]
      exact .compressed hkey (by simp [hpair]) hrole hform

end

/-! ## Tasks -/

inductive Op where
  | establish (peerPublicKey : Bytes)
  | sendEncrypted (message : Bytes)
  | receiveEncrypted (ciphertext : Bytes)
  | publicKey
  | state
  | terminate
deriving DecidableEq

inductive Reply where
  | unit
  | bytes (data : Bytes)
  | state (state : SessionState)
deriving DecidableEq

/-- The three locks that `terminate` and `expire_session` wait for in turn. -/
inductive Stage where
  | state | encryption | keyAgreement
deriving DecidableEq

/-- Where a call is: what it does next, or what it has returned. -/
inductive Point where
  /-- Looks at the clock. -/
  | start
  /-- In time; waits for the state. -/
  | checked
  /-- `establish`, with the state in its hands; waits for the key agreement. -/
  | agreeing
  /-- `establish`, with state and key agreement in its hands; waits for the encryption. -/
  | committing (encryption : SessionEncryption)
  /-- `establish`, too late, with the state in its hands; waits for the encryption. -/
  | abandoning
  /-- Waits for the encryption, or for the key agreement in `public_key`. -/
  | operating
  /-- Closes the session; has the state in its hands once it is past the first stage. -/
  | closing (stage : Stage)
  /-- `state`; waits for the state. -/
  | reading
  | returned (result : Exec Error Reply)
deriving DecidableEq

/-- The cells, the locks that are kept over a wait, by the number of the task that keeps them, and the clock. -/
structure Shared (κ : Type) where
  cells : Cells κ
  stateHeld : Option Nat
  keyAgreementHeld : Option Nat
  now : Nat

def Op.entry : Op → Point
  | .terminate => .closing .state
  | _ => .start

/-- Where a call goes on when the session is closed. -/
def Op.afterClosing : Op → Point
  | .terminate => .returned (.ok .unit)
  | .state => .reading
  | _ => .returned (.error (.err .timeout))

variable (session : Session)

/-- The checks behind the lock of the state, for the methods that make any. -/
def enter (task : Nat) (s : Shared κ) : Op → Option (Shared κ × Point)
  | .establish peerPublicKey =>
    if s.cells.state ≠ .engagement then
      some (s, .returned (.error (.err (.invalidState "Cannot establish from current state"))))
    else if session.role = .reader ∧ peerPublicKey ≠ session.engagementDeviceKey then
      some (s, .returned (.error (.err (.sessionEstablishment "peer key does not match DeviceEngagement EDeviceKey"))))
    else some ({ s with stateHeld := some task }, .agreeing)
  | .sendEncrypted message =>
    if s.cells.state ≠ .established then
      some (s, .returned (.error (.err (.invalidState "Cannot send outside an established session"))))
    else if session.maximumMessageSize < message.length then
      some (s, .returned (.error (.err (.invalidRequest
        ("Message exceeds " ++ toString session.maximumMessageSize ++ " byte session limit")))))
    else some (s, .operating)
  | .receiveEncrypted ciphertext =>
    if s.cells.state ≠ .established then
      some (s, .returned (.error (.err (.invalidState "Cannot receive outside an established session"))))
    else if session.maximumMessageSize + 16 < ciphertext.length then
      some (s, .returned (.error (.err (.invalidResponse
        ("Encrypted message exceeds " ++ toString (session.maximumMessageSize + 16) ++ " byte session limit")))))
    else some (s, .operating)
  | .publicKey =>
    if s.cells.state = .terminated then some (s, .returned (.error (.err (.invalidState "Session is terminated"))))
    else some (s, .operating)
  | .state => none
  | .terminate => none

/-- `establish` behind the lock of the key agreement. -/
def agreement (task : Nat) (s : Shared κ) (peerPublicKey : Bytes) : Shared κ × Point :=
  match (session.deriveEncryption platform peerPublicKey).run s.cells.keyAgreement with
  | (.error e, keyAgreement) =>
    ({ s with cells := { s.cells with keyAgreement := keyAgreement }, stateHeld := none }, .returned (.error e))
  | (.ok encryption, keyAgreement) =>
    if session.deadline ≤ s.now then
      ({ s with cells := { s.cells with state := .terminated, keyAgreement := keyAgreement.clearPrivateState } },
        .abandoning)
    else
      ({ s with cells := { s.cells with keyAgreement := keyAgreement }, keyAgreementHeld := some task },
        .committing encryption)

/-- `send_encrypted` and `receive_encrypted` behind the lock of the encryption. -/
def useEncryption (s : Shared κ) (method : Method SessionEncryption Error Bytes) : Shared κ × Point :=
  if session.deadline ≤ s.now then ({ s with cells := { s.cells with encryption := none } }, .closing .state)
  else
    match s.cells.encryption with
    | none => (s, .returned (.error (.err (.invalidState "Session not established"))))
    | some encryption =>
      let (outcome, encryption) := method.run encryption
      ({ s with cells := { s.cells with encryption := some encryption } }, .returned (outcome.map Reply.bytes))

/-- One step of a task, unless a lock it waits for is taken. -/
def act (task : Nat) (s : Shared κ) (op : Op) : Point → Option (Shared κ × Point)
  | .start =>
    if s.now < session.deadline then some (s, if op = .state then .reading else .checked)
    else some (s, .closing .state)
  | .checked => if s.stateHeld.isSome then none else enter session task s op
  | .agreeing =>
    if s.keyAgreementHeld.isSome then none
    else
      match op with
      | .establish peerPublicKey => some (agreement platform session task s peerPublicKey)
      | _ => none
  | .committing encryption =>
    some ({ s with
      cells := { s.cells with state := .established, encryption := some encryption }
      stateHeld := none
      keyAgreementHeld := none }, .returned (.ok .unit))
  | .abandoning =>
    some ({ s with cells := { s.cells with encryption := none }, stateHeld := none },
      .returned (.error (.err .timeout)))
  | .operating =>
    match op with
    | .sendEncrypted message => some (useEncryption session s (SessionEncryption.encrypt platform.cipher message))
    | .receiveEncrypted ciphertext =>
      some (useEncryption session s (SessionEncryption.decrypt platform.cipher ciphertext))
    | .publicKey =>
      if s.keyAgreementHeld.isSome then none
      else if session.deadline ≤ s.now then some (s, .closing .state)
      else some (s, .returned (.ok (.bytes s.cells.keyAgreement.publicKey)))
    | _ => none
  | .closing .state =>
    if s.stateHeld.isSome then none
    else some ({ s with cells := { s.cells with state := .terminated }, stateHeld := some task }, .closing .encryption)
  | .closing .encryption => some ({ s with cells := { s.cells with encryption := none } }, .closing .keyAgreement)
  | .closing .keyAgreement =>
    if s.keyAgreementHeld.isSome then none
    else
      some ({ s with
        cells := { s.cells with keyAgreement := s.cells.keyAgreement.clearPrivateState }
        stateHeld := none }, op.afterClosing)
  | .reading => if s.stateHeld.isSome then none else some (s, .returned (.ok (.state s.cells.state)))
  | .returned _ => none

/-! ## Interleavings -/

structure Task where
  op : Op
  point : Point
deriving DecidableEq

/-- A session with the calls that have been made on it, in the order they were made. -/
structure Calls (κ : Type) where
  shared : Shared κ
  tasks : List Task

inductive Event where
  | pass (time : Nat)
  | call (op : Op)
  | step (task : Nat)

namespace Calls

/-- A task that cannot step leaves everything as it is. -/
def next (w : Calls κ) : Event → Calls κ
  | .pass time => { w with shared := { w.shared with now := w.shared.now + time } }
  | .call op => { w with tasks := w.tasks ++ [⟨op, op.entry⟩] }
  | .step i =>
    match w.tasks[i]? with
    | none => w
    | some task =>
      match act platform session i w.shared task.op task.point with
      | none => w
      | some (shared, point) => ⟨shared, w.tasks.set i ⟨task.op, point⟩⟩

def run (w : Calls κ) (events : List Event) : Calls κ := events.foldl (next platform session) w

/-- A new session, at this time. -/
def start (cells : Cells κ) (now : Nat) : Calls κ := ⟨⟨cells, none, none, now⟩, []⟩

end Calls

end

end MartyCore.Iso18013
