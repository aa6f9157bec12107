import MartyCore.Iso18013.Lifecycle

/-!
# `Iso18013.SessionChannel` — a session tied to its transport

The embedding of `SessionChannel` in `marty-iso18013/src/transport/session_channel.rs`. The channel owns its session and its
methods take `&mut self`, so a method of the session runs to its end before the next one begins (`Session.await`, over the
steps of `act`). Any time may pass before each step. A transport is a state and four functions on it, so a statement about
all of them is one about every behaviour.

A channel is meant to terminate its session when anything fails. It does so for every failure of the transport, for every
failure of `receive` and on `close`; a session that is past its deadline closes itself. What is left is a `send` that the
session refuses while it is alive (`Spared`): the channel returns the error and goes on. The channel fails closed exactly in
runs without such a call (`fails_closed_iff`).
-/

namespace MartyCore.Iso18013

open Point

/-! ## Model -/

/-- The methods of a transport with state `τ`. -/
structure Transport (τ : Type) where
  connect : τ → Except Error Unit × τ
  send : Bytes → τ → Except Error Unit × τ
  receive : τ → Except Error Bytes × τ
  close : τ → Except Error Unit × τ

/-- The session's cells and clock, and the transport's state. -/
structure SessionChannel (κ τ : Type) where
  session : Shared κ
  transport : τ

inductive ChannelOp where
  | send (plaintext : Bytes)
  | receive
  | close
deriving DecidableEq

/-- A call, with the time that passes before each step of the first and of the second method of the session it uses. -/
structure ChannelCall where
  op : ChannelOp
  times : Nat → Nat
  times' : Nat → Nat

/-- What a call returns, and what it has handed to the transport. -/
structure ChannelOutcome where
  result : Exec Error Reply
  handed : Option Bytes

section

variable {κ τ : Type} (platform : Platform κ) (session : Session) (transport : Transport τ)

namespace Session

/-- A call that nobody interrupts. The first argument bounds its steps. -/
def await (op : Op) (times : Nat → Nat) : Nat → Shared κ → Point → Exec Error Reply × Shared κ
  | _, s, .returned result => (result, s)
  | 0, s, _ => (.error .fuel, s)
  | fuel + 1, s, point =>
    match act platform session 0 { s with now := s.now + times fuel } op point with
    | none => (.error .fuel, s)
    | some (s', point') => await op times fuel s' point'

def call (op : Op) (times : Nat → Nat) (s : Shared κ) : Exec Error Reply × Shared κ :=
  await platform session op times 7 s op.entry

/-- Terminates the session and returns the error. -/
def failWith (e : Error) (times : Nat → Nat) (s : Shared κ) : Exec Error Reply × Shared κ :=
  match call platform session .terminate times s with
  | (.ok _, s) => (.error (.err e), s)
  | (.error fault, s) => (.error fault, s)

end Session

/-- The bytes of an answer; other answers have none. -/
def Reply.data : Reply → Bytes
  | .bytes data => data
  | _ => []

namespace SessionChannel

def connect (times : Nat → Nat) (s : Shared κ) (t : τ) : Except (Fault Error) (SessionChannel κ τ) × Shared κ :=
  match transport.connect t with
  | (.ok _, t) => (.ok ⟨s, t⟩, s)
  | (.error e, _) =>
    match session.failWith platform e times s with
    | (.error fault, s) => (.error fault, s)
    | (.ok _, s) => (.error (.err e), s)

def send (plaintext : Bytes) (times times' : Nat → Nat) (self : SessionChannel κ τ) : ChannelOutcome × SessionChannel κ τ :=
  match session.call platform (.sendEncrypted plaintext) times self.session with
  | (.error fault, s) => (⟨.error fault, none⟩, ⟨s, self.transport⟩)
  | (.ok ciphertext, s) =>
    match transport.send ciphertext.data self.transport with
    | (.ok _, t) => (⟨.ok .unit, some ciphertext.data⟩, ⟨s, t⟩)
    | (.error e, t) =>
      let (result, s) := session.failWith platform e times' s
      (⟨result, some ciphertext.data⟩, ⟨s, t⟩)

def receive (times times' : Nat → Nat) (self : SessionChannel κ τ) : ChannelOutcome × SessionChannel κ τ :=
  match transport.receive self.transport with
  | (.error e, t) =>
    let (result, s) := session.failWith platform e times self.session
    (⟨result, none⟩, ⟨s, t⟩)
  | (.ok ciphertext, t) =>
    match session.call platform (.receiveEncrypted ciphertext) times self.session with
    | (.ok value, s) => (⟨.ok value, none⟩, ⟨s, t⟩)
    | (.error (.err e), s) =>
      let (result, s) := session.failWith platform e times' s
      (⟨result, none⟩, ⟨s, t⟩)
    | (.error fault, s) => (⟨.error fault, none⟩, ⟨s, t⟩)

def close (times : Nat → Nat) (self : SessionChannel κ τ) : ChannelOutcome × SessionChannel κ τ :=
  let (transportResult, t) := transport.close self.transport
  match session.call platform .terminate times self.session with
  | (.error fault, s) => (⟨.error fault, none⟩, ⟨s, t⟩)
  | (.ok _, s) => (⟨(transportResult.mapError Fault.err).map (fun _ => .unit), none⟩, ⟨s, t⟩)

def perform (call : ChannelCall) (self : SessionChannel κ τ) : ChannelOutcome × SessionChannel κ τ :=
  match call.op with
  | .send plaintext => self.send platform session transport plaintext call.times call.times'
  | .receive => self.receive platform session transport call.times call.times'
  | .close => self.close platform session transport call.times

end SessionChannel

/-! ## One method of the session -/

variable {platform session transport}

/-- Nobody keeps a lock. -/
def Idle (s : Shared κ) : Prop := s.stateHeld = none ∧ s.keyAgreementHeld = none

/-- Steps that are left. -/
def Point.rank : Point → Nat
  | .start => 6
  | .checked => 5
  | .operating => 4
  | .closing .state => 3
  | .closing .encryption => 2
  | .closing .keyAgreement => 1
  | _ => 0

/-- Where `send_encrypted` or `receive_encrypted` is on its way, and what has become of the state it began with. -/
inductive Way (before : SessionState) (s : Shared κ) : Point → Prop
  | start (hidle : Idle s) (hstate : s.cells.state = before) : Way before s .start
  | checked (hidle : Idle s) (hstate : s.cells.state = before) : Way before s .checked
  | operating (hidle : Idle s) (hstate : s.cells.state = before) (hbefore : before = .established) : Way before s .operating
  | closingState (hidle : Idle s) : Way before s (.closing .state)
  | closingEncryption (hheld : s.keyAgreementHeld = none) (hstate : s.cells.state = .terminated) :
      Way before s (.closing .encryption)
  | closingKeyAgreement (hheld : s.keyAgreementHeld = none) (hstate : s.cells.state = .terminated) :
      Way before s (.closing .keyAgreement)
  | done (data : Bytes) (hidle : Idle s) (hstate : s.cells.state = before) (hbefore : before = .established) :
      Way before s (.returned (.ok (.bytes data)))
  | timedOut (hidle : Idle s) (hstate : s.cells.state = .terminated) : Way before s (.returned (.error (.err .timeout)))
  | refused (e : Error) (hidle : Idle s) (hstate : s.cells.state = before) (he : e ≠ .timeout) :
      Way before s (.returned (.error (.err e)))

/-- The two methods that use the encryption. -/
inductive Uses (platform : Platform κ) : Op → Method SessionEncryption Error Bytes → Prop
  | send (message : Bytes) : Uses platform (.sendEncrypted message) (SessionEncryption.encrypt platform.cipher message)
  | receive (ciphertext : Bytes) :
      Uses platform (.receiveEncrypted ciphertext) (SessionEncryption.decrypt platform.cipher ciphertext)

variable {op : Op} {method : Method SessionEncryption Error Bytes} {s : Shared κ} {before : SessionState} {point : Point}

section

variable (h : Uses platform op method)

include h

theorem Uses.act_operating (s : Shared κ) :
    act platform session 0 s op .operating = some (useEncryption session s method) := by
  cases h <;> rfl

theorem Uses.afterClosing : op.afterClosing = .returned (.error (.err .timeout)) := by
  cases h <;> rfl

variable (session) in
/-- Either method gets past the lock of the state only in an established session. -/
theorem Uses.enter (s : Shared κ) :
    ∃ point, enter session 0 s op = some (s, point) ∧
      (point = .operating ∧ s.cells.state = .established ∨
        ∃ e, point = .returned (.error (.err e)) ∧ e ≠ .timeout) := by
  cases h with
  | send message | receive ciphertext =>
    simp only [Iso18013.enter]
    split
    · exact ⟨_, rfl, .inr ⟨_, rfl, by simp⟩⟩
    · rename_i hstate
      split
      · exact ⟨_, rfl, .inr ⟨_, rfl, by simp⟩⟩
      · exact ⟨_, rfl, .inl ⟨rfl, not_not.mp hstate⟩⟩

/-- The encryption never reports a timeout. -/
theorem Uses.not_timeout {encryption after : SessionEncryption} {e : Fault Error}
    (hrun : method.run encryption = (.error e, after)) : ∃ failure, e = .err failure ∧ failure ≠ .timeout := by
  -- the counter, then the cipher; writing the state does not fail
  have hcounter : ∀ {failure : Error} {counter : Option UInt32}, Exec.orFail failure counter = .error e →
      e = .err failure := by
    rintro failure (_ | counter) h
    · exact (Except.error.inj h).symm
    · cases h
  have hcrypto : ∀ {x : Except CryptoError Bytes}, (liftCrypto x).mapError Fault.err = .error e →
      ∃ failure, e = .err (.crypto failure) := by
    rintro (failure | text) h
    · exact ⟨failure, (Except.error.inj h).symm⟩
    · cases h
  cases h with
  | send message | receive ciphertext =>
    simp only [SessionEncryption.encrypt, SessionEncryption.decrypt, Method.run_get_bind] at hrun
    rcases Method.of_run_call_bind_error hrun with h | ⟨counter, hrun⟩
    · exact ⟨_, hcounter h, by simp⟩
    · rcases Method.of_run_call_bind_error hrun with h | ⟨text, hrun⟩
      · obtain ⟨failure, rfl⟩ := hcrypto h
        exact ⟨_, rfl, by simp⟩
      · cases hrun

variable (session) in
theorem Uses.way_useEncryption (hidle : Idle s) (hstate : s.cells.state = before) (hbefore : before = .established) :
    ∃ s' point', useEncryption session s method = (s', point') ∧ Way before s' point' ∧ point'.rank < 4 := by
  unfold useEncryption
  split
  · exact ⟨_, _, rfl, .closingState hidle, by simp [rank]⟩
  · split
    · exact ⟨_, _, rfl, .refused _ hidle hstate (by simp), by simp [rank]⟩
    · rename_i encryption _
      rcases hrun : method.run encryption with ⟨outcome, after⟩
      cases outcome with
      | ok data => exact ⟨_, _, rfl, .done data hidle hstate hbefore, by simp [rank]⟩
      | error e =>
        obtain ⟨failure, rfl, hfailure⟩ := h.not_timeout hrun
        exact ⟨_, _, rfl, .refused failure hidle hstate hfailure, by simp [rank]⟩

end

/-- One step on the way. -/
theorem Way.step (hway : Way before s point) (huses : Uses platform op method) (hrank : 0 < point.rank) (wait : Nat) :
    ∃ s' point', act platform session 0 { s with now := s.now + wait } op point = some (s', point') ∧
      Way before s' point' ∧ point'.rank < point.rank := by
  cases hway with
  | start hidle hstate =>
    have hop : op ≠ .state := by cases huses <;> simp
    simp only [act, if_neg hop]
    split
    · exact ⟨_, _, rfl, .checked hidle hstate, by simp [rank]⟩
    · exact ⟨_, _, rfl, .closingState hidle, by simp [rank]⟩
  | checked hidle hstate =>
    obtain ⟨point', henter, hpoint⟩ := huses.enter session { s with now := s.now + wait }
    refine ⟨{ s with now := s.now + wait }, point', ?_, ?_⟩
    · show (if s.stateHeld.isSome = true then none else _) = _
      rw [if_neg (by simp [hidle.1]), henter]
    · rcases hpoint with ⟨rfl, hestablished⟩ | ⟨e, rfl, he⟩
      · exact ⟨.operating hidle hstate (hstate.symm.trans hestablished), by simp [rank]⟩
      · exact ⟨.refused e hidle hstate he, by simp [rank]⟩
  | operating hidle hstate hbefore =>
    have hidle' : Idle { s with now := s.now + wait } := hidle
    obtain ⟨s', point', heq, hway, hlt⟩ := huses.way_useEncryption session hidle' hstate hbefore
    exact ⟨s', point', by rw [huses.act_operating, heq], hway, hlt⟩
  | closingState hidle =>
    have hact : act platform session 0 { s with now := s.now + wait } op (.closing .state) =
        some ({ s with cells := { s.cells with state := .terminated }, stateHeld := some 0, now := s.now + wait },
          .closing .encryption) := by
      simp [act, hidle.1]
    exact ⟨_, _, hact, .closingEncryption hidle.2 rfl, by simp [rank]⟩
  | closingEncryption hheld hstate => exact ⟨_, _, rfl, .closingKeyAgreement hheld hstate, by simp [rank]⟩
  | closingKeyAgreement hheld hstate =>
    have hact : act platform session 0 { s with now := s.now + wait } op (.closing .keyAgreement) =
        some ({ s with
          cells := { s.cells with keyAgreement := s.cells.keyAgreement.clearPrivateState }
          stateHeld := none
          now := s.now + wait }, .returned (.error (.err .timeout))) := by
      simp [act, hheld, huses.afterClosing]
    exact ⟨_, _, hact, .timedOut ⟨rfl, hheld⟩ hstate, by simp [rank]⟩
  | done | timedOut | refused => exact absurd hrank (by simp [rank])

variable {times : Nat → Nat} {fuel : Nat}

theorem await_step {s' : Shared κ} {point' : Point} (hrank : 0 < point.rank)
    (hact : act platform session 0 { s with now := s.now + times fuel } op point = some (s', point')) :
    session.await platform op times (fuel + 1) s point = session.await platform op times fuel s' point' := by
  cases point with
  | returned result => exact absurd hrank (by simp [rank])
  | _ => simp only [Session.await, hact]

theorem await_returned {result : Exec Error Reply} :
    session.await platform op times fuel s (.returned result) = (result, s) := by
  cases fuel <;> rfl

theorem Way.returned (hway : Way before s point) (hrank : point.rank = 0) : ∃ result, point = .returned result := by
  cases hway with
  | done data | timedOut | refused e => exact ⟨_, rfl⟩
  | _ => exact absurd hrank (by simp [rank])

/-- **The method returns**, and it was on its way until then. -/
theorem Way.await (huses : Uses platform op method) (times : Nat → Nat) (fuel : Nat) {s : Shared κ} {point : Point}
    (hway : Way before s point) (hrank : point.rank ≤ fuel) :
    ∃ result s', session.await platform op times fuel s point = (result, s') ∧ Way before s' (.returned result) := by
  induction fuel generalizing s point with
  | zero =>
    obtain ⟨result, rfl⟩ := hway.returned (Nat.le_zero.mp hrank)
    exact ⟨result, s, await_returned, hway⟩
  | succ fuel ih =>
    rcases Nat.eq_zero_or_pos point.rank with hzero | hpos
    · obtain ⟨result, rfl⟩ := hway.returned hzero
      exact ⟨result, s, await_returned, hway⟩
    · obtain ⟨s', point', hact, hway', hlt⟩ := hway.step huses hpos (times fuel)
      rw [await_step hpos hact]
      exact ih hway' (by omega)

variable (session) in
theorem Uses.call_eq (huses : Uses platform op method) (hidle : Idle s) (times : Nat → Nat) :
    ∃ result s', session.call platform op times s = (result, s') ∧ Way s.cells.state s' (.returned result) := by
  have hentry : op.entry = .start := by cases huses <;> rfl
  have hway : Way s.cells.state s .start := .start hidle rfl
  rw [Session.call, hentry]
  exact hway.await huses times 7 (by simp [rank])

variable (platform session) in
theorem call_terminate (hidle : Idle s) (times : Nat → Nat) :
    ∃ s', session.call platform .terminate times s = (.ok .unit, s') ∧ Idle s' ∧ s'.cells.state = .terminated := by
  simp [Session.call, Session.await, Op.entry, act, hidle.1, hidle.2, Op.afterClosing, Idle]

variable (platform session) in
theorem failWith_eq (e : Error) (hidle : Idle s) (times : Nat → Nat) :
    ∃ s', session.failWith platform e times s = (.error (.err e), s') ∧ Idle s' ∧ s'.cells.state = .terminated := by
  obtain ⟨s', hcall, hidle', hstate⟩ := call_terminate platform session hidle times
  refine ⟨s', ?_, hidle', hstate⟩
  rw [Session.failWith, hcall]

/-! ## One call on a channel -/

section

variable {plaintext : Bytes}

variable (platform plaintext) in
/-- The counter is exhausted, or the cipher fails. -/
def Unsendable (self : SessionEncryption) : Prop :=
  ∀ next ∈ checkedSucc self.sendCounter, ∃ e,
    aes256GcmEncrypt platform.cipher self.sendKey (iv self.sendDirection next) plaintext [] = .error e

variable (platform session plaintext) in
/-- Before its deadline the session is not established, or the message is too long or cannot be encrypted. The deadline
    is checked again before the encryption. -/
def Refuses (times : Nat → Nat) (s : Shared κ) : Prop :=
  s.now + times 6 < session.deadline ∧
    (s.cells.state ≠ .established ∨ session.maximumMessageSize < plaintext.length ∨
      s.now + times 6 + times 5 + times 4 < session.deadline ∧
        ∀ self ∈ s.cells.encryption, Unsendable platform plaintext self)

variable (platform session) in
/-- A `send` that the session refuses while it is alive. -/
def Spared (call : ChannelCall) (c : SessionChannel κ τ) : Prop :=
  ∃ plaintext, call.op = .send plaintext ∧ c.session.cells.state ≠ .terminated ∧
    Refuses platform session plaintext call.times c.session

theorem unsendable_iff {self : SessionEncryption} : Unsendable platform plaintext self ↔
    ∀ data after, (SessionEncryption.encrypt platform.cipher plaintext).run self ≠ (.ok data, after) := by
  simp only [SessionEncryption.encrypt, Method.run_get_bind, ne_eq, Method.run_call_bind_ok_iff, Exec.orFail_ok_iff]
  constructor
  · rintro h data after ⟨next, hnext, text, htext, -⟩
    obtain ⟨e, he⟩ := h next hnext
    rw [he] at htext
    cases htext
  · intro h next hnext
    cases htext : aes256GcmEncrypt platform.cipher self.sendKey (iv self.sendDirection next) plaintext [] with
    | error e => exact ⟨e, rfl⟩
    | ok text => exact absurd ⟨next, hnext, text, by rw [htext]; rfl, rfl⟩ (h text _)

/-- **When a message is refused**, other than for the time. -/
theorem refuses_iff (hidle : Idle s) : Refuses platform session plaintext times s ↔
    ∃ e, e ≠ .timeout ∧ (session.call platform (.sendEncrypted plaintext) times s).1 = .error (.err e) := by
  obtain ⟨hfree, hheld⟩ := hidle
  unfold Refuses
  simp only [Session.call, Op.entry, Session.await, act]
  by_cases hstart : s.now + times 6 < session.deadline
  · by_cases hstate : s.cells.state = .established
    · by_cases hlength : session.maximumMessageSize < plaintext.length
      · simp [Session.await, act, enter, hfree, hstart, hstate, hlength]
      · by_cases hlater : s.now + times 6 + times 5 + times 4 < session.deadline
        · rcases hencryption : s.cells.encryption with _ | self
          · simp [Session.await, act, enter, useEncryption, hfree, hstart, hstate, hlength, hlater, not_le.mpr hlater,
              hencryption]
          · rcases hrun : (SessionEncryption.encrypt platform.cipher plaintext).run self with ⟨e | data, after⟩
            · obtain ⟨failure, rfl, hfailure⟩ := (Uses.send plaintext).not_timeout hrun
              simp [Session.await, act, enter, useEncryption, hfree, hstart, hstate, hlength, hlater, not_le.mpr hlater,
                hencryption, hrun, unsendable_iff, Except.map, hfailure]
            · simp [Session.await, act, enter, useEncryption, hfree, hstart, hstate, hlength, hlater, not_le.mpr hlater,
                hencryption, hrun, unsendable_iff, Except.map]
        · simp [Session.await, act, enter, useEncryption, hfree, hheld, hstart, hstate, hlength, hlater, not_lt.mp hlater,
            Op.afterClosing]
    · simp [Session.await, act, enter, hfree, hstart, hstate]
  · simp [Session.await, act, hfree, hheld, hstart, Op.afterClosing]

end

/-- What a call returns, hands over and leaves behind. -/
structure Performed (platform : Platform κ) (session : Session) (call : ChannelCall) (c : SessionChannel κ τ)
    (outcome : ChannelOutcome) (c' : SessionChannel κ τ) : Prop where
  idle : Idle c'.session
  closed : ((∃ e, outcome.result = .error e) ∨ call.op = .close → c'.session.cells.state = .terminated) ↔
    ¬ Spared platform session call c
  quiet : c.session.cells.state = .terminated → c'.session.cells.state = .terminated ∧ outcome.handed = none ∧
    (call.op ≠ .close → ∃ e, outcome.result = .error e)

variable {c : SessionChannel κ τ} {call : ChannelCall}

theorem not_spared (h : ∀ plaintext, call.op ≠ .send plaintext) : ¬ Spared platform session call c := by
  rintro ⟨plaintext, hop, -⟩
  exact h plaintext hop

theorem performed_send {plaintext : Bytes} (hop : call.op = .send plaintext) (hidle : Idle c.session) :
    Performed platform session call c (c.send platform session transport plaintext call.times call.times').1
      (c.send platform session transport plaintext call.times call.times').2 := by
  have huses : Uses platform (.sendEncrypted plaintext) _ := .send plaintext
  obtain ⟨result, s, hcall, hway⟩ := huses.call_eq session hidle call.times
  have hspared : Spared platform session call c ↔
      c.session.cells.state ≠ .terminated ∧ ∃ e, e ≠ .timeout ∧ result = .error (.err e) := by
    simp only [Spared, hop, ChannelOp.send.injEq, exists_eq_left', refuses_iff hidle, hcall]
  unfold SessionChannel.send
  rw [hcall]
  cases hway with
  | done ciphertext hidle' hstate hbefore =>
    have halive : c.session.cells.state ≠ .terminated := by simp [hbefore]
    have hnot : ¬ Spared platform session call c := by
      rw [hspared]
      rintro ⟨-, e, -, hresult⟩
      cases hresult
    rcases hsend : transport.send ciphertext c.transport with ⟨outcome, t⟩
    cases outcome with
    | ok _ =>
      simp only [Reply.data, hsend]
      exact ⟨hidle', iff_of_true (by simp [hop]) hnot, fun hstate' => absurd hstate' halive⟩
    | error e =>
      obtain ⟨s', hfail, hidle'', hstate'⟩ := failWith_eq platform session e hidle' call.times'
      simp only [Reply.data, hsend, hfail]
      exact ⟨hidle'', iff_of_true (fun _ => hstate') hnot, fun hstate'' => absurd hstate'' halive⟩
  | timedOut hidle' hstate =>
    have hnot : ¬ Spared platform session call c := by
      rw [hspared]
      rintro ⟨-, e, he, hresult⟩
      cases hresult
      exact he rfl
    exact ⟨hidle', iff_of_true (fun _ => hstate) hnot, fun _ => ⟨hstate, rfl, fun _ => ⟨_, rfl⟩⟩⟩
  | refused e hidle' hstate he =>
    refine ⟨hidle', ?_, fun hterminated => ⟨hstate.trans hterminated, rfl, fun _ => ⟨_, rfl⟩⟩⟩
    rw [hspared]
    rw [hstate]
    constructor
    · rintro hclosed ⟨hne, -⟩
      exact hne (hclosed (.inl ⟨_, rfl⟩))
    · intro hnot _
      by_contra hne
      exact hnot ⟨hne, e, he, rfl⟩

theorem performed_receive (hop : call.op = .receive) (hidle : Idle c.session) :
    Performed platform session call c (c.receive platform session transport call.times call.times').1
      (c.receive platform session transport call.times call.times').2 := by
  have hnot : ¬ Spared platform session call c := not_spared (by simp [hop])
  -- whatever fails, the session is terminated, and nothing is handed over
  have hfails : ∀ {s : Shared κ} (e : Error) (times : Nat → Nat) (t : τ), Idle s →
      Performed platform session call c ⟨(session.failWith platform e times s).1, none⟩
        ⟨(session.failWith platform e times s).2, t⟩ := by
    intro s e times t hs
    obtain ⟨s', hfail, hidle', hstate⟩ := failWith_eq platform session e hs times
    rw [hfail]
    exact ⟨hidle', iff_of_true (fun _ => hstate) hnot, fun _ => ⟨hstate, rfl, fun _ => ⟨_, rfl⟩⟩⟩
  unfold SessionChannel.receive
  rcases transport.receive c.transport with ⟨outcome, t⟩
  cases outcome with
  | error e => exact hfails e call.times t hidle
  | ok ciphertext =>
    have huses : Uses platform (.receiveEncrypted ciphertext) _ := .receive ciphertext
    obtain ⟨result, s, hcall, hway⟩ := huses.call_eq session hidle call.times
    simp only [hcall]
    cases hway with
    | done data hidle' hstate hbefore =>
      exact ⟨hidle', iff_of_true (by simp [hop]) hnot, fun hstate' => absurd hstate' (by simp [hbefore])⟩
    | timedOut hidle' => exact hfails _ call.times' t hidle'
    | refused e hidle' => exact hfails e call.times' t hidle'

theorem performed_close (hop : call.op = .close) (hidle : Idle c.session) :
    Performed platform session call c (c.close platform session transport call.times).1
      (c.close platform session transport call.times).2 := by
  obtain ⟨s, hcall, hidle', hstate⟩ := call_terminate platform session hidle call.times
  have hnot : ¬ Spared platform session call c := not_spared (by simp [hop])
  unfold SessionChannel.close
  rw [hcall]
  exact ⟨hidle', iff_of_true (fun _ => hstate) hnot, fun _ => ⟨hstate, rfl, fun hne => absurd hop hne⟩⟩

variable (transport) in
theorem performed (call : ChannelCall) (hidle : Idle c.session) :
    Performed platform session call c (c.perform platform session transport call).1
      (c.perform platform session transport call).2 := by
  unfold SessionChannel.perform
  split
  · rename_i hop
    exact performed_send hop hidle
  · rename_i hop
    exact performed_receive hop hidle
  · rename_i hop
    exact performed_close hop hidle

/-- A transport that cannot be connected costs the session too. -/
theorem connect_error {t : τ} {fault : Fault Error} (hidle : Idle s)
    (h : (SessionChannel.connect platform session transport times s t).1 = .error fault) :
    (SessionChannel.connect platform session transport times s t).2.cells.state = .terminated := by
  rcases hconnect : transport.connect t with ⟨outcome, t'⟩
  cases outcome with
  | ok _ =>
    rw [SessionChannel.connect, hconnect] at h
    cases h
  | error e =>
    obtain ⟨s', hfail, -, hstate⟩ := failWith_eq platform session e hidle times
    rw [SessionChannel.connect, hconnect]
    simp only [hfail]
    exact hstate

/-! ## Runs -/

namespace SessionChannel

variable (platform session transport)

/-- The session stays terminated, nothing is handed to the transport and nothing is received. -/
def Quiet (c : SessionChannel κ τ) : List ChannelCall → Prop
  | [] => c.session.cells.state = .terminated
  | call :: rest =>
    c.session.cells.state = .terminated ∧ (c.perform platform session transport call).1.handed = none ∧
      (call.op ≠ .close → ∃ e, (c.perform platform session transport call).1.result = .error e) ∧
      Quiet (c.perform platform session transport call).2 rest

/-- After every call that returns an error, and after every close, the channel is quiet. -/
def FailsClosed (c : SessionChannel κ τ) : List ChannelCall → Prop
  | [] => True
  | call :: rest =>
    ((∃ e, (c.perform platform session transport call).1.result = .error e) ∨ call.op = .close →
      (c.perform platform session transport call).2.Quiet platform session transport rest) ∧
    FailsClosed (c.perform platform session transport call).2 rest

/-- No call of the run is spared. -/
def NoneSpared (c : SessionChannel κ τ) : List ChannelCall → Prop
  | [] => True
  | call :: rest =>
    ¬ Spared platform session call c ∧ NoneSpared (c.perform platform session transport call).2 rest

end SessionChannel

theorem quiet_iff (calls : List ChannelCall) (hidle : Idle c.session) :
    c.Quiet platform session transport calls ↔ c.session.cells.state = .terminated := by
  induction calls generalizing c with
  | nil => exact Iff.rfl
  | cons call rest ih =>
    have hperformed : Performed platform session call c _ _ := performed transport call hidle
    constructor
    · intro hquiet
      exact hquiet.1
    · intro hstate
      obtain ⟨hstate', hhanded, herror⟩ := hperformed.quiet hstate
      exact ⟨hstate, hhanded, herror, (ih hperformed.idle).mpr hstate'⟩

/-- **A channel fails closed exactly if no call is spared.** From any state of the session in which no call is under way,
    for every transport and every run: after each call that returned an error and after each close the session is
    terminated for good, nothing more is handed to the transport and nothing more is received, if and only if no `send` of
    the run met a session that was not terminated and refused it, other than for the time. -/
theorem fails_closed_iff (platform : Platform κ) (session : Session) (transport : Transport τ) (c : SessionChannel κ τ)
    (hidle : Idle c.session) (calls : List ChannelCall) :
    c.FailsClosed platform session transport calls ↔ c.NoneSpared platform session transport calls := by
  induction calls generalizing c with
  | nil => exact Iff.rfl
  | cons call rest ih =>
    have hperformed : Performed platform session call c _ _ := performed transport call hidle
    simp only [SessionChannel.FailsClosed, SessionChannel.NoneSpared]
    rw [quiet_iff rest hperformed.idle, hperformed.closed, ih _ hperformed.idle]

end

/-! ## A message that is too long -/

/-- A transport that keeps what it is handed. -/
def sampleTransport : Transport (List Bytes) where
  connect t := (.ok (), t)
  send data t := (.ok (), t ++ [data])
  receive t := (.error .timeout, t)
  close t := (.ok (), t)

/-- The device of the sample session, established, with messages of at most 100 bytes. -/
def sampleChannel : SessionChannel Bool (List Bytes) :=
  ⟨((Calls.start sampleCells 0).run samplePlatform sampleDevice (establishing 0 (sampleKey false) 4)).shared, []⟩

def sending (plaintext : Bytes) : ChannelCall := ⟨.send plaintext, fun _ => 0, fun _ => 0⟩

theorem fails_closed_iff_sampleChannel :
    sampleChannel.FailsClosed samplePlatform sampleDevice sampleTransport [⟨.receive, fun _ => 0, fun _ => 0⟩, sending [1]] := by
  have hidle : Idle sampleChannel.session := ⟨by decide, by decide⟩
  rw [fails_closed_iff samplePlatform sampleDevice sampleTransport sampleChannel hidle]
  refine ⟨not_spared (by simp), ?_, trivial⟩
  rintro ⟨plaintext, -, hne, -⟩
  exact absurd (by decide) hne

/-- The first message is refused for its length. The session is not terminated, and the second message is sent. -/
theorem channel_open_after_error :
    (sampleChannel.perform samplePlatform sampleDevice sampleTransport (sending (List.replicate 101 0))).1.result =
      .error (.err (.invalidRequest "Message exceeds 100 byte session limit")) ∧
    (sampleChannel.perform samplePlatform sampleDevice sampleTransport
      (sending (List.replicate 101 0))).2.session.cells.state = .established ∧
    (((sampleChannel.perform samplePlatform sampleDevice sampleTransport (sending (List.replicate 101 0))).2.perform
      samplePlatform sampleDevice sampleTransport (sending [1])).1.handed).isSome = true := by
  refine ⟨?_, ?_, ?_⟩
  · decide
  · decide
  · decide

end MartyCore.Iso18013
