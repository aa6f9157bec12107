import MartyCore.Iso18013.Session
import MartyCore.Lib.Lock

/-!
# `Iso18013.Tasks` — what holds of a session under every interleaving

`Acts` says once what a step of a task can do; the invariants are derived from it. The state only moves forward
(`Advances`), and whoever moves it has its lock, so a task that has seen the state under the lock may rely on it until it
gives the lock back (`PointOk`). Encryption keys come from a commit, which finds the session in engagement and leaves it
for good, so there is at most one (`Consistent`).
-/

namespace MartyCore.Iso18013

section

variable {κ : Type} (platform : Platform κ) (session : Session)

/-! ## One step -/

/-- What a step of task `i` can do. -/
inductive Acts (i : Nat) (s : Shared κ) : Op → Point → Shared κ → Point → Prop
  | alive {op : Op} (hnow : s.now < session.deadline) : Acts i s op .start s .checked
  | looks (hnow : s.now < session.deadline) : Acts i s .state .start s .reading
  | expired {op : Op} (hnow : session.deadline ≤ s.now) : Acts i s op .start s (.closing .state)
  | refused {op : Op} (e : Error) (hfree : s.stateHeld = none)
      (hwhy : ∀ key, op = .establish key → s.cells.state ≠ .engagement ∨ session.role = .reader) :
      Acts i s op .checked s (.returned (.error (.err e)))
  | entered {key : Bytes} (hfree : s.stateHeld = none) (hstate : s.cells.state = .engagement)
      (hkey : session.role = .reader → key = session.engagementDeviceKey) :
      Acts i s (.establish key) .checked { s with stateHeld := some i } .agreeing
  | admitted {op : Op} (hfree : s.stateHeld = none) (hstate : s.cells.state ≠ .terminated) :
      Acts i s op .checked s .operating
  | failed {key : Bytes} {e : Fault Error} {keyAgreement : SessionKeyAgreement κ} (hfree : s.keyAgreementHeld = none)
      (hrun : (session.deriveEncryption platform key).run s.cells.keyAgreement = (.error e, keyAgreement)) :
      Acts i s (.establish key) .agreeing
        { s with cells := { s.cells with keyAgreement := keyAgreement }, stateHeld := none } (.returned (.error e))
  | late {key : Bytes} {encryption : SessionEncryption} {keyAgreement : SessionKeyAgreement κ}
      (hfree : s.keyAgreementHeld = none)
      (hrun : (session.deriveEncryption platform key).run s.cells.keyAgreement = (.ok encryption, keyAgreement)) :
      Acts i s (.establish key) .agreeing
        { s with cells := { s.cells with state := .terminated, keyAgreement := keyAgreement.clearPrivateState } }
        .abandoning
  | agreed {key : Bytes} {encryption : SessionEncryption} {keyAgreement : SessionKeyAgreement κ}
      (hfree : s.keyAgreementHeld = none)
      (hrun : (session.deriveEncryption platform key).run s.cells.keyAgreement = (.ok encryption, keyAgreement)) :
      Acts i s (.establish key) .agreeing
        { s with cells := { s.cells with keyAgreement := keyAgreement }, keyAgreementHeld := some i }
        (.committing encryption)
  | commits {op : Op} {encryption : SessionEncryption} :
      Acts i s op (.committing encryption)
        { s with
          cells := { s.cells with state := .established, encryption := some encryption }
          stateHeld := none
          keyAgreementHeld := none } (.returned (.ok .unit))
  | abandons {op : Op} :
      Acts i s op .abandoning { s with cells := { s.cells with encryption := none }, stateHeld := none }
        (.returned (.error (.err .timeout)))
  | dropped {op : Op} :
      Acts i s op .operating { s with cells := { s.cells with encryption := none } } (.closing .state)
  | overdue {op : Op} : Acts i s op .operating s (.closing .state)
  | unusable {op : Op} (e : Error) (hop : ∀ key, op ≠ .establish key) :
      Acts i s op .operating s (.returned (.error (.err e)))
  | used {op : Op} {before after : SessionEncryption} {outcome : Exec Error Bytes} (hop : ∀ key, op ≠ .establish key)
      (hbefore : s.cells.encryption = some before) :
      Acts i s op .operating { s with cells := { s.cells with encryption := some after } }
        (.returned (outcome.map Reply.bytes))
  | shown : Acts i s .publicKey .operating s (.returned (.ok (.bytes s.cells.keyAgreement.publicKey)))
  | closesState {op : Op} (hfree : s.stateHeld = none) :
      Acts i s op (.closing .state)
        { s with cells := { s.cells with state := .terminated }, stateHeld := some i } (.closing .encryption)
  | closesEncryption {op : Op} :
      Acts i s op (.closing .encryption) { s with cells := { s.cells with encryption := none } } (.closing .keyAgreement)
  | closesKeyAgreement {op : Op} :
      Acts i s op (.closing .keyAgreement)
        { s with
          cells := { s.cells with keyAgreement := s.cells.keyAgreement.clearPrivateState }
          stateHeld := none } op.afterClosing
  | reads {op : Op} : Acts i s op .reading s (.returned (.ok (.state s.cells.state)))

variable {platform session} {i : Nat} {s s' : Shared κ} {op : Op} {point point' : Point} {held : Option Nat}

theorem free_of_not_isSome (h : ¬ held.isSome = true) : held = none := by
  simpa using h

theorem enter_cases (h : enter session i s op = some (s', point')) (hfree : s.stateHeld = none) :
    Acts platform session i s op .checked s' point' := by
  cases op with
  | establish key =>
    simp only [enter] at h
    split at h
    · rename_i hstate
      cases h
      exact .refused _ hfree (fun _ _ => .inl hstate)
    · rename_i hstate
      split at h
      · rename_i hreader
        cases h
        exact .refused _ hfree (fun _ _ => .inr hreader.1)
      · rename_i hkey
        cases h
        exact .entered hfree (not_not.mp hstate) (fun hreader => by simpa [hreader] using hkey)
  | sendEncrypted message | receiveEncrypted ciphertext =>
    simp only [enter] at h
    split at h
    · cases h
      exact .refused _ hfree nofun
    · rename_i hstate
      split at h
      · cases h
        exact .refused _ hfree nofun
      · cases h
        exact .admitted hfree (by rw [not_not.mp hstate]; simp)
  | publicKey =>
    simp only [enter] at h
    split at h
    · cases h
      exact .refused _ hfree nofun
    · rename_i hstate
      cases h
      exact .admitted hfree hstate
  | state | terminate => cases h

variable {key : Bytes}

theorem agreement_cases (h : agreement platform session i s key = (s', point'))
    (hfree : s.keyAgreementHeld = none) : Acts platform session i s (.establish key) .agreeing s' point' := by
  unfold agreement at h
  split at h
  · rename_i hrun
    cases h
    exact .failed hfree hrun
  · rename_i hrun
    split at h
    · cases h
      exact .late hfree hrun
    · cases h
      exact .agreed hfree hrun

theorem useEncryption_cases {method : Method SessionEncryption Error Bytes}
    (h : useEncryption session s method = (s', point')) (hop : ∀ key, op ≠ .establish key) :
    Acts platform session i s op .operating s' point' := by
  unfold useEncryption at h
  split at h
  · cases h
    exact .dropped
  · split at h
    · cases h
      exact .unusable _ hop
    · rename_i hbefore
      cases h
      exact .used hop hbefore

/-- **Nothing else can happen.** -/
theorem act_cases (h : act platform session i s op point = some (s', point')) :
    Acts platform session i s op point s' point' := by
  cases point with
  | start =>
    simp only [act] at h
    split at h
    · rename_i hnow
      cases h
      split
      · rename_i hop
        rw [hop]
        exact .looks hnow
      · exact .alive hnow
    · rename_i hnow
      cases h
      exact .expired (Nat.not_lt.mp hnow)
  | checked =>
    simp only [act] at h
    split at h
    · cases h
    · rename_i hheld
      exact enter_cases h (free_of_not_isSome hheld)
  | agreeing =>
    simp only [act] at h
    split at h
    · cases h
    · rename_i hheld
      split at h
      · exact agreement_cases (Option.some.inj h) (free_of_not_isSome hheld)
      · cases h
  | committing encryption =>
    cases h
    exact .commits
  | abandoning =>
    cases h
    exact .abandons
  | operating =>
    simp only [act] at h
    split at h
    · exact useEncryption_cases (Option.some.inj h) nofun
    · exact useEncryption_cases (Option.some.inj h) nofun
    · split at h
      · cases h
      · split at h
        · cases h
          exact .overdue
        · cases h
          exact .shown
    · cases h
  | closing stage =>
    cases stage with
    | state =>
      simp only [act] at h
      split at h
      · cases h
      · rename_i hheld
        cases h
        exact .closesState (free_of_not_isSome hheld)
    | encryption =>
      cases h
      exact .closesEncryption
    | keyAgreement =>
      simp only [act] at h
      split at h
      · cases h
      · cases h
        exact .closesKeyAgreement
  | reading =>
    simp only [act] at h
    split at h
    · cases h
    · cases h
      exact .reads
  | returned result => cases h

/-! ## Locks and the state -/

/-- The task keeps the lock of the state here. -/
def Point.HoldsState : Point → Prop
  | .agreeing => True
  | .committing _ => True
  | .abandoning => True
  | .closing .encryption => True
  | .closing .keyAgreement => True
  | _ => False

/-- The task keeps the lock of the key agreement here. -/
def Point.HoldsKeyAgreement : Point → Prop
  | .committing _ => True
  | _ => False

theorem not_holdsState_afterClosing (op : Op) : ¬ op.afterClosing.HoldsState := by
  cases op <;> simp [Op.afterClosing, Point.HoldsState]

theorem not_holdsKeyAgreement_afterClosing (op : Op) : ¬ op.afterClosing.HoldsKeyAgreement := by
  cases op <;> simp [Op.afterClosing, Point.HoldsKeyAgreement]

theorem Acts.stateLock (h : Acts platform session i s op point s' point') :
    Lock.Moves i s.stateHeld s'.stateHeld point.HoldsState point'.HoldsState := by
  cases h with
  | entered hfree | closesState hfree => exact .takes hfree rfl trivial
  | failed | commits | abandons => exact .releases trivial rfl id
  | closesKeyAgreement => exact .releases trivial rfl (not_holdsState_afterClosing op)
  | _ => exact .stays rfl Iff.rfl

theorem Acts.keyLock (h : Acts platform session i s op point s' point') :
    Lock.Moves i s.keyAgreementHeld s'.keyAgreementHeld point.HoldsKeyAgreement point'.HoldsKeyAgreement := by
  cases h with
  | agreed hfree => exact .takes hfree rfl trivial
  | commits => exact .releases trivial rfl id
  | closesKeyAgreement => exact .stays rfl (iff_of_false (not_holdsKeyAgreement_afterClosing op) id)
  | _ => exact .stays rfl Iff.rfl

variable (session) in
/-- What a task may rely on where it is, and what a call that has succeeded leaves for good. -/
def PointOk (s : Shared κ) (op : Op) : Point → Prop
  | .agreeing => s.cells.state = .engagement ∧
      ∃ key, op = .establish key ∧ (session.role = .reader → key = session.engagementDeviceKey)
  | .committing _ => s.cells.state = .engagement ∧
      ∃ key, op = .establish key ∧ (session.role = .reader → key = session.engagementDeviceKey)
  | .abandoning => s.cells.state = .terminated
  | .closing .encryption => s.cells.state = .terminated
  | .closing .keyAgreement => s.cells.state = .terminated
  | .returned (.ok .unit) => s.cells.state ≠ .engagement ∧ (op = .terminate → s.cells.state = .terminated) ∧
      ∀ key, op = .establish key → session.role = .reader → key = session.engagementDeviceKey
  | _ => True

/-- The state only moves forward. -/
inductive Advances : SessionState → SessionState → Prop
  | stays {state : SessionState} : Advances state state
  | terminates {state : SessionState} : Advances state .terminated
  | establishes : Advances .engagement .established

theorem Advances.terminated {state : SessionState} (h : Advances .terminated state) : state = .terminated := by
  cases h <;> rfl

theorem Advances.ne_engagement {before after : SessionState} (h : Advances before after) (hne : before ≠ .engagement) :
    after ≠ .engagement := by
  cases h with
  | stays => exact hne
  | terminates => simp
  | establishes => exact absurd rfl hne

theorem Acts.advances (h : Acts platform session i s op point s' point') (hok : PointOk session s op point) :
    Advances s.cells.state s'.cells.state := by
  cases h with
  | late => exact .terminates
  | commits =>
    rw [hok.1]
    exact .establishes
  | closesState => exact .terminates
  | _ => exact .stays

/-- Whoever moves the state has its lock. -/
theorem Acts.state_eq (h : Acts platform session i s op point s' point') (hheld : s.stateHeld ≠ none)
    (hnot : ¬ point.HoldsState) : s'.cells.state = s.cells.state := by
  cases h with
  | late | commits => exact absurd trivial hnot
  | closesState hfree => exact absurd hfree hheld
  | _ => rfl

theorem Acts.pointOk (h : Acts platform session i s op point s' point') (hok : PointOk session s op point) :
    PointOk session s' op point' := by
  cases h with
  | entered _ hstate hkey => exact ⟨hstate, _, rfl, hkey⟩
  | late => exact rfl
  | agreed => exact hok
  | commits =>
    obtain ⟨-, key, rfl, hkey⟩ := hok
    refine ⟨by simp, nofun, ?_⟩
    intro key' heq
    cases heq
    exact hkey
  | used =>
    rename_i outcome _ _
    cases outcome <;> trivial
  | closesState => exact rfl
  | closesEncryption => exact hok
  | closesKeyAgreement =>
    cases op with
    | terminate =>
      have hstate : s.cells.state = .terminated := hok
      exact ⟨by simp [hstate], fun _ => hstate, nofun⟩
    | _ => trivial
  | _ => trivial

/-- A task keeps what it relies on while others step. -/
theorem PointOk.frame (hok : PointOk session s op point) (hadvances : Advances s.cells.state s'.cells.state)
    (hheld : point.HoldsState → s'.cells.state = s.cells.state) : PointOk session s' op point := by
  have hterminated : s.cells.state = .terminated → s'.cells.state = .terminated := by
    intro h
    rw [h] at hadvances
    exact hadvances.terminated
  cases point with
  | agreeing | committing encryption => exact ⟨(hheld trivial).trans hok.1, hok.2⟩
  | abandoning => exact hterminated hok
  | closing stage =>
    cases stage with
    | state => trivial
    | encryption | keyAgreement => exact hterminated hok
  | returned result =>
    match result with
    | .error _ => trivial
    | .ok (.bytes _) => trivial
    | .ok (.state _) => trivial
    | .ok .unit =>
      obtain ⟨hne, hterminate, hkey⟩ := hok
      exact ⟨hadvances.ne_engagement hne, fun hop => hterminated (hterminate hop), hkey⟩
  | _ => trivial

/-! ## Runs -/

namespace Calls

variable (platform session) in
/-- A step of a task, or nothing. -/
theorem next_step_cases (w : Calls κ) (i : Nat) :
    w.next platform session (.step i) = w ∨
    ∃ op point s' point', w.tasks[i]? = some ⟨op, point⟩ ∧ Acts platform session i w.shared op point s' point' ∧
      w.next platform session (.step i) = ⟨s', w.tasks.set i ⟨op, point'⟩⟩ := by
  simp only [next]
  split
  · exact .inl rfl
  · rename_i task htask
    split
    · exact .inl rfl
    · rename_i hact
      exact .inr ⟨task.op, task.point, _, _, htask, act_cases hact, rfl⟩

/-- What holds initially and is kept by every event holds after every run. -/
theorem run_induction {P : Calls κ → Prop} {w : Calls κ} (hstart : P w)
    (hnext : ∀ w e, P w → P (w.next platform session e)) (events : List Event) : P (w.run platform session events) := by
  induction events generalizing w with
  | nil => exact hstart
  | cons e rest ih => exact ih (hnext w e hstart)

/-- Task `i` is at such a point. -/
def At (w : Calls κ) (P : Point → Prop) (i : Nat) : Prop := ∃ op point, w.tasks[i]? = some ⟨op, point⟩ ∧ P point

/-- Task `i` is an `establish` with this key that has succeeded. -/
def Established (w : Calls κ) (i : Nat) (key : Bytes) : Prop :=
  w.tasks[i]? = some ⟨.establish key, .returned (.ok .unit)⟩

end Calls

variable {P : Point → Prop} {w : Calls κ} {j : Nat}

theorem at_set_iff (htask : w.tasks[i]? = some ⟨op, point⟩) :
    Calls.At ⟨s', w.tasks.set i ⟨op, point'⟩⟩ P j ↔ (j = i ∧ P point') ∨ (j ≠ i ∧ w.At P j) := by
  unfold Calls.At
  simp only [getElem?_set_iff htask]
  constructor
  · rintro ⟨op', point'', ⟨rfl, heq⟩ | ⟨hne, hj⟩, hP⟩
    · cases heq
      exact .inl ⟨rfl, hP⟩
    · exact .inr ⟨hne, op', point'', hj, hP⟩
  · rintro (⟨rfl, hP⟩ | ⟨hne, op', point'', hj, hP⟩)
    · exact ⟨op, point', .inl ⟨rfl, rfl⟩, hP⟩
    · exact ⟨op', point'', .inr ⟨hne, hj⟩, hP⟩

/-- A lock that a step handles as it should stays in step with the tasks. -/
theorem tracks_step {held' : Option Nat} (h : Lock.Tracks held (w.At P))
    (htask : w.tasks[i]? = some ⟨op, point⟩) (hmoves : Lock.Moves i held held' (P point) (P point')) :
    Lock.Tracks held' (Calls.At ⟨s', w.tasks.set i ⟨op, point'⟩⟩ P) := by
  have hbefore : w.At P i ↔ P point := by
    unfold Calls.At
    rw [htask]
    simp
  have hafter : Calls.At ⟨s', w.tasks.set i ⟨op, point'⟩⟩ P i ↔ P point' := by
    rw [at_set_iff htask]
    simp
  refine h.step (by rw [hbefore, hafter]; exact hmoves) ?_
  intro j hj
  rw [at_set_iff htask]
  simp [hj]

theorem tracks_call (h : Lock.Tracks held (w.At P)) (op : Op)
    (hentry : ¬ P op.entry) : Lock.Tracks held (Calls.At (w.next platform session (.call op)) P) := by
  intro j
  rw [h j]
  unfold Calls.At
  simp only [Calls.next, getElem?_concat_iff]
  constructor
  · rintro ⟨op', point, hj, hP⟩
    exact ⟨op', point, .inl hj, hP⟩
  · rintro ⟨op', point, hj | ⟨-, heq⟩, hP⟩
    · exact ⟨op', point, hj, hP⟩
    · cases heq
      exact absurd hP hentry

variable (session) in
/-- **What holds of a session at every moment.** -/
structure Consistent (w : Calls κ) : Prop where
  stateLock : Lock.Tracks w.shared.stateHeld (w.At Point.HoldsState)
  keyLock : Lock.Tracks w.shared.keyAgreementHeld (w.At Point.HoldsKeyAgreement)
  points : ∀ {i : Nat} {op : Op} {point : Point}, w.tasks[i]? = some ⟨op, point⟩ → PointOk session w.shared op point
  encryption : w.shared.cells.encryption.isSome = true ∨ w.shared.cells.state = .established →
    ∃ i key, w.Established i key
  unique : ∀ {i j : Nat} {key key' : Bytes}, w.Established i key → w.Established j key' → i = j

theorem consistent_start {cells : Cells κ} {now : Nat} (hstate : cells.state = .engagement)
    (hencryption : cells.encryption = none) :
    Consistent session (Calls.start cells now) where
  stateLock := Lock.tracks_none (by rintro i ⟨op, point, h, -⟩; cases h)
  keyLock := Lock.tracks_none (by rintro i ⟨op, point, h, -⟩; cases h)
  points := by intro i op point h; cases h
  encryption := by
    intro h
    simp [Calls.start, hstate, hencryption] at h
  unique := by intro i j key key' h; cases h

theorem not_holdsState_entry (op : Op) : ¬ op.entry.HoldsState := by
  cases op <;> simp [Op.entry, Point.HoldsState]

theorem not_holdsKeyAgreement_entry (op : Op) : ¬ op.entry.HoldsKeyAgreement := by
  cases op <;> simp [Op.entry, Point.HoldsKeyAgreement]

/-- Keys come from a commit, or were there before. -/
theorem Acts.encryption (h : Acts platform session i s op point s' point')
    (hkeys : s'.cells.encryption.isSome = true ∨ s'.cells.state = .established) :
    (s.cells.encryption.isSome = true ∨ s.cells.state = .established) ∨ ∃ encryption, point = .committing encryption := by
  cases h with
  | commits => exact .inr ⟨_, rfl⟩
  | used _ hbefore => exact .inl (.inl (by rw [hbefore]; rfl))
  | late => exact .inl (hkeys.imp_right (by simp))
  | abandons | dropped => exact .inl (.inr (by simpa using hkeys))
  | closesState => exact .inl (hkeys.imp_right (by simp))
  | closesEncryption => exact .inl (.inr (by simpa using hkeys))
  | _ => exact .inl hkeys

/-- An `establish` succeeds by a commit. -/
theorem Acts.of_established (h : Acts platform session i s (.establish key) point s' (.returned (.ok .unit))) :
    ∃ encryption, point = .committing encryption := by
  generalize hop : Op.establish key = op at h
  generalize hpoint : Point.returned (.ok .unit) = point' at h
  cases h with
  | commits => exact ⟨_, rfl⟩
  | used hne => exact absurd hop.symm (hne key)
  | closesKeyAgreement =>
    subst hop
    cases hpoint
  | _ => cases hpoint

section

variable {w : Calls κ}

variable (platform) in
theorem Consistent.advances (h : Consistent session w) (e : Event) :
    Advances w.shared.cells.state (w.next platform session e).shared.cells.state := by
  cases e with
  | pass time | call op => exact .stays
  | step i =>
    rcases w.next_step_cases platform session i with heq | ⟨op, point, s', point', htask, hacts, heq⟩
    · rw [heq]
      exact .stays
    · rw [heq]
      exact hacts.advances (h.points htask)

/-- At the moment of a commit no `establish` has succeeded. -/
theorem Consistent.not_established (h : Consistent session w) (hstate : w.shared.cells.state = .engagement) (j : Nat)
    (key : Bytes) :
    ¬ w.Established j key := by
  intro hj
  exact (h.points hj).1 hstate

theorem established_set_iff (htask : w.tasks[i]? = some ⟨op, point⟩)
    (hacts : Acts platform session i w.shared op point s' point') :
    Calls.Established ⟨s', w.tasks.set i ⟨op, point'⟩⟩ j key ↔
      (j = i ∧ op = .establish key ∧ ∃ encryption, point = .committing encryption) ∨ w.Established j key := by
  unfold Calls.Established
  rw [getElem?_set_iff htask]
  constructor
  · rintro (⟨rfl, heq⟩ | ⟨-, hj⟩)
    · cases heq
      exact .inl ⟨rfl, rfl, hacts.of_established⟩
    · exact .inr hj
  · rintro (⟨rfl, rfl, encryption, rfl⟩ | hj)
    · cases hacts
      exact .inl ⟨rfl, rfl⟩
    · refine .inr ⟨?_, hj⟩
      rintro rfl
      rw [htask] at hj
      cases hj
      cases hacts

theorem Consistent.next (h : Consistent session w) (e : Event) : Consistent session (w.next platform session e) := by
  cases e with
  | pass time =>
    refine ⟨h.stateLock, h.keyLock, ?_, h.encryption, h.unique⟩
    intro i op point htask
    exact (h.points htask).frame .stays (fun _ => rfl)
  | call op =>
    have hestablished : ∀ {j key}, (w.next platform session (.call op)).Established j key ↔ w.Established j key := by
      intro j key
      unfold Calls.Established
      simp only [Calls.next, getElem?_concat_iff]
      constructor
      · rintro (hj | ⟨-, heq⟩)
        · exact hj
        · cases op <;> cases heq
      · exact .inl
    refine ⟨tracks_call h.stateLock op (not_holdsState_entry op), tracks_call h.keyLock op (not_holdsKeyAgreement_entry op),
      ?_, ?_, ?_⟩
    · intro i op' point htask
      rcases getElem?_concat_iff.mp htask with htask | ⟨-, heq⟩
      · exact h.points htask
      · cases heq
        cases op <;> trivial
    · intro hkeys
      obtain ⟨i, key, hi⟩ := h.encryption hkeys
      exact ⟨i, key, hestablished.mpr hi⟩
    · intro i j key key' hi hj
      exact h.unique (hestablished.mp hi) (hestablished.mp hj)
  | step i =>
    rcases w.next_step_cases platform session i with heq | ⟨op, point, s', point', htask, hacts, heq⟩
    · rw [heq]
      exact h
    rw [heq]
    have hok := h.points htask
    refine ⟨tracks_step h.stateLock htask hacts.stateLock, tracks_step h.keyLock htask hacts.keyLock, ?_, ?_, ?_⟩
    · intro j op' point'' hj
      rcases (getElem?_set_iff htask).mp hj with ⟨rfl, hnew⟩ | ⟨hne, hj⟩
      · cases hnew
        exact hacts.pointOk hok
      · -- a task that keeps the lock of the state is the only one to move it
        refine (h.points hj).frame (hacts.advances hok) ?_
        intro hholds
        have hheld := (h.stateLock j).mpr ⟨op', point'', hj, hholds⟩
        refine hacts.state_eq (by simp [hheld]) ?_
        intro hholds'
        exact hne (h.stateLock.unique ⟨op', point'', hj, hholds⟩ ⟨op, point, htask, hholds'⟩)
    · intro hkeys
      rcases hacts.encryption hkeys with hkeys | ⟨encryption, rfl⟩
      · obtain ⟨j, key, hj⟩ := h.encryption hkeys
        exact ⟨j, key, (established_set_iff htask hacts).mpr (.inr hj)⟩
      · obtain ⟨-, key, rfl, -⟩ := hok
        exact ⟨i, key, (established_set_iff htask hacts).mpr (.inl ⟨rfl, rfl, encryption, rfl⟩)⟩
    · intro j k key key' hj hk
      rcases (established_set_iff htask hacts).mp hj with ⟨rfl, -, encryption, rfl⟩ | hbefore
      · rcases (established_set_iff htask hacts).mp hk with ⟨rfl, -⟩ | hbefore
        · rfl
        · exact absurd hbefore (h.not_established hok.1 k key')
      · rcases (established_set_iff htask hacts).mp hk with ⟨rfl, -, encryption, rfl⟩ | hbefore'
        · exact absurd hbefore (h.not_established hok.1 j key)
        · exact h.unique hbefore hbefore'

end

end

end MartyCore.Iso18013
