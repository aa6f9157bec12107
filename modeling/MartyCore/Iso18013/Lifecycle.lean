import MartyCore.Iso18013.Channel
import MartyCore.Iso18013.Tasks

/-!
# `Iso18013.Lifecycle` — sessions that are over, and calls that fail

A call that is made when the session is over returns nothing but the fact (`Harmless`), and finds it terminated or makes it
so.

That a failed `establish` leaves the session as it was has an exception. The key pair is taken before the transcript is
built, and a device builds it with the peer's key. The curve accepts a compressed point and the transcript does not, so such
a key costs the device its key pair (`Harmful`). In runs without such a call the key pair is there as long as the session is
in engagement (`KeyKept`), and a genuine peer key still establishes it. After such a call no `establish` can succeed any
more (`Dead`).
-/

namespace MartyCore.Iso18013

open Result

section

variable {κ : Type} {platform : Platform κ} {session : Session} {i : Nat} {s s' : Shared κ} {op : Op} {point point' : Point}
  {w : Calls κ}

/-! ## Calls made when the session is over -/

/-- What such a call may return: an error, nothing, or that the session is terminated. -/
inductive Harmless : Op → Exec Error Reply → Prop
  | error {op : Op} {e : Fault Error} : Harmless op (.error e)
  | terminate : Harmless .terminate (.ok .unit)
  | state : Harmless .state (.ok (.state .terminated))

variable (session) in
def Over (s : Shared κ) : Prop := s.cells.state = .terminated ∨ session.deadline ≤ s.now

/-- Where such a call may be. -/
inductive LateOk (s : Shared κ) (op : Op) : Point → Prop
  | start : LateOk s op .start
  | closing (stage : Stage) : LateOk s op (.closing stage)
  | checked (hstate : s.cells.state = .terminated) : LateOk s op .checked
  | reading (hop : op = .state) (hstate : s.cells.state = .terminated) : LateOk s op .reading
  | returned {result : Exec Error Reply} (hstate : s.cells.state = .terminated) (hresult : Harmless op result) :
      LateOk s op (.returned result)

theorem Acts.lateOk (h : Acts platform session i s op point s' point') (hover : Over session s)
    (hok : PointOk session s op point) (hlate : LateOk s op point) : LateOk s' op point' := by
  cases h with
  | alive hnow => exact .checked (hover.resolve_right (Nat.not_le.mpr hnow))
  | looks hnow => exact .reading rfl (hover.resolve_right (Nat.not_le.mpr hnow))
  | expired => exact .closing .state
  | refused e =>
    cases hlate with
    | checked hstate => exact .returned hstate .error
  | entered _ hstate =>
    cases hlate with
    | checked hstate' => exact absurd (hstate.symm.trans hstate') (by simp)
  | admitted _ hstate =>
    cases hlate with
    | checked hstate' => exact absurd hstate' hstate
  | closesState => exact .closing .encryption
  | closesEncryption => exact .closing .keyAgreement
  | closesKeyAgreement =>
    cases op with
    | terminate => exact .returned hok .terminate
    | state => exact .reading rfl hok
    | _ => exact .returned hok .error
  | reads =>
    cases hlate with
    | reading hop hstate =>
      subst hop
      refine .returned hstate ?_
      rw [hstate]
      exact .state
  | _ => cases hlate

theorem LateOk.frame (h : LateOk s op point) (hadvances : Advances s.cells.state s'.cells.state) : LateOk s' op point := by
  have hterminated : s.cells.state = .terminated → s'.cells.state = .terminated := by
    intro hstate
    rw [hstate] at hadvances
    exact hadvances.terminated
  cases h with
  | start => exact .start
  | closing stage => exact .closing stage
  | checked hstate => exact .checked (hterminated hstate)
  | reading hop hstate => exact .reading hop (hterminated hstate)
  | returned hstate hresult => exact .returned (hterminated hstate) hresult

theorem Acts.now_eq (h : Acts platform session i s op point s' point') : s'.now = s.now := by
  cases h <;> rfl

theorem Consistent.over_next (h : Consistent session w) (hover : Over session w.shared) (e : Event) :
    Over session (w.next platform session e).shared := by
  rcases hover with hstate | hnow
  · have hadvances := h.advances platform e
    rw [hstate] at hadvances
    exact .inl hadvances.terminated
  · refine .inr ?_
    cases e with
    | pass time => exact Nat.le_trans hnow (Nat.le_add_right _ _)
    | call op => exact hnow
    | step i =>
      rcases w.next_step_cases platform session i with heq | ⟨op, point, s', point', htask, hacts, heq⟩
      · rw [heq]
        exact hnow
      · rw [heq]
        show session.deadline ≤ s'.now
        rw [hacts.now_eq]
        exact hnow

/-- The calls from the `n`-th on were made when the session was over. -/
def LateFrom (n : Nat) (w : Calls κ) : Prop :=
  n ≤ w.tasks.length ∧ ∀ i op point, n ≤ i → w.tasks[i]? = some ⟨op, point⟩ → LateOk w.shared op point

theorem LateFrom.next {n : Nat} (hlate : LateFrom n w) (h : Consistent session w) (hover : Over session w.shared) (e : Event) :
    LateFrom n (w.next platform session e) := by
  obtain ⟨hlength, hlate⟩ := hlate
  cases e with
  | pass time =>
    refine ⟨hlength, ?_⟩
    intro i op point hi htask
    exact (hlate i op point hi htask).frame .stays
  | call op =>
    refine ⟨Nat.le_trans hlength (by simp [Calls.next]), ?_⟩
    intro i op' point hi htask
    rcases getElem?_concat_iff.mp htask with htask | ⟨-, hnew⟩
    · exact hlate i op' point hi htask
    · cases hnew
      cases op with
      | terminate => exact .closing .state
      | _ => exact .start
  | step i =>
    rcases w.next_step_cases platform session i with heq | ⟨op, point, s', point', htask, hacts, heq⟩
    · rw [heq]
      exact ⟨hlength, hlate⟩
    rw [heq]
    have hok := h.points htask
    refine ⟨by simpa using hlength, ?_⟩
    intro j op' point'' hj htask'
    rcases (getElem?_set_iff htask).mp htask' with ⟨rfl, hnew⟩ | ⟨-, hbefore⟩
    · cases hnew
      exact hacts.lateOk hover hok (hlate j op point hj htask)
    · exact (hlate j op' point'' hj hbefore).frame (hacts.advances hok)

/-- **Nothing comes of a call that is made when the session is over.** -/
theorem Consistent.harmless (h : Consistent session w) (hover : Over session w.shared) (later : List Event)
    {result : Exec Error Reply} (hi : w.tasks.length ≤ i)
    (htask : (w.run platform session later).tasks[i]? = some ⟨op, .returned result⟩) :
    Harmless op result ∧ (w.run platform session later).shared.cells.state = .terminated := by
  have hrun : Consistent session (w.run platform session later) ∧ Over session (w.run platform session later).shared ∧
      LateFrom w.tasks.length (w.run platform session later) := by
    apply Calls.run_induction (P := fun w' => Consistent session w' ∧ Over session w'.shared ∧ LateFrom w.tasks.length w')
    · refine ⟨h, hover, Nat.le_refl _, ?_⟩
      intro j op' point hj htask'
      rw [List.getElem?_eq_none hj] at htask'
      cases htask'
    · rintro w' e ⟨h', hover', hlate'⟩
      exact ⟨h'.next e, h'.over_next hover' e, hlate'.next h' hover' e⟩
  cases hrun.2.2.2 i op _ hi htask with
  | returned hstate hresult => exact ⟨hresult, hstate⟩

theorem Consistent.terminated_run (h : Consistent session w) (hstate : w.shared.cells.state = .terminated)
    (later : List Event) : (w.run platform session later).shared.cells.state = .terminated := by
  have hrun : Consistent session (w.run platform session later) ∧
      (w.run platform session later).shared.cells.state = .terminated := by
    apply Calls.run_induction (P := fun w' => Consistent session w' ∧ w'.shared.cells.state = .terminated)
    · exact ⟨h, hstate⟩
    · rintro w' e ⟨h', hstate'⟩
      have hadvances := h'.advances platform e
      rw [hstate'] at hadvances
      exact ⟨h'.next e, hadvances.terminated⟩
  exact hrun.2

/-! ## Keys -/

/-- **Keys appear by a commit**, which finds the session in engagement. -/
theorem Consistent.encryption_next (h : Consistent session w) {e : Event} (hnone : w.shared.cells.encryption = none)
    (hsome : (w.next platform session e).shared.cells.encryption ≠ none) :
    w.shared.cells.state = .engagement ∧ ∃ i key, e = .step i ∧ (w.next platform session e).Established i key := by
  cases e with
  | pass time | call op => exact absurd hnone hsome
  | step i =>
    rcases w.next_step_cases platform session i with heq | ⟨op, point, s', point', htask, hacts, heq⟩
    · rw [heq] at hsome
      exact absurd hnone hsome
    have hok := h.points htask
    rw [heq] at hsome ⊢
    cases hacts with
    | commits =>
      obtain ⟨hstate, key, rfl, -⟩ := hok
      exact ⟨hstate, i, key, rfl, (getElem?_set_iff htask).mpr (.inl ⟨rfl, rfl⟩)⟩
    | used _ hbefore => exact absurd (hnone.symm.trans hbefore) (by simp)
    | abandons | dropped | closesEncryption => exact absurd rfl hsome
    | _ => exact absurd hnone hsome

/-! ## Calls that fail -/

variable (platform session) in
/-- At this step task `i`, an `establish` with this key, returns an error other than a timeout. -/
def Fails (w : Calls κ) (i : Nat) (key : Bytes) : Prop :=
  ∃ point e, w.tasks[i]? = some ⟨.establish key, point⟩ ∧ point ≠ .returned (.error e) ∧ e ≠ .err .timeout ∧
    (w.next platform session (.step i)).tasks[i]? = some ⟨.establish key, .returned (.error e)⟩

variable (platform session) in
/-- The key is a point of the curve that a device cannot put into the transcript. -/
def Harmful (w : Calls κ) (key : Bytes) : Prop :=
  session.role = .device ∧ w.shared.cells.state = .engagement ∧ platform.p256.validate key = .ok () ∧ ¬ Uncompressed key

variable (platform session) in
/-- What a session is created with and keeps. -/
structure Keyed (w : Calls κ) : Prop where
  decodes : ∃ value, platform.isomdl.decode session.engagementBytes = .ok value
  publicKey : Uncompressed w.shared.cells.keyAgreement.publicKey

variable {key : Bytes} {ka : SessionKeyAgreement κ} {outcome : Exec Error SessionEncryption}

theorem Keyed.derives (h : Keyed platform session w)
    (hrun : (session.deriveEncryption platform key).run w.shared.cells.keyAgreement = (outcome, ka)) :
    Derives platform session w.shared.cells.keyAgreement key outcome ka := by
  obtain ⟨value, hdecode⟩ := h.decodes
  have hcases : Derives platform session w.shared.cells.keyAgreement key _ _ :=
    deriveEncryption_cases hdecode h.publicKey
  rw [hrun] at hcases
  exact hcases

theorem Derives.publicKey_eq {ka' : SessionKeyAgreement κ}
    (h : Derives platform session ka key outcome ka') : ka'.publicKey = ka.publicKey := by
  cases h <;> rfl

theorem Keyed.next (h : Keyed platform session w) (e : Event) : Keyed platform session (w.next platform session e) := by
  refine ⟨h.decodes, ?_⟩
  have hpublic := h.publicKey
  cases e with
  | pass time | call op => exact hpublic
  | step i =>
    rcases w.next_step_cases platform session i with heq | ⟨op, point, s', point', htask, hacts, heq⟩
    · rw [heq]
      exact hpublic
    rw [heq]
    show Uncompressed s'.cells.keyAgreement.publicKey
    cases hacts with
    | failed _ hrun | late _ hrun | agreed _ hrun =>
      rw [← (h.derives hrun).publicKey_eq] at hpublic
      exact hpublic
    | _ => exact hpublic

variable (platform session) in
/-- What an `establish` that fails has done. -/
inductive FailsBy (w : Calls κ) (s' : Shared κ) (key : Bytes) : Prop
  /-- Nothing: it was refused, or its key is not on the curve. -/
  | unchanged (hcells : s'.cells = w.shared.cells) (hharmless : ¬ Harmful platform session w key)
  /-- The key pair had been taken before. -/
  | consumed (hstate : w.shared.cells.state = .engagement) (hfree : w.shared.keyAgreementHeld = none)
      (hpair : w.shared.cells.keyAgreement.keyPair = none) (hpair' : s'.cells.keyAgreement.keyPair = none)
  /-- It has taken the key pair. -/
  | took (hharmful : Harmful platform session w key) (hfree : w.shared.keyAgreementHeld = none)
      (hpair : w.shared.cells.keyAgreement.keyPair ≠ none) (hpair' : s'.cells.keyAgreement.keyPair = none)

theorem Keyed.failsBy {e : Fault Error} (hkeyed : Keyed platform session w) (h : Consistent session w)
    (htask : w.tasks[i]? = some ⟨.establish key, point⟩)
    (hacts : Acts platform session i w.shared (.establish key) point s' (.returned (.error e)))
    (he : e ≠ .err .timeout) :
    FailsBy platform session w s' key := by
  generalize hop : Op.establish key = op at hacts htask
  generalize hresult : Point.returned (.error e) = point' at hacts
  cases hacts with
  | refused e' hfree hwhy =>
    refine .unchanged rfl ?_
    rintro ⟨hrole, hstate, -⟩
    rcases hwhy key hop.symm with hne | hreader
    · exact hne hstate
    · exact absurd (hrole.symm.trans hreader) (by simp)
  | failed hfree hrun =>
    cases hop
    have hok := h.points htask
    cases hkeyed.derives hrun with
    | invalid e' hkey => exact .unchanged rfl (fun hharmful => hkey hharmful.2.2.1)
    | consumed _ hpair => exact .consumed hok.1 hfree hpair hpair
    | compressed hkey hpair hrole hform => exact .took ⟨hrole, hok.1, hkey, hform⟩ hfree hpair rfl
  | abandons =>
    cases hresult
    exact absurd rfl he
  | unusable e' hne | used hne => exact absurd hop.symm (hne key)
  | closesKeyAgreement =>
    subst hop
    cases hresult
    exact absurd rfl he
  | _ => cases hresult

/-- A call fails by a step. -/
theorem Fails.acts (h : Fails platform session w i key) :
    ∃ point s' e, w.tasks[i]? = some ⟨.establish key, point⟩ ∧ e ≠ .err .timeout ∧
      Acts platform session i w.shared (.establish key) point s' (.returned (.error e)) ∧
      w.next platform session (.step i) = ⟨s', w.tasks.set i ⟨.establish key, .returned (.error e)⟩⟩ := by
  obtain ⟨point, e, htask, hpoint, he, hafter⟩ := h
  rcases w.next_step_cases platform session i with heq | ⟨op, point', s', point'', htask', hacts, heq⟩
  · rw [heq, htask] at hafter
    cases hafter
    exact absurd rfl hpoint
  · rw [htask] at htask'
    cases htask'
    rw [heq, getElem?_set_iff htask] at hafter
    rcases hafter with ⟨-, hnew⟩ | ⟨hne, -⟩
    · cases hnew
      exact ⟨point, s', e, htask, he, hacts, heq⟩
    · exact absurd rfl hne

section

variable (hkeyed : Keyed platform session w)

include hkeyed

theorem Fails.failsBy (h : Fails platform session w i key)
    (hw : Consistent session w) : FailsBy platform session w (w.next platform session (.step i)).shared key := by
  obtain ⟨point, s', e, htask, he, hacts, heq⟩ := h.acts
  rw [heq]
  exact hkeyed.failsBy hw htask hacts he

/-- In engagement, and in nobody's hands, the key pair is there. -/
def KeyKept (s : Shared κ) : Prop :=
  s.cells.state = .engagement → s.keyAgreementHeld = none → s.cells.keyAgreement.keyPair ≠ none

/-- While the key pair is kept, only a harmful key makes a difference. -/
theorem Fails.unchanged_iff (h : Fails platform session w i key)
    (hw : Consistent session w) (hkept : KeyKept w.shared) :
    (w.next platform session (.step i)).shared.cells = w.shared.cells ↔ ¬ Harmful platform session w key := by
  cases h.failsBy hkeyed hw with
  | unchanged hcells hharmless => exact iff_of_true hcells hharmless
  | consumed hstate hfree hpair => exact absurd hpair (hkept hstate hfree)
  | took hharmful _ hpair hpair' =>
    refine iff_of_false ?_ (not_not.mpr hharmful)
    intro hcells
    rw [hcells] at hpair'
    exact hpair hpair'

/-- No harmful failure at this event. -/
def HarmsNot (platform : Platform κ) (session : Session) (w : Calls κ) (e : Event) : Prop :=
  ∀ i key, e = .step i → Fails platform session w i key → ¬ Harmful platform session w key

theorem KeyKept.next (hkept : KeyKept w.shared) (h : Consistent session w) {e : Event}
    (hharms : HarmsNot platform session w e) : KeyKept (w.next platform session e).shared := by
  cases e with
  | pass time | call op => exact hkept
  | step i =>
    rcases w.next_step_cases platform session i with heq | ⟨op, point, s', point', htask, hacts, heq⟩
    · rw [heq]
      exact hkept
    have hok := h.points htask
    rw [heq]
    show KeyKept s'
    cases hacts with
    | failed hfree hrun =>
      cases hkeyed.derives hrun with
      | invalid e hkey => exact hkept
      | consumed hkey hpair => exact absurd hpair (hkept hok.1 hfree)
      | compressed hkey hpair hrole hform =>
        rename_i key
        refine absurd ⟨hrole, hok.1, hkey, hform⟩ (hharms i key rfl ?_)
        refine ⟨_, _, htask, by simp, ?_, by rw [heq]; exact (getElem?_set_iff htask).mpr (.inl ⟨rfl, rfl⟩)⟩
        simp
    | late => exact fun hstate => nomatch hstate
    | agreed => exact fun _ hheld => nomatch hheld
    | commits | closesState => exact fun hstate => nomatch hstate
    | closesKeyAgreement =>
      have hterminated : w.shared.cells.state = .terminated := hok
      intro hstate
      exact absurd (hterminated.symm.trans hstate) (by simp)
    | _ => exact hkept

namespace Calls

variable (platform session) in
/-- Every event of the run meets the condition in the state it happens in. -/
def Throughout (P : Calls κ → Event → Prop) : Calls κ → List Event → Prop
  | _, [] => True
  | w, e :: rest => P w e ∧ Throughout P (w.next platform session e) rest

end Calls

variable (platform session) in
/-- A failure at this event leaves the session as it was. -/
def LeavesCells (w : Calls κ) (e : Event) : Prop :=
  ∀ i key, e = .step i → Fails platform session w i key → (w.next platform session e).shared.cells = w.shared.cells

theorem leavesCells_iff (h : Consistent session w) (hkept : KeyKept w.shared)
    (e : Event) : LeavesCells platform session w e ↔ HarmsNot platform session w e := by
  constructor
  · rintro hleaves i key rfl hfails
    exact (hfails.unchanged_iff hkeyed h hkept).mp (hleaves i key rfl hfails)
  · rintro hharms i key rfl hfails
    exact (hfails.unchanged_iff hkeyed h hkept).mpr (hharms i key rfl hfails)

/-- **Failures leave a session alone exactly if none is harmful.** -/
theorem throughout_leavesCells_iff (h : Consistent session w) (hkept : KeyKept w.shared) (events : List Event) :
    Calls.Throughout platform session (LeavesCells platform session) w events ↔
      Calls.Throughout platform session (HarmsNot platform session) w events := by
  induction events generalizing w with
  | nil => exact Iff.rfl
  | cons e rest ih =>
    -- either side gives the same at this event, and with it that the key pair is still kept at the next
    have hhere := leavesCells_iff hkeyed h hkept e
    constructor
    · rintro ⟨hleaves, hrest⟩
      have hharms := hhere.mp hleaves
      exact ⟨hharms, (ih (hkeyed.next e) (h.next e) (hkept.next hkeyed h hharms)).mp hrest⟩
    · rintro ⟨hharms, hrest⟩
      exact ⟨hhere.mpr hharms, (ih (hkeyed.next e) (h.next e) (hkept.next hkeyed h hharms)).mpr hrest⟩

theorem keyKept_run (h : Consistent session w) (hkept : KeyKept w.shared)
    {events : List Event} (hharms : Calls.Throughout platform session (HarmsNot platform session) w events) :
    KeyKept (w.run platform session events).shared := by
  induction events generalizing w with
  | nil => exact hkept
  | cons e rest ih => exact ih (hkeyed.next e) (h.next e) (hkept.next hkeyed h hharms.1) hharms.2

/-! ## A session that has lost its key pair -/

/-- No `establish` has succeeded, none is about to, and the key pair is gone. -/
structure Dead (w : Calls κ) : Prop where
  pair : w.shared.cells.keyAgreement.keyPair = none
  committing : ∀ i, ¬ w.At Point.HoldsKeyAgreement i
  established : ∀ i key, ¬ w.Established i key

theorem Acts.keyPair_none (h : Acts platform session i w.shared op point s' point')
    (hpair : w.shared.cells.keyAgreement.keyPair = none) : s'.cells.keyAgreement.keyPair = none := by
  cases h with
  | failed _ hrun =>
    cases hkeyed.derives hrun with
    | invalid | consumed => exact hpair
    | compressed => rfl
  | late => rfl
  | agreed _ hrun =>
    cases hkeyed.derives hrun with
    | derived => rfl
  | closesKeyAgreement => rfl
  | _ => exact hpair

/-- Without a key pair nothing is agreed on. -/
theorem Acts.not_committing (h : Acts platform session i w.shared op point s' point')
    (hpair : w.shared.cells.keyAgreement.keyPair = none) : ¬ point'.HoldsKeyAgreement := by
  cases h with
  | agreed _ hrun =>
    cases hkeyed.derives hrun with
    | derived _ _ hsome => exact absurd hpair hsome
  | closesKeyAgreement => exact not_holdsKeyAgreement_afterClosing op
  | _ => exact id

theorem Dead.next (hdead : Dead w) (e : Event) : Dead (w.next platform session e) := by
  cases e with
  | pass time => exact ⟨hdead.pair, hdead.committing, hdead.established⟩
  | call op =>
    refine ⟨hdead.pair, ?_, ?_⟩
    · rintro i ⟨op', point, htask, hholds⟩
      rcases getElem?_concat_iff.mp htask with hbefore | ⟨-, hnew⟩
      · exact hdead.committing i ⟨op', point, hbefore, hholds⟩
      · cases hnew
        exact not_holdsKeyAgreement_entry op hholds
    · intro i key hi
      rcases getElem?_concat_iff.mp hi with hbefore | ⟨-, hnew⟩
      · exact hdead.established i key hbefore
      · cases op <;> cases hnew
  | step i =>
    rcases w.next_step_cases platform session i with heq | ⟨op, point, s', point', htask, hacts, heq⟩
    · rw [heq]
      exact hdead
    rw [heq]
    refine ⟨hacts.keyPair_none hkeyed hdead.pair, ?_, ?_⟩
    · intro j hj
      rcases (at_set_iff htask).mp hj with ⟨-, hholds⟩ | ⟨-, hbefore⟩
      · exact hacts.not_committing hkeyed hdead.pair hholds
      · exact hdead.committing j hbefore
    · intro j key hj
      rcases (established_set_iff htask hacts).mp hj with ⟨-, -, encryption, rfl⟩ | hbefore
      · exact hdead.committing i ⟨op, _, htask, trivial⟩
      · exact hdead.established j key hbefore

theorem Dead.run (hdead : Dead w) (later : List Event) : Dead (w.run platform session later) := by
  have hrun : Dead (w.run platform session later) ∧ Keyed platform session (w.run platform session later) := by
    apply Calls.run_induction (P := fun w' => Dead w' ∧ Keyed platform session w')
    · exact ⟨hdead, hkeyed⟩
    · rintro w' e ⟨hdead', hkeyed'⟩
      exact ⟨hdead'.next hkeyed' e, hkeyed'.next e⟩
  exact hrun.1

/-- **A harmful failure is the end of it.** -/
theorem Fails.dead (h : Fails platform session w i key) (hharmful : Harmful platform session w key)
    (hw : Consistent session w) : Dead (w.next platform session (.step i)) := by
  obtain ⟨point, s', e, htask, he, hacts, heq⟩ := h.acts
  have hgone : w.shared.keyAgreementHeld = none ∧ s'.cells.keyAgreement.keyPair = none := by
    cases hkeyed.failsBy hw htask hacts he with
    | unchanged _ hharmless => exact absurd hharmful hharmless
    | consumed _ hfree _ hpair' | took _ hfree _ hpair' => exact ⟨hfree, hpair'⟩
  have hpoint : ¬ ∃ encryption, point = .committing encryption := by
    rintro ⟨encryption, rfl⟩
    cases hacts
  rw [heq]
  refine ⟨hgone.2, ?_, ?_⟩
  · intro j hj
    rcases (at_set_iff htask).mp hj with ⟨-, hholds⟩ | ⟨-, hbefore⟩
    · exact hholds
    · exact hw.keyLock.not_holds hgone.1 j hbefore
  · intro j key' hj
    rcases (established_set_iff htask hacts).mp hj with ⟨-, -, hcommitting⟩ | hbefore
    · exact hpoint hcommitting
    · exact hw.not_established hharmful.2.1 j key' hbefore

end

/-! ## A call that succeeds -/

variable (platform session) in
/-- The key of a peer that a session is for. -/
def Genuine (key : Bytes) : Prop :=
  (∃ keyPair, key = platform.p256.publicKey keyPair) ∧ (session.role = .reader → key = session.engagementDeviceKey)

theorem uncompressed_publicKey (p256 : P256 κ) (keyPair : κ) : Uncompressed (p256.publicKey keyPair) :=
  ⟨p256.length_publicKey keyPair, p256.head?_publicKey keyPair⟩

/-- A step of the call that was made last. -/
theorem next_step_last {tasks : List Task} (hact : act platform session tasks.length s op point = some (s', point')) :
    Calls.next platform session ⟨s, tasks ++ [⟨op, point⟩]⟩ (.step tasks.length) = ⟨s', tasks ++ [⟨op, point'⟩]⟩ := by
  simp [Calls.next, hact]

/-- **With its key pair in place, a session can be established**: the call makes its way if nobody comes between. -/
theorem establish_succeeds (h : Consistent session w) (hkeyed : Keyed platform session w) (hkept : KeyKept w.shared)
    (hstate : w.shared.cells.state = .engagement) (hfree : w.shared.stateHeld = none)
    (hnow : w.shared.now < session.deadline) (hgenuine : Genuine platform session key) :
    (w.run platform session (.call (.establish key) :: List.replicate 4 (.step w.tasks.length))).Established
      w.tasks.length key := by
  obtain ⟨⟨keyPair, hkey⟩, hreader⟩ := hgenuine
  -- whoever keeps the key agreement keeps the state too
  have hfreeKey : w.shared.keyAgreementHeld = none := by
    rcases Option.eq_none_or_eq_some w.shared.keyAgreementHeld with hnone | ⟨j, hj⟩
    · exact hnone
    · obtain ⟨op, point, htask, hholds⟩ := (h.keyLock j).mp hj
      cases point with
      | committing => exact absurd ⟨op, _, htask, trivial⟩ (h.stateLock.not_holds hfree j)
      | _ => exact hholds.elim
  have hvalid : platform.p256.validate key = .ok () := by
    rw [hkey]
    exact platform.p256.validate_publicKey keyPair
  have hform : Uncompressed key := by
    rw [hkey]
    exact uncompressed_publicKey platform.p256 keyPair
  rcases hrun : (session.deriveEncryption platform key).run w.shared.cells.keyAgreement with ⟨outcome, ka⟩
  cases hkeyed.derives hrun with
  | invalid _ hinvalid => exact absurd hvalid hinvalid
  | consumed _ hpair => exact absurd hpair (hkept hstate hfreeKey)
  | compressed _ _ _ hcompressed => exact absurd hform hcompressed
  | derived encryption =>
    have hstart : act platform session w.tasks.length w.shared (.establish key) .start = some (w.shared, .checked) := by
      simp [act, hnow]
    have hentered : act platform session w.tasks.length w.shared (.establish key) .checked =
        some ({ w.shared with stateHeld := some w.tasks.length }, .agreeing) := by
      simp only [act, hfree, enter, hstate]
      simpa using hreader
    have hagreed : ∃ s', act platform session w.tasks.length { w.shared with stateHeld := some w.tasks.length }
        (.establish key) .agreeing = some (s', .committing encryption) := by
      simp [act, hfreeKey, agreement, hrun, Nat.not_le.mpr hnow]
    obtain ⟨s', hagreed⟩ := hagreed
    have hcommits : act platform session w.tasks.length s' (.establish key) (.committing encryption) =
        some (_, .returned (.ok .unit)) := rfl
    have hcall : w.next platform session (.call (.establish key)) =
        ⟨w.shared, w.tasks ++ [⟨.establish key, .start⟩]⟩ := rfl
    simp only [Calls.run, List.replicate, List.foldl]
    rw [hcall, next_step_last hstart, next_step_last hentered, next_step_last hagreed, next_step_last hcommits]
    simp [Calls.Established]

/-! ## The whole -/

variable (platform) in
/-- The two ways to get a session. -/
inductive Created : Session → Cells κ → Nat → Prop
  | device {engagement : DeviceEngagement κ} {config : SessionConfig} {session : Session} {cells : Cells κ} {now : Nat}
      (h : Session.fromEngagement platform engagement config now = .ok (session, cells)) : Created session cells now
  | reader {engagement : DeviceEngagement κ} {config : SessionConfig} {keyPair : κ} {session : Session} {cells : Cells κ}
      {now : Nat} (h : Session.readerFromEngagement platform engagement config keyPair now = .ok (session, cells)) :
      Created session cells now

variable {cells : Cells κ} {now : Nat}

theorem newForRole_ok {engagement : DeviceEngagement κ} {config : SessionConfig}
    {role : SessionRole}
    (h : Session.newForRole platform engagement config ka role now = .ok (session, cells)) :
    cells = ⟨.engagement, none, ka⟩ ∧ ∃ value, platform.isomdl.decode session.engagementBytes = .ok value := by
  obtain ⟨-, -, h⟩ := of_bind h
  obtain ⟨bytes, hbytes, h⟩ := of_bind h
  cases h
  obtain ⟨value, -, hencode⟩ := of_bind hbytes
  exact ⟨rfl, _, platform.isomdl.decode_of_encode (Result.mapError_ok_iff.mp hencode)⟩

theorem Created.cells_eq (h : Created platform session cells now) :
    (∃ keyPair, cells = ⟨.engagement, none, SessionKeyAgreement.fromKeyPair platform keyPair⟩) ∧
      ∃ value, platform.isomdl.decode session.engagementBytes = .ok value := by
  cases h with
  | device h =>
    obtain ⟨-, -, h⟩ := of_bind h
    obtain ⟨⟨keyPair, engagement⟩, -, h⟩ := of_bind h
    obtain ⟨-, h⟩ := of_reject h
    exact ⟨⟨keyPair, (newForRole_ok h).1⟩, (newForRole_ok h).2⟩
  | reader h =>
    obtain ⟨-, -, h⟩ := of_bind h
    exact ⟨⟨_, (newForRole_ok h).1⟩, (newForRole_ok h).2⟩

/-- What holds of a new session and is kept. -/
theorem Created.sound (h : Created platform session cells now) :
    Consistent session (Calls.start cells now) ∧ Keyed platform session (Calls.start cells now) ∧
      KeyKept (Calls.start cells now).shared := by
  obtain ⟨⟨keyPair, rfl⟩, hdecode⟩ := h.cells_eq
  exact ⟨consistent_start rfl rfl, ⟨hdecode, uncompressed_publicKey platform.p256 keyPair⟩, fun _ _ => by simp [Calls.start,
    SessionKeyAgreement.fromKeyPair]⟩

/-- **The lifecycle of a session.** After every run on a new session: once it is terminated it stays so, and a call that is
    made when it is terminated or past its deadline returns no data and leaves it terminated; there are keys only through
    the one `establish` that has succeeded, and they came when the session was in engagement; a reader has only accepted the
    device's key. The failures of `establish` have left the session as it was if and only if none was harmful, that is, if a
    device was never given a key on the curve that is not in the uncompressed form. If so, a genuine key still establishes
    the session; after a harmful failure no key ever does. -/
theorem session_lifecycle {cells : Cells κ} {now : Nat} (hcreated : Created platform session cells now)
    (events : List Event) :
    let w := (Calls.start cells now).run platform session events
    ((∃ i : Nat, w.tasks[i]? = some ⟨.terminate, .returned (.ok .unit)⟩) → w.shared.cells.state = .terminated) ∧
    (∀ later, w.shared.cells.state = .terminated → (w.run platform session later).shared.cells.state = .terminated) ∧
    (∀ (later : List Event) (i : Nat) (op : Op) (result : Exec Error Reply),
      w.shared.cells.state = .terminated ∨ session.deadline ≤ w.shared.now → w.tasks.length ≤ i →
      (w.run platform session later).tasks[i]? = some ⟨op, .returned result⟩ →
      Harmless op result ∧ (w.run platform session later).shared.cells.state = .terminated) ∧
    (w.shared.cells.encryption.isSome = true → ∃! i, ∃ key, w.Established i key) ∧
    (∀ e, w.shared.cells.encryption = none → (w.next platform session e).shared.cells.encryption ≠ none →
      w.shared.cells.state = .engagement ∧ ∃ i key, e = .step i ∧ (w.next platform session e).Established i key) ∧
    (∀ i key, w.Established i key → session.role = .reader → key = session.engagementDeviceKey) ∧
    (Calls.Throughout platform session (LeavesCells platform session) (Calls.start cells now) events ↔
      Calls.Throughout platform session (HarmsNot platform session) (Calls.start cells now) events) ∧
    (Calls.Throughout platform session (HarmsNot platform session) (Calls.start cells now) events →
      w.shared.cells.state = .engagement → w.shared.stateHeld = none → w.shared.now < session.deadline →
      ∀ key, Genuine platform session key →
        (w.run platform session (.call (.establish key) :: List.replicate 4 (.step w.tasks.length))).Established
          w.tasks.length key) ∧
    ∀ i key, Fails platform session w i key → Harmful platform session w key → ∀ later j key',
      ¬ ((w.next platform session (.step i)).run platform session later).Established j key' := by
  intro w
  obtain ⟨hstart, hkeyedStart, hkeptStart⟩ := hcreated.sound
  have hw : Consistent session w := Calls.run_induction hstart (fun _ e h => h.next e) events
  have hkeyed : Keyed platform session w := Calls.run_induction hkeyedStart (fun _ e h => h.next e) events
  refine ⟨?_, ?_, ?_, ?_, ?_, ?_, ?_, ?_, ?_⟩
  · rintro ⟨i, htask⟩
    exact (hw.points htask).2.1 rfl
  · intro later hstate
    exact hw.terminated_run hstate later
  · intro later i op result hover hi htask
    exact hw.harmless hover later hi htask
  · intro hkeys
    obtain ⟨i, key, hi⟩ := hw.encryption (.inl hkeys)
    refine ⟨i, ⟨key, hi⟩, ?_⟩
    rintro j ⟨key', hj⟩
    exact hw.unique hj hi
  · intro e hnone hsome
    exact hw.encryption_next hnone hsome
  · intro i key hi hrole
    exact (hw.points hi).2.2 key rfl hrole
  · exact throughout_leavesCells_iff hkeyedStart hstart hkeptStart events
  · intro hharms hstate hfree hnow key hgenuine
    exact establish_succeeds hw hkeyed (keyKept_run hkeyedStart hstart hkeptStart hharms) hstate hfree hnow hgenuine
  · intro i key hfails hharmful later j key'
    exact ((hfails.dead hkeyed hharmful hw).run (hkeyed.next _) later).established j key'

end

/-! ## A device that is given a compressed key -/

def sampleKey (keyPair : Bool) : Bytes := sampleP256.publicKey keyPair

def sampleDeviceKey : Tag24 CoseKey :=
  ⟨.ec2 .p256 (List.replicate 32 1) (.value (List.replicate 32 1)), [3]⟩

def sampleIso : Iso.DeviceEngagement := ⟨"1.0".toList, ⟨1, sampleDeviceKey⟩, none, none, none⟩

def samplePlatform : Platform Bool :=
  ⟨sampleIsomdl sampleIso sampleIso, sampleP256, sampleKdf, sampleIdeal.cipher []⟩

/-- A session of the device with the first key pair, for a minute. -/
def sampleDevice : Session := ⟨⟨60, 100⟩, 60, .device, [1], sampleKey true⟩

def sampleCells : Cells Bool := ⟨.engagement, none, SessionKeyAgreement.fromKeyPair samplePlatform true⟩

theorem created_sampleDevice : Created samplePlatform sampleDevice sampleCells 0 := by
  have h : Session.fromEngagement samplePlatform (DeviceEngagement.newQr sampleP256 true) ⟨60, 100⟩ 0 =
      .ok (sampleDevice, sampleCells) := rfl
  exact .device h

/-- A point in compressed form, which the curve accepts. -/
def compressedKey : Bytes := 2 :: List.replicate 32 0

/-- `establish` with this key, up to its end. -/
def establishing (i : Nat) (key : Bytes) (steps : Nat) : List Event :=
  .call (.establish key) :: List.replicate steps (.step i)

/-- Of two calls with the reader's key one has established the session. -/
theorem session_lifecycle_sampleDevice :
    ∃! i, ∃ key, ((Calls.start sampleCells 0).run samplePlatform sampleDevice
      (establishing 0 (sampleKey false) 4 ++ establishing 1 (sampleKey false) 3)).Established i key := by
  obtain ⟨-, -, -, hunique, -⟩ := session_lifecycle created_sampleDevice
    (establishing 0 (sampleKey false) 4 ++ establishing 1 (sampleKey false) 3)
  exact hunique (by decide)

/-- The compressed key is refused after the key pair has been taken. The reader's own key is then refused for good, in a
    session that is still in engagement. -/
theorem compressed_key_spends_key_pair :
    ((Calls.start sampleCells 0).run samplePlatform sampleDevice
      (establishing 0 compressedKey 3 ++ establishing 1 (sampleKey false) 3)).tasks =
      [⟨.establish compressedKey,
          .returned (.error (.err (.invalidEngagement "EDeviceKey must be an uncompressed P-256 point")))⟩,
        ⟨.establish (sampleKey false), .returned (.error (.err (.invalidState "ECDH agreement already consumed")))⟩] ∧
    ((Calls.start sampleCells 0).run samplePlatform sampleDevice
      (establishing 0 compressedKey 3 ++ establishing 1 (sampleKey false) 3)).shared.cells.state = .engagement ∧
    Genuine samplePlatform sampleDevice (sampleKey false) := by
  refine ⟨?_, ?_, ⟨false, rfl⟩, nofun⟩
  · decide
  · decide

end MartyCore.Iso18013
