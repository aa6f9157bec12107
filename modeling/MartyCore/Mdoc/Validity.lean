import MartyCore.Oid4vci.SdJwt

/-!
# `Mdoc.Validity` — how long an issued credential is valid

An SD-JWT ends a given number of seconds after it was issued. An mdoc has its lifetime in whole days, rounded towards
zero (`mdoc_validity_duration`), and of a year if none is given, when an SD-JWT does not end. So the formats end together
for lifetimes of whole days, and for no others that all of them accept.
-/

namespace MartyCore.Mdoc

open Result Oid4vci SdJwt

def mdocValidityOutOfRange : Oid4vciError := .mdocError "mdoc validity period is out of range"

/-- `TimeDelta::try_days`, in seconds. -/
def tryDays (days : Int) : Option Int :=
  if -9223372036854775 ≤ days * 86400 ∧ days * 86400 ≤ 9223372036854775 then some (days * 86400) else none

def mdocValidityDuration (expirationSeconds : Option Int) : Except Oid4vciError Int :=
  orFail mdocValidityOutOfRange (tryDays ((expirationSeconds.map (fun seconds => seconds.tdiv 86400)).getD 365))

/-- `checked_add_signed` of whole seconds; back from a leap second it counts from the second behind it. -/
def checkedAddSigned (t : Instant) (n : Int) : Option Instant :=
  if n = 0 then some t
  else (fromTimestamp (t.seconds + n + if n < 0 ∧ ¬ t.nanos < 10 ^ 9 then 1 else 0)).map
    (fun u => ⟨u.seconds, t.nanos % 10 ^ 9, u.range, .inl (Nat.mod_lt _ (by decide))⟩)

def checkedMdocValidUntil (signedAt : Instant) (validityDuration : Int) : Except Oid4vciError Instant :=
  orFail mdocValidityOutOfRange (checkedAddSigned signedAt validityDuration)

/-- The `validityInfo` of the mobile security object. -/
structure ValidityInfo where
  signed : Instant
  validFrom : Instant
  validUntil : Instant
deriving DecidableEq

def validityInfo (signedAt : Instant) (expirationSeconds : Option Int) : Except Oid4vciError ValidityInfo := do
  let validityDuration ← mdocValidityDuration expirationSeconds
  let validUntil ← checkedMdocValidUntil signedAt validityDuration
  .ok ⟨signedAt, signedAt, validUntil⟩

/-- There is an instant with these seconds. -/
def HasInstant (seconds : Int) : Prop := ∃ t : Instant, t.seconds = seconds

section

variable (issuedAt : Instant) (expirationSeconds : Option Int)

/-- An mdoc ends at this second and not before it begins, or is refused if the second is out of range. -/
structure MdocEndsAt (stop : Int) : Prop where
  accepted : (∃ info, validityInfo issuedAt expirationSeconds = .ok info) ↔ HasInstant stop
  window : ∀ info, validityInfo issuedAt expirationSeconds = .ok info →
    info.validUntil.seconds = stop ∧ info.validFrom ≤ info.validUntil

/-- So do the three formats. -/
structure EndsAt (stop : Int) : Prop where
  sdJwt : ∀ exp, checkedSdJwtExpirationTimestamp issuedAt expirationSeconds = .ok exp ↔ IsI64 stop ∧ exp = some stop
  ordered : ∀ exp, checkedSdJwtExpirationTimestamp issuedAt expirationSeconds = .ok (some exp) → issuedAt.seconds ≤ exp
  vcdm : ∀ expiration, checkedSdJwtVcdmExpiration issuedAt expirationSeconds = .ok expiration ↔
    ∃ validUntil, fromTimestamp stop = some validUntil ∧ expiration = some (stop, validUntil)
  mdoc : MdocEndsAt issuedAt expirationSeconds stop

/-- The formats end together, as many seconds after the issue as were asked for. -/
def Honoured : Prop :=
  ∃ stop, EndsAt issuedAt expirationSeconds stop ∧ ∀ seconds ∈ expirationSeconds, stop = issuedAt.seconds + seconds

end

variable {issuedAt t : Instant} {seconds : Int}

theorem fromTimestamp_some_iff : fromTimestamp seconds = some t ↔ t.seconds = seconds ∧ t.nanos = 0 := by
  constructor
  · intro h
    obtain ⟨_, h⟩ := Option.dite_none_right_eq_some.mp h
    cases h
    exact ⟨rfl, rfl⟩
  · rintro ⟨rfl, hnanos⟩
    rw [fromTimestamp, dif_pos t.range]
    exact congrArg some (Instant.ext_of rfl hnanos.symm)

theorem exp_ok_iff {exp : Option Int} : checkedSdJwtExpirationTimestamp issuedAt (some seconds) = .ok exp ↔
    IsI64 (issuedAt.seconds + seconds) ∧ exp = some (issuedAt.seconds + seconds) := by
  simp only [checkedSdJwtExpirationTimestamp, bind_ok_iff, orFail_ok_iff, checkedI64, Option.ite_none_right_eq_some]
  simp [eq_comm]

theorem vcdm_ok_iff {expiration : Option (Int × Instant)} :
    checkedSdJwtVcdmExpiration issuedAt (some seconds) = .ok expiration ↔
      ∃ validUntil, fromTimestamp (issuedAt.seconds + seconds) = some validUntil ∧
        expiration = some (issuedAt.seconds + seconds, validUntil) := by
  rw [checkedSdJwtVcdmExpiration, bind_ok_iff]
  constructor
  · rintro ⟨exp, hexp, h⟩
    obtain ⟨-, rfl⟩ := exp_ok_iff.mp hexp
    obtain ⟨validUntil, huntil, h⟩ := of_bind h
    cases h
    exact ⟨validUntil, orFail_ok_iff.mp huntil, rfl⟩
  · rintro ⟨validUntil, huntil, rfl⟩
    have hrange := validUntil.range
    rw [(fromTimestamp_some_iff.mp huntil).1] at hrange
    have hi64 : IsI64 (issuedAt.seconds + seconds) := ⟨by omega, by omega⟩
    exact ⟨_, exp_ok_iff.mpr ⟨hi64, rfl⟩, bind_ok_iff.mpr ⟨_, orFail_ok_iff.mpr huntil, rfl⟩⟩

theorem validityInfo_ok_iff {info : ValidityInfo} : validityInfo issuedAt (some seconds) = .ok info ↔
    ∃ duration, tryDays (seconds.tdiv 86400) = some duration ∧
      ∃ validUntil, checkedAddSigned issuedAt duration = some validUntil ∧ info = ⟨issuedAt, issuedAt, validUntil⟩ := by
  simp only [validityInfo, mdocValidityDuration, checkedMdocValidUntil, bind_ok_iff, orFail_ok_iff]
  simp [eq_comm]

theorem checkedAddSigned_some {u : Instant} {n : Int} (hn : 0 ≤ n) (h : checkedAddSigned t n = some u) :
    u.seconds = t.seconds + n ∧ t ≤ u := by
  unfold checkedAddSigned at h
  split_ifs at h with hzero hback
  · cases h
    exact ⟨by omega, le_refl _⟩
  · omega
  · obtain ⟨v, hv, rfl⟩ := Option.map_eq_some_iff.mp h
    have hseconds : v.seconds = t.seconds + n := by
      rw [(fromTimestamp_some_iff.mp hv).1, Int.add_zero]
    exact ⟨hseconds, le_of_lt (Instant.lt_iff.mpr (.inl (show t.seconds < v.seconds by omega)))⟩

theorem exists_checkedAddSigned {n : Int} (hn : 0 ≤ n) (h : HasInstant (issuedAt.seconds + n)) :
    ∃ u, checkedAddSigned issuedAt n = some u := by
  obtain ⟨v, hv⟩ := h
  have hfrom : fromTimestamp (issuedAt.seconds + n) = some ⟨v.seconds, 0, v.range, .inl (by decide)⟩ :=
    fromTimestamp_some_iff.mpr ⟨hv, rfl⟩
  unfold checkedAddSigned
  split_ifs
  · exact ⟨_, rfl⟩
  · omega
  · rw [Int.add_zero, hfrom]
    exact ⟨_, rfl⟩

/-- An mdoc ends after the whole days of its lifetime. -/
theorem mdocEndsAt_days (hstart : 0 ≤ seconds) :
    MdocEndsAt issuedAt (some seconds) (issuedAt.seconds + seconds / 86400 * 86400) := by
  have hdays : seconds.tdiv 86400 = seconds / 86400 := Int.tdiv_eq_ediv_of_nonneg hstart
  have hnonneg : 0 ≤ seconds / 86400 * 86400 := by omega
  have hends : ∀ info, validityInfo issuedAt (some seconds) = .ok info →
      info.validUntil.seconds = issuedAt.seconds + seconds / 86400 * 86400 ∧ info.validFrom ≤ info.validUntil := by
    intro info h
    obtain ⟨duration, hduration, validUntil, huntil, rfl⟩ := validityInfo_ok_iff.mp h
    obtain ⟨-, hsome⟩ := Option.ite_none_right_eq_some.mp hduration
    cases hdays ▸ Option.some.inj hsome
    exact checkedAddSigned_some hnonneg huntil
  refine ⟨⟨fun ⟨info, h⟩ => ⟨info.validUntil, (hends info h).1⟩, ?_⟩, hends⟩
  intro hstop
  obtain ⟨validUntil, huntil⟩ := exists_checkedAddSigned hnonneg hstop
  obtain ⟨t, ht⟩ := hstop
  have htry : tryDays (seconds.tdiv 86400) = some (seconds / 86400 * 86400) := by
    have := t.range
    have := issuedAt.range
    rw [tryDays, hdays, if_pos (by omega)]
  exact ⟨_, validityInfo_ok_iff.mpr ⟨_, htry, _, huntil, rfl⟩⟩

theorem mdocEndsAt_of_refused {stop : Int} (h : ∀ info, validityInfo issuedAt (some seconds) ≠ .ok info)
    (hstop : ¬ HasInstant stop) : MdocEndsAt issuedAt (some seconds) stop :=
  ⟨iff_of_false (fun ⟨info, hinfo⟩ => h info hinfo) hstop, fun info hinfo => absurd hinfo (h info)⟩

theorem hasInstant_iff {n : Int} (hn : 0 ≤ n) :
    HasInstant (issuedAt.seconds + n) ↔ issuedAt.seconds + n < 8210266876800 := by
  constructor
  · rintro ⟨t, ht⟩
    exact ht ▸ t.range.2
  · intro h
    exact ⟨⟨_, 0, ⟨by have := issuedAt.range; omega, h⟩, .inl (by decide)⟩, rfl⟩

/-- **When a lifetime is honoured.** It is one of whole days, or it is so long that an mdoc is refused even for its whole
    days, or it ended so long ago that its end is no `i64`. A missing one is not honoured. -/
theorem lifetime_honoured_iff (issuedAt : Instant) (expirationSeconds : Option Int) :
    Honoured issuedAt expirationSeconds ↔ ∃ seconds, expirationSeconds = some seconds ∧
      (0 ≤ seconds ∧ (86400 ∣ seconds ∨ 8210266876800 ≤ issuedAt.seconds + seconds / 86400 * 86400) ∨
        issuedAt.seconds + seconds < -2 ^ 63) := by
  have hissued := issuedAt.range
  constructor
  · rintro ⟨stop, h, hstop⟩
    rcases expirationSeconds with _ | seconds
    · cases ((h.sdJwt none).mp rfl).2
    refine ⟨seconds, rfl, ?_⟩
    cases hstop seconds rfl
    by_contra! hnot
    obtain ⟨hlong, hpast⟩ := hnot
    have hstart : 0 ≤ seconds := by
      by_contra hneg
      have := h.ordered _ ((h.sdJwt _).mpr ⟨⟨hpast, by omega⟩, rfl⟩)
      omega
    obtain ⟨hday, hrange⟩ := hlong hstart
    obtain ⟨info, hinfo⟩ := (mdocEndsAt_days hstart).accepted.mpr ((hasInstant_iff (by omega)).mpr hrange)
    have := (h.mdoc.window info hinfo).1.symm.trans ((mdocEndsAt_days hstart).window info hinfo).1
    omega
  · rintro ⟨seconds, rfl, hseconds⟩
    have hordered : ∀ exp, checkedSdJwtExpirationTimestamp issuedAt (some seconds) = .ok (some exp) →
        issuedAt.seconds ≤ exp := by
      intro exp h
      obtain ⟨⟨hpast, -⟩, hexp⟩ := exp_ok_iff.mp h
      cases hexp
      omega
    suffices hmdoc : MdocEndsAt issuedAt (some seconds) (issuedAt.seconds + seconds) from
      ⟨_, ⟨fun _ => exp_ok_iff, hordered, fun _ => vcdm_ok_iff, hmdoc⟩, by simp⟩
    rcases hseconds with ⟨hstart, hday | hrange⟩ | hpast
    · have h := @mdocEndsAt_days issuedAt seconds hstart
      rwa [Int.ediv_mul_cancel hday] at h
    · refine mdocEndsAt_of_refused (fun info hinfo => ?_) (fun h => ?_)
      · have := (hasInstant_iff (by omega)).mp ((mdocEndsAt_days hstart).accepted.mp ⟨info, hinfo⟩)
        omega
      · have := (hasInstant_iff hstart).mp h
        omega
    · refine mdocEndsAt_of_refused (fun info hinfo => ?_) (fun ⟨t, ht⟩ => ?_)
      · obtain ⟨duration, hduration, -⟩ := validityInfo_ok_iff.mp hinfo
        have := (Option.ite_none_right_eq_some.mp hduration).1
        have := Int.tmod_add_mul_tdiv seconds 86400
        have := Int.lt_tmod_of_pos seconds (show 0 < (86400 : Int) by decide)
        omega
      · have := t.range
        omega

/-- Of a lifetime of an hour nothing is left in an mdoc. -/
theorem hour_lost : checkedSdJwtExpirationTimestamp .epoch (some 3600) = .ok (some 3600) ∧
    validityInfo .epoch (some 3600) = .ok ⟨.epoch, .epoch, .epoch⟩ := by
  decide

end MartyCore.Mdoc
