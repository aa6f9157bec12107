import Mathlib.Data.List.Pairwise
import MartyCore.ChipIo.Model

/-!
# `ChipIo.Counter` — the send-sequence counter over whole sessions

One spec lemma per method (`protectCommand_commits`, `unprotectResponse_commits`): a call that fails, at any of
its exits, leaves the session as it was; a call that succeeds has computed its MAC under the successor of the
counter and stores that successor, and nothing else changes.

A session is any interleaving of the two calls (`steps`). The counter values along it never decrease, and the
successful calls use pairwise distinct ones (`ssc_never_reused`).
-/

namespace MartyCore.ChipIo

open Method.Commits List
open Bytes (beVal)

/-! ## Comparing MACs -/

theorem zipWith_xor_eq_zero {a b : Bytes} (hlen : a.length = b.length)
    (h : ∀ d ∈ List.zipWith (fun x y => x ^^^ y) a b, d = 0) : a = b := by
  induction a generalizing b with
  | nil => exact (eq_nil_of_length_eq_zero hlen.symm).symm
  | cons x xs ih =>
    cases b with
    | nil => cases hlen
    | cons y ys =>
      rw [zipWith_cons_cons, forall_mem_cons] at h
      rw [UInt8.xor_eq_zero_iff.mp h.1, ih (Nat.succ.inj hlen) h.2]

/-- The comparison in constant time is equality. -/
theorem constantTimeEq_iff (a b : Bytes) : constantTimeEq a b = true ↔ a = b := by
  unfold constantTimeEq
  constructor
  · intro h
    split at h
    · cases h
    · rename_i hlen
      rw [beq_iff_eq, foldl_eq_zero_iff _ (fun d => d) (fun _ _ => UInt8.or_eq_zero_iff)] at h
      exact zipWith_xor_eq_zero (not_ne_iff.mp hlen) h.2
  · rintro rfl
    rw [if_neg (fun h => h rfl), beq_iff_eq, foldl_eq_zero_iff _ (fun d => d) (fun _ _ => UInt8.or_eq_zero_iff)]
    refine ⟨rfl, ?_⟩
    intro d hd
    rw [zipWith_self, mem_map] at hd
    obtain ⟨x, -, rfl⟩ := hd
    exact UInt8.xor_eq_zero_iff.mpr rfl

/-! ## One call -/

theorem checkedNextSsc_ok {ssc next : Block 8} (h : checkedNextSsc ssc = .ok next) :
    beVal next.bytes = beVal ssc.bytes + 1 :=
  Block.increment_spec (Exec.orFail_ok_iff.mp h)

variable (cipher : TdesCbc)

/-- A command is protected under the next counter: its DO'8E carries a MAC over it. -/
theorem protectCommand_commits (cmd : ApduCommand) (s : BacSession) :
    (protectCommand cipher cmd).Commits s (fun reply s' => ∃ nextSsc body objects mac,
      checkedNextSsc s.ssc = .ok nextSsc ∧ s' = { s with ssc := nextSsc } ∧
      retailMac3des cipher s.kMac (nextSsc.bytes ++ body) = .ok mac ∧
      reply.data = objects ++ [0x8E, 0x08] ++ mac) := by
  apply get_bind
  apply call_bind
  intro _ _
  apply call_bind
  intro _ _
  apply call_bind
  -- from here on the counter is computed, but the session still has the old one
  intro nextSsc hssc
  apply call_bind
  intro do87 _
  apply call_bind
  intro mac hmac
  apply call_bind
  intro _ _
  apply set_pure
  exact ⟨nextSsc, _, _, mac, hssc, rfl, hmac, rfl⟩

/-- What an accepted response has passed, in the order of the checks. -/
structure Unprotected (cipher : TdesCbc) (s : BacSession) (resp : ApduResponse) (reply : ApduResponse)
    (nextSsc : Block 8) (objects : SmObjects) (do99Bytes receivedMac : Bytes) : Prop where
  counter : checkedNextSsc s.ssc = .ok nextSsc
  parsed : objectLoop resp.data.length resp.data SmObjects.empty = .ok objects
  do99 : objects.do99Bytes = some do99Bytes
  mac : objects.receivedMac = some receivedMac
  authentic : retailMac3des cipher s.kMac (nextSsc.bytes ++ (objects.do87Bytes.getD [] ++ do99Bytes))
    = .ok receivedMac
  plain : decryptObject cipher s.kEnc objects.encryptedData = .ok reply.data
  status : objects.status = some (reply.sw1, reply.sw2)

theorem unprotectResponse_commits (resp : ApduResponse) (s : BacSession) :
    (unprotectResponse cipher resp).Commits s (fun reply s' => ∃ nextSsc objects do99Bytes receivedMac,
      s' = { s with ssc := nextSsc } ∧
      Unprotected cipher s resp reply nextSsc objects do99Bytes receivedMac) := by
  apply get_bind
  apply call_bind
  intro _ _
  apply call_bind
  intro nextSsc hssc
  apply call_bind
  intro objects hobjects
  apply call_bind
  intro do99Bytes hdo99
  apply call_bind
  intro receivedMac hreceived
  apply call_bind
  intro expected hexpected
  apply call_bind
  intro _ hequal
  apply call_bind
  intro plainData hplain
  apply call_bind
  intro status hstatus
  apply set_pure
  -- the comparison has passed, so the MAC that was computed is the one received
  have heq : expected = receivedMac := by
    rw [← constantTimeEq_iff, ← Bool.not_eq_false]
    exact Exec.reject_ok_iff.mp hequal
  subst heq
  exact ⟨nextSsc, objects, do99Bytes, expected, rfl, hssc, hobjects, Exec.orFail_ok_iff.mp hdo99,
    Exec.orFail_ok_iff.mp hreceived, hexpected, hplain, Exec.orFail_ok_iff.mp hstatus⟩

/-! ## Sessions -/

/-- A call on a session, with any command or response. -/
inductive Call where
  | protect (cmd : ApduCommand)
  | unprotect (resp : ApduResponse)

inductive Reply where
  | command (cmd : ApduCommand)
  | response (resp : ApduResponse)

def Call.run (cipher : TdesCbc) (s : BacSession) : Call → Exec String Reply × BacSession
  | .protect cmd =>
    let result := (protectCommand cipher cmd).run s
    (result.1.map Reply.command, result.2)
  | .unprotect resp =>
    let result := (unprotectResponse cipher resp).run s
    (result.1.map Reply.response, result.2)

/-- The MAC that the call sent or verified was computed over an input that begins with `ssc`. -/
def MacUnder (cipher : TdesCbc) (s : BacSession) (ssc : Block 8) : Call → Reply → Prop
  | .protect _, .command reply => ∃ body objects mac,
      retailMac3des cipher s.kMac (ssc.bytes ++ body) = .ok mac ∧
      reply.data = objects ++ [0x8E, 0x08] ++ mac
  | .unprotect resp, .response _ => ∃ body objects mac,
      retailMac3des cipher s.kMac (ssc.bytes ++ body) = .ok mac ∧
      objectLoop resp.data.length resp.data SmObjects.empty = .ok objects ∧ objects.receivedMac = some mac
  | _, _ => False

/-- One call of a session: the session before and after it, and its outcome. -/
structure Step where
  before : BacSession
  call : Call
  outcome : Exec String Reply
  after : BacSession

/-- The calls of a session, one after the other. -/
def steps (cipher : TdesCbc) : BacSession → List Call → List Step
  | _, [] => []
  | s, call :: calls =>
    let result := call.run cipher s
    ⟨s, call, result.1, result.2⟩ :: steps cipher result.2 calls

/-- **A transactional step**: a successful call advances the counter by one, keeps the keys and used the new
    counter for its MAC; any other call changes nothing. -/
structure Transactional (cipher : TdesCbc) (step : Step) : Prop where
  of_ok : ∀ reply, step.outcome = .ok reply →
    beVal step.after.ssc.bytes = beVal step.before.ssc.bytes + 1 ∧
    step.after.kEnc = step.before.kEnc ∧ step.after.kMac = step.before.kMac ∧
    MacUnder cipher step.before step.after.ssc step.call reply
  of_error : ∀ e, step.outcome = .error e → step.after = step.before

/-- The step lemma. -/
theorem Call.run_transactional (cipher : TdesCbc) (s : BacSession) (call : Call) :
    Transactional cipher ⟨s, call, (call.run cipher s).1, (call.run cipher s).2⟩ := by
  cases call with
  | protect cmd =>
    have hspec := protectCommand_commits cipher cmd s
    constructor
    · intro reply hok
      obtain ⟨cmd', hcmd, rfl⟩ := Result.map_ok_iff.mp hok
      obtain ⟨nextSsc, body, objects, mac, hssc, hafter, hmac, hdata⟩ :=
        hspec.of_ok (Prod.ext hcmd rfl)
      have hafter' : (Call.run cipher s (.protect cmd)).2 = { s with ssc := nextSsc } := hafter
      simp only [hafter']
      exact ⟨checkedNextSsc_ok hssc, trivial, trivial, body, objects, mac, hmac, hdata⟩
    · intro e herr
      exact hspec.of_error (Prod.ext (Result.of_map_error herr) rfl)
  | unprotect resp =>
    have hspec := unprotectResponse_commits cipher resp s
    constructor
    · intro reply hok
      obtain ⟨resp', hresp, rfl⟩ := Result.map_ok_iff.mp hok
      obtain ⟨nextSsc, objects, do99Bytes, mac, hafter, hun⟩ := hspec.of_ok (Prod.ext hresp rfl)
      have hafter' : (Call.run cipher s (.unprotect resp)).2 = { s with ssc := nextSsc } := hafter
      simp only [hafter']
      exact ⟨checkedNextSsc_ok hun.counter, trivial, trivial, _, objects, mac, hun.authentic, hun.parsed, hun.mac⟩
    · intro e herr
      exact hspec.of_error (Prod.ext (Result.of_map_error herr) rfl)

theorem Transactional.le {cipher : TdesCbc} {step : Step} (h : Transactional cipher step) :
    beVal step.before.ssc.bytes ≤ beVal step.after.ssc.bytes := by
  cases hout : step.outcome with
  | error e => rw [h.of_error e hout]
  | ok reply =>
    have := (h.of_ok reply hout).1
    omega

theorem steps_transactional (s : BacSession) (calls : List Call) :
    ∀ step ∈ steps cipher s calls, Transactional cipher step := by
  induction calls generalizing s with
  | nil => exact fun step h => absurd h not_mem_nil
  | cons call calls ih =>
    intro step hmem
    rcases mem_cons.mp hmem with rfl | hmem
    · exact call.run_transactional cipher s
    · exact ih _ step hmem

/-- No step of a session starts below the session's counter. -/
theorem steps_ge (s : BacSession) (calls : List Call) :
    ∀ step ∈ steps cipher s calls, beVal s.ssc.bytes ≤ beVal step.before.ssc.bytes := by
  induction calls generalizing s with
  | nil => exact fun step h => absurd h not_mem_nil
  | cons call calls ih =>
    intro step hmem
    rcases mem_cons.mp hmem with rfl | hmem
    · exact Nat.le_refl _
    · exact Nat.le_trans (call.run_transactional cipher s).le (ih _ step hmem)

/-- The values of the counter along a session. -/
def counterValues (cipher : TdesCbc) (s : BacSession) (calls : List Call) : List Nat :=
  beVal s.ssc.bytes :: (steps cipher s calls).map (fun step => beVal step.after.ssc.bytes)

/-- The counters of the successful calls. -/
def usedCounters (cipher : TdesCbc) (s : BacSession) (calls : List Call) : List (Block 8) :=
  ((steps cipher s calls).filter (fun step => step.outcome.isOk)).map (fun step => step.after.ssc)

theorem counterValues_sorted (s : BacSession) (calls : List Call) :
    (counterValues cipher s calls).Pairwise (· ≤ ·) := by
  induction calls generalizing s with
  | nil => exact pairwise_singleton _ _
  | cons call calls ih =>
    have hstep := (call.run_transactional cipher s).le
    have htail := ih (call.run cipher s).2
    refine pairwise_cons.mpr ⟨?_, htail⟩
    intro value hvalue
    rcases mem_cons.mp hvalue with rfl | hvalue
    · exact hstep
    · exact Nat.le_trans hstep ((pairwise_cons.mp htail).1 value hvalue)

/-- A successful step uses a counter above the session's. -/
theorem lt_of_mem_usedCounters {cipher : TdesCbc} {s : BacSession} {calls : List Call} {ssc : Block 8}
    (h : ssc ∈ usedCounters cipher s calls) : beVal s.ssc.bytes < beVal ssc.bytes := by
  obtain ⟨step, hmem, rfl⟩ := mem_map.mp h
  obtain ⟨hstep, hok⟩ := mem_filter.mp hmem
  have hge := steps_ge cipher s calls step hstep
  cases hout : step.outcome with
  | error e =>
    rw [hout] at hok
    cases hok
  | ok reply =>
    have hone := ((steps_transactional cipher s calls step hstep).of_ok reply hout).1
    omega

theorem usedCounters_nodup (s : BacSession) (calls : List Call) : (usedCounters cipher s calls).Nodup := by
  induction calls generalizing s with
  | nil => exact nodup_nil
  | cons call calls ih =>
    have hrest := ih (call.run cipher s).2
    unfold usedCounters steps
    rw [filter_cons]
    split
    · refine nodup_cons.mpr ⟨?_, hrest⟩
      -- every later counter is above the one this call stored
      intro hmem
      exact Nat.lt_irrefl _ (lt_of_mem_usedCounters hmem)
    · exact hrest

/-- **Send-sequence counters are never reused.** In every interleaving of calls with any commands and
    responses, from any session: each successful call advances the counter by exactly one and keeps the keys,
    each other call leaves the session as it was, the counter never decreases, and no two successful calls
    computed their MAC under the same counter. -/
theorem ssc_never_reused (cipher : TdesCbc) (s : BacSession) (calls : List Call) :
    (∀ step ∈ steps cipher s calls, Transactional cipher step) ∧
    (counterValues cipher s calls).Pairwise (· ≤ ·) ∧
    (usedCounters cipher s calls).Nodup :=
  ⟨steps_transactional cipher s calls, counterValues_sorted cipher s calls, usedCounters_nodup cipher s calls⟩

end MartyCore.ChipIo
