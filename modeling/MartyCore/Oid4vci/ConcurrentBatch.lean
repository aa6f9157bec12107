import MartyCore.Oid4vci.Presentation
import MartyCore.Oid4vci.SigningBatch

/-!
# `Oid4vci.ConcurrentBatch` — the concurrent executor returns what the serial one does

What a batch is to return follows from the signer's answers alone (`Returns`): the first failed call, else the first
answer that is no signature, else the first credential that cannot be assembled, else all credentials in the order of the
inputs. Both executors are compared with one function of the answers, `decideBatch`. The serial one reaches it because it
ends at the first failed call. The concurrent one reaches it because the identities of the jobs of a batch are distinct,
so that the validation puts every result back in its place, whatever order it came in.
-/

namespace MartyCore.Oid4vci
namespace SigningBatch

open Exec List

variable {N : Type} (platform : Platform N) (prepared : PreparedSigningBatch platform)
  (outcome : Nat → Except Oid4vciError Bytes)

/-! ## What a batch is to return -/

section

variable (answer : Nat → Bytes → Except Oid4vciError Bytes)

/-- A signer that answers every call. -/
def returning (ordinal : Nat) (payload : Bytes) : SignReturn :=
  match answer ordinal payload with
  | .ok signature => .signature signature
  | .error e => .error e

/-- Its answer for the payload of the job of this ordinal. -/
def answers (jobs : List SigningJob) (ordinal : Nat) : Except Oid4vciError Bytes :=
  answer ordinal ((jobs[ordinal]?).elim [] SigningJob.payload)

end

/-- The answer for the job of this ordinal is this signature. -/
def Signs (ordinal : Nat) (signature : ValidatedSignature) : Prop :=
  outcome ordinal = .ok signature.raw ∧ platform.isP256Signature signature.raw = true

/-- The item of this ordinal becomes this credential. -/
def Assembles (ordinal : Nat) (credential : SignedCredential) : Prop :=
  ∃ item signature, prepared.items[ordinal]? = some item ∧ Signs platform outcome ordinal signature ∧
    assembleCredential platform signature item.credential = .ok credential

inductive Returns : Exec SigningBatchError (List SignedCredential) → Prop
  | executorFailed {i : Nat} (hi : i < prepared.items.length) (hfailed : ∃ e, outcome i = .error e)
      (hlowest : ∀ j < i, ∃ bytes, outcome j = .ok bytes) : Returns (fail (.item .executorFailed i))
  | invalidSignature {i : Nat} (hreturned : ∀ j < prepared.items.length, ∃ bytes, outcome j = .ok bytes)
      (hi : i < prepared.items.length) (hinvalid : ∀ signature, ¬ Signs platform outcome i signature)
      (hlowest : ∀ j < i, ∃ signature, Signs platform outcome j signature) :
      Returns (fail (.item .invalidSignature i))
  | assemblyFailed {i : Nat} (hsigned : ∀ j < prepared.items.length, ∃ signature, Signs platform outcome j signature)
      (hi : i < prepared.items.length) (hfailed : ∀ credential, ¬ Assembles platform prepared outcome i credential)
      (hlowest : ∀ j < i, ∃ credential, Assembles platform prepared outcome j credential) :
      Returns (fail (.item .assemblyFailed i))
  | signed {credentials : List SignedCredential} (hlength : credentials.length = prepared.items.length)
      (hassembled : ∀ j credential, credentials[j]? = some credential → Assembles platform prepared outcome j credential) :
      Returns (.ok credentials)

/-! ## The answers in their places -/

/-- How the concurrent executor records an answer. -/
def recorded (ordinal : Nat) : SigningOutcome :=
  match outcome ordinal with
  | .ok signature => .signature signature
  | .error _ => .failed

def outcomesOf (n : Nat) : List (Option SigningOutcome) := (List.range n).map (fun i => some (recorded outcome i))

def decideBatch : Exec SigningBatchError (List SignedCredential) := do
  let signatures ← interpretOutcomes platform (outcomesOf outcome prepared.items.length)
  assembleCredentials platform prepared signatures

variable {platform prepared outcome}

theorem getElem?_outcomesOf {n i : Nat} (hi : i < n) : (outcomesOf outcome n)[i]? = some (some (recorded outcome i)) := by
  simp [outcomesOf, hi]

theorem getElem?_outcomesOf_iff {n i : Nat} {o : Option SigningOutcome} :
    (outcomesOf outcome n)[i]? = some o ↔ i < n ∧ o = some (recorded outcome i) := by
  by_cases hi : i < n
  · rw [getElem?_outcomesOf hi]
    simp [hi, eq_comm]
  · simp [outcomesOf, hi]

/-- The first failed call is reported. -/
theorem interpretOutcomes_failed {n i : Nat} (hi : i < n) (hfailed : ∃ e, outcome i = .error e)
    (hlowest : ∀ j < i, ∃ bytes, outcome j = .ok bytes) :
    interpretOutcomes platform (outcomesOf outcome n) = fail (.item .executorFailed i) := by
  have hposition : (outcomesOf outcome n).findIdx? (fun o => decide (o = some .failed)) = some i := by
    rw [findIdx?_eq_some_iff_getElem]
    obtain ⟨e, he⟩ := hfailed
    refine ⟨by simpa [outcomesOf] using hi, by simp [outcomesOf, recorded, he], ?_⟩
    intro j hj
    obtain ⟨bytes, hbytes⟩ := hlowest j hj
    simp [outcomesOf, recorded, hbytes]
  rw [interpretOutcomes, hposition]

/-- Where all calls returned signatures, each is checked. -/
theorem interpretOutcomes_returned {n : Nat} (hreturned : ∀ j < n, ∃ bytes, outcome j = .ok bytes) :
    interpretOutcomes platform (outcomesOf outcome n) = mapFrom (validateOutcome platform) 0 (outcomesOf outcome n) := by
  have hposition : (outcomesOf outcome n).findIdx? (fun o => decide (o = some .failed)) = none := by
    rw [findIdx?_eq_none_iff]
    intro o ho
    obtain ⟨j, hj, rfl⟩ := mem_map.mp ho
    obtain ⟨bytes, hbytes⟩ := hreturned j (mem_range.mp hj)
    simp [recorded, hbytes]
  rw [interpretOutcomes, hposition]

variable {signature : ValidatedSignature} {ordinal : Nat} {bytes : Bytes}

theorem validateSignature_ok_iff :
    validateSignature platform ordinal bytes = .ok signature ↔
      signature.raw = bytes ∧ platform.isP256Signature bytes = true := by
  unfold validateSignature
  by_cases hlength : bytes.length = 64
  · rw [dif_pos hlength, reject_bind_ok_iff, Bool.not_eq_false, and_comm, Except.ok.injEq,
      ValidatedSignature.mk.injEq, eq_comm]
  · rw [dif_neg hlength]
    refine ⟨nofun, ?_⟩
    rintro ⟨rfl, -⟩
    exact absurd signature.length_eq hlength

variable {e : Fault SigningBatchError}

theorem validateSignature_error
    (h : validateSignature platform ordinal bytes = .error e) : e = .err (.item .invalidSignature ordinal) := by
  unfold validateSignature at h
  split at h
  · by_cases hvalid : platform.isP256Signature bytes = false
    · rw [reject_pos_bind hvalid] at h
      cases h
      rfl
    · rw [reject_neg_bind hvalid] at h
      cases h
  · cases h
    rfl

variable {i : Nat}

theorem validateOutcome_ok_iff :
    validateOutcome platform i (some (recorded outcome i)) = .ok signature ↔ Signs platform outcome i signature := by
  unfold Signs
  cases h : outcome i with
  | error e => simp [recorded, h, validateOutcome]
  | ok bytes =>
    simp only [recorded, h, validateOutcome, Except.ok.injEq]
    rw [validateSignature_ok_iff]
    constructor
    · rintro ⟨rfl, hvalid⟩
      exact ⟨rfl, hvalid⟩
    · rintro ⟨rfl, hvalid⟩
      exact ⟨rfl, hvalid⟩

variable {item : PreparedSigningItem platform × ValidatedSignature}

theorem assembleItem_ok_iff {credential : SignedCredential} :
    assembleItem platform i item = .ok credential ↔
      assembleCredential platform item.2 item.1.credential = .ok credential := by
  unfold assembleItem orError
  rw [orFail_ok_iff]
  cases assembleCredential platform item.2 item.1.credential with
  | error e | ok c => simp [Except.toOption]

theorem assembleItem_error
    (h : assembleItem platform i item = .error e) : e = .err (.item .assemblyFailed i) := by
  unfold assembleItem orError at h
  cases hcredential : assembleCredential platform item.2 item.1.credential with
  | error e' =>
    rw [hcredential] at h
    cases h
    rfl
  | ok c =>
    rw [hcredential] at h
    cases h

theorem Signs.unique {signature' : ValidatedSignature} (h : Signs platform outcome i signature)
    (h' : Signs platform outcome i signature') : signature = signature' := by
  have hraw : signature.raw = signature'.raw := Except.ok.inj (h.1.symm.trans h'.1)
  obtain ⟨raw', _⟩ := signature'
  cases hraw
  rfl

/-- The assembly, given all signatures. -/
theorem returns_assembleCredentials {signatures : List ValidatedSignature}
    (hlength : signatures.length = prepared.items.length)
    (hsigned : ∀ j signature, signatures[j]? = some signature → Signs platform outcome j signature) :
    Returns platform prepared outcome (assembleCredentials platform prepared signatures) := by
  have hassembles : ∀ j pair credential, (prepared.items.zip signatures)[j]? = some pair →
      assembleItem platform j pair = .ok credential → Assembles platform prepared outcome j credential := by
    intro j pair credential hj hcredential
    obtain ⟨hitem, hsignature⟩ := getElem?_zip_eq_some.mp hj
    exact ⟨pair.1, pair.2, hitem, hsigned j pair.2 hsignature, assembleItem_ok_iff.mp hcredential⟩
  unfold assembleCredentials
  rcases mapFrom_spec (assembleItem platform) 0 (prepared.items.zip signatures) with
    ⟨credentials, hok, hcount, hall⟩ | ⟨i, pair, e, herror, hi, hfails, hbefore⟩
  · simp only [Nat.zero_add] at hall
    rw [hok]
    refine .signed ?_ ?_
    · rw [hcount, length_zip, hlength, Nat.min_self]
    · intro j credential hj
      obtain ⟨pair, hpair, hcredential⟩ := hall j credential hj
      exact hassembles j pair credential hpair hcredential
  · simp only [Nat.zero_add] at hfails hbefore
    obtain ⟨hitem, hsignature⟩ := getElem?_zip_eq_some.mp hi
    rw [herror, assembleItem_error hfails]
    refine .assemblyFailed ?_ (List.getElem?_eq_some_iff.mp hitem).1 ?_ ?_
    · intro j hj
      exact ⟨_, hsigned j _ (getElem?_eq_getElem (hlength.symm ▸ hj))⟩
    · rintro credential ⟨item, signature, hitem', hsignature', hcredential⟩
      -- it would be the pair that has failed
      obtain rfl : pair.1 = item := Option.some.inj (hitem.symm.trans hitem')
      obtain rfl : pair.2 = signature := (hsigned i pair.2 hsignature).unique hsignature'
      rw [assembleItem_ok_iff.mpr hcredential] at hfails
      cases hfails
    · intro j hj
      obtain ⟨pair, credential, hpair, hcredential⟩ := hbefore j hj
      exact ⟨credential, hassembles j pair credential hpair hcredential⟩

/-! ## The serial executor -/

/-- All results, in the order of the jobs. -/
def resultsOf (outcome : Nat → Except Oid4vciError Bytes) (jobs : List SigningJob) : List SigningResult :=
  jobs.mapIdx (fun i job => ⟨job.identity, recorded outcome i⟩)

variable {job : SigningJob} {answer : Nat → Bytes → Except Oid4vciError Bytes}

theorem serialCall_ok_iff (h : jobs[i]? = some job) {result : SigningResult} :
    serialCall (returning answer) i job = .ok result ↔
      (∃ bytes, answers answer jobs i = .ok bytes) ∧ result = ⟨job.identity, recorded (answers answer jobs) i⟩ := by
  simp only [serialCall, returning, recorded, answers, h, Option.elim_some]
  cases answer i job.payload with
  | error e => simp [fail]
  | ok bytes => simp [eq_comm]

theorem serialCall_error_iff (h : jobs[i]? = some job) {e : Fault SigningExecutionError} :
    serialCall (returning answer) i job = .error e ↔
      (∃ e', answers answer jobs i = .error e') ∧ e = .err ⟨some i⟩ := by
  simp only [serialCall, returning, answers, h, Option.elim_some]
  cases answer i job.payload with
  | error e' => simp [fail, eq_comm]
  | ok bytes => simp

/-- It ends at the first call that fails. -/
theorem serialExecute_spec (answer : Nat → Bytes → Except Oid4vciError Bytes) (jobs : List SigningJob) :
    ((∀ j < jobs.length, ∃ bytes, answers answer jobs j = .ok bytes) ∧
        serialExecute (returning answer) jobs = .ok (resultsOf (answers answer jobs) jobs)) ∨
      ∃ i < jobs.length, (∃ e, answers answer jobs i = .error e) ∧
        (∀ j < i, ∃ bytes, answers answer jobs j = .ok bytes) ∧
        serialExecute (returning answer) jobs = fail ⟨some i⟩ := by
  unfold serialExecute
  rcases mapFrom_spec (serialCall (returning answer)) 0 jobs with
    ⟨results, hok, hcount, hall⟩ | ⟨i, job, e, herror, hi, hfails, hbefore⟩ <;> simp only [Nat.zero_add] at *
  · refine .inl ⟨?_, ?_⟩
    · intro j hj
      obtain ⟨job, hjob, hcall⟩ := hall j _ (getElem?_eq_getElem (hcount.symm ▸ hj))
      exact ((serialCall_ok_iff hjob).mp hcall).1
    · rw [hok]
      congr 1
      apply eq_mapIdx_of_getElem? hcount
      intro j result hj
      obtain ⟨job, hjob, hcall⟩ := hall j result hj
      exact ⟨job, hjob, ((serialCall_ok_iff hjob).mp hcall).2⟩
  · obtain ⟨hfailed, rfl⟩ := (serialCall_error_iff hi).mp hfails
    refine .inr ⟨i, (List.getElem?_eq_some_iff.mp hi).1, hfailed, ?_, herror⟩
    intro j hj
    obtain ⟨job, _, hjob, hcall⟩ := hbefore j hj
    exact ((serialCall_ok_iff hjob).mp hcall).1

theorem length_outcomesOf (n : Nat) : (outcomesOf outcome n).length = n := by
  simp [outcomesOf]

theorem length_jobs : prepared.jobs.length = prepared.items.length := by
  simp [PreparedSigningBatch.jobs]

/-- **The answers decide what a batch returns.** -/
theorem returns_decideBatch : Returns platform prepared outcome (decideBatch platform prepared outcome) := by
  unfold decideBatch
  have hfirst := serialExecute_spec (fun i _ => outcome i) prepared.jobs
  simp only [answers] at hfirst
  rcases hfirst with ⟨hreturned, -⟩ | ⟨i, hi, hfailed, hlowest, -⟩
  · rw [length_jobs] at hreturned
    rw [interpretOutcomes_returned hreturned]
    rcases mapFrom_spec (validateOutcome platform) 0 (outcomesOf outcome prepared.items.length) with
      ⟨signatures, hok, hcount, hall⟩ | ⟨i, o, e, herror, hi, hfails, hbefore⟩
    · simp only [Nat.zero_add, getElem?_outcomesOf_iff] at hall
      rw [hok, Result.ok_bind]
      apply returns_assembleCredentials (hcount.trans (length_outcomesOf _))
      intro j signature hj
      obtain ⟨_, ⟨-, rfl⟩, hvalid⟩ := hall j signature hj
      exact validateOutcome_ok_iff.mp hvalid
    · simp only [Nat.zero_add, getElem?_outcomesOf_iff] at hi hfails hbefore
      obtain ⟨hlt, rfl⟩ := hi
      have he : e = .err (.item .invalidSignature i) := by
        obtain ⟨bytes, hbytes⟩ := hreturned i hlt
        simp only [recorded, hbytes, validateOutcome] at hfails
        exact validateSignature_error hfails
      rw [herror, he]
      refine .invalidSignature hreturned hlt ?_ ?_
      · intro signature hsigns
        rw [validateOutcome_ok_iff.mpr hsigns] at hfails
        cases hfails
      · intro j hj
        obtain ⟨_, signature, ⟨-, rfl⟩, hvalid⟩ := hbefore j hj
        exact ⟨signature, validateOutcome_ok_iff.mp hvalid⟩
  · rw [length_jobs] at hi
    rw [interpretOutcomes_failed hi hfailed hlowest]
    exact .executorFailed hi hfailed hlowest

/-! ## Results in any order -/

variable {results : List SigningResult}

/-- What the loop over the results does, where each is expected once. -/
theorem placeResults_spec {expected : List (SigningJobIdentity × Nat)} {outcomes : List (Option SigningOutcome)}
    (hkeys : (expected.map Prod.fst).Nodup) (hordinals : ∀ a b i, (a, i) ∈ expected → (b, i) ∈ expected → a = b)
    (honce : (results.map SigningResult.identity).Nodup)
    (hexpected : ∀ r ∈ results, ∃ i, (r.identity, i) ∈ expected ∧ outcomes[i]? = some none) :
    ∃ outcomes', placeResults results expected outcomes =
        .ok (expected.filter (fun e => decide (e.1 ∉ results.map SigningResult.identity)), outcomes') ∧
      outcomes'.length = outcomes.length ∧
      (∀ r ∈ results, ∀ i, (r.identity, i) ∈ expected → outcomes'[i]? = some (some r.outcome)) ∧
      ∀ i, (∀ r ∈ results, (r.identity, i) ∉ expected) → outcomes'[i]? = outcomes[i]? := by
  induction results generalizing expected outcomes with
  | nil => exact ⟨outcomes, by simp [placeResults], rfl, by simp, by simp⟩
  | cons r rest ih =>
    obtain ⟨i, hmem, hnone⟩ := hexpected r mem_cons_self
    rw [map_cons, nodup_cons] at honce
    have hlookup := lookup_eq_some_of_mem hkeys hmem
    have hindex : (index outcomes i : Exec SigningBatchError _) = .ok none := by
      rw [index, hnone]
      rfl
    let left := expected.filter (fun e => decide (e.1 ≠ r.identity))
    have hleft : ∀ r' ∈ rest, ∀ j, (r'.identity, j) ∈ left ↔ (r'.identity, j) ∈ expected := by
      intro r' hr' j
      have hne : r'.identity ≠ r.identity := fun heq => honce.1 (heq ▸ mem_map_of_mem hr')
      simp [left, hne]
    have hother : ∀ r' ∈ rest, ∀ j, (r'.identity, j) ∈ expected → i ≠ j := by
      rintro r' hr' j hj rfl
      exact honce.1 (hordinals _ _ i hj hmem ▸ mem_map_of_mem hr')
    have hnext : ∀ r' ∈ rest, ∃ j, (r'.identity, j) ∈ left ∧ (outcomes.set i (some r.outcome))[j]? = some none := by
      intro r' hr'
      obtain ⟨j, hj, hnone'⟩ := hexpected r' (mem_cons_of_mem _ hr')
      refine ⟨j, (hleft r' hr' j).mpr hj, ?_⟩
      rw [getElem?_set_ne (hother r' hr' j hj)]
      exact hnone'
    obtain ⟨outcomes', hplace, hlength, hplaced, hkept⟩ := ih (hkeys.sublist (filter_sublist.map _))
      (fun a b j ha hb => hordinals a b j (mem_of_mem_filter ha) (mem_of_mem_filter hb)) honce.2 hnext
    refine ⟨outcomes', ?_, hlength.trans length_set, ?_, ?_⟩
    · rw [placeResults, hlookup, orFail_some_bind, hindex, Result.ok_bind, reject_neg_bind (by simp), hplace,
        filter_filter]
      simp only [map_cons, mem_cons, not_or, decide_not, Bool.decide_and]
      congr 3
      funext e
      exact Bool.and_comm _ _
    · intro r' hr' j hj
      rcases mem_cons.mp hr' with rfl | hrest
      · obtain rfl : i = j := Option.some.inj (hlookup.symm.trans (lookup_eq_some_of_mem hkeys hj))
        rw [hkept i (fun r'' hr'' hmem' => hother r'' hr'' i ((hleft r'' hr'' i).mp hmem') rfl)]
        exact List.getElem?_set_self (List.getElem?_eq_some_iff.mp hnone).1
      · exact hplaced r' hrest j ((hleft r' hrest j).mpr hj)
    · intro j hj
      rw [hkept j (fun r' hr' hmem' => hj r' (mem_cons_of_mem _ hr') ((hleft r' hr' j).mp hmem'))]
      apply getElem?_set_ne
      rintro rfl
      exact hj r mem_cons_self hmem

variable {jobs : List SigningJob}

theorem mem_resultsOf {r : SigningResult} :
    r ∈ resultsOf outcome jobs ↔ ∃ i job, jobs[i]? = some job ∧ ⟨job.identity, recorded outcome i⟩ = r := by
  rw [mem_iff_getElem?]
  simp [resultsOf]

theorem identity_resultsOf (outcome : Nat → Except Oid4vciError Bytes) (jobs : List SigningJob) :
    (resultsOf outcome jobs).map SigningResult.identity = jobs.map SigningJob.identity := by
  rw [resultsOf, map_mapIdx]
  apply List.ext_getElem?
  simp

/-- **Complete results are put back in the order of the jobs, whatever order they come in.** -/
theorem validateExecutorResults_of_perm (hnodup : (jobs.map SigningJob.identity).Nodup)
    (hperm : results.Perm (resultsOf outcome jobs)) :
    validateExecutorResults platform jobs results = interpretOutcomes platform (outcomesOf outcome jobs.length) := by
  have hids : (results.map SigningResult.identity).Perm (jobs.map SigningJob.identity) := by
    rw [← identity_resultsOf outcome jobs]
    exact hperm.map _
  have hkeys : (((jobs.map SigningJob.identity).zipIdx).map Prod.fst).Nodup := by
    rw [zipIdx_map_fst]
    exact hnodup
  have hordinals : ∀ a b i, (a, i) ∈ (jobs.map SigningJob.identity).zipIdx →
      (b, i) ∈ (jobs.map SigningJob.identity).zipIdx → a = b := by
    intro a b i ha hb
    rw [mk_mem_zipIdx_iff_getElem?] at ha hb
    exact Option.some.inj (ha.symm.trans hb)
  have hexpected : ∀ r ∈ results, ∃ i, (r.identity, i) ∈ (jobs.map SigningJob.identity).zipIdx ∧
      (List.replicate jobs.length (none : Option SigningOutcome))[i]? = some none := by
    intro r hr
    obtain ⟨i, job, hjob, rfl⟩ := mem_resultsOf.mp (hperm.mem_iff.mp hr)
    refine ⟨i, ?_, ?_⟩
    · rw [mk_mem_zipIdx_iff_getElem?, List.getElem?_map, hjob]
      rfl
    · simp [(List.getElem?_eq_some_iff.mp hjob).1]
  obtain ⟨outcomes, hplace, hcount, hplaced, -⟩ :=
    placeResults_spec hkeys hordinals (hids.nodup_iff.mpr hnodup) hexpected
  have hleft : (jobs.map SigningJob.identity).zipIdx.filter
      (fun e => decide (e.1 ∉ results.map SigningResult.identity)) = [] := by
    rw [filter_eq_nil_iff]
    intro e he
    rw [decide_eq_true_iff, not_not, hids.mem_iff]
    rw [mem_zipIdx_iff_getElem?] at he
    exact mem_of_getElem? he
  have houtcomes : outcomes = outcomesOf outcome jobs.length := by
    apply List.ext_getElem?
    intro i
    by_cases hi : i < jobs.length
    · have hjob := getElem?_eq_getElem hi
      have hr := hperm.mem_iff.mpr (mem_resultsOf.mpr ⟨i, _, hjob, rfl⟩)
      rw [getElem?_outcomesOf hi]
      apply hplaced _ hr
      rw [mk_mem_zipIdx_iff_getElem?, List.getElem?_map, hjob]
      rfl
    · rw [getElem?_eq_none (by rw [hcount, length_replicate]; omega),
        getElem?_eq_none (by rw [length_outcomesOf]; omega)]
  have hcomplete : ¬ (([] : List (SigningJobIdentity × Nat)) ≠ [] ∨ none ∈ outcomesOf outcome jobs.length) := by
    simp [outcomesOf]
  rw [hleft, houtcomes] at hplace
  unfold validateExecutorResults
  rw [reject_neg_bind (by simpa using hids.length_eq), reject_neg_bind (not_not.mpr hnodup), hplace]
  exact reject_neg_bind hcomplete

/-! ## The concurrent executor -/

theorem callJob_returning (h : jobs[i]? = some job) :
    callJob (returning answer) jobs i = .ok ⟨job.identity, recorded (answers answer jobs) i⟩ := by
  simp only [callJob, returning, recorded, answers, h, Option.elim_some]
  cases answer i job.payload with
  | error e | ok bytes => rfl

theorem map_callJob_returning (answer : Nat → Bytes → Except Oid4vciError Bytes) (jobs : List SigningJob) :
    (List.range jobs.length).map (callJob (returning answer) jobs) =
      (resultsOf (answers answer jobs) jobs).map Except.ok := by
  apply List.ext_getElem?
  intro i
  by_cases hi : i < jobs.length
  · have hjob := getElem?_eq_getElem hi
    rw [List.getElem?_map, getElem?_range hi, Option.map_some, callJob_returning hjob]
    simp [resultsOf, hjob]
  · simp [resultsOf, hi]

/-- **It calls every job once, and returns all results in some order.** -/
theorem ConcurrentlyExecutes.spec {workerLimit : Nat} {calls : List Nat}
    {execution : Exec SigningExecutionError (List SigningResult)}
    (h : ConcurrentlyExecutes (returning answer) workerLimit jobs calls execution) :
    calls.Perm (List.range jobs.length) ∧
      ∃ results, execution = .ok results ∧ results.Perm (resultsOf (answers answer jobs) jobs) := by
  cases h with
  | empty hjobs =>
    subst hjobs
    exact ⟨.refl _, [], rfl, .refl _⟩
  | @ended n s hjobs hruns hended =>
    have hreturns : ∀ i < jobs.length, ∃ r, callJob (returning answer) jobs i = .ok r :=
      fun i hi => ⟨_, callJob_returning (getElem?_eq_getElem hi)⟩
    obtain ⟨hpanic, hcalls, hresults⟩ := Pool.ended_spec hreturns hruns hended
    rw [map_callJob_returning] at hresults
    refine ⟨hcalls, s.results, ?_, ?_⟩
    · rw [concurrentOutcome, hpanic]
    · exact (map_perm_map_iff (fun _ _ h => Except.ok.inj h)).mp hresults

/-! ## Both -/

variable {inputs : List (Es256SigningBatchInput platform)} {scope : Es256SignerScope} {draws : Nat → Draw}

theorem prepareBatch_ok {batchId : Str}
    (h : prepareBatch platform scope inputs batchId draws = .ok prepared) :
    PreparedSigningBatch.prepare platform scope.identity scope.scopeId batchId draws inputs = .ok prepared ∧
      scope.identity.isMatch scope.signer = true := by
  obtain ⟨_, -, h⟩ := of_bind h
  obtain ⟨_, -, h⟩ := of_bind h
  obtain ⟨batch, hbatch, h⟩ := of_bind h
  obtain ⟨hmatch, h⟩ := of_reject h
  cases h
  exact ⟨hbatch, by simpa using hmatch⟩

/-- Each job has its ordinal as its number. -/
theorem nodup_identities {batchId : Str}
    (h : prepareBatch platform scope inputs batchId draws = .ok prepared) :
    (prepared.jobs.map SigningJob.identity).Nodup := by
  obtain ⟨items, hitems, h⟩ := of_bind (prepareBatch_ok h).1
  cases h
  have hnumbers : items.map (fun item => item.identity.jobId) = List.range items.length := by
    apply List.ext_getElem?
    intro j
    rw [List.getElem?_map]
    cases hj : items[j]? with
    | none => simpa using hj
    | some item =>
      obtain ⟨input, -, hitem⟩ := (mapFrom_ok hitems).2 j item hj
      obtain ⟨-, hitem⟩ := of_reject hitem
      obtain ⟨credential, -, hitem⟩ := of_bind hitem
      cases hitem
      simp [(List.getElem?_eq_some_iff.mp hj).1]
  apply List.Nodup.of_map SigningJobIdentity.jobId
  simp only [PreparedSigningBatch.jobs, List.map_map, Function.comp_def, hnumbers]
  exact List.nodup_range

theorem completeBatch_of_perm (hnodup : (prepared.jobs.map SigningJob.identity).Nodup)
    (hperm : results.Perm (resultsOf outcome prepared.jobs)) :
    completeBatch platform prepared (.ok results) = decideBatch platform prepared outcome := by
  show (validateExecutorResults platform prepared.jobs results >>= _) = _
  rw [validateExecutorResults_of_perm hnodup hperm, length_jobs]
  rfl

/-- The serial executor ends at the failure that the validation of complete results would report. -/
theorem completeBatch_serial (hnodup : (prepared.jobs.map SigningJob.identity).Nodup) :
    completeBatch platform prepared (serialExecute (returning answer) prepared.jobs) =
      decideBatch platform prepared (answers answer prepared.jobs) := by
  rcases serialExecute_spec answer prepared.jobs with ⟨-, hresults⟩ | ⟨i, hi, hfailed, hlowest, hfails⟩
  · rw [hresults]
    exact completeBatch_of_perm hnodup (.refl _)
  · rw [hfails, decideBatch, interpretOutcomes_failed (length_jobs ▸ hi) hfailed hlowest]
    rfl

/-- **Concurrent batch signing is indistinguishable from serial signing.** Whatever threads could be started and however
    their steps interleave, a batch that is signed concurrently returns what it returns serially, every job has then been
    passed to the signer once, and the executor does return: no run is longer than the bound, and one that has not ended
    can go on. -/
theorem concurrent_batch_eq_serial (platform : Platform N) (scope : ConcurrentEs256SignerScope)
    (inputs : List (Es256SigningBatchInput platform)) (batchId : Str) (draws : Nat → Draw)
    (answer : Nat → Bytes → Except Oid4vciError Bytes) :
    (∀ calls result,
      SignBatchConcurrently platform inputs batchId draws scope (returning answer) scope.signer calls result →
        result = signBatch platform scope.toEs256SignerScope inputs batchId draws (returning answer) ∧
        ∀ prepared, prepareBatch platform scope.toEs256SignerScope inputs batchId draws = .ok prepared →
          calls.Perm (List.range prepared.jobs.length) ∧
          Returns platform prepared (answers answer prepared.jobs) result) ∧
    ∀ prepared, prepareBatch platform scope.toEs256SignerScope inputs batchId draws = .ok prepared →
      ∀ n s, Pool.Runs (callJob (returning answer) prepared.jobs) prepared.jobs.length
          (Pool.start (workerCount scope.workerLimit prepared.jobs - 1)) n s →
        n ≤ 2 * (workerCount scope.workerLimit prepared.jobs - 1) + 2 * prepared.jobs.length + 1 ∧
        (Pool.Ended s ∨ ∃ s', Pool.Step (callJob (returning answer) prepared.jobs) prepared.jobs.length s s') := by
  refine ⟨?_, ?_⟩
  · intro calls result h
    cases h with
    | refused hprepare =>
      refine ⟨?_, ?_⟩
      · rw [signBatch, hprepare]
        rfl
      · intro prepared hprepared
        rw [hprepare] at hprepared
        cases hprepared
    | @executed prepared _ execution hprepare hexecutes =>
      have hnodup := nodup_identities hprepare
      obtain ⟨hcalls, results, rfl, hperm⟩ := hexecutes.spec
      have hconcurrent : completeConcurrently platform scope prepared scope.signer (.ok results) =
          decideBatch platform prepared (answers answer prepared.jobs) := by
        rw [← completeBatch_of_perm hnodup hperm]
        exact reject_neg_bind (by rw [(prepareBatch_ok hprepare).2]; simp)
      have hserial : signBatch platform scope.toEs256SignerScope inputs batchId draws (returning answer) =
          decideBatch platform prepared (answers answer prepared.jobs) := by
        rw [signBatch, hprepare, Result.ok_bind, completeBatch_serial hnodup]
      rw [hconcurrent, hserial]
      refine ⟨rfl, ?_⟩
      intro prepared' hprepared'
      obtain rfl : prepared = prepared' := Except.ok.inj (hprepare.symm.trans hprepared')
      exact ⟨hcalls, returns_decideBatch⟩
  · intro prepared _ n s hruns
    have hlength := hruns.length_le
    rw [Pool.measure_start] at hlength
    refine ⟨by omega, ?_⟩
    by_cases hended : Pool.Ended s
    · exact .inl hended
    · exact .inr (Pool.exists_step hended)

/-- Only JWT-VCs, which carry their type. -/
noncomputable def samplePlatform : Platform Int where
  sdJwt := SdJwt.samplePlatform
  Jwk := Unit
  PreparedJwtVc := Str
  PreparedMdoc := Unit
  prepareJwtVc _ _ claims := .ok claims.credentialType
  prepareMdoc _ _ _ := .error (.mdocError "unsupported")
  jwtVcSigningPayload := Str.bytes
  mdocSigningPayload _ := []
  assembleJwtVc text signature := .ok (.jwtVcJson (text ++ '.' :: Base64.encode signature) [])
  assembleMdoc _ _ := .error (.mdocError "unsupported")
  holderPublicJwkConfirmation _ := .error (.keyError "unsupported")
  isP256Signature signature := signature.length = 64

def sampleScope : ConcurrentEs256SignerScope where
  signer := SdJwt.sampleSigner
  identity := ⟨.es256, "did:web:issuer".toList, "did:web:issuer#key".toList, []⟩
  scopeId := []
  workerLimit := 2
  workerLimit_pos := by decide

noncomputable def sampleInputs : List (Es256SigningBatchInput samplePlatform) :=
  [.jwtVc 7 SdJwt.sampleClaims, .jwtVc 8 SdJwt.sampleClaims]

def sampleDraws (_ : Nat) : Draw := ⟨[], .epoch, fun _ => []⟩

/-- The first call fails. -/
def sampleAnswer : Nat → Bytes → Except Oid4vciError Bytes
  | 0, _ => .error (.signingError "unavailable")
  | _, payload => .ok payload

/-- The thread that was started takes the second job, and ends before the caller's call returns. -/
theorem concurrent_batch_eq_serial_sampleInputs :
    ∃ result, SignBatchConcurrently samplePlatform sampleInputs [] sampleDraws sampleScope (returning sampleAnswer)
        sampleScope.signer [1, 0] result ∧
      result = signBatch samplePlatform sampleScope.toEs256SignerScope sampleInputs [] sampleDraws
        (returning sampleAnswer) := by
  have hprepare : prepareBatch samplePlatform sampleScope.toEs256SignerScope sampleInputs [] sampleDraws =
      .ok ⟨[⟨⟨[], [], 7, 0⟩, .jwtVc "pid".toList⟩, ⟨⟨[], [], 8, 1⟩, .jwtVc "pid".toList⟩]⟩ := rfl
  let payload := Str.bytes "pid".toList
  let jobs : List SigningJob := [⟨⟨[], [], 7, 0⟩, payload⟩, ⟨⟨[], [], 8, 1⟩, payload⟩]
  let call := callJob (returning sampleAnswer) jobs
  have hcall : call 0 = .ok ⟨⟨[], [], 7, 0⟩, .failed⟩ ∧ call 1 = .ok ⟨⟨[], [], 8, 1⟩, .signature payload⟩ := ⟨rfl, rfl⟩
  have hstarted : Pool.Runs call 2 (Pool.start 1) 1 _ := .step .none (.spawns rfl)
  have hfirst := hstarted.step (.acts (i := 0) rfl (fun _ => rfl) (.claims rfl (by decide)))
  have hsecond := hfirst.step (.acts (i := 1) rfl (fun _ => rfl) (.claims rfl (by decide)))
  have hthread := (hsecond.step (.acts (i := 1) rfl (fun _ => rfl) (.returns hcall.2))).step
    (.acts (i := 1) rfl (fun _ => rfl) (.ends (.inr (by decide))))
  have hcaller := (hthread.step (.acts (i := 0) rfl (fun _ => rfl) (.returns hcall.1))).step
    (.acts (i := 0) rfl (fun _ => rfl) (.ends (.inr (by decide))))
  have hexecutes : ConcurrentlyExecutes (returning sampleAnswer) 2 jobs _ _ :=
    .ended (cons_ne_nil _ _) hcaller ⟨rfl, by decide⟩
  have hsigns : SignBatchConcurrently samplePlatform sampleInputs [] sampleDraws sampleScope (returning sampleAnswer)
      sampleScope.signer [1, 0] _ := .executed hprepare hexecutes
  exact ⟨_, hsigns, ((concurrent_batch_eq_serial _ _ _ _ _ _).1 _ _ hsigns).1⟩

end SigningBatch
end MartyCore.Oid4vci
