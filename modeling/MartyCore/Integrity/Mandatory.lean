import MartyCore.Integrity.Model
import Mathlib.Data.Rat.Defs

/-!
# `Integrity.Mandatory` — when a valid report covers the mandatory data groups

A report is valid when no critical error was counted, there are at least as many successes as entries for mandatory
data groups, and the success rate is high enough. An expected hash of a mandatory group leads to a critical error unless
it was compared and equal (`Compared`), or was computed with another algorithm, which is counted as a warning. A
mandatory group without an expected hash has no entry at all.

So a valid report covers DG1 and DG2 exactly when both are expected and neither was computed with another algorithm
(`mandatory_groups_covered_iff`); `valid_without_mandatory_groups` has a valid report for each way to fail this.
-/

namespace MartyCore.Integrity

open Result

variable (platform : Platform)

/-! ## The computed hashes -/

variable {items : List ComputedHash}

theorem collectComputed_ok {computed result : SortedMap Nat ComputedHash}
    (h : collectComputed items computed = .ok result) :
    (items.map ComputedHash.dataGroup).Nodup ∧ (∀ item ∈ items, computed.get? item.dataGroup = none) ∧
    result = items.foldl (fun acc item => acc.insert item.dataGroup item) computed := by
  induction items generalizing computed with
  | nil =>
    cases h
    simp
  | cons item rest ih =>
    obtain ⟨hfresh, h⟩ := of_reject h
    obtain ⟨hnodup, hrest, hresult⟩ := ih h
    have hnew : ∀ other ∈ rest, other.dataGroup ≠ item.dataGroup ∧ computed.get? other.dataGroup = none := by
      intro other hother
      have hnone := hrest other hother
      rw [SortedMap.get?_insert] at hnone
      split at hnone
      · cases hnone
      · rename_i hne
        exact ⟨hne, hnone⟩
    refine ⟨?_, ?_, hresult⟩
    · rw [List.map_cons, List.nodup_cons]
      refine ⟨?_, hnodup⟩
      intro hmem
      obtain ⟨other, hother, heq⟩ := List.mem_map.mp hmem
      exact (hnew other hother).1 heq
    · rw [List.forall_mem_cons]
      exact ⟨by simpa using hfresh, fun other hother => (hnew other hother).2⟩

variable {computed : SortedMap Nat ComputedHash}

/-- The collected hashes are looked up as they stand in the request. -/
theorem get?_collectComputed (h : collectComputed items .empty = .ok computed) (dg : Nat)
    (item : ComputedHash) :
    computed.get? dg = some item ↔ item ∈ items ∧ item.dataGroup = dg := by
  obtain ⟨hnodup, -, rfl⟩ := collectComputed_ok h
  rw [SortedMap.get?_foldl_insert hnodup]
  simp only [SortedMap.get?_empty, reduceCtorEq, and_false, or_false]
  constructor
  · rintro ⟨other, hother, hdg, rfl⟩
    exact ⟨hother, hdg⟩
  · rintro ⟨hitem, hdg⟩
    exact ⟨item, hitem, hdg, rfl⟩

/-! ## Entries -/

/-- The expected and the computed hash decode, the second successfully computed, under `computedAlgorithm`. -/
def Compared (expectedHex : Str) (value : ComputedHash) (dg : Nat) (computedAlgorithm : Algorithm)
    (expected actual : Bytes) : Prop :=
  value.success = true ∧ normalizeAlgorithm value.algorithm = .ok computedAlgorithm ∧
    decodeHash platform expectedHex "expected" dg = .ok expected ∧
    decodeHash platform value.hash "computed" dg = .ok actual

/-- An entry that `Tally.record` counts as a critical error. -/
def IntegrityEntry.Counted (entry : IntegrityEntry) : Prop := entry.isValid = false ∧ entry.isCriticalError = true

variable {algorithm : Algorithm} {info : DataGroupInfo}

/-- A mandatory group that is compared is critical unless the algorithms differ or the hashes are equal. -/
theorem comparisonEntry_not_counted {computedAlgorithm : Algorithm}
    {expected actual : Bytes} (hmandatory : info.mandatory = true)
    (h : ¬(comparisonEntry info algorithm computedAlgorithm expected actual).Counted) :
    computedAlgorithm ≠ algorithm ∨ expected = actual := by
  unfold comparisonEntry at h
  by_cases halgorithm : computedAlgorithm ≠ algorithm
  · exact .inl halgorithm
  · by_cases heq : expected = actual
    · exact .inr heq
    · refine absurd ?_ h
      rw [if_neg halgorithm]
      by_cases hlength : expected.length ≠ actual.length
      · rw [if_pos hlength]
        exact ⟨by simp [makeEntry], by simp [makeEntry]⟩
      · rw [if_neg hlength, if_neg heq]
        exact ⟨by simp [makeEntry], by simp [makeEntry, hmandatory]⟩

theorem expectedEntry_not_counted {dg : Nat} {expectedHex : Str}
    {entry : IntegrityEntry} (hmandatory : info.mandatory = true)
    (h : expectedEntry platform algorithm computed info dg expectedHex = .ok entry) (hentry : ¬entry.Counted) :
    ∃ value computedAlgorithm expected actual, computed.get? dg = some value ∧
      Compared platform expectedHex value dg computedAlgorithm expected actual ∧
      (computedAlgorithm ≠ algorithm ∨ expected = actual) := by
  -- a hash that is missing is critical for a mandatory group
  have hmissing : ∀ expected message, (makeEntry info .missingComputed info.missSeverity (some expected) none algorithm
      message).Counted := by
    intro expected message
    exact ⟨by simp [makeEntry], by simp [makeEntry, DataGroupInfo.missSeverity, hmandatory]⟩
  obtain ⟨expected, hexpected, h⟩ := of_bind h
  cases hget : computed.get? dg with
  | none =>
    rw [hget] at h
    cases h
    exact absurd (hmissing _ _) hentry
  | some value =>
    simp only [hget] at h
    split at h
    · rename_i hsuccess
      obtain ⟨computedAlgorithm, halgorithm, h⟩ := of_bind h
      obtain ⟨actual, hactual, h⟩ := of_bind h
      cases h
      exact ⟨value, computedAlgorithm, expected, actual, rfl, ⟨hsuccess, halgorithm, hexpected, hactual⟩,
        comparisonEntry_not_counted hmandatory hentry⟩
    · cases h
      exact absurd (hmissing _ _) hentry

/-! ## The loop over the expected hashes -/

theorem record_critical (tally : Tally) (entry : IntegrityEntry) :
    (tally.record entry).critical = 0 → tally.critical = 0 ∧ ¬entry.Counted := by
  unfold Tally.record IntegrityEntry.Counted
  split
  · rename_i hvalid
    simp [hvalid]
  · split
    · simp
    · rename_i hcritical
      simp [hcritical]

/-- A run without critical errors has none among its entries. -/
theorem compareExpected_critical {expected : List (Nat × Str)} {tally result : Tally}
    (h : compareExpected platform algorithm computed expected tally = .ok result) (hresult : result.critical = 0) :
    tally.critical = 0 ∧ ∀ dg expectedHex info, (dg, expectedHex) ∈ expected → dataGroupInfo dg = some info →
      ∃ entry, expectedEntry platform algorithm computed info dg expectedHex = .ok entry ∧ ¬entry.Counted := by
  induction expected generalizing tally with
  | nil =>
    cases h
    exact ⟨hresult, fun dg expectedHex info hmem => absurd hmem List.not_mem_nil⟩
  | cons head rest ih =>
    obtain ⟨headDg, headHex⟩ := head
    unfold compareExpected at h
    cases hinfo : dataGroupInfo headDg with
    | none =>
      rw [hinfo] at h
      obtain ⟨htally, hrest⟩ := ih h
      refine ⟨htally, ?_⟩
      intro dg expectedHex info hmem hsome
      rcases List.mem_cons.mp hmem with heq | hmem
      · injection heq with hdg
        rw [hdg, hinfo] at hsome
        cases hsome
      · exact hrest dg expectedHex info hmem hsome
    | some headInfo =>
      rw [hinfo] at h
      obtain ⟨entry, hentry, h⟩ := of_bind h
      obtain ⟨hrecord, hrest⟩ := ih h
      obtain ⟨htally, hcounted⟩ := record_critical tally entry hrecord
      refine ⟨htally, ?_⟩
      intro dg expectedHex info hmem hsome
      rcases List.mem_cons.mp hmem with heq | hmem
      · injection heq with hdg hhex
        subst hdg hhex
        rw [hinfo] at hsome
        cases hsome
        exact ⟨entry, hentry, hcounted⟩
      · exact hrest dg expectedHex info hmem hsome

/-! ## The main theorem -/

variable (request : IntegrityRequest)

/-- **The report covers a data group**: its hash is expected, was successfully computed under the declared algorithm,
    and the two are equal. -/
def Covered (dg : Nat) : Prop :=
  ∃ algorithm expectedHex, normalizeAlgorithm request.algorithm = .ok algorithm ∧
    request.expectedHashes.get? dg = some expectedHex ∧
    ∃ value ∈ request.computedHashes, value.dataGroup = dg ∧
      ∃ hash, Compared platform expectedHex value dg algorithm hash hash

/-- A hash is expected for the group, and none is computed for it with another algorithm. -/
def Comparable (dg : Nat) : Prop :=
  (request.expectedHashes.get? dg).isSome = true ∧
    ∀ value ∈ request.computedHashes, value.dataGroup = dg →
      normalizeAlgorithm value.algorithm = normalizeAlgorithm request.algorithm

/-- The numbers of the mandatory data groups. -/
def mandatoryGroups : List Nat := [1, 2]

theorem dataGroupInfo_mandatory : ∀ dg ∈ mandatoryGroups, ∃ info, dataGroupInfo dg = some info ∧
    info.mandatory = true := by
  intro dg hdg
  rcases List.mem_cons.mp hdg with rfl | hdg
  · exact ⟨_, rfl, rfl⟩
  · obtain rfl := List.mem_singleton.mp hdg
    exact ⟨_, rfl, rfl⟩

/-- A valid report covers a mandatory group exactly when it is comparable. -/
theorem covered_iff_comparable {request : IntegrityRequest} {report : IntegrityReport platform.F}
    (h : compare platform request = .ok report) (hvalid : report.isPassportValid = true) {dg : Nat}
    (hdg : dg ∈ mandatoryGroups) : Covered platform request dg ↔ Comparable request dg := by
  obtain ⟨algorithm, halgorithm, h⟩ := of_bind h
  obtain ⟨computed, hcomputed, h⟩ := of_bind h
  obtain ⟨tally, htally, h⟩ := of_bind h
  obtain ⟨unexpected, -, h⟩ := of_bind h
  obtain ⟨analysis, -, h⟩ := of_bind h
  cases h
  have hcritical : tally.critical = 0 := by
    simp only [isValid, Bool.and_eq_true, decide_eq_true_eq] at hvalid
    exact hvalid.1.1
  constructor
  · rintro ⟨algorithm', expectedHex, halgorithm', hexpected, value, hvalue, hgroup, hash, -, hcompared, -⟩
    refine ⟨by rw [hexpected]; rfl, ?_⟩
    intro other hother hothergroup
    -- there is one computed hash for the group
    have hget := (get?_collectComputed hcomputed dg value).mpr ⟨hvalue, hgroup⟩
    have hget' := (get?_collectComputed hcomputed dg other).mpr ⟨hother, hothergroup⟩
    obtain rfl := Option.some.inj (hget.symm.trans hget')
    rw [hcompared, halgorithm']
  · rintro ⟨hsome, hsame⟩
    obtain ⟨expectedHex, hexpected⟩ := Option.isSome_iff_exists.mp hsome
    obtain ⟨info, hinfo, hmandatory⟩ := dataGroupInfo_mandatory dg hdg
    obtain ⟨entry, hentry, hcounted⟩ := (compareExpected_critical platform htally hcritical).2 dg expectedHex info
      (SortedMap.mem_iff_get?.mpr hexpected) hinfo
    obtain ⟨value, computedAlgorithm, expected, actual, hget, hcompared, hcase⟩ :=
      expectedEntry_not_counted platform hmandatory hentry hcounted
    obtain ⟨hvalue, hgroup⟩ := (get?_collectComputed hcomputed dg value).mp hget
    have heq : computedAlgorithm = algorithm := by
      have hnormal := hsame value hvalue hgroup
      rw [hcompared.2.1, halgorithm] at hnormal
      exact Except.ok.inj hnormal
    subst heq
    rcases hcase with hne | rfl
    · exact absurd rfl hne
    · exact ⟨computedAlgorithm, expectedHex, halgorithm, hexpected, value, hvalue, hgroup, expected, hcompared⟩

/-- **A valid report covers both mandatory data groups exactly when both are comparable.** -/
theorem mandatory_groups_covered_iff (report : IntegrityReport platform.F)
    (h : compare platform request = .ok report) (hvalid : report.isPassportValid = true) :
    (∀ dg ∈ mandatoryGroups, Covered platform request dg) ↔ ∀ dg ∈ mandatoryGroups, Comparable request dg :=
  forall₂_congr fun _ hdg => covered_iff_comparable platform h hvalid hdg

/-! ## Reports -/

/-- Exact arithmetic; the quotients of the reports below are far from the bound. -/
def samplePlatform : Platform where
  F := Rat
  ofNat n := n
  div a b := a / b
  mul a b := a * b
  lt a b := a < b
  le a b := a ≤ b
  round a := a.floor
  debugChar _ := "?"

def sampleComputed (dg : Nat) (algorithm : String) : ComputedHash := ⟨dg, "00".toList, algorithm.toList, true, none⟩

/-- The hash of each of the groups is expected to be `00`. -/
def sampleExpected (groups : List Nat) : SortedMap Nat Str :=
  groups.foldl (fun hashes dg => hashes.insert dg "00".toList) .empty

def sampleRequest : IntegrityRequest :=
  ⟨"SHA-256".toList, sampleExpected [1, 2, 3], [sampleComputed 1 "sha256", sampleComputed 3 "SHA256",
    sampleComputed 2 "sha-256"]⟩

/-- Only the fingerprints are expected. -/
def fingerprintsOnly : IntegrityRequest := ⟨"sha256".toList, sampleExpected [3], [sampleComputed 3 "sha256"]⟩

/-- The MRZ is computed with another algorithm. -/
def otherAlgorithm : IntegrityRequest :=
  ⟨"sha256".toList, sampleExpected [1, 2, 3, 4, 5, 6], [sampleComputed 1 "sha1", sampleComputed 2 "sha256",
    sampleComputed 3 "sha256", sampleComputed 4 "sha256", sampleComputed 5 "sha256", sampleComputed 6 "sha256"]⟩

/-- The verdict on a request, if it has one. -/
def verdict : Option Bool :=
  (compare samplePlatform request).toOption.map IntegrityReport.isPassportValid

theorem exists_of_verdict {request : IntegrityRequest} {valid : Bool} (h : verdict request = some valid) :
    ∃ report, compare samplePlatform request = .ok report ∧ report.isPassportValid = valid := by
  unfold verdict at h
  cases hcompare : compare samplePlatform request with
  | error e =>
    rw [hcompare] at h
    cases h
  | ok report =>
    rw [hcompare] at h
    exact ⟨report, rfl, Option.some.inj h⟩

theorem mandatory_groups_covered_iff_sampleRequest :
    Covered samplePlatform sampleRequest 1 ∧ Covered samplePlatform sampleRequest 2 := by
  obtain ⟨report, hreport, hvalid⟩ := exists_of_verdict (show verdict sampleRequest = some true by decide +kernel)
  have hcovered := (mandatory_groups_covered_iff samplePlatform sampleRequest report hreport hvalid).mpr
    (by unfold Comparable; decide)
  exact ⟨hcovered 1 (by decide), hcovered 2 (by decide)⟩

/-- **A valid report that covers no mandatory group, and one whose MRZ hash has another algorithm.** -/
theorem valid_without_mandatory_groups :
    (∃ report, compare samplePlatform fingerprintsOnly = .ok report ∧ report.isPassportValid = true ∧
      ¬Covered samplePlatform fingerprintsOnly 1 ∧ ¬Covered samplePlatform fingerprintsOnly 2) ∧
    ∃ report, compare samplePlatform otherAlgorithm = .ok report ∧ report.isPassportValid = true ∧
      ¬Covered samplePlatform otherAlgorithm 1 := by
  obtain ⟨report, hreport, hvalid⟩ := exists_of_verdict (show verdict fingerprintsOnly = some true by decide +kernel)
  obtain ⟨other, hother, hothervalid⟩ := exists_of_verdict (show verdict otherAlgorithm = some true by decide +kernel)
  refine ⟨⟨report, hreport, hvalid, ?_, ?_⟩, other, hother, hothervalid, ?_⟩
  · rw [covered_iff_comparable samplePlatform hreport hvalid (by decide)]
    unfold Comparable
    decide
  · rw [covered_iff_comparable samplePlatform hreport hvalid (by decide)]
    unfold Comparable
    decide
  · rw [covered_iff_comparable samplePlatform hother hothervalid (by decide)]
    unfold Comparable
    decide

end MartyCore.Integrity
