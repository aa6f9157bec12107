import MartyCore.Lib.Delta
import MartyCore.TrustSync.Model

/-!
# `TrustSync.Pages` — an accepted list of pages is one delta

The page loop mutates a map entry by entry and carries a sequence, a token and the ids seen so far. This
module says once what an accepted loop did: an inversion lemma for one entry, one page and one evaluation,
and the run lemmas over entries and pages. The map side ends in `merged_of_synchronizes`: whatever the page
boundaries and the order, the working map is the previous one with the batch of changes applied
(`Lib.Delta`), because the duplicate check ranges over all pages.

The later modules only use the lemmas here; none unfolds the loop.
-/

namespace MartyCore.TrustSync

open Exec SortedMap List

section

variable {parseFromRfc3339 : String → Option DateTime} {check : EntryCheck}

/-! ## Entries -/

/-- What a remote entry does to its key. -/
def change (check : EntryCheck) (now : DateTime) (remote : RegistryEntry) : Delta.Change String ImportedRegistryEntry :=
  (remote.entryId, match remote.operation with
    | .remove => none
    | .add => (check remote now).toOption)

variable {now : DateTime} {result : EntryMap × List String} {entries : EntryMap} {seen : List String} {remote : RegistryEntry}

variable {initialSync : Bool}

theorem applyEntry_ok (h : applyEntry check initialSync now remote entries seen = .ok result) :
    remote.entryId ∉ seen ∧ result.2 = remote.entryId :: seen ∧
    result.1.get? = Delta.update entries.get? (change check now remote) ∧
    (remote.operation = .add → ∃ imported, check remote now = .ok imported) ∧
    (remote.operation = .remove → entries.get? remote.entryId ≠ none) := by
  obtain ⟨hseen, h⟩ := of_reject h
  cases hop : remote.operation with
  | remove =>
    simp only [hop, reject_bind_ok_iff] at h
    obtain ⟨-, hknown, h⟩ := h
    cases h
    refine ⟨hseen, rfl, ?_, fun hc => (by cases hc), fun _ => hknown⟩
    funext k
    simp only [get?_erase, Delta.update, change, hop]
  | add =>
    simp only [hop] at h
    obtain ⟨imported, hcheck, h⟩ := of_bind h
    cases h
    refine ⟨hseen, rfl, ?_, fun _ => ⟨imported, hcheck⟩, fun hc => (by cases hc)⟩
    funext k
    simp only [get?_insert, Delta.update, change, hop, hcheck, Except.toOption]

/-- What an accepted list of entries has done: its ids are new and distinct, the map is the batch applied, and
    every addition was checked and every removal known. -/
structure EntriesApplied (check : EntryCheck) (now : DateTime) (remotes : List RegistryEntry)
    (entries : EntryMap) (seen : List String) (result : EntryMap × List String) : Prop where
  distinct : (remotes.map RegistryEntry.entryId).Nodup
  fresh : ∀ remote ∈ remotes, remote.entryId ∉ seen
  merged : result.1.get? = Delta.apply entries.get? (remotes.map (change check now))
  checked : ∀ remote ∈ remotes, remote.operation = .add → ∃ imported, check remote now = .ok imported
  known : ∀ remote ∈ remotes, remote.operation = .remove → entries.get? remote.entryId ≠ none

theorem change_keys (check : EntryCheck) (now : DateTime) (remotes : List RegistryEntry) :
    (remotes.map (change check now)).map Prod.fst = remotes.map RegistryEntry.entryId := by
  rw [map_map]
  rfl

variable {remotes : List RegistryEntry}

/-- The run lemma over entries. -/
theorem applyEntries_ok
    (h : applyEntries check initialSync now remotes entries seen = .ok result) :
    EntriesApplied check now remotes entries seen result := by
  induction remotes generalizing entries seen with
  | nil =>
    cases h
    exact ⟨nodup_nil, by simp, rfl, by simp, by simp⟩
  | cons remote rest ih =>
    obtain ⟨⟨entries', seen'⟩, hone, hrest⟩ := of_bind h
    obtain ⟨hseen, hseen', hget, hadd, hremove⟩ := applyEntry_ok hone
    have hrun := ih hrest
    -- the head's id is in `seen'`, so no later entry carries it
    have hhead : ∀ later ∈ rest, later.entryId ∉ remote.entryId :: seen := by
      intro later hlater
      rw [← hseen']
      exact hrun.fresh later hlater
    obtain ⟨hdistinct, hfresh⟩ :=
      nodup_fresh_cons_iff.mpr ⟨hseen, hrun.distinct, forall_mem_map.mpr hhead⟩
    have hnew : remote.entryId ∉ rest.map RegistryEntry.entryId := (nodup_cons.mp hdistinct).1
    refine ⟨hdistinct, fun later hlater => hfresh _ (mem_map_of_mem hlater), ?_, ?_, ?_⟩
    · funext k
      rw [map_cons, Delta.apply_cons _ (by rw [change_keys]; exact hnew), ← hget]
      exact congrFun hrun.merged k
    · intro later hlater
      rcases mem_cons.mp hlater with rfl | hlater
      · exact hadd
      · exact hrun.checked later hlater
    · -- the head's change is at another key, so a known id was known before it
      intro later hlater hop
      rcases mem_cons.mp hlater with rfl | hlater
      · exact hremove hop
      · have hne : later.entryId ≠ remote.entryId :=
          fun heq => hhead later hlater (heq ▸ mem_cons_self)
        have hk := hrun.known later hlater hop
        rw [show entries'.get? later.entryId = _ from congrFun hget later.entryId] at hk
        rwa [Delta.update, if_neg (show ¬ later.entryId = (change check now remote).1 from hne)] at hk

theorem applyEntries_append {front back : List RegistryEntry}
    {middle result : EntryMap × List String}
    (hfront : applyEntries check initialSync now front entries seen = .ok middle)
    (hback : applyEntries check initialSync now back middle.1 middle.2 = .ok result) :
    applyEntries check initialSync now (front ++ back) entries seen = .ok result := by
  induction front generalizing entries seen with
  | nil =>
    cases hfront
    exact hback
  | cons remote rest ih =>
    obtain ⟨⟨entries', seen'⟩, hone, hrest⟩ := of_bind hfront
    show applyEntries check initialSync now (remote :: (rest ++ back)) entries seen = .ok result
    exact bind_ok_iff.mpr ⟨_, hone, ih hrest⟩

/-! ## Pages -/

/-- All entries of a list of pages. -/
def allEntries (pages : List RegistryFeed) : List RegistryEntry := pages.flatMap RegistryFeed.entries

/-- What an accepted page has passed, and what it did to the loop variables. -/
structure PageApplied (check : EntryCheck) (previous : RegistryImportState) (now : DateTime) (index : Nat)
    (feed : RegistryFeed) (before after : PageLoop) : Prop where
  feed_ok : validateFeed feed = .ok ()
  no_rollback : before.currentSequence ≤ feed.sequence
  advanced : index = 0 → previous.syncToken ≠ none → feed.entries ≠ [] → feed.sequence ≠ previous.sequence
  sequence : after.currentSequence = feed.sequence
  entries : applyEntries check previous.syncToken.isNone now feed.entries before.entries before.seen
    = .ok (after.entries, after.seen)

variable {previous : RegistryImportState}

theorem applyPage_ok {pageCount index : Nat} {feed : RegistryFeed}
    {before after : PageLoop} (h : applyPage check previous now pageCount index feed before = .ok after) :
    PageApplied check previous now index feed before after := by
  obtain ⟨_, hfeed, h⟩ := of_bind h
  simp only [reject_bind_ok_iff] at h
  obtain ⟨-, hseq, hadv, -, h⟩ := h
  obtain ⟨⟨entries, seen⟩, hentries, h⟩ := of_bind h
  cases h
  refine ⟨hfeed, by omega, ?_, rfl, hentries⟩
  exact fun hindex htoken hne heq => hadv ⟨hindex, htoken, hne, heq⟩

/-- What an accepted list of pages has done. -/
structure PagesApplied (check : EntryCheck) (previous : RegistryImportState) (now : DateTime)
    (pages : List RegistryFeed) (before after : PageLoop) : Prop where
  feeds_ok : ∀ feed ∈ pages, validateFeed feed = .ok ()
  sequences : ∀ feed ∈ pages, before.currentSequence ≤ feed.sequence ∧ feed.sequence ≤ after.currentSequence
  monotone : before.currentSequence ≤ after.currentSequence
  last : after.currentSequence = before.currentSequence ∨ ∃ feed ∈ pages, feed.sequence = after.currentSequence
  entries : applyEntries check previous.syncToken.isNone now (allEntries pages) before.entries before.seen
    = .ok (after.entries, after.seen)

variable {pages : List RegistryFeed}

/-- The run lemma over pages. -/
theorem applyPages_ok {pageCount index : Nat} {before after : PageLoop}
    (h : applyPages check previous now pageCount index pages before = .ok after) :
    PagesApplied check previous now pages before after := by
  induction pages generalizing index before with
  | nil =>
    cases h
    exact ⟨by simp, by simp, Nat.le_refl _, .inl rfl, rfl⟩
  | cons feed rest ih =>
    obtain ⟨middle, hpage, hrest⟩ := of_bind h
    have hp := applyPage_ok hpage
    have hr := ih hrest
    have hmono := hr.monotone
    have hle := hp.no_rollback
    rw [hp.sequence] at hmono
    refine ⟨?_, ?_, by omega, ?_, ?_⟩
    · intro f hf
      rcases mem_cons.mp hf with rfl | hf
      · exact hp.feed_ok
      · exact hr.feeds_ok f hf
    · intro f hf
      rcases mem_cons.mp hf with rfl | hf
      · exact ⟨hle, hmono⟩
      · obtain ⟨hlow, hhigh⟩ := hr.sequences f hf
        rw [hp.sequence] at hlow
        exact ⟨by omega, hhigh⟩
    · refine .inr ?_
      rcases hr.last with heq | ⟨f, hf, heq⟩
      · exact ⟨feed, mem_cons_self, by rw [heq, hp.sequence]⟩
      · exact ⟨f, mem_cons_of_mem _ hf, heq⟩
    · exact applyEntries_append hp.entries hr.entries

/-! ## Revalidation -/

theorem revalidateEntry_ok {storageId : String} {imported entry : ImportedRegistryEntry}
    (h : revalidateEntry parseFromRfc3339 check storageId imported now = .ok entry) :
    ∃ candidate, candidate.entryId = storageId ∧ candidate.operation = .add ∧
      validateRemoteEntryShape candidate = .ok () ∧ check candidate now = .ok entry := by
  obtain ⟨hid, h⟩ := of_reject h
  obtain ⟨notBefore, -, h⟩ := of_bind h
  obtain ⟨notAfter, -, h⟩ := of_bind h
  obtain ⟨_, hshape, hcheck⟩ := of_bind h
  rw [mapErr_ok_iff] at hshape
  exact ⟨_, (not_ne_iff.mp hid).symm, rfl, hshape, hcheck⟩

theorem revalidateLoop_get? {stored : List (String × ImportedRegistryEntry)} {before after : EntryMap}
    (h : revalidateLoop parseFromRfc3339 check now stored before = .ok after) (k : String) :
    (∀ entry, after.get? k = some entry → before.get? k = some entry ∨
      ∃ imported, (k, imported) ∈ stored ∧ revalidateEntry parseFromRfc3339 check k imported now = .ok entry) ∧
    (after.get? k = none ↔ before.get? k = none ∧ ∀ imported, (k, imported) ∉ stored) := by
  induction stored generalizing before with
  | nil =>
    cases h
    exact ⟨fun _ he => .inl he, by simp⟩
  | cons head rest ih =>
    obtain ⟨storageId, imported⟩ := head
    obtain ⟨entry, hentry, hrest⟩ := of_bind h
    obtain ⟨hsome, hnone⟩ := ih hrest
    rw [get?_insert] at hsome hnone
    -- either this turn inserted `k`, or it left `k` alone
    by_cases hk : k = storageId
    · subst hk
      rw [if_pos rfl] at hsome hnone
      refine ⟨?_, ?_⟩
      · intro e he
        rcases hsome e he with heq | ⟨i, hi, hv⟩
        · injection heq with heq
          exact .inr ⟨imported, mem_cons_self, heq ▸ hentry⟩
        · exact .inr ⟨i, mem_cons_of_mem _ hi, hv⟩
      · constructor
        · exact fun he => absurd (hnone.mp he).1 (by simp)
        · exact fun he => absurd mem_cons_self (he.2 imported)
    · rw [if_neg hk] at hsome hnone
      refine ⟨?_, ?_⟩
      · intro e he
        rcases hsome e he with heq | ⟨i, hi, hv⟩
        · exact .inl heq
        · exact .inr ⟨i, mem_cons_of_mem _ hi, hv⟩
      · rw [hnone]
        simp [hk]

/-- A revalidated map has the keys of the map it came from, each with its revalidated entry. -/
theorem revalidateEntries_get? {entries validated : EntryMap}
    (h : revalidateEntries parseFromRfc3339 check entries now = .ok validated) (k : String) :
    (∀ entry, validated.get? k = some entry → ∃ imported, entries.get? k = some imported ∧
        revalidateEntry parseFromRfc3339 check k imported now = .ok entry) ∧
    (validated.get? k = none ↔ entries.get? k = none) := by
  obtain ⟨hsome, hnone⟩ := revalidateLoop_get? h k
  refine ⟨?_, ?_⟩
  · intro entry he
    rcases hsome entry he with hempty | ⟨imported, hmem, hv⟩
    · cases hempty
    · exact ⟨imported, SortedMap.mem_iff_get?.mp hmem, hv⟩
  · rw [hnone]
    constructor
    · rintro ⟨-, hall⟩
      cases hget : entries.get? k with
      | none => rfl
      | some imported => exact absurd (SortedMap.mem_iff_get?.mpr hget) (hall imported)
    · intro hget
      refine ⟨get?_empty k, ?_⟩
      intro imported hmem
      rw [SortedMap.mem_iff_get?.mp hmem] at hget
      cases hget

/-! ## Evaluations -/

/-- **One synchronization**: the evaluation of `pages` over `s` at `now` is complete and stores `s'`. -/
def SynchronizesWith (parseFromRfc3339 : String → Option DateTime) (check : EntryCheck)
    (s : RegistryImportState) (pages : List RegistryFeed) (now : DateTime) (s' : RegistryImportState) :
    Prop :=
  ∃ evaluation, evaluatePagesWith parseFromRfc3339 check s pages now = .ok evaluation ∧
    evaluation.complete = true ∧ evaluation.state = some s'

/-- What a complete evaluation has done. -/
structure Synchronized (parseFromRfc3339 : String → Option DateTime) (check : EntryCheck)
    (s : RegistryImportState) (pages : List RegistryFeed) (now : DateTime) (s' : RegistryImportState)
    (final : PageLoop) (last : RegistryFeed) : Prop where
  last_mem : last ∈ pages
  loop : applyPages check s now pages.length 0 pages (initialLoop s) = .ok final
  entries : revalidateEntries parseFromRfc3339 check final.entries now = .ok s'.entries
  token : s'.syncToken = some last.syncToken
  sequence : s'.sequence = final.currentSequence
  instant : s'.synchronizedAt = some now

theorem SynchronizesWith.inv {s s' : RegistryImportState} (h : SynchronizesWith parseFromRfc3339 check s pages now s') :
    ∃ final last, Synchronized parseFromRfc3339 check s pages now s' final last := by
  obtain ⟨evaluation, heval, hcomplete, hstate⟩ := h
  obtain ⟨-, -, heval⟩ := of_bind heval
  simp only [reject_bind_ok_iff] at heval
  obtain ⟨-, -, heval⟩ := heval
  obtain ⟨final, hloop, heval⟩ := of_bind heval
  obtain ⟨last, hlast, heval⟩ := of_bind heval
  rw [expect_ok_iff] at hlast
  split at heval
  · -- an evaluation that asks for more pages is not complete
    obtain ⟨-, heval⟩ := of_reject heval
    cases heval
    cases hcomplete
  · obtain ⟨entries, hentries, heval⟩ := of_bind heval
    cases heval
    cases hstate
    exact ⟨final, last, mem_of_getLast? hlast, hloop, hentries, rfl, rfl, rfl⟩

/-- **The pages are one delta.** The map that a complete evaluation revalidates is the base map with the batch
    of all entries applied, and the ids of the batch are distinct. -/
theorem merged_of_synchronizes {s s' : RegistryImportState}
    (h : SynchronizesWith parseFromRfc3339 check s pages now s') :
    ∃ merged : EntryMap × List String,
      EntriesApplied check now (allEntries pages) (baseEntries s) [] merged ∧
      revalidateEntries parseFromRfc3339 check merged.1 now = .ok s'.entries := by
  obtain ⟨final, last, hs⟩ := h.inv
  exact ⟨_, applyEntries_ok (applyPages_ok hs.loop).entries, hs.entries⟩

section

variable (h : EntriesApplied check now remotes entries seen result)

include h

/-- An entry of an accepted batch decides its own key. -/
theorem EntriesApplied.get?_of_mem
    (hmem : remote ∈ remotes) : result.1.get? remote.entryId = (change check now remote).2 := by
  rw [h.merged]
  exact Delta.apply_of_mem _ (by rw [change_keys]; exact h.distinct) (mem_map_of_mem hmem)

theorem EntriesApplied.get?_of_remove
    (hmem : remote ∈ remotes) (hop : remote.operation = .remove) : result.1.get? remote.entryId = none := by
  rw [h.get?_of_mem hmem]
  simp only [change, hop]

theorem EntriesApplied.get?_of_add
    (hmem : remote ∈ remotes) (hop : remote.operation = .add) :
    ∃ imported, check remote now = .ok imported ∧ result.1.get? remote.entryId = some imported := by
  obtain ⟨imported, hcheck⟩ := h.checked remote hmem hop
  refine ⟨imported, hcheck, ?_⟩
  rw [h.get?_of_mem hmem]
  simp only [change, hop, hcheck, Except.toOption]

/-- A key that no entry of the batch names keeps its entry. -/
theorem EntriesApplied.get?_of_not_mem {k : String}
    (hk : k ∉ remotes.map RegistryEntry.entryId) : result.1.get? k = entries.get? k := by
  rw [h.merged]
  exact Delta.apply_of_not_mem _ (by rw [change_keys]; exact hk)

/-- Two accepted batches with the same entries give the same map. -/
theorem EntriesApplied.eq_of_perm {remotes' : List RegistryEntry} {result' : EntryMap × List String}
    (h' : EntriesApplied check now remotes' entries seen result') (hperm : remotes'.Perm remotes) :
    result'.1 = result.1 := by
  apply ext_get?
  intro k
  rw [h.merged, h'.merged]
  exact Delta.apply_of_perm _ (by rw [change_keys]; exact h.distinct) (hperm.map _) k

end

end

/-! ## `evaluate_pages` -/

/-- One synchronization by `evaluatePages`. -/
def Synchronizes (platform : Platform) (s : RegistryImportState) (pages : List RegistryFeed)
    (now : DateTime) (s' : RegistryImportState) : Prop :=
  ∃ evaluation, evaluatePages platform s pages now = .ok evaluation ∧
    evaluation.complete = true ∧ evaluation.state = some s'

theorem Synchronizes.with {platform : Platform} {s s' : RegistryImportState} {pages : List RegistryFeed}
    {now : DateTime} (h : Synchronizes platform s pages now s') :
    SynchronizesWith platform.parseFromRfc3339 (validateCertificate platform) s pages now s' := h

/-- **A paged synchronization is exactly the delta it carries.** The stored entries are the revalidation of the
    base map without every removed id and with every added id at its checked certificate; and two accepted
    page lists with the same entries in any order and any split, and the same final sequence and token, store
    the same state. -/
theorem synchronization_is_delta {platform : Platform} {s s' : RegistryImportState}
    {pages : List RegistryFeed} {now : DateTime} (h : Synchronizes platform s pages now s') :
    (∃ merged : EntryMap,
      revalidateEntries platform.parseFromRfc3339 (validateCertificate platform) merged now
        = .ok s'.entries ∧
      (∀ e ∈ allEntries pages, e.operation = .remove → merged.get? e.entryId = none) ∧
      (∀ e ∈ allEntries pages, e.operation = .add → ∃ imported,
        validateCertificate platform e now = .ok imported ∧ merged.get? e.entryId = some imported) ∧
      ∀ k, k ∉ (allEntries pages).map RegistryEntry.entryId → merged.get? k = (baseEntries s).get? k) ∧
    ∀ pages' s'', Synchronizes platform s pages' now s'' → s''.sequence = s'.sequence →
      s''.syncToken = s'.syncToken → (allEntries pages').Perm (allEntries pages) → s'' = s' := by
  obtain ⟨merged, happ, hentries⟩ := merged_of_synchronizes h.with
  refine ⟨⟨merged.1, hentries, fun e he hop => happ.get?_of_remove he hop,
    fun e he hop => happ.get?_of_add he hop, fun k hk => happ.get?_of_not_mem hk⟩, ?_⟩
  intro pages' s'' h' hsequence htoken hperm
  obtain ⟨merged', happ', hentries'⟩ := merged_of_synchronizes h'.with
  obtain ⟨_, _, hs⟩ := h.with.inv
  obtain ⟨_, _, hs'⟩ := h'.with.inv
  -- revalidation is a function of the merged map, which the order does not change
  have hmaps : merged'.1 = merged.1 := happ.eq_of_perm happ' hperm
  have hstored : s''.entries = s'.entries := by
    rw [hmaps, hentries] at hentries'
    injection hentries' with heq
    exact heq.symm
  have hinstant : s''.synchronizedAt = s'.synchronizedAt := by rw [hs.instant, hs'.instant]
  cases s''
  cases s'
  simp only [RegistryImportState.mk.injEq]
  exact ⟨htoken, hsequence, hstored, hinstant⟩

/-! ## A sample registry -/

/-- The PEM text of a CSCA certificate valid from 2025 to 2035 (its body abbreviated). -/
def cscaPem : String := "-----BEGIN CERTIFICATE-----\nMIIB\n-----END CERTIFICATE-----\n"

/-- The foreign code on that certificate. -/
def samplePlatform : Platform where
  loadCertificatePem pem := if pem = cscaPem then some [0x30, 0x82, 0x01] else none
  getCertificateInfo der :=
    if der = [0x30, 0x82, 0x01] then
      some { notBefore := "2025-01-01T00:00:00+00:00"
             notAfter := "2035-01-01T00:00:00+00:00"
             isCa := true
             keyUsage := ["keyCertSign", "cRLSign"] }
    else none
  parseFromRfc3339 text :=
    if text = "2025-01-01T00:00:00+00:00" then some 1735689600000000000
    else if text = "2035-01-01T00:00:00+00:00" then some 2051222400000000000
    else none
  toRfc3339 time :=
    if time = 1735689600000000000 then "2025-01-01T00:00:00+00:00" else "2035-01-01T00:00:00+00:00"

/-- The first instant of 2026. -/
def sampleNow : DateTime := 1767225600000000000

def sampleAdd (id : String) : RegistryEntry where
  entryId := id
  anchorType := .csca
  operation := .add
  countryCode := "UT"
  certificatePem := some cscaPem
  subjectKeyId := none
  notBefore := none
  notAfter := none
  source := .icaoPkd

def samplePage (token : String) (sequence : Nat) (entries : List RegistryEntry) (hasMore : Bool) : RegistryFeed where
  syncToken := token
  sequence := sequence
  entries := entries
  hasMore := hasMore
  generatedAt := sampleNow

/-- The stored form of `sampleAdd id`. -/
def sampleImported (id : String) : ImportedRegistryEntry where
  entryId := id
  anchorType := .csca
  countryCode := "UT"
  certificatePem := cscaPem
  source := .icaoPkd
  subjectKeyId := none
  notBefore := some "2025-01-01T00:00:00+00:00"
  notAfter := some "2035-01-01T00:00:00+00:00"

/-- A state that stores the sample certificate under each of `ids`. -/
def sampleState (token : String) (sequence : Nat) (ids : List String) : RegistryImportState where
  syncToken := some token
  sequence := sequence
  entries := ids.foldl (fun m id => m.insert id (sampleImported id)) SortedMap.empty
  synchronizedAt := some sampleNow

def sampleId : String := "0f8fad5b-d9cb-469f-a165-70867728950e"
def otherId : String := "7c9e6679-7425-40de-944b-e07fc1f90ae7"

theorem synchronization_is_delta_split :
    Synchronizes samplePlatform .default
      [samplePage "1" 5 [sampleAdd otherId] true, samplePage "2" 7 [sampleAdd sampleId] false] sampleNow
      (sampleState "2" 7 [otherId, sampleId]) ∧
    Synchronizes samplePlatform .default
      [samplePage "2" 7 [sampleAdd sampleId, sampleAdd otherId] false] sampleNow
      (sampleState "2" 7 [sampleId, otherId]) ∧
    sampleState "2" 7 [otherId, sampleId] = sampleState "2" 7 [sampleId, otherId] := by
  have hsplit : Synchronizes samplePlatform .default
      [samplePage "1" 5 [sampleAdd otherId] true, samplePage "2" 7 [sampleAdd sampleId] false] sampleNow
      (sampleState "2" 7 [otherId, sampleId]) :=
    ⟨⟨true, 2, "2", some (sampleState "2" 7 [otherId, sampleId])⟩, by decide +kernel, rfl, rfl⟩
  have hsingle : Synchronizes samplePlatform .default
      [samplePage "2" 7 [sampleAdd sampleId, sampleAdd otherId] false] sampleNow
      (sampleState "2" 7 [sampleId, otherId]) :=
    ⟨⟨true, 1, "2", some (sampleState "2" 7 [sampleId, otherId])⟩, by decide, rfl, rfl⟩
  refine ⟨hsplit, hsingle, ?_⟩
  apply (synchronization_is_delta hsingle).2 _ _ hsplit rfl rfl
  exact List.Perm.swap (sampleAdd sampleId) (sampleAdd otherId) []

end MartyCore.TrustSync
