import Mathlib.Data.List.Chain
import MartyCore.TrustSync.Pages

/-!
# `TrustSync.Store` — the stored registry over whole runs

A store feeds the state of each complete evaluation back as the next previous state. Two laws of such runs, and one
of the runs that ask for one page more each time (`pages_accepted_one_by_one`).

**The sequence.** It never decreases. Whether an evaluation that carried entries advanced it strictly is
decided by `sequence_advances_iff`: the guard against changes under an old sequence sits on the first page
only, so an empty first page followed by entries under the stored sequence goes through.

**Identity.** Revalidation makes every stored state consistent on its own: keyed by its entry ids, of valid
shape, each entry checked at the instant of the evaluation. Uniqueness of the *identity* is different: ids are
accepted as UUID texts and then stored, deduplicated and removed as strings. `OneSpelling` says that a batch
spells the UUIDs it adds as they are spelled elsewhere, and is exactly what keeps one entry per UUID.
-/

namespace MartyCore.TrustSync

open Relation Exec List

/-! ## The sequence -/

section

variable {parseFromRfc3339 : String → Option DateTime} {check : EntryCheck}
  {s s' : RegistryImportState} {pages : List RegistryFeed} {now : DateTime}

theorem SynchronizesWith.sequence_le (h : SynchronizesWith parseFromRfc3339 check s pages now s') :
    s.sequence ≤ s'.sequence := by
  obtain ⟨final, last, hs⟩ := h.inv
  rw [hs.sequence]
  exact (applyPages_ok hs.loop).monotone

/-- The new sequence is that of some page, and bounds every page's. -/
theorem SynchronizesWith.sequence_lt_iff (h : SynchronizesWith parseFromRfc3339 check s pages now s') :
    s.sequence < s'.sequence ↔ ∃ page ∈ pages, page.sequence ≠ s.sequence := by
  obtain ⟨final, last, hs⟩ := h.inv
  have hp := applyPages_ok hs.loop
  rw [hs.sequence]
  have hstart : (initialLoop s).currentSequence = s.sequence := rfl
  constructor
  · intro hlt
    rcases hp.last with heq | ⟨page, hpage, heq⟩
    · omega
    · exact ⟨page, hpage, by omega⟩
  · rintro ⟨page, hpage, hne⟩
    obtain ⟨hlow, hhigh⟩ := hp.sequences page hpage
    omega

/-- The guard on the first page. -/
theorem SynchronizesWith.first_page {first : RegistryFeed} {rest : List RegistryFeed}
    (h : SynchronizesWith parseFromRfc3339 check s (first :: rest) now s') (htoken : s.syncToken ≠ none)
    (hentries : first.entries ≠ []) : first.sequence ≠ s.sequence := by
  obtain ⟨final, last, hs⟩ := h.inv
  have hloop := hs.loop
  obtain ⟨middle, hpage, -⟩ := of_bind hloop
  exact (applyPage_ok hpage).advanced rfl htoken hentries

/-- **When changes advance the sequence.** For a synchronized store and pages that carry an entry, the new
    sequence is strictly greater exactly when the first page carries one or some page leaves the stored
    sequence. Over a run of complete evaluations the sequence never decreases. The certificate check is
    arbitrary. -/
theorem sequence_advances_iff (parseFromRfc3339 : String → Option DateTime) (check : EntryCheck) :
    (∀ s pages now s', SynchronizesWith parseFromRfc3339 check s pages now s' → s.syncToken ≠ none →
      (∃ page ∈ pages, page.entries ≠ []) →
      (s.sequence < s'.sequence ↔
        (∃ first rest, pages = first :: rest ∧ first.entries ≠ []) ∨
        ∃ page ∈ pages, page.sequence ≠ s.sequence)) ∧
    ∀ s s', ReflTransGen (fun s s' => ∃ pages now,
        SynchronizesWith parseFromRfc3339 check s pages now s') s s' → s.sequence ≤ s'.sequence := by
  constructor
  · intro s pages now s' h htoken _
    rw [h.sequence_lt_iff]
    constructor
    · exact .inr
    · rintro (⟨first, rest, rfl, hentries⟩ | hpage)
      · exact ⟨first, mem_cons_self, h.first_page htoken hentries⟩
      · exact hpage
  · intro s s' hrun
    induction hrun with
    | refl => exact Nat.le_refl _
    | tail _ hstep ih =>
      obtain ⟨pages, now, h⟩ := hstep
      exact Nat.le_trans ih h.sequence_le

end

/-- One entry under a new sequence. -/
def advancingPages : List RegistryFeed := [samplePage "2" 2 [sampleAdd otherId] false]

theorem synchronizes_advancingPages : Synchronizes samplePlatform (sampleState "1" 1 [sampleId]) advancingPages sampleNow
    (sampleState "2" 2 [sampleId, otherId]) :=
  ⟨⟨true, 1, "2", some (sampleState "2" 2 [sampleId, otherId])⟩, by decide, rfl, rfl⟩

theorem sequence_advances_iff_advancingPages :
    (sampleState "1" 1 [sampleId]).sequence < (sampleState "2" 2 [sampleId, otherId]).sequence := by
  have hne : (samplePage "2" 2 [sampleAdd otherId] false).entries ≠ [] := cons_ne_nil _ _
  refine ((sequence_advances_iff _ _).1 _ _ _ _ synchronizes_advancingPages.with (by simp [sampleState])
    ⟨_, mem_cons_self, hne⟩).mpr (.inl ⟨_, [], rfl, hne⟩)

/-- An empty first page, then an entry, both under the stored sequence. -/
def sameSequencePages : List RegistryFeed :=
  [samplePage "2" 1 [] true, samplePage "3" 1 [sampleAdd otherId] false]

/-- The stored registry changes and its sequence stays. -/
theorem sequence_not_advanced_sameSequencePages :
    Synchronizes samplePlatform (sampleState "1" 1 [sampleId]) sameSequencePages sampleNow
      (sampleState "3" 1 [sampleId, otherId]) ∧
    (sampleState "1" 1 [sampleId]).syncToken ≠ none ∧
    (∃ page ∈ sameSequencePages, page.entries ≠ []) ∧
    ¬ (sampleState "1" 1 [sampleId]).sequence < (sampleState "3" 1 [sampleId, otherId]).sequence := by
  refine ⟨⟨⟨true, 2, "3", some (sampleState "3" 1 [sampleId, otherId])⟩, ?_, rfl, rfl⟩, ?_, ?_, ?_⟩
  · decide
  · simp [sampleState]
  · exact ⟨_, mem_cons_of_mem _ mem_cons_self, cons_ne_nil _ _⟩
  · exact Nat.lt_irrefl 1

/-! ## Consistency of every stored state -/

theorem validateStoredEntries_ok_iff {stored : List (String × ImportedRegistryEntry)} :
    validateStoredEntries stored = .ok () ↔ ∀ p ∈ stored, p.1 = p.2.entryId ∧
      Uuid.parseStr p.1 ≠ none ∧ validateCountry p.2.countryCode = .ok () ∧
      p.2.certificatePem.utf8ByteSize ≤ 64 * 1024 := by
  induction stored with
  | nil => simp [validateStoredEntries]
  | cons head rest ih =>
    unfold validateStoredEntries
    rw [reject_bind_ok_iff, bind_ok_iff]
    simp only [mapErr_ok_iff, reject_bind_ok_iff, ih, forall_mem_cons, not_or, not_lt,
      Decidable.not_not, gt_iff_lt, ne_eq]
    constructor
    · rintro ⟨⟨hid, huuid⟩, ⟨⟩, hcountry, hpem, hrest⟩
      exact ⟨⟨hid, huuid, hcountry, hpem⟩, hrest⟩
    · rintro ⟨⟨hid, huuid, hcountry, hpem⟩, hrest⟩
      exact ⟨⟨hid, huuid⟩, (), hcountry, hpem, hrest⟩

theorem validateStateShape_of {s : RegistryImportState} {token : String} (htoken : s.syncToken = some token)
    (hnonempty : token.isEmpty = false) (hsize : token.utf8ByteSize ≤ 2048)
    (hentries : ∀ k e, s.entries.get? k = some e → e.entryId = k ∧ Uuid.parseStr k ≠ none ∧
      validateCountry e.countryCode = .ok () ∧ e.certificatePem.utf8ByteSize ≤ 64 * 1024) :
    validateStateShape s = .ok () := by
  unfold validateStateShape
  rw [reject_bind_ok_iff, validateStoredEntries_ok_iff]
  refine ⟨?_, ?_⟩
  · simp [htoken, hnonempty, hsize]
  · rintro ⟨k, e⟩ hmem
    obtain ⟨hid, hrest⟩ := hentries k e (SortedMap.mem_iff_get?.mp hmem)
    exact ⟨hid.symm, hrest⟩

/-- What the shape check of an ADD entry guarantees. -/
theorem validateRemoteEntryShape_add_ok {entry : RegistryEntry} (hop : entry.operation = .add)
    (h : validateRemoteEntryShape entry = .ok ()) :
    Uuid.parseStr entry.entryId ≠ none ∧ validateCountry entry.countryCode = .ok () ∧
    ∃ pem, entry.certificatePem = some pem ∧ pem.utf8ByteSize ≤ 64 * 1024 := by
  obtain ⟨huuid, h⟩ := of_reject h
  obtain ⟨_, hcountry, h⟩ := of_bind h
  rw [reject_bind_ok_iff, hop] at h
  obtain ⟨-, h⟩ := h
  obtain ⟨pem, hpem, h⟩ := of_bind h
  rw [orFail_ok_iff] at hpem
  rw [reject_ok_iff] at h
  exact ⟨huuid, hcountry, pem, hpem, Nat.le_of_not_lt h⟩

/-- The stored form of an entry copies its identity, country and certificate. -/
theorem validateCertificate_ok {platform : Platform} {entry : RegistryEntry} {now : DateTime}
    {imported : ImportedRegistryEntry} (h : validateCertificate platform entry now = .ok imported) :
    imported.entryId = entry.entryId ∧ imported.countryCode = entry.countryCode ∧
    entry.certificatePem = some imported.certificatePem := by
  obtain ⟨pem, hpem, h⟩ := of_bind h
  rw [expect_ok_iff] at hpem
  obtain ⟨der, -, h⟩ := of_bind h
  obtain ⟨info, -, h⟩ := of_bind h
  obtain ⟨notBefore, -, h⟩ := of_bind h
  obtain ⟨notAfter, -, h⟩ := of_bind h
  simp only [reject_bind_ok_iff] at h
  obtain ⟨-, -, -, h⟩ := h
  obtain ⟨_, -, h⟩ := of_bind h
  cases h
  exact ⟨rfl, rfl, hpem⟩

theorem validateFeed_token {feed : RegistryFeed} (h : validateFeed feed = .ok ()) :
    feed.syncToken.isEmpty = false ∧ feed.syncToken.utf8ByteSize ≤ 2048 := by
  unfold validateFeed at h
  rw [reject_bind_ok_iff, not_or] at h
  obtain ⟨⟨hempty, hsize⟩, -⟩ := h
  exact ⟨eq_false_of_ne_true hempty, Nat.le_of_not_lt hsize⟩

/-- **A consistent stored state**: keyed by entry id, of valid shape, and every entry accepted by the certificate
    check at the instant of the synchronization. -/
structure Consistent (platform : Platform) (s : RegistryImportState) : Prop where
  keyed : ∀ k e, s.entries.get? k = some e → e.entryId = k
  shape : validateStateShape s = .ok ()
  accepted : ∀ k e, s.entries.get? k = some e → ∃ now candidate, s.synchronizedAt = some now ∧
    candidate.entryId = k ∧ validateCertificate platform candidate now = .ok e

theorem consistent_default (platform : Platform) : Consistent platform .default := by
  refine ⟨?_, by decide, ?_⟩
  all_goals
    intro k e h
    exact absurd h (by simp [RegistryImportState.default])

variable {pages : List RegistryFeed}

/-- The step lemma. Everything comes from the revalidation; the previous state is not needed. -/
theorem Synchronizes.consistent {platform : Platform} {s s' : RegistryImportState}
    {now : DateTime} (h : Synchronizes platform s pages now s') :
    Consistent platform s' := by
  obtain ⟨final, last, hs⟩ := h.with.inv
  have hstored : ∀ k e, s'.entries.get? k = some e → ∃ candidate, candidate.entryId = k ∧
      candidate.operation = .add ∧ validateRemoteEntryShape candidate = .ok () ∧
      validateCertificate platform candidate now = .ok e := by
    intro k e he
    obtain ⟨imported, -, hrev⟩ := (revalidateEntries_get? hs.entries k).1 e he
    exact revalidateEntry_ok hrev
  have htoken := validateFeed_token ((applyPages_ok hs.loop).feeds_ok last hs.last_mem)
  refine ⟨?_, validateStateShape_of hs.token htoken.1 htoken.2 ?_, ?_⟩
  · intro k e he
    obtain ⟨candidate, hid, -, -, hcheck⟩ := hstored k e he
    exact (validateCertificate_ok hcheck).1.trans hid
  · intro k e he
    obtain ⟨candidate, hid, hop, hshape, hcheck⟩ := hstored k e he
    obtain ⟨huuid, hcountry, pem, hpem, hsize⟩ := validateRemoteEntryShape_add_ok hop hshape
    obtain ⟨hentryId, hcc, hcert⟩ := validateCertificate_ok hcheck
    rw [hpem] at hcert
    injection hcert with hcert
    subst hid
    exact ⟨hentryId, huuid, by rw [hcc]; exact hcountry, by rw [← hcert]; exact hsize⟩
  · intro k e he
    obtain ⟨candidate, hid, -, -, hcheck⟩ := hstored k e he
    exact ⟨now, candidate, hs.instant, hid, hcheck⟩

/-! ## One entry per UUID -/

/-- No two stored ids denote the same UUID. -/
def OneEntryPerUuid (entries : EntryMap) : Prop :=
  ∀ k k', entries.get? k ≠ none → entries.get? k' ≠ none → Uuid.parseStr k = Uuid.parseStr k' → k = k'

/-- No stored id denotes a UUID that the pages removed. -/
def RemovalsComplete (pages : List RegistryFeed) (entries : EntryMap) : Prop :=
  ∀ e ∈ allEntries pages, e.operation = .remove → ∀ k, entries.get? k ≠ none → Uuid.parseStr k ≠ Uuid.parseStr e.entryId

/-- Every added UUID is spelled as the base map and the other additions spell it. -/
def OneSpelling (s : RegistryImportState) (pages : List RegistryFeed) : Prop :=
  ∀ e ∈ allEntries pages, e.operation = .add →
    (∀ k, (baseEntries s).get? k ≠ none → Uuid.parseStr k = Uuid.parseStr e.entryId → k = e.entryId) ∧
    ∀ e' ∈ allEntries pages, e'.operation = .add →
      Uuid.parseStr e'.entryId = Uuid.parseStr e.entryId → e'.entryId = e.entryId

section

variable {platform : Platform} {s s' : RegistryImportState} {pages : List RegistryFeed} {now : DateTime}

theorem oneEntryPerUuid_baseEntries (hone : OneEntryPerUuid s.entries) : OneEntryPerUuid (baseEntries s) := by
  unfold baseEntries
  split
  · intro k k' hk
    exact absurd (SortedMap.get?_empty k) hk
  · exact hone

variable (h : Synchronizes platform s pages now s')

include h

/-- What is stored after a synchronization: the additions, and the base ids no entry names. -/
theorem Synchronizes.stored_iff (k : String) :
    s'.entries.get? k ≠ none ↔
      (∃ e ∈ allEntries pages, e.operation = .add ∧ e.entryId = k) ∨
      (k ∉ (allEntries pages).map RegistryEntry.entryId ∧ (baseEntries s).get? k ≠ none) := by
  obtain ⟨merged, happ, hentries⟩ := merged_of_synchronizes h.with
  rw [Ne, (revalidateEntries_get? hentries k).2]
  by_cases hk : k ∈ (allEntries pages).map RegistryEntry.entryId
  · obtain ⟨e, he, rfl⟩ := mem_map.mp hk
    cases hop : e.operation with
    | add =>
      obtain ⟨imported, -, hget⟩ := happ.get?_of_add he hop
      rw [hget]
      exact ⟨fun _ => .inl ⟨e, he, hop, rfl⟩, fun _ => by simp⟩
    | remove =>
      rw [happ.get?_of_remove he hop]
      refine ⟨fun hc => absurd rfl hc, ?_⟩
      rintro (⟨e', he', hop', heq⟩ | ⟨hnot, -⟩)
      · -- ids are distinct, so the addition would be the removal
        have hsame := inj_on_of_nodup_map happ.distinct he' he heq
        rw [hsame, hop] at hop'
        cases hop'
      · exact absurd hk hnot
  · rw [happ.get?_of_not_mem hk]
    refine ⟨fun hbase => .inr ⟨hk, hbase⟩, ?_⟩
    rintro (⟨e, he, -, rfl⟩ | ⟨-, hbase⟩)
    · exact absurd (mem_map_of_mem he) hk
    · exact hbase

/-- Batches that keep to one spelling keep one entry per UUID and remove whole identities. -/
theorem Synchronizes.identity_of_oneSpelling (hone : OneEntryPerUuid s.entries) (hspell : OneSpelling s pages) :
    OneEntryPerUuid s'.entries ∧ RemovalsComplete pages s'.entries := by
  have hbase := oneEntryPerUuid_baseEntries hone
  constructor
  · -- each of the two ids is an addition or was there before
    intro k k' hk hk' hsame
    rcases (h.stored_iff k).mp hk with ⟨e, he, hop, rfl⟩ | ⟨-, hkb⟩
    · rcases (h.stored_iff k').mp hk' with ⟨e', he', hop', rfl⟩ | ⟨-, hkb'⟩
      · exact (hspell e' he' hop').2 e he hop hsame
      · exact ((hspell e he hop).1 k' hkb' hsame.symm).symm
    · rcases (h.stored_iff k').mp hk' with ⟨e', he', hop', rfl⟩ | ⟨-, hkb'⟩
      · exact (hspell e' he' hop').1 k hkb hsame
      · exact hbase k k' hkb hkb' hsame
  · intro e he hop k hk hsame
    obtain ⟨merged, happ, -⟩ := merged_of_synchronizes h.with
    have hknown := happ.known e he hop
    rcases (h.stored_iff k).mp hk with ⟨a, ha, haop, rfl⟩ | ⟨hnot, hkb⟩
    · -- the addition would have to be spelled like the removed id, and ids are distinct
      have heq := (hspell a ha haop).1 e.entryId hknown hsame.symm
      rw [inj_on_of_nodup_map happ.distinct he ha heq, haop] at hop
      cases hop
    · have heq := hbase k e.entryId hkb hknown hsame
      exact hnot (heq ▸ mem_map_of_mem he)

/-- Conversely, one entry per UUID and whole removals force one spelling. -/
theorem Synchronizes.oneSpelling_of_identity (hone : OneEntryPerUuid s'.entries)
    (hremove : RemovalsComplete pages s'.entries) : OneSpelling s pages := by
  intro e he hop
  have hadded : ∀ a ∈ allEntries pages, a.operation = .add → s'.entries.get? a.entryId ≠ none :=
    fun a ha haop => (h.stored_iff a.entryId).mpr (.inl ⟨a, ha, haop, rfl⟩)
  refine ⟨?_, fun a ha haop hsame => hone _ _ (hadded a ha haop) (hadded e he hop) hsame⟩
  intro k hk hsame
  by_cases hmem : k ∈ (allEntries pages).map RegistryEntry.entryId
  · obtain ⟨x, hx, rfl⟩ := mem_map.mp hmem
    cases hxop : x.operation with
    | add => exact hone _ _ (hadded x hx hxop) (hadded e he hop) hsame
    | remove => exact absurd hsame.symm (hremove x hx hxop e.entryId (hadded e he hop))
  · exact hone _ _ ((h.stored_iff k).mpr (.inr ⟨hmem, hk⟩)) (hadded e he hop) hsame

end

/-- **The registry store over whole runs.** Every state a run of complete evaluations reaches is consistent. In a
    run whose batches all keep to one spelling, every state has one entry per UUID; and for any further
    evaluation of such a state, the new state has one entry per UUID and none for a removed one exactly when
    that batch keeps to one spelling too. -/
theorem one_entry_per_identity (platform : Platform) :
    (∀ s, ReflTransGen (fun s s' => ∃ pages now, Synchronizes platform s pages now s') .default s →
      Consistent platform s) ∧
    ∀ s, ReflTransGen (fun s s' => ∃ pages now, Synchronizes platform s pages now s' ∧ OneSpelling s pages) .default s →
      OneEntryPerUuid s.entries ∧
      ∀ pages now s', Synchronizes platform s pages now s' →
        (OneEntryPerUuid s'.entries ∧ RemovalsComplete pages s'.entries ↔ OneSpelling s pages) := by
  constructor
  · -- a state owes nothing to the run before its last step
    intro s hrun
    cases hrun with
    | refl => exact consistent_default platform
    | tail _ hstep =>
      obtain ⟨pages, now, h⟩ := hstep
      exact h.consistent
  · intro s hrun
    have hone : OneEntryPerUuid s.entries := by
      induction hrun with
      | refl => exact fun k k' hk => absurd (SortedMap.get?_empty k) hk
      | tail _ hstep ih =>
        obtain ⟨pages, now, h, hspell⟩ := hstep
        exact (h.identity_of_oneSpelling ih hspell).1
    refine ⟨hone, ?_⟩
    intro pages now s' h
    exact ⟨fun hid => h.oneSpelling_of_identity hid.1 hid.2, h.identity_of_oneSpelling hone⟩

/-- The first synchronization of the sample store. -/
theorem synchronizes_first : Synchronizes samplePlatform .default
    [samplePage "1" 1 [sampleAdd sampleId] false] sampleNow (sampleState "1" 1 [sampleId]) :=
  ⟨⟨true, 1, "1", some (sampleState "1" 1 [sampleId])⟩, by decide, rfl, rfl⟩

/-- Two synchronizations, and an entry of each. -/
theorem one_entry_per_identity_advancingPages :
    Consistent samplePlatform (sampleState "2" 2 [sampleId, otherId]) ∧
    OneEntryPerUuid (sampleState "2" 2 [sampleId, otherId]).entries := by
  have hspell : OneSpelling .default [samplePage "1" 1 [sampleAdd sampleId] false] := by
    intro e he _
    have heq : e = sampleAdd sampleId := mem_singleton.mp he
    refine ⟨fun k hk => absurd (SortedMap.get?_empty k) hk, ?_⟩
    intro e' he' _ _
    rw [heq, mem_singleton.mp he']
  have hspell' : OneSpelling (sampleState "1" 1 [sampleId]) advancingPages := by
    intro e he _
    have heq : e = sampleAdd otherId := mem_singleton.mp he
    refine ⟨?_, fun e' he' _ _ => by rw [heq, mem_singleton.mp he']⟩
    intro k hk hsame
    have hkey : k = sampleId := by
      by_contra hne
      exact hk ((SortedMap.get?_insert _ _ _ _).trans (if_neg hne))
    rw [hkey, heq] at hsame
    exact absurd hsame (by decide)
  refine ⟨(one_entry_per_identity samplePlatform).1 _ ?_, ((one_entry_per_identity samplePlatform).2 _ ?_).1⟩
  · exact (ReflTransGen.single ⟨_, _, synchronizes_first⟩).tail ⟨_, _, synchronizes_advancingPages⟩
  · exact (ReflTransGen.single ⟨_, _, synchronizes_first, hspell⟩).tail ⟨_, _, synchronizes_advancingPages, hspell'⟩

/-- `sampleId` in upper case. -/
def sampleIdUpper : String := "0F8FAD5B-D9CB-469F-A165-70867728950E"

def sampleRemove (id : String) : RegistryEntry :=
  { sampleAdd id with operation := .remove, certificatePem := none }

/-- Two spellings of one UUID are two entries, and removing one leaves the other. -/
theorem two_entries_for_one_uuid :
    ReflTransGen (fun s s' => ∃ pages now, Synchronizes samplePlatform s pages now s') .default
      (sampleState "2" 2 [sampleId, sampleIdUpper]) ∧
    ¬ OneEntryPerUuid (sampleState "2" 2 [sampleId, sampleIdUpper]).entries ∧
    Synchronizes samplePlatform (sampleState "2" 2 [sampleId, sampleIdUpper])
      [samplePage "3" 3 [sampleRemove sampleId] false] sampleNow (sampleState "3" 3 [sampleIdUpper]) ∧
    ¬ RemovalsComplete [samplePage "3" 3 [sampleRemove sampleId] false]
      (sampleState "3" 3 [sampleIdUpper]).entries := by
  have hsame : Uuid.parseStr sampleIdUpper = Uuid.parseStr sampleId := by decide
  have hsecond : Synchronizes samplePlatform (sampleState "1" 1 [sampleId])
      [samplePage "2" 2 [sampleAdd sampleIdUpper] false] sampleNow
      (sampleState "2" 2 [sampleId, sampleIdUpper]) :=
    ⟨⟨true, 1, "2", some (sampleState "2" 2 [sampleId, sampleIdUpper])⟩, by decide +kernel, rfl, rfl⟩
  refine ⟨?_, ?_, ?_, ?_⟩
  · exact (ReflTransGen.single ⟨_, _, synchronizes_first⟩).tail ⟨_, _, hsecond⟩
  · intro hone
    have := hone sampleIdUpper sampleId (by decide) (by decide) hsame
    exact absurd this (by decide)
  · exact ⟨⟨true, 1, "3", some (sampleState "3" 3 [sampleIdUpper])⟩, by decide, rfl, rfl⟩
  · intro hremoved
    exact hremoved (sampleRemove sampleId) (mem_singleton.mpr rfl) rfl sampleIdUpper
      (by decide) hsame

/-! ## Fewer pages -/

section

variable {check : EntryCheck} {previous : RegistryImportState} {now : DateTime} {pageCount index : Nat}

/-- A page that is accepted is accepted as one of fewer, and is the last one unless it announces more. -/
theorem applyPage_of_le {pageCount' : Nat} {feed : RegistryFeed} {before after : PageLoop}
    (hle : pageCount' ≤ pageCount) (h : applyPage check previous now pageCount index feed before = .ok after) :
    applyPage check previous now pageCount' index feed before = .ok after ∧
      (index + 1 < pageCount → feed.hasMore = true) ∧ before.previousPageToken ≠ some feed.syncToken ∧
      after.previousPageToken = some feed.syncToken := by
  obtain ⟨_, hfeed, h⟩ := of_bind h
  simp only [reject_bind_ok_iff] at h
  obtain ⟨hmore, hsequence, hadvanced, htoken, h⟩ := h
  refine ⟨bind_ok_iff.mpr ⟨_, hfeed, ?_⟩, fun hindex => by simpa [hindex] using hmore, htoken, ?_⟩
  · simp only [reject_bind_ok_iff]
    exact ⟨fun hlast => hmore ⟨by omega, hlast.2⟩, hsequence, hadvanced, htoken, h⟩
  · obtain ⟨_, -, h⟩ := of_bind h
    cases h
    rfl

/-- The pages before the last are accepted on their own, and announce more. -/
theorem applyPages_init {last : RegistryFeed}
    {before after : PageLoop} (hcount : index + pages.length < pageCount)
    (h : applyPages check previous now pageCount index (pages ++ [last]) before = .ok after) :
    (∃ middle, applyPages check previous now (pageCount - 1) index pages before = .ok middle) ∧
      ∀ feed ∈ pages, feed.hasMore = true := by
  induction pages generalizing index before with
  | nil => exact ⟨⟨before, rfl⟩, by simp⟩
  | cons feed rest ih =>
    obtain ⟨middle, hpage, hrest⟩ := of_bind h
    rw [length_cons] at hcount
    obtain ⟨hpage, hmore, -, -⟩ := applyPage_of_le (Nat.sub_le pageCount 1) hpage
    obtain ⟨⟨final, hfinal⟩, hmores⟩ := ih (by omega) hrest
    exact ⟨⟨final, bind_ok_iff.mpr ⟨middle, hpage, hfinal⟩⟩, forall_mem_cons.mpr ⟨hmore (by omega), hmores⟩⟩

/-- The token of a page is compared with that of the page before. -/
theorem applyPages_tokens {before after : PageLoop}
    (h : applyPages check previous now pageCount index pages before = .ok after) :
    (∀ feed ∈ pages.head?, before.previousPageToken ≠ some feed.syncToken) ∧
      pages.IsChain (fun page next => page.syncToken ≠ next.syncToken) := by
  induction pages generalizing index before with
  | nil => simp
  | cons feed rest ih =>
    obtain ⟨middle, hpage, hrest⟩ := of_bind h
    obtain ⟨-, -, hne, htoken⟩ := applyPage_of_le (Nat.le_refl _) hpage
    obtain ⟨hhead, hchain⟩ := ih hrest
    rw [htoken] at hhead
    refine ⟨by simpa using hne, isChain_cons.mpr ⟨?_, hchain⟩⟩
    exact fun next hnext heq => hhead next hnext (congrArg some heq)

end

/-- **An accepted list of pages is accepted page by page**, and no page has the token of the page before: so no token
    is repeated exactly if none is on two pages that are further apart. -/
theorem pages_accepted_one_by_one (platform : Platform) (previous : RegistryImportState) (now : DateTime)
    (pages : List RegistryFeed) (evaluation : RegistryEvaluation)
    (h : evaluatePages platform previous pages now = .ok evaluation) :
    (∀ front last, pages = front ++ [last] → front ≠ [] → ∃ page, front.getLast? = some page ∧
      evaluatePages platform previous front now = .ok ⟨false, front.length, page.syncToken, none⟩) ∧
    pages.IsChain (fun page next => page.syncToken ≠ next.syncToken) ∧
    ((pages.map RegistryFeed.syncToken).Nodup ↔ ∀ i j, i + 1 < j → j < pages.length →
      (pages.map RegistryFeed.syncToken)[i]? ≠ (pages.map RegistryFeed.syncToken)[j]?) := by
  obtain ⟨_, hshape, h⟩ := of_bind h
  simp only [reject_bind_ok_iff] at h
  obtain ⟨-, hlimit, h⟩ := h
  obtain ⟨final, hloop, -⟩ := of_bind h
  have htokens := (applyPages_tokens hloop).2
  refine ⟨?_, htokens, ?_⟩
  · rintro front last rfl hne
    rw [length_append, length_singleton] at hlimit hloop
    obtain ⟨⟨middle, hfront⟩, hmore⟩ := applyPages_init (by omega) hloop
    obtain ⟨page, hpage⟩ := Option.isSome_iff_exists.mp (getLast?_isSome.mpr hne)
    refine ⟨page, hpage, ?_⟩
    refine bind_ok_iff.mpr ⟨_, hshape, ?_⟩
    rw [reject_neg_bind hne, reject_neg_bind (by omega)]
    refine bind_ok_iff.mpr ⟨middle, hfront, bind_ok_iff.mpr ⟨page, expect_ok_iff.mpr hpage, ?_⟩⟩
    rw [if_pos (hmore page (mem_of_getLast? hpage)), reject_neg_bind (by omega)]
  · rw [nodup_iff_getElem?_ne_getElem?, length_map]
    refine ⟨fun h i j hij => h i j (by omega), fun h i j hij hj => ?_⟩
    obtain rfl | hapart := Nat.eq_or_lt_of_le (Nat.succ_le_of_lt hij)
    · have hne := isChain_iff_getElem.mp htokens i hj
      simpa [getElem?_eq_getElem hj, getElem?_eq_getElem (Nat.lt_of_succ_lt hj)] using hne
    · exact h i j hapart hj

theorem pages_accepted_one_by_one_empty :
    evaluatePages samplePlatform .default [samplePage "1" 1 [] true] sampleNow = .ok ⟨false, 1, "1", none⟩ := by
  obtain ⟨page, hpage, heval⟩ := (pages_accepted_one_by_one samplePlatform .default sampleNow
    [samplePage "1" 1 [] true, samplePage "2" 1 [] false]
    ⟨true, 2, "2", some (sampleState "2" 1 [])⟩ (by decide)).1 [_] _ rfl (cons_ne_nil _ _)
  cases hpage
  exact heval

/-- Two pages with one token and another between them. -/
theorem token_repeated_on_accepted_pages :
    evaluatePages samplePlatform .default
        [samplePage "1" 1 [] true, samplePage "2" 1 [] true, samplePage "1" 1 [] false] sampleNow =
      .ok ⟨true, 3, "1", some (sampleState "1" 1 [])⟩ := by
  decide

end MartyCore.TrustSync
