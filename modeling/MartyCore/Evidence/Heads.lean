import MartyCore.Evidence.Model

/-!
# `Evidence.Heads` — the current revisions do not depend on the order of arrival

`current_heads` keeps the greatest revision of every effective key (`Lib.KeyedMax`) and sorts what it kept by
another order. Ids are distinct, and both orders end in the id: no two facts tie in either. So the heads are a
function of the set of facts, and heads of a batch can be merged with later facts without going back to the
batch.
-/

namespace MartyCore.Evidence

open KeyedMax List

variable {N : Type} {facts : List (EvidenceFact N)}

theorem rankInjective_of_nodup (hids : (facts.map EvidenceFact.id).Nodup) : RankInjective factOrder facts := by
  intro a ha b hb hrank
  have hid : (ofLex (ofLex (ofLex (factOrder a)).2).2).2 = (ofLex (ofLex (ofLex (factOrder b)).2).2).2 := by
    rw [hrank]
  exact inj_on_of_nodup_map hids ha hb hid

/-- The heads are the maxima, one for each entry of the map. -/
theorem mem_currentHeads (hids : (facts.map EvidenceFact.id).Nodup) {head : EvidenceFact N} :
    head ∈ currentHeads facts ↔ IsMaximum effectiveKey factOrder facts (effectiveKey head) head := by
  have hinj := rankInjective_of_nodup hids
  unfold currentHeads
  rw [mem_insertionSort, mem_map]
  constructor
  · rintro ⟨⟨key, fact⟩, hentry, rfl⟩
    have hmax := (get?_maxima hinj).mp (SortedMap.mem_iff_get?.mp hentry)
    rwa [hmax.2.1]
  · intro hmax
    exact ⟨(effectiveKey head, head), SortedMap.mem_iff_get?.mpr ((get?_maxima hinj).mpr hmax), rfl⟩

/-- The heads are determined by which facts are the maxima. -/
theorem currentHeads_congr {facts facts' : List (EvidenceFact N)} (hids : (facts.map EvidenceFact.id).Nodup)
    (hids' : (facts'.map EvidenceFact.id).Nodup) (h : ∀ key fact, IsMaximum effectiveKey factOrder facts' key fact ↔
      IsMaximum effectiveKey factOrder facts key fact) :
    currentHeads facts' = currentHeads facts := by
  have hmaps : KeyedMax.maxima effectiveKey factOrder facts' = KeyedMax.maxima effectiveKey factOrder facts := by
    apply SortedMap.ext_get?
    intro key
    apply Option.ext
    intro fact
    rw [get?_maxima (rankInjective_of_nodup hids), get?_maxima (rankInjective_of_nodup hids')]
    exact h key fact
  rw [currentHeads, currentHeads, hmaps]

/-- The entries of the map carry their key. -/
theorem currentHeads_keys_nodup (facts : List (EvidenceFact N)) : ((currentHeads facts).map effectiveKey).Nodup := by
  have hperm : ((currentHeads facts).map effectiveKey).Perm
      ((KeyedMax.maxima effectiveKey factOrder facts).entries.map Prod.fst) := by
    refine ((perm_insertionSort _ _).map effectiveKey).trans ?_
    rw [map_map]
    refine List.Perm.of_eq (map_congr_left fun entry hentry => ?_)
    exact (isMaximum_of_get? (SortedMap.mem_iff_get?.mp hentry)).2.1
  rw [hperm.nodup_iff]
  have hsorted := (KeyedMax.maxima effectiveKey factOrder facts).sorted
  exact pairwise_map.mpr (hsorted.imp fun hlt => ne_of_lt hlt)

theorem currentHeads_subset (hids : (facts.map EvidenceFact.id).Nodup) :
    ∀ head ∈ currentHeads facts, head ∈ facts := fun _ hhead => ((mem_currentHeads hids).mp hhead).1

/-- Heads of a batch followed by later facts have distinct ids. -/
theorem nodup_currentHeads_append {batch later : List (EvidenceFact N)}
    (hids : ((batch ++ later).map EvidenceFact.id).Nodup) :
    ((currentHeads batch ++ later).map EvidenceFact.id).Nodup := by
  rw [map_append, nodup_append] at hids ⊢
  obtain ⟨hbatch, hlater, hdisjoint⟩ := hids
  refine ⟨?_, hlater, ?_⟩
  · -- distinct heads are distinct facts of the batch
    have hheads : (currentHeads batch).Nodup := List.Nodup.of_map _ (currentHeads_keys_nodup batch)
    refine hheads.map_on fun a ha b hb hid => ?_
    exact inj_on_of_nodup_map hbatch (currentHeads_subset hbatch a ha) (currentHeads_subset hbatch b hb) hid
  · intro id hid
    obtain ⟨head, hhead, rfl⟩ := mem_map.mp hid
    exact hdisjoint _ (mem_map_of_mem (currentHeads_subset hbatch head hhead))

/-- **Revision heads are order-independent and incremental.** For facts with distinct ids: every permutation has the
    same heads; there is exactly one for each effective key, the greatest revision of the key; they are sorted by
    observation, creation and id; and merging the heads of a batch with later facts gives the heads of all. -/
theorem currentHeads_spec (facts : List (EvidenceFact N)) (hids : (facts.map EvidenceFact.id).Nodup) :
    (∀ facts', facts'.Perm facts → currentHeads facts' = currentHeads facts) ∧
    ((currentHeads facts).map effectiveKey).Nodup ∧
    (∀ key, key ∈ (currentHeads facts).map effectiveKey ↔ ∃ fact ∈ facts, effectiveKey fact = key) ∧
    (∀ head ∈ currentHeads facts, head ∈ facts ∧
      ∀ fact ∈ facts, effectiveKey fact = effectiveKey head → factOrder fact ≤ factOrder head) ∧
    (currentHeads facts).Pairwise (fun a b => outputOrder a ≤ outputOrder b) ∧
    (∀ batch later, facts = batch ++ later → currentHeads facts = currentHeads (currentHeads batch ++ later)) := by
  refine ⟨?_, currentHeads_keys_nodup facts, ?_, ?_, ?_, ?_⟩
  · intro facts' hperm
    exact currentHeads_congr hids ((hperm.map _).nodup_iff.mpr hids)
      (fun key fact => IsMaximum.congr (fun _ => hperm.mem_iff))
  · intro key
    rw [mem_map]
    constructor
    · rintro ⟨head, hhead, hkey⟩
      exact ⟨head, currentHeads_subset hids head hhead, hkey⟩
    · rintro ⟨fact, hfact, rfl⟩
      obtain ⟨head, hmax⟩ : ∃ head, IsMaximum effectiveKey factOrder facts (effectiveKey fact) head :=
        exists_isMaximum hfact
      have hkey : effectiveKey head = effectiveKey fact := hmax.2.1
      exact ⟨head, (mem_currentHeads hids).mpr (hkey.symm ▸ hmax), hkey⟩
  · intro head hhead
    obtain ⟨hmem, -, hmax⟩ := (mem_currentHeads hids).mp hhead
    exact ⟨hmem, hmax⟩
  · exact pairwise_insertionSort _ _
  · rintro batch later rfl
    have hbatch : (batch.map EvidenceFact.id).Nodup := by
      rw [map_append] at hids
      exact hids.of_append_left
    refine (currentHeads_congr hids (nodup_currentHeads_append hids) (fun key fact => ?_)).symm
    exact isMaximum_append (fun head => mem_currentHeads hbatch)
      (fun fact hfact => exists_isMaximum hfact)

/-- Two revisions of one key, and a fact without a key. -/
def sampleFacts : List (EvidenceFact Nat) :=
  [⟨['a'], ['k'], [], [], [], [], [], [], [], [], none, 5, 5⟩,
   ⟨['b'], ['k'], [], [], [], [], [], [], [], [], some 9, 3, 3⟩,
   ⟨['c'], [], [], [], [], [], [], [], [], [], none, 1, 1⟩]

theorem currentHeads_spec_sampleFacts :
    (sampleFacts.map EvidenceFact.id).Nodup ∧
    currentHeads sampleFacts.reverse = currentHeads sampleFacts ∧
    (currentHeads sampleFacts).map EvidenceFact.id = [['c'], ['b']] := by
  have hids : (sampleFacts.map EvidenceFact.id).Nodup := by decide
  exact ⟨hids, (currentHeads_spec sampleFacts hids).1 _ (reverse_perm _), by decide⟩

end MartyCore.Evidence
