import MartyCore.Lib.SortedMap

/-!
# `Lib.Merge` — collecting entries into a map on which they must agree

Entries, several of which may have one key, are put into a map one after the other. An entry that differs from
the value its key already has is a conflict: it is reported, and the map keeps what it has. An entry that equals
the value replaces it, for an equality that may be coarser than identity.

`Collects` is what a run of such steps establishes, whatever the entries: the map only holds values of entries, the
reports are reports of entries, and if there is none, the map has for every entry a value equal to the entry's. Where
the value of an entry is a function of its key, there is none (`foldl_errors_eq_nil`).
-/

namespace MartyCore

open List

/-- The map so far, and the conflicts reported so far. -/
structure Merge (κ ν ε : Type) [LinearOrder κ] where
  output : SortedMap κ ν
  errors : List ε

namespace Merge

/-- A value for a key, with the report to make if it conflicts. -/
structure Entry (κ ν ε : Type) where
  key : κ
  value : ν
  report : ε

variable {κ ν ε : Type} [LinearOrder κ]

def empty : Merge κ ν ε := ⟨.empty, []⟩

variable (same : ν → ν → Bool)

def add (m : Merge κ ν ε) (entry : Entry κ ν ε) : Merge κ ν ε :=
  if (m.output.get? entry.key).any (fun existing => !same existing entry.value) then
    { m with errors := m.errors ++ [entry.report] }
  else { m with output := m.output.insert entry.key entry.value }

/-- `m` is what became of `entries`. -/
structure Collects (entries : List (Entry κ ν ε)) (m : Merge κ ν ε) : Prop where
  output : ∀ k v, m.output.get? k = some v → ∃ e ∈ entries, e.key = k ∧ e.value = v
  errors : ∀ report ∈ m.errors, ∃ e ∈ entries, e.report = report
  agree : m.errors = [] → ∀ e ∈ entries, ∃ kept, m.output.get? e.key = some kept ∧ same kept e.value = true

theorem collects_empty : Collects same [] (empty : Merge κ ν ε) := by
  constructor
  · intro k v h
    cases h
  · simp [empty]
  · simp

variable {same} {entries : List (Entry κ ν ε)} {m : Merge κ ν ε} {e : Entry κ ν ε}

theorem Collects.add_conflict (h : Collects same entries m) :
    Collects same (entries ++ [e]) { m with errors := m.errors ++ [e.report] } := by
  constructor
  · intro k v hget
    obtain ⟨e', he', hkv⟩ := h.output k v hget
    exact ⟨e', mem_append_left _ he', hkv⟩
  · intro report hreport
    rcases mem_append.mp hreport with hold | hnew
    · obtain ⟨e', he', hr⟩ := h.errors report hold
      exact ⟨e', mem_append_left _ he', hr⟩
    · exact ⟨e, by simp, (mem_singleton.mp hnew).symm⟩
  · simp

section

variable (hequiv : Equivalence (fun a b => same a b = true))

include hequiv

/-- The value of an older entry under the new key equals the value that was there, and so the new one. -/
theorem Collects.add_insert (h : Collects same entries m)
    (hfree : ∀ existing, m.output.get? e.key = some existing → same existing e.value = true) :
    Collects same (entries ++ [e]) { m with output := m.output.insert e.key e.value } := by
  constructor
  · intro k v hget
    rw [SortedMap.get?_insert] at hget
    split at hget
    · rename_i hk
      exact ⟨e, by simp, hk.symm, Option.some.inj hget⟩
    · obtain ⟨e', he', hkv⟩ := h.output k v hget
      exact ⟨e', mem_append_left _ he', hkv⟩
  · intro report hreport
    obtain ⟨e', he', hr⟩ := h.errors report hreport
    exact ⟨e', mem_append_left _ he', hr⟩
  · intro hnone e' he'
    rw [SortedMap.get?_insert]
    rcases mem_append.mp he' with hold | hnew
    · obtain ⟨kept, hkept, hsame⟩ := h.agree hnone e' hold
      by_cases hk : e'.key = e.key
      · rw [if_pos hk]
        exact ⟨e.value, rfl, hequiv.trans (hequiv.symm (hfree kept (hk ▸ hkept))) hsame⟩
      · rw [if_neg hk]
        exact ⟨kept, hkept, hsame⟩
    · rw [mem_singleton.mp hnew, if_pos rfl]
      exact ⟨e.value, rfl, hequiv.refl _⟩

/-- **One more entry.** -/
theorem Collects.add (h : Collects same entries m)
    (e : Entry κ ν ε) : Collects same (entries ++ [e]) (m.add same e) := by
  unfold Merge.add
  split
  · exact h.add_conflict
  · rename_i hfree
    refine h.add_insert hequiv ?_
    intro existing hexisting
    simpa [hexisting] using hfree

/-- **A whole run.** -/
theorem Collects.foldl (h : Collects same entries m)
    (more : List (Entry κ ν ε)) : Collects same (entries ++ more) (more.foldl (Merge.add same) m) := by
  induction more generalizing entries m with
  | nil => rwa [append_nil]
  | cons e rest ih =>
    rw [append_cons]
    exact ih (h.add hequiv e)

end

/-- **Entries that agree do not conflict**: where every entry has the value that a function gives its key, nothing is
    reported. -/
theorem foldl_errors_eq_nil (hrefl : ∀ v, same v v = true) (value : κ → Option ν)
    (hentries : ∀ e ∈ entries, value e.key = some e.value) (hm : m.errors = [])
    (houtput : ∀ k v, m.output.get? k = some v → value k = some v) :
    (entries.foldl (Merge.add same) m).errors = [] := by
  induction entries generalizing m with
  | nil => exact hm
  | cons e rest ih =>
    rw [forall_mem_cons] at hentries
    have hadd : m.add same e = { m with output := m.output.insert e.key e.value } := by
      refine if_neg ?_
      cases hget : m.output.get? e.key with
      | none => simp
      | some existing =>
        have heq : existing = e.value := Option.some.inj ((houtput _ _ hget).symm.trans hentries.1)
        simp [heq, hrefl]
    rw [foldl_cons, hadd]
    refine ih hentries.2 hm ?_
    intro k v hget
    rw [SortedMap.get?_insert] at hget
    split at hget
    · rename_i hk
      rw [hk, hentries.1, hget]
    · exact houtput k v hget

end Merge
end MartyCore
