import Mathlib.Order.Lattice
import Mathlib.Data.List.Pairwise
import Mathlib.Data.List.Perm.Subperm

/-!
# `Lib.SortedMap` — an ordered key/value map with its order as a field

A finite map stored as an association list strictly sorted by key: an ordered tree map without the tree.
The order is part of the structure, so a value has no duplicate keys and one shape per content. That is
what makes `ext_get?` an *equality* of maps rather than an equivalence: two maps with the same lookups
are the same value, and a program's result can be compared with `=`.

The contract is the lookup calculus (`get?_insert`, `get?_erase`, `get?_empty`) together with
`mem_iff_get?`, which turns iteration over the entries into lookups.
-/

namespace MartyCore

open List

/-- The order in which a hash map happens to yield its entries: an arbitrary rearrangement. A program that
    iterates over one takes the order as an input, so a theorem for all orders is a theorem about no order. -/
structure IterationOrder (α : Type) where
  arrange : List α → List α
  perm : ∀ l, (arrange l).Perm l

/-! ## The raw list operations -/

variable {κ ν : Type} [LinearOrder κ]

namespace SortedMap

/-- The value stored under a key. -/
def lookup (k : κ) : List (κ × ν) → Option ν
  | [] => none
  | (k', v) :: rest => if k' = k then some v else lookup k rest

/-- Insert in key order, replacing the value of a key that is already there. -/
def insertList (k : κ) (v : ν) : List (κ × ν) → List (κ × ν)
  | [] => [(k, v)]
  | (k', v') :: rest =>
    if k < k' then (k, v) :: (k', v') :: rest
    else if k = k' then (k, v) :: rest
    else (k', v') :: insertList k v rest

/-- Drop the entry of a key. -/
def eraseList (k : κ) (l : List (κ × ν)) : List (κ × ν) := l.filter (fun e => decide (e.1 ≠ k))

/-- Strictly increasing keys. -/
def Sorted (l : List (κ × ν)) : Prop := l.Pairwise (fun a b => a.1 < b.1)

variable {l : List (κ × ν)} {k : κ} {v : ν}

theorem mem_insertList {e : κ × ν} (h : e ∈ insertList k v l) : e = (k, v) ∨ e ∈ l := by
  induction l with
  | nil => simpa [insertList] using h
  | cons hd tl ih =>
    simp only [insertList] at h
    split at h
    · rcases mem_cons.mp h with h | h
      · exact .inl h
      · exact .inr h
    · split at h
      · rcases mem_cons.mp h with h | h
        · exact .inl h
        · exact .inr (mem_cons_of_mem _ h)
      · rcases mem_cons.mp h with h | h
        · exact .inr (h ▸ mem_cons_self)
        · exact (ih h).imp id (mem_cons_of_mem _)

theorem sorted_insertList (h : Sorted l) : Sorted (insertList k v l) := by
  induction l with
  | nil => simp [insertList, Sorted]
  | cons hd tl ih =>
    obtain ⟨hhd, htl⟩ := pairwise_cons.mp h
    simp only [insertList]
    split
    · rename_i hlt
      refine pairwise_cons.mpr ⟨?_, h⟩
      intro e he
      rcases mem_cons.mp he with he | he
      · subst he; exact hlt
      · exact lt_trans hlt (hhd e he)
    · rename_i hge
      split
      · rename_i heq
        exact pairwise_cons.mpr ⟨fun e he => heq ▸ hhd e he, htl⟩
      · rename_i hne
        refine pairwise_cons.mpr ⟨?_, ih htl⟩
        intro e he
        rcases mem_insertList he with he | he
        · subst he; exact lt_of_le_of_ne (not_lt.mp hge) (fun hc => hne hc.symm)
        · exact hhd e he

theorem sorted_eraseList (h : Sorted l) : Sorted (eraseList k l) :=
  List.Pairwise.filter _ h

theorem lookup_insertList {k q : κ} : lookup q (insertList k v l) = if q = k then some v else lookup q l := by
  induction l with
  | nil =>
    by_cases hq : q = k
    · simp [insertList, lookup, hq]
    · simp [insertList, lookup, hq, Ne.symm hq]
  | cons hd tl ih =>
    obtain ⟨k', v'⟩ := hd
    simp only [insertList]
    split
    · by_cases hq : q = k
      · simp [lookup, hq]
      · simp [lookup, hq, Ne.symm hq]
    · split
      · rename_i heq
        subst heq
        by_cases hq : q = k
        · simp [lookup, hq]
        · simp [lookup, hq, Ne.symm hq]
      · rename_i hne
        simp only [lookup, ih]
        by_cases hk : k' = q
        · subst hk; simp [Ne.symm hne]
        · simp [hk]

/-- What is found when only some keys are kept. -/
theorem lookup_filter (keep : κ → Bool) :
    lookup k (l.filter (fun e => keep e.1)) = if keep k then lookup k l else none := by
  induction l with
  | nil => simp [lookup]
  | cons e rest ih =>
    by_cases hkey : e.1 = k
    · by_cases hkeep : keep k = true
      · simp [hkey, hkeep, lookup]
      · simp [hkey, hkeep, ih]
    · by_cases hkeep : keep e.1 = true
      · simp [hkeep, lookup, hkey, ih]
      · simp [hkeep, lookup, hkey, ih]

theorem lookup_eraseList {k q : κ} : lookup q (eraseList k l) = if q = k then none else lookup q l := by
  rw [eraseList, lookup_filter (fun key => decide (key ≠ k))]
  simp

/-- Where keys are distinct, an entry is found under its own key. -/
theorem lookup_eq_some_iff_of_nodup (hnodup : (l.map Prod.fst).Nodup) : lookup k l = some v ↔ (k, v) ∈ l := by
  induction l with
  | nil => simp [lookup]
  | cons entry rest ih =>
    obtain ⟨k', v'⟩ := entry
    obtain ⟨hfresh, hrest⟩ := nodup_cons.mp hnodup
    by_cases hk : k' = k
    · subst hk
      have hnone : (k', v) ∉ rest := fun hmem => hfresh (mem_map.mpr ⟨_, hmem, rfl⟩)
      simp [lookup, hnone, eq_comm]
    · simp [lookup, hk, ih hrest, Ne.symm hk]

theorem Sorted.nodup (h : Sorted l) : (l.map Prod.fst).Nodup := pairwise_map.mpr (h.imp (fun hlt => ne_of_lt hlt))

theorem mem_of_lookup (h : lookup k l = some v) : (k, v) ∈ l := by
  induction l with
  | nil => simp [lookup] at h
  | cons hd tl ih =>
    simp only [lookup] at h
    split at h
    · rename_i heq
      injection h with h
      subst heq; subst h
      exact mem_cons_self
    · exact mem_cons_of_mem _ (ih h)

/-- Sorted lists with the same lookups are equal: they have the same entries, in the only order these can have. -/
theorem eq_of_lookup_eq {l₁ l₂ : List (κ × ν)} (h₁ : Sorted l₁) (h₂ : Sorted l₂)
    (h : ∀ k, lookup k l₁ = lookup k l₂) : l₁ = l₂ := by
  have hmem : ∀ e, e ∈ l₁ ↔ e ∈ l₂ := by
    rintro ⟨k, v⟩
    rw [← lookup_eq_some_iff_of_nodup h₁.nodup, h k, lookup_eq_some_iff_of_nodup h₂.nodup]
  have hnodup : ∀ {l : List (κ × ν)}, Sorted l → l.Nodup :=
    fun h => h.imp (fun hlt heq => ne_of_lt hlt (congrArg Prod.fst heq))
  have hperm : l₁.Perm l₂ := (perm_ext_iff_of_nodup (hnodup h₁) (hnodup h₂)).mpr hmem
  exact hperm.eq_of_pairwise (fun a b _ _ hab hba => absurd (lt_trans hab hba) (lt_irrefl _)) h₁ h₂

end SortedMap

/-! ## The map -/

/-- A finite map in key order. -/
structure SortedMap (κ ν : Type) [LinearOrder κ] where
  entries : List (κ × ν)
  sorted : SortedMap.Sorted entries
deriving DecidableEq

namespace SortedMap

def empty : SortedMap κ ν := ⟨[], List.Pairwise.nil⟩

variable (m : SortedMap κ ν)

def get? (k : κ) : Option ν := lookup k m.entries

def insert (k : κ) (v : ν) : SortedMap κ ν :=
  ⟨insertList k v m.entries, sorted_insertList m.sorted⟩

def erase (k : κ) : SortedMap κ ν :=
  ⟨eraseList k m.entries, sorted_eraseList m.sorted⟩

@[simp] theorem get?_empty (k : κ) : (empty : SortedMap κ ν).get? k = none := rfl

theorem get?_insert (k q : κ) (v : ν) : (m.insert k v).get? q = if q = k then some v else m.get? q := lookup_insertList

theorem get?_erase (k q : κ) : (m.erase k).get? q = if q = k then none else m.get? q := lookup_eraseList

/-- The entries whose key is kept. -/
def restrict (keep : κ → Bool) : SortedMap κ ν :=
  ⟨m.entries.filter (fun e => keep e.1), m.sorted.filter _⟩

theorem get?_restrict (keep : κ → Bool) (k : κ) : (m.restrict keep).get? k = if keep k then m.get? k else none :=
  lookup_filter keep

variable {m : SortedMap κ ν}

theorem mem_iff_get? {k : κ} {v : ν} : (k, v) ∈ m.entries ↔ m.get? k = some v :=
  (lookup_eq_some_iff_of_nodup m.sorted.nodup).symm

theorem mem_keys_iff {k : κ} : k ∈ m.entries.map Prod.fst ↔ (m.get? k).isSome = true := by
  rw [Option.isSome_iff_exists, mem_map]
  constructor
  · rintro ⟨⟨key, value⟩, hmem, rfl⟩
    exact ⟨value, mem_iff_get?.mp hmem⟩
  · rintro ⟨value, hget⟩
    exact ⟨(k, value), mem_iff_get?.mpr hget, rfl⟩

theorem nodup_keys : (m.entries.map Prod.fst).Nodup := m.sorted.nodup

/-- A map with the keys of another one and as many entries has no other keys. -/
theorem keys_of_length_eq {ν' : Type} {m' : SortedMap κ ν'}
    (hkeys : ∀ k, (m.get? k).isSome = true → (m'.get? k).isSome = true)
    (hlength : m.entries.length = m'.entries.length) (k : κ) :
    (m'.get? k).isSome = true ↔ (m.get? k).isSome = true := by
  have hsubset : m.entries.map Prod.fst ⊆ m'.entries.map Prod.fst := by
    intro key hkey
    exact mem_keys_iff.mpr (hkeys key (mem_keys_iff.mp hkey))
  have hperm : (m.entries.map Prod.fst).Perm (m'.entries.map Prod.fst) := by
    refine (subperm_of_subset m.nodup_keys hsubset).perm_of_length_le ?_
    simp [hlength]
  rw [← mem_keys_iff, ← mem_keys_iff, hperm.mem_iff]

/-- Entries with different keys, inserted one after the other. -/
theorem get?_foldl_insert {α : Type} {key : α → κ} {value : α → ν} {l : List α} (hl : (l.map key).Nodup)
    (m : SortedMap κ ν) (k : κ) (v : ν) :
    (l.foldl (fun acc a => acc.insert (key a) (value a)) m).get? k = some v ↔
      (∃ a ∈ l, key a = k ∧ value a = v) ∨ k ∉ l.map key ∧ m.get? k = some v := by
  induction l generalizing m with
  | nil => simp
  | cons a rest ih =>
    obtain ⟨hfresh, hrest⟩ := nodup_cons.mp hl
    rw [foldl_cons, ih hrest, get?_insert]
    by_cases hk : k = key a
    · subst hk
      have hnone : ¬∃ b ∈ rest, key b = key a ∧ value b = v := by
        rintro ⟨b, hb, hkey, -⟩
        exact hfresh (hkey ▸ mem_map_of_mem hb)
      simp [hfresh, hnone]
    · simp [hk, Ne.symm hk]

/-- **Extensionality.** Two maps with the same lookups are the same map. -/
theorem ext_get? {m₁ m₂ : SortedMap κ ν} (h : ∀ k, m₁.get? k = m₂.get? k) : m₁ = m₂ := by
  obtain ⟨l₁, h₁⟩ := m₁
  obtain ⟨l₂, h₂⟩ := m₂
  have : l₁ = l₂ := eq_of_lookup_eq h₁ h₂ h
  subst this
  rfl

end SortedMap
end MartyCore
