import Mathlib.Data.List.Perm.Basic
import Mathlib.Data.List.Sort

/-!
# `Lib.ListFacts` — sole hits, sorted lists, splits and positions

`find?` returns the first hit. Where a predicate has at most one hit in a list, "first" says nothing about
the order: the result is the hit, and it survives every permutation.

Where elements have distinct keys, sorting by key is a function of the elements alone (`insertionSort_of_perm`). With
or without, the first element has a least key (`least_of_head?_insertionSort`).

A loop that carries the keys it has seen and refuses them accepts lists of new, pairwise distinct keys;
`nodup_fresh_cons_iff` is its step.

A property of an element that depends on the elements before it is stated over the splits
`before ++ a :: after` of the list; `forall_split_concat` extends such a statement by one element at the end.
-/

namespace MartyCore

open List

variable {α : Type}

/-- At most one element of `l` satisfies `p`. -/
def AtMostOne (p : α → Bool) (l : List α) : Prop :=
  ∀ a ∈ l, ∀ b ∈ l, p a = true → p b = true → a = b

variable {l : List α} {p : α → Bool} {a : α}

/-- A sole hit is found. -/
theorem find?_eq_some_of_mem (hone : AtMostOne p l) (ha : a ∈ l) (hp : p a = true) : l.find? p = some a := by
  cases hf : l.find? p with
  | none => exact absurd hp (by simpa using find?_eq_none.mp hf a ha)
  | some b =>
    have hb : p b = true := find?_some hf
    rw [hone b (mem_of_find?_eq_some hf) a ha hb hp]

theorem AtMostOne.of_perm {l l' : List α} (h : l'.Perm l) (hone : AtMostOne p l) : AtMostOne p l' :=
  fun a ha b hb => hone a (h.mem_iff.mp ha) b (h.mem_iff.mp hb)

/-- Searching for a sole hit does not depend on the order. -/
theorem find?_of_perm {l l' : List α} (hone : AtMostOne p l) (h : l'.Perm l) : l'.find? p = l.find? p := by
  cases hf : l.find? p with
  | none =>
    rw [find?_eq_none] at hf ⊢
    exact fun a ha => hf a (h.mem_iff.mp ha)
  | some a =>
    exact find?_eq_some_of_mem (hone.of_perm h) (h.mem_iff.mpr (mem_of_find?_eq_some hf))
      (find?_some hf)

/-- A scan that keeps the last hit is a search where there is at most one. -/
theorem foldl_last_eq_find? (hone : AtMostOne p l) :
    l.foldl (fun matched a => if p a then some a else matched) none = l.find? p := by
  have hlast : ∀ (l : List α) (init : Option α),
      l.foldl (fun matched a => if p a then some a else matched) init = (l.reverse.find? p).or init := by
    intro l
    induction l with
    | nil => simp
    | cons a rest ih =>
      intro init
      rw [foldl_cons, ih, reverse_cons, find?_append, find?_singleton, Option.or_assoc]
      cases p a <;> rfl
  rw [hlast, Option.or_none, find?_of_perm hone (reverse_perm l)]

variable {β : Type}

variable {f : α → β}

/-- Elements with pairwise distinct images under `f` give at most one hit per image. -/
theorem atMostOne_of_nodup_map [DecidableEq β] (h : (l.map f).Nodup) (b : β) :
    AtMostOne (fun a => decide (f a = b)) l := by
  intro a ha a' ha' hp hp'
  exact inj_on_of_nodup_map h ha ha' ((of_decide_eq_true hp).trans (of_decide_eq_true hp').symm)

/-- Where no key repeats, every entry is found under its key. -/
theorem lookup_eq_some_of_mem [DecidableEq α] {l : List (α × β)} (hnodup : (l.map Prod.fst).Nodup) {k : α} {v : β}
    (h : (k, v) ∈ l) : l.lookup k = some v := by
  obtain ⟨before, after, rfl⟩ := append_of_mem h
  rw [map_append, map_cons, nodup_append] at hnodup
  rw [lookup_eq_some_iff]
  refine ⟨before, after, rfl, ?_⟩
  intro p hp
  have hne : p.1 ≠ k := hnodup.2.2 p.1 (mem_map_of_mem hp) k mem_cons_self
  exact bne_iff_ne.mpr hne.symm

/-- One more element, with a new key. -/
theorem nodup_map_concat_iff : ((l ++ [a]).map f).Nodup ↔ f a ∉ l.map f ∧ (l.map f).Nodup := by
  rw [map_append, map_singleton, ← concat_eq_append, nodup_concat]

theorem notMem_map_of_nodup {rest : List α} (h : ((l ++ a :: rest).map f).Nodup) : f a ∉ l.map f := by
  rw [append_cons, map_append] at h
  exact (nodup_map_concat_iff.mp h.of_append_left).1

/-- `dedup`: of equal neighbours, only the last stays. -/
def removeRepeats [DecidableEq α] : List α → List α
  | a :: b :: rest => if a = b then removeRepeats (b :: rest) else a :: removeRepeats (b :: rest)
  | l => l

variable {x : α}

theorem mem_removeRepeats [DecidableEq α] : x ∈ removeRepeats l ↔ x ∈ l := by
  fun_induction removeRepeats l with
  | case1 a rest ih | case2 a b rest _ ih => simp [ih]
  | case3 => rfl

/-- What is kept of each element is its first occurrence. -/
theorem nodup_eraseDups [BEq α] [LawfulBEq α] (l : List α) : l.eraseDups.Nodup := by
  induction hn : l.length using Nat.strong_induction_on generalizing l with
  | _ n ih =>
    cases l with
    | nil => simp
    | cons a rest =>
      rw [eraseDups_cons, nodup_cons]
      have hshorter : (rest.filter (fun b => !b == a)).length < n := by
        have hle := length_filter_le (fun b => !b == a) rest
        simp only [length_cons] at hn
        omega
      refine ⟨?_, ih _ hshorter _ rfl⟩
      simp

theorem map_mapIdx {β γ : Type} (g : β → γ) (f : Nat → α → β) (l : List α) :
    (l.mapIdx f).map g = l.mapIdx (fun i a => g (f i a)) := by
  apply ext_getElem?
  intro i
  simp [Function.comp_def]

variable {bs : List β}

theorem eq_mapIdx_of_getElem? {f : Nat → α → β} (hlength : bs.length = l.length)
    (h : ∀ j b, bs[j]? = some b → ∃ a, l[j]? = some a ∧ b = f j a) : bs = l.mapIdx f := by
  apply ext_getElem?
  intro j
  rw [getElem?_mapIdx]
  cases hj : bs[j]? with
  | none =>
    rw [getElem?_eq_none_iff, hlength, ← getElem?_eq_none_iff] at hj
    rw [hj]
    rfl
  | some b =>
    obtain ⟨a, ha, rfl⟩ := h j b hj
    rw [ha]
    rfl

/-- One step of a loop that refuses what it has seen: what it accepts is new and pairwise distinct. -/
theorem nodup_fresh_cons_iff {l seen : List α} :
    ((a :: l).Nodup ∧ ∀ b ∈ a :: l, b ∉ seen) ↔ a ∉ seen ∧ l.Nodup ∧ ∀ b ∈ l, b ∉ a :: seen := by
  have hsplit : (∀ b ∈ l, b ∉ a :: seen) ↔ a ∉ l ∧ ∀ b ∈ l, b ∉ seen := by
    simp only [mem_cons, not_or, forall₂_and, forall_mem_ne']
  rw [nodup_cons, forall_mem_cons, hsplit]
  tauto

/-- A permutation of the images is the images of a permutation. -/
theorem exists_perm_of_perm_map (h : bs.Perm (l.map f)) : ∃ l' : List α, l'.Perm l ∧ bs = l'.map f := by
  have himage : List.Forall₂ (fun b a => b = f a) (l.map f) l := by
    rw [forall₂_map_left_iff, forall₂_same]
    exact fun a _ => rfl
  obtain ⟨l', hrel, hperm⟩ := perm_comp_forall₂ h himage
  refine ⟨l', hperm, ?_⟩
  rw [← forall₂_eq_eq_eq, forall₂_map_right_iff]
  exact hrel

/-- What is joined to zero is zero. -/
theorem foldl_eq_zero_iff {γ : Type} [Zero γ] (join : γ → γ → γ) (f : α → γ)
    (hjoin : ∀ x y, join x y = 0 ↔ x = 0 ∧ y = 0) {init : γ} :
    l.foldl (fun x a => join x (f a)) init = 0 ↔ init = 0 ∧ ∀ a ∈ l, f a = 0 := by
  induction l generalizing init with
  | nil => simp
  | cons a rest ih => rw [foldl_cons, ih, hjoin, forall_mem_cons, and_assoc]

section

variable {κ : Type} [LinearOrder κ] {key : α → κ}

instance isTrans_key : IsTrans α (fun a b => key a ≤ key b) := ⟨fun _ _ _ => le_trans⟩

instance total_key : Std.Total (fun a b : α => key a ≤ key b) := ⟨fun a b => le_total (key a) (key b)⟩

/-- A list sorted by a key that no two elements share depends only on its elements. -/
theorem insertionSort_of_perm {l l' : List α} (h : l'.Perm l) (hnodup : (l.map key).Nodup) :
    l'.insertionSort (fun a b => key a ≤ key b) = l.insertionSort (fun a b => key a ≤ key b) := by
  refine List.Perm.eq_of_pairwise ?_ (pairwise_insertionSort _ l') (pairwise_insertionSort _ l)
    (((perm_insertionSort _ l').trans h).trans (perm_insertionSort _ l).symm)
  intro a b ha hb hab hba
  rw [mem_insertionSort] at ha hb
  exact inj_on_of_nodup_map hnodup (h.mem_iff.mp ha) hb (le_antisymm hab hba)

/-- The first of the elements with the least key comes first. -/
theorem head?_insertionSort {before after : List α} (hbefore : ∀ b ∈ before, ¬key b ≤ key a)
    (hafter : ∀ b ∈ after, key a ≤ key b) :
    ((before ++ a :: after).insertionSort (fun a b => key a ≤ key b)).head? = some a := by
  induction before with
  | nil =>
    rw [nil_append, insertionSort_cons_of_forall_rel _ hafter]
    rfl
  | cons b before ih =>
    rw [forall_mem_cons] at hbefore
    obtain ⟨rest, hrest⟩ := head?_eq_some_iff.mp (ih hbefore.2)
    rw [cons_append, insertionSort_cons, hrest, orderedInsert_cons, if_neg hbefore.1]
    rfl

/-- The first element of a sorted list is a least one. -/
theorem least_of_head?_insertionSort (h : (l.insertionSort (fun a b => key a ≤ key b)).head? = some a) :
    a ∈ l ∧ ∀ b ∈ l, key a ≤ key b := by
  obtain ⟨rest, hsorted⟩ := head?_eq_some_iff.mp h
  have hpairwise := pairwise_insertionSort (fun a b => key a ≤ key b) l
  rw [hsorted, pairwise_cons] at hpairwise
  have hmem : ∀ b, b ∈ l ↔ b = a ∨ b ∈ rest := by
    intro b
    rw [← mem_insertionSort (fun a b => key a ≤ key b), hsorted, mem_cons]
  refine ⟨(hmem a).mpr (.inl rfl), fun b hb => ?_⟩
  rcases (hmem b).mp hb with rfl | hrest
  · exact le_refl _
  · exact hpairwise.1 b hrest

end

variable {R : α → β → Prop} {as : List α}

theorem exists_forall₂_iff : (∃ bs, List.Forall₂ R as bs) ↔ ∀ a ∈ as, ∃ b, R a b := by
  induction as with
  | nil => simp
  | cons a rest ih =>
    rw [forall_mem_cons, ← ih]
    simp only [forall₂_cons_left_iff]
    constructor
    · rintro ⟨_, b, bs, hb, hbs, -⟩
      exact ⟨⟨b, hb⟩, bs, hbs⟩
    · rintro ⟨⟨b, hb⟩, bs, hbs⟩
      exact ⟨_, b, bs, hb, hbs, rfl⟩

/-- Every element of the first list has a partner in the second. -/
theorem exists_of_mem_forall₂ (h : List.Forall₂ R as bs) (ha : a ∈ as) :
    ∃ b ∈ bs, R a b := by
  induction h with
  | nil => simp at ha
  | cons hr _ ih =>
    rcases mem_cons.mp ha with rfl | ha
    · exact ⟨_, mem_cons_self, hr⟩
    · obtain ⟨b, hb, hab⟩ := ih ha
      exact ⟨b, mem_cons_of_mem _ hb, hab⟩

/-- Partners that a function determines. -/
theorem eq_map_of_forall₂ (h : List.Forall₂ R as bs)
    (hf : ∀ a ∈ as, ∀ b, R a b → b = f a) : bs = as.map f := by
  induction h with
  | nil => rfl
  | cons hr _ ih =>
    rw [map_cons, ← hf _ mem_cons_self _ hr, ← ih (fun a ha => hf a (mem_cons_of_mem _ ha))]

/-- Moving all occurrences of `x` to the end changes nothing exactly when they are at the end. -/
theorem filter_append_replicate_eq_iff [DecidableEq α] :
    l.filter (fun a => decide (a ≠ x)) ++
        List.replicate (l.length - (l.filter (fun a => decide (a ≠ x))).length) x = l ↔
      ∀ a ∈ l.dropWhile (fun a => decide (a ≠ x)), a = x := by
  induction l with
  | nil => simp
  | cons b l ih =>
    by_cases hb : b = x
    · subst hb
      rw [filter_cons_of_neg (by simp), dropWhile_cons_of_neg (by simp), forall_mem_cons]
      have hnone : l.filter (fun a => decide (a ≠ b)) = [] ↔ ∀ a ∈ l, a = b := by simp [filter_eq_nil_iff]
      constructor
      · intro h
        -- a kept element would stand at the head, where `b` is
        refine ⟨rfl, hnone.mp ?_⟩
        cases hkept : l.filter (fun a => decide (a ≠ b)) with
        | nil => rfl
        | cons a kept =>
          have ha : a ∈ l.filter (fun a => decide (a ≠ b)) := by
            rw [hkept]
            exact mem_cons_self
          rw [hkept] at h
          injection h with h _
          exact absurd h (of_decide_eq_true (mem_filter.mp ha).2)
      · rintro ⟨-, hall⟩
        rw [hnone.mpr hall]
        exact (eq_replicate_of_mem (forall_mem_cons.mpr ⟨rfl, hall⟩)).symm
    · rw [filter_cons_of_pos (by simpa using hb), dropWhile_cons_of_pos (by simpa using hb), ← ih,
        length_cons, length_cons, Nat.add_sub_add_right, cons_append, List.cons.injEq]
      exact and_iff_right rfl

/-- A split of `l ++ [x]` is a split of `l`, or the one at `x`. -/
theorem split_concat_cases {l before after : List α} (h : l ++ [x] = before ++ a :: after) :
    (before = l ∧ a = x ∧ after = []) ∨ ∃ after', l = before ++ a :: after' ∧ after = after' ++ [x] := by
  rcases eq_nil_or_concat after with rfl | ⟨after', y, rfl⟩
  · obtain ⟨rfl, hxa⟩ := append_inj' h rfl
    injection hxa with hxa
    exact .inl ⟨rfl, hxa.symm, rfl⟩
  · rw [concat_eq_append, ← cons_append, ← append_assoc] at h
    obtain ⟨hl, hx⟩ := append_inj' h rfl
    injection hx with hx
    exact .inr ⟨after', hl, by rw [concat_eq_append, hx]⟩

/-- The splits of `l ++ [x]` are the splits of `l`, and the one at `x`. -/
theorem forall_split_concat {P : List α → α → Prop} :
    (∀ before a after, l ++ [x] = before ++ a :: after → P before a) ↔
      (∀ before a after, l = before ++ a :: after → P before a) ∧ P l x := by
  constructor
  · intro h
    refine ⟨?_, h l x [] rfl⟩
    rintro before a after rfl
    exact h before a (after ++ [x]) (by simp)
  · rintro ⟨hl, hx⟩ before a after heq
    rcases split_concat_cases heq with ⟨rfl, rfl, -⟩ | ⟨after', hl', -⟩
    · exact hx
    · exact hl before a after' hl'

/-! ## Positions -/

/-- What is where when one element has been replaced. -/
theorem getElem?_set_iff {i j : Nat} {b c : α} (hi : l[i]? = some a) :
    (l.set i b)[j]? = some c ↔ (j = i ∧ c = b) ∨ (j ≠ i ∧ l[j]? = some c) := by
  obtain ⟨hlt, -⟩ := List.getElem?_eq_some_iff.mp hi
  by_cases hj : j = i
  · subst hj
    simp [hlt, eq_comm]
  · rw [getElem?_set_ne (Ne.symm hj)]
    simp [hj]

/-- What is where when one element has been added. -/
theorem getElem?_concat_iff {j : Nat} {b c : α} :
    (l ++ [b])[j]? = some c ↔ l[j]? = some c ∨ (j = l.length ∧ c = b) := by
  rcases Nat.lt_trichotomy j l.length with hlt | heq | hgt
  · rw [getElem?_append_left hlt]
    simp [Nat.ne_of_lt hlt]
  · subst heq
    simp [eq_comm]
  · rw [getElem?_eq_none (by simp; omega), getElem?_eq_none (Nat.le_of_lt hgt)]
    simp [Nat.ne_of_gt hgt]

/-- Some entry, counted from `i`: the head at `i`, or one of the rest, counted from `i + 1`. -/
theorem exists_getElem?_cons {P : Nat → α → Prop} (i : Nat) :
    (∃ j a, (x :: l)[j]? = some a ∧ P (i + j) a) ↔ P i x ∨ ∃ j a, l[j]? = some a ∧ P (i + 1 + j) a := by
  rw [← Nat.or_exists_add_one]
  simp [Nat.add_right_comm i 1, Nat.add_assoc]

end MartyCore
