import MartyCore.Lib.JsonRead

/-!
# `Lib.JsonShape` — what a value contains, and so what its text contains

`Bounded S K n` bounds a value from all sides at once: its strings and keys are in `S`, its numbers in `K`, and
arrays and objects are nested at most `n` deep. A character that is not part of the syntax gets into a text only through
a string or a key (`forall_mem_text`).

`KeysSorted` values have the members of every object in key order, as a map sorted by key keeps them. A `MapOrder` says
which of the two maps a JSON library has: one that is sorted by key, or one that keeps the order of insertion and moves
its last member into the place of one that is removed.
-/

namespace MartyCore.Json

open SortedMap
open List hiding lookup

variable {N : Type}

/-! ## Bounds -/

inductive Bounded (S : Str → Prop) (K : N → Prop) : Nat → Json N → Prop
  | null {n : Nat} : Bounded S K n .null
  | bool {n : Nat} (b : Bool) : Bounded S K n (.bool b)
  | num {n : Nat} {x : N} (h : K x) : Bounded S K n (.num x)
  | str {n : Nat} {s : Str} (h : S s) : Bounded S K n (.str s)
  | arr {n : Nat} {values : List (Json N)} (elements : ∀ v ∈ values, Bounded S K n v) : Bounded S K (n + 1) (.arr values)
  | obj {n : Nat} {members : List (Str × Json N)} (keys : ∀ m ∈ members, S m.1)
      (elements : ∀ m ∈ members, Bounded S K n m.2) : Bounded S K (n + 1) (.obj members)

variable {v : Json N}

theorem Bounded.mono {S : Str → Prop} {K : N → Prop} {n : Nat} (h : Bounded S K n v) {T : Str → Prop}
    (hT : ∀ s, S s → T s) {m : Nat} (hm : n ≤ m) : Bounded T K m v := by
  induction h generalizing m with
  | null => exact .null
  | bool b => exact .bool b
  | num h => exact .num h
  | str h => exact .str (hT _ h)
  | arr _ ih =>
    obtain ⟨m, rfl⟩ := Nat.exists_eq_add_of_le' (Nat.le_trans (Nat.le_add_left 1 _) hm)
    exact .arr (fun v hv => ih v hv (Nat.le_of_succ_le_succ hm))
  | obj keys _ ih =>
    obtain ⟨m, rfl⟩ := Nat.exists_eq_add_of_le' (Nat.le_trans (Nat.le_add_left 1 _) hm)
    exact .obj (fun e he => hT _ (keys e he)) (fun e he => ih e he (Nat.le_of_succ_le_succ hm))

/-- Only numbers of this kind. -/
def NumbersIn (K : N → Prop) (v : Json N) : Prop := ∃ n, Bounded (fun _ => True) K n v

/-! ## The characters of a text -/

/-- The characters a serialiser writes around strings and numbers. -/
def syntaxChars : Str := "nulltruefalse[],:\x7b\x7d".toList

theorem mem_joined {sep c : Char} {texts : List Str} (h : c ∈ Code.joined sep texts) :
    c = sep ∨ ∃ t ∈ texts, c ∈ t := by
  cases texts with
  | nil => cases h
  | cons t rest =>
    rcases mem_append.mp h with h | h
    · exact .inr ⟨t, mem_cons_self, h⟩
    · obtain ⟨other, hother, hc⟩ := mem_flatMap.mp h
      rcases mem_cons.mp hc with hc | hc
      · exact .inl hc
      · exact .inr ⟨other, mem_cons_of_mem _ hother, hc⟩

section

variable (format : NumberFormat N) {S : Str → Prop} {K : N → Prop} {P : Char → Prop}

/-- **A property of the syntax, of number characters and of quoted strings is one of the whole text.** -/
theorem forall_mem_text (hmarks : ∀ c ∈ syntaxChars, P c) (hnumber : ∀ c, isNumberChar c = true → P c)
    (hquote : ∀ s, S s → ∀ c ∈ quote s, P c) {n : Nat} {v : Json N} (hv : Bounded S K n v) :
    ∀ c ∈ text format.text v, P c := by
  -- what stands in the text of a separated list, given what stands in its parts
  have hlist : ∀ {first last : Char} {texts : List Str}, first ∈ syntaxChars → last ∈ syntaxChars →
      (∀ t ∈ texts, ∀ c ∈ t, P c) → ∀ c ∈ first :: (Code.joined ',' texts ++ [last]), P c := by
    intro first last texts hfirst hlast htexts c hc
    simp only [mem_cons, mem_append, not_mem_nil, or_false] at hc
    rcases hc with rfl | hc | rfl
    · exact hmarks _ hfirst
    · rcases mem_joined hc with rfl | ⟨t, ht, hct⟩
      · exact hmarks _ (by decide)
      · exact htexts t ht c hct
    · exact hmarks _ hlast
  induction hv with
  | null =>
    have hword : "null".toList ⊆ syntaxChars := by decide
    exact fun c hc => hmarks c (hword hc)
  | bool b =>
    have hwords : ∀ b : Bool, (if b then "true".toList else "false".toList) ⊆ syntaxChars := by decide
    exact fun c hc => hmarks c (hwords b hc)
  | num h => exact fun c hc => hnumber c (format.alphabet _ c hc)
  | str h => exact hquote _ h
  | arr _ ih =>
    rw [text_arr]
    refine hlist (by decide) (by decide) ?_
    intro t ht
    obtain ⟨v, hv, rfl⟩ := mem_map.mp ht
    exact ih v hv
  | obj keys _ ih =>
    rw [text_obj]
    refine hlist (by decide) (by decide) ?_
    intro t ht c hc
    obtain ⟨m, hm, rfl⟩ := mem_map.mp ht
    rcases mem_append.mp hc with hc | hc
    · exact hquote _ (keys m hm) c hc
    · rcases mem_cons.mp hc with rfl | hc
      · exact hmarks _ (by decide)
      · exact ih m hm c hc

end

/-! ## Sorted members -/

inductive KeysSorted : Json N → Prop
  | null : KeysSorted .null
  | bool (b : Bool) : KeysSorted (.bool b)
  | num (n : N) : KeysSorted (.num n)
  | str (s : Str) : KeysSorted (.str s)
  | arr {values : List (Json N)} (elements : ∀ v ∈ values, KeysSorted v) : KeysSorted (.arr values)
  | obj {members : List (Str × Json N)} (sorted : Sorted members)
      (elements : ∀ m ∈ members, KeysSorted m.2) : KeysSorted (.obj members)

theorem KeysSorted.wellFormed (h : v.KeysSorted) : v.WellFormed := by
  induction h with
  | null => exact .null
  | bool b => exact .bool b
  | num n => exact .num n
  | str s => exact .str s
  | arr _ ih => exact .arr ih
  | obj sorted _ ih => exact .obj sorted.nodup ih

/-! ## Sorting members -/

/-- The map filled with the members in this order. -/
def sortedMap (members : List (Str × Json N)) : SortedMap Str (Json N) :=
  members.foldl (fun acc m => acc.insert m.1 m.2) empty

variable {members : List (Str × Json N)}

theorem get?_sortedMap (hnodup : (members.map Prod.fst).Nodup) (key : Str) :
    (sortedMap members).get? key = lookup key members := by
  refine Option.ext fun v => ?_
  rw [sortedMap, get?_foldl_insert hnodup, lookup_eq_some_iff_of_nodup hnodup]
  simp

theorem sortedMap_entries (m : SortedMap Str (Json N)) : sortedMap m.entries = m :=
  ext_get? (fun key => get?_sortedMap m.nodup_keys key)

variable {m : Str × Json N}

theorem mem_of_mem_sortedMap (h : m ∈ (sortedMap members).entries) : m ∈ members := by
  have hfold : ∀ (rest : List (Str × Json N)) (acc : SortedMap Str (Json N)),
      m ∈ (rest.foldl (fun acc m => acc.insert m.1 m.2) acc).entries → m ∈ acc.entries ∨ m ∈ rest := by
    intro rest
    induction rest with
    | nil => exact fun acc h => .inl h
    | cons e rest ih =>
      intro acc h
      rcases ih (acc.insert e.1 e.2) h with h | h
      · rcases mem_insertList h with rfl | h
        · exact .inr mem_cons_self
        · exact .inl h
      · exact .inr (mem_cons_of_mem e h)
  rcases hfold members empty h with h | h
  · cases h
  · exact h

theorem length_sortedMap_le (members : List (Str × Json N)) : (sortedMap members).entries.length ≤ members.length :=
  (subperm_of_subset (sortedMap members).nodup_keys.of_map (fun _ => mem_of_mem_sortedMap)).length_le

/-! ## The two orders of a map -/

inductive MapOrder where
  | sorted | insertion
deriving DecidableEq

/-- Removal by swapping with the last member. -/
def swapRemove (key : Str) : List (Str × Json N) → List (Str × Json N)
  | [] => []
  | m :: rest =>
    if m.1 = key then
      match rest.getLast? with
      | some last => last :: rest.dropLast
      | none => []
    else m :: swapRemove key rest

namespace MapOrder

/-- The members of a map that was filled in this order, with different keys. -/
def arrange : MapOrder → List (Str × Json N) → List (Str × Json N)
  | .sorted, members => (sortedMap members).entries
  | .insertion, members => members

def remove (key : Str) : MapOrder → List (Str × Json N) → List (Str × Json N)
  | .sorted, members => eraseList key members
  | .insertion, members => swapRemove key members

/-- `Map::insert`. -/
def insert (key : Str) (v : Json N) : MapOrder → List (Str × Json N) → List (Str × Json N)
  | .sorted, members => insertList key v members
  | .insertion, members =>
    if key ∈ members.map Prod.fst then members.map (fun m => if m.1 = key then (m.1, v) else m)
    else members ++ [(key, v)]

/-- A value as the maps of a library hold it. -/
def Holds : MapOrder → Json N → Prop
  | .sorted, v => v.KeysSorted
  | .insertion, v => v.WellFormed

theorem mem_of_mem_arrange {order : MapOrder} (h : m ∈ order.arrange members) : m ∈ members := by
  cases order with
  | sorted => exact mem_of_mem_sortedMap h
  | insertion => exact h

variable (order : MapOrder)

theorem lookup_arrange (hnodup : (members.map Prod.fst).Nodup)
    (key : Str) : lookup key (order.arrange members) = lookup key members := by
  cases order with
  | sorted => exact get?_sortedMap hnodup key
  | insertion => rfl

theorem holds_of_keysSorted (h : v.KeysSorted) : order.Holds v := by
  cases order with
  | sorted => exact h
  | insertion => exact h.wellFormed

theorem Holds.wellFormed {order : MapOrder} (h : order.Holds v) : v.WellFormed := by
  cases order with
  | sorted => exact KeysSorted.wellFormed h
  | insertion => exact h

theorem holds_arrange (hnodup : (members.map Prod.fst).Nodup)
    (hmembers : ∀ m ∈ members, order.Holds m.2) : order.Holds (.obj (order.arrange members)) := by
  cases order with
  | sorted => exact .obj (sortedMap members).sorted (fun m hm => hmembers m (mem_of_mem_sortedMap hm))
  | insertion => exact .obj hnodup hmembers

/-- A map with its members in key order is one of either kind. -/
theorem holds_obj (m : SortedMap Str (Json N)) (hmembers : ∀ e ∈ m.entries, order.Holds e.2) :
    order.Holds (.obj m.entries) := by
  cases order with
  | sorted => exact .obj m.sorted hmembers
  | insertion => exact .obj m.nodup_keys hmembers

end MapOrder

/-- Up to their order, the members left are all but the first with the key. -/
theorem perm_swapRemove (key : Str) (members : List (Str × Json N)) :
    (swapRemove key members).Perm (members.eraseP (fun m => m.1 = key)) := by
  induction members with
  | nil => exact .nil
  | cons m rest ih =>
    by_cases hkey : m.1 = key
    · rw [swapRemove, if_pos hkey, eraseP_cons_of_pos (by simp [hkey])]
      cases hlast : rest.getLast? with
      | none => rw [getLast?_eq_none_iff.mp hlast]
      | some last =>
        obtain ⟨init, rfl⟩ := getLast?_eq_some_iff.mp hlast
        rw [dropLast_concat]
        exact (perm_append_singleton last init).symm
    · rw [swapRemove, if_neg hkey, eraseP_cons_of_neg (by simp [hkey])]
      exact ih.cons m

/-- Where keys are distinct, the first with the key is the only one. -/
theorem eraseP_eq_eraseList {key : Str} (hnodup : (members.map Prod.fst).Nodup) :
    members.eraseP (fun m => m.1 = key) = eraseList key members := by
  induction members with
  | nil => rfl
  | cons m rest ih =>
    rw [map_cons, nodup_cons] at hnodup
    by_cases hkey : m.1 = key
    · rw [eraseP_cons_of_pos (by simp [hkey]), eraseList, filter_cons_of_neg (by simp [hkey]),
        eq_comm, filter_eq_self]
      intro e he
      have hne : e.1 ≠ key := fun heq => hnodup.1 (hkey ▸ heq ▸ mem_map_of_mem he)
      simp [hne]
    · rw [eraseP_cons_of_neg (by simp [hkey]), eraseList, filter_cons_of_pos (by simp [hkey]),
        ih hnodup.2]
      rfl

theorem MapOrder.perm_remove (order : MapOrder) (key : Str)
    (hnodup : (members.map Prod.fst).Nodup) : (order.remove key members).Perm (eraseList key members) := by
  cases order with
  | sorted => exact .refl _
  | insertion => exact eraseP_eq_eraseList hnodup ▸ perm_swapRemove key members

theorem MapOrder.mem_of_mem_remove {order : MapOrder} {key : Str}
    (h : m ∈ order.remove key members) : m ∈ members := by
  cases order with
  | sorted => exact mem_of_mem_filter h
  | insertion => exact mem_of_mem_eraseP ((perm_swapRemove key members).mem_iff.mp h)

namespace MapOrder

/-! ## Maps that are filled and emptied -/

variable {order : MapOrder} {key : Str} {v : Json N} {members : List (Str × Json N)}

/-- The members of a map, in its order. -/
def Ordered : MapOrder → List (Str × Json N) → Prop
  | .sorted, members => Sorted members
  | .insertion, members => (members.map Prod.fst).Nodup

theorem holds_obj_iff : order.Holds (.obj members) ↔ order.Ordered members ∧ ∀ m ∈ members, order.Holds m.2 := by
  cases order with
  | sorted =>
    refine ⟨fun h => ?_, fun h => .obj h.1 h.2⟩
    cases (h : KeysSorted _) with | obj hsorted helements =>
    exact ⟨hsorted, helements⟩
  | insertion =>
    refine ⟨fun h => ?_, fun h => .obj h.1 h.2⟩
    cases (h : WellFormed _) with | obj hnodup helements =>
    exact ⟨hnodup, helements⟩

theorem Holds.nodup (h : order.Holds (.obj members)) : (members.map Prod.fst).Nodup := by
  cases h.wellFormed with
  | obj hnodup _ => exact hnodup

/-- A value found in a map is one the library holds. -/
theorem Holds.of_lookup (h : order.Holds (.obj members)) (hv : lookup key members = some v) : order.Holds v :=
  (holds_obj_iff.mp h).2 _ ((lookup_eq_some_iff_of_nodup h.nodup).mp hv)

theorem lookup_insert (order : MapOrder) (key : Str) (v : Json N) (members : List (Str × Json N)) (q : Str) :
    lookup q (order.insert key v members) = if q = key then some v else lookup q members := by
  cases order with
  | sorted =>
    show lookup q (insertList key v members) = _
    rw [lookup_insertList]
    congr
  | insertion =>
    rw [insert]
    by_cases hmem : key ∈ members.map Prod.fst
    · rw [if_pos hmem, lookup_modify key (fun _ => v)]
      by_cases hq : q = key
      · obtain ⟨w, hw⟩ := exists_lookup_of_mem hmem
        rw [if_pos hq, if_pos hq, hq, hw]
        rfl
      · rw [if_neg hq, if_neg hq]
    · rw [if_neg hmem, lookup_append]
      by_cases hq : q = key
      · rw [if_pos hq, hq, lookup_eq_none hmem]
        simp [lookup]
      · simp [lookup, hq, Ne.symm hq]

theorem holds_insert (hmembers : order.Holds (.obj members)) (hv : order.Holds v) :
    order.Holds (.obj (order.insert key v members)) := by
  cases order with
  | sorted =>
    obtain ⟨hsorted, helements⟩ := holds_obj_iff.mp hmembers
    refine .obj (sorted_insertList hsorted) ?_
    intro m hm
    rcases mem_insertList hm with rfl | hm
    · exact hv
    · exact helements m hm
  | insertion =>
    have hset : Json.obj (MapOrder.insertion.insert key v members) = Json.set key v (.obj members) := by
      rw [insert, Json.set]
      split <;> rfl
    rw [hset]
    exact wellFormed_set hv hmembers

/-- A member replaced in its place. -/
theorem holds_modify (hmembers : order.Holds (.obj members)) (hv : order.Holds v) :
    order.Holds (Json.modify key (fun _ => v) (.obj members)) := by
  cases order with
  | sorted =>
    obtain ⟨hsorted, helements⟩ := holds_obj_iff.mp hmembers
    refine .obj ?_ ?_
    · refine pairwise_map.mpr (hsorted.imp ?_)
      intro a b hab
      show (if a.1 = key then (a.1, v) else a).1 < (if b.1 = key then (b.1, v) else b).1
      split <;> split <;> exact hab
    · intro m hm
      obtain ⟨m', hm', rfl⟩ := mem_map.mp hm
      split
      · exact hv
      · exact helements m' hm'
  | insertion => exact wellFormed_modify (fun _ _ => hv) hmembers

theorem lookup_remove (h : order.Holds (.obj members)) (q : Str) :
    lookup q (order.remove key members) = if q = key then none else lookup q members := by
  have hperm := order.perm_remove key h.nodup
  have hnodup : ((eraseList key members).map Prod.fst).Nodup :=
    h.nodup.sublist (filter_sublist.map Prod.fst)
  have hsame : lookup q (order.remove key members) = lookup q (eraseList key members) := by
    refine Option.ext fun w => ?_
    rw [lookup_eq_some_iff_of_nodup hnodup, lookup_eq_some_iff_of_nodup ((hperm.map Prod.fst).nodup_iff.mpr hnodup),
      hperm.mem_iff]
  rw [hsame, lookup_eraseList]
  congr

theorem holds_remove (h : order.Holds (.obj members)) : order.Holds (.obj (order.remove key members)) := by
  obtain ⟨hordered, helements⟩ := holds_obj_iff.mp h
  refine holds_obj_iff.mpr ⟨?_, fun m hm => helements m (mem_of_mem_remove hm)⟩
  cases order with
  | sorted => exact sorted_eraseList hordered
  | insertion =>
    refine ((MapOrder.insertion.perm_remove key hordered).map Prod.fst).nodup_iff.mpr ?_
    exact List.Nodup.sublist (filter_sublist.map Prod.fst) hordered

end MapOrder

end MartyCore.Json
