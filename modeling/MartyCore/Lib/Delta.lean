import MartyCore.Lib.ListFacts

/-!
# `Lib.Delta` — a batch of keyed changes to a partial function

A change assigns a key a new value or removes it. A batch with pairwise distinct keys has a meaning that
mentions no order: a changed key has its change, every other key keeps its value (`apply`). `apply_cons`
is the link to a program that performs the changes one at a time, and `apply_of_perm` says that the batch
is what matters, not its listing.
-/

namespace MartyCore.Delta

variable {κ ν : Type} [DecidableEq κ]

/-- A key together with its new value, or `none` to remove it. -/
abbrev Change (κ ν : Type) := κ × Option ν

/-- One change, performed. -/
def update (base : κ → Option ν) (c : Change κ ν) (k : κ) : Option ν :=
  if k = c.1 then c.2 else base k

/-- A batch of changes to distinct keys, performed. -/
def apply (base : κ → Option ν) (changes : List (Change κ ν)) (k : κ) : Option ν :=
  match changes.find? (fun c => decide (c.1 = k)) with
  | some c => c.2
  | none => base k

variable {changes : List (Change κ ν)} {k : κ}

theorem find?_key_eq_none (hk : k ∉ changes.map Prod.fst) :
    changes.find? (fun c => decide (c.1 = k)) = none := by
  rw [List.find?_eq_none]
  intro c hc heq
  exact hk (List.mem_map.mpr ⟨c, hc, of_decide_eq_true heq⟩)

variable (base : κ → Option ν)

/-- A batch is its first change and then the rest, provided the rest does not change that key again. -/
theorem apply_cons {c : Change κ ν} (hfresh : c.1 ∉ changes.map Prod.fst) (k : κ) :
    apply base (c :: changes) k = apply (update base c) changes k := by
  unfold apply
  by_cases hk : c.1 = k
  · -- no later change is at this key, so performing `c` first loses nothing
    subst hk
    rw [List.find?_cons_of_pos (by simp), find?_key_eq_none hfresh]
    simp [update]
  · rw [List.find?_cons_of_neg (by simpa using hk)]
    cases changes.find? (fun c' => decide (c'.1 = k)) with
    | none => simp [update, Ne.symm hk]
    | some c' => rfl

/-- The order of the changes does not matter. -/
theorem apply_of_perm {changes changes' : List (Change κ ν)} (hnodup : (changes.map Prod.fst).Nodup)
    (h : changes'.Perm changes) (k : κ) :
    apply base changes' k = apply base changes k := by
  unfold apply
  rw [find?_of_perm (atMostOne_of_nodup_map hnodup k) h]

/-- A change decides its own key. -/
theorem apply_of_mem {c : Change κ ν} (hnodup : (changes.map Prod.fst).Nodup) (hc : c ∈ changes) :
    apply base changes c.1 = c.2 := by
  unfold apply
  rw [find?_eq_some_of_mem (atMostOne_of_nodup_map hnodup c.1) hc (by simp)]

/-- A key no change mentions keeps its value. -/
theorem apply_of_not_mem (hk : k ∉ changes.map Prod.fst) : apply base changes k = base k := by
  unfold apply
  rw [find?_key_eq_none hk]

end MartyCore.Delta
