/-!
# `Lib.Lock` — exclusive locks and the tasks that keep them

A lock records which task holds it. Tasks hold it at certain points of their code, and the record tracks that: the one on
record is the one at such a point (`Tracks`). It stays that way if each step of a task leaves the lock alone, takes it
while it is free or gives it back (`Moves`), and so no two tasks hold it at the same time (`Tracks.unique`).
-/

namespace MartyCore.Lock

variable {held held' : Option Nat} {holds holds' : Nat → Prop} {i j : Nat}

def Tracks (held : Option Nat) (holds : Nat → Prop) : Prop := ∀ i, held = some i ↔ holds i

/-- One step of task `i`, from a point to a point. -/
inductive Moves (i : Nat) (held held' : Option Nat) (before after : Prop) : Prop
  | stays (record : held' = held) (point : after ↔ before)
  | takes (free : held = none) (record : held' = some i) (point : after)
  | releases (point : before) (record : held' = none) (gone : ¬ after)

theorem Tracks.unique (h : Tracks held holds) (hi : holds i) (hj : holds j) : i = j :=
  Option.some.inj (((h i).mpr hi).symm.trans ((h j).mpr hj))

theorem Tracks.not_holds (h : Tracks held holds) (hfree : held = none) (i : Nat) : ¬ holds i := by
  intro hi
  rw [(h i).mpr hi] at hfree
  cases hfree

theorem tracks_none (h : ∀ i, ¬ holds i) : Tracks none holds := fun i => ⟨nofun, fun hi => absurd hi (h i)⟩

/-- **The record stays right.** -/
theorem Tracks.step (h : Tracks held holds) (hmoves : Moves i held held' (holds i) (holds' i))
    (hothers : ∀ j, j ≠ i → (holds' j ↔ holds j)) : Tracks held' holds' := by
  intro j
  by_cases hj : j = i
  · subst hj
    cases hmoves with
    | stays hrecord hpoint => rw [hrecord, hpoint, h j]
    | takes _ hrecord hpoint => exact ⟨fun _ => hpoint, fun _ => hrecord⟩
    | releases _ hrecord hgone =>
      constructor
      · intro hheld
        rw [hrecord] at hheld
        cases hheld
      · intro hp
        exact absurd hp hgone
  · rw [hothers j hj]
    cases hmoves with
    | stays hrecord _ => rw [hrecord, h j]
    | takes hfree hrecord _ =>
      constructor
      · intro hheld
        rw [hrecord] at hheld
        exact absurd (Option.some.inj hheld).symm hj
      · intro hp
        exact absurd hp (h.not_holds hfree j)
    | releases hbefore hrecord _ =>
      constructor
      · intro hheld
        rw [hrecord] at hheld
        cases hheld
      · intro hp
        exact absurd (h.unique hp hbefore) hj

end MartyCore.Lock
