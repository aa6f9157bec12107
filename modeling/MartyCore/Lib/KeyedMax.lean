import MartyCore.Lib.SortedMap

/-!
# `Lib.KeyedMax` — the greatest element of each key

A fold that keeps, under every key, the element of the highest rank seen so far. On elements whose ranks are
distinct the result has one reading: under a key stands the element of that key with the highest rank
(`get?_maxima`). That is a property of the elements as a set, so neither their order nor a split into batches
matters: an element that is not the greatest of its batch is not the greatest of all (`isMaximum_append`).
-/

namespace MartyCore.KeyedMax

open List

variable {α κ ρ : Type}

/-! ## Maxima -/

section

variable [LinearOrder ρ] (key : α → κ) (rank : α → ρ)

/-- The element of `l` under `k` with the highest rank. -/
def IsMaximum (l : List α) (k : κ) (a : α) : Prop :=
  a ∈ l ∧ key a = k ∧ ∀ b ∈ l, key b = k → rank b ≤ rank a

/-- Elements of equal rank are equal. -/
def RankInjective (l : List α) : Prop := ∀ a ∈ l, ∀ b ∈ l, rank a = rank b → a = b

variable {key rank}

theorem IsMaximum.congr {l l' : List α} (h : ∀ a, a ∈ l ↔ a ∈ l') {k : κ} {a : α} :
    IsMaximum key rank l k a ↔ IsMaximum key rank l' k a := by
  unfold IsMaximum
  simp only [h]

/-- **Batches**: the maxima of the first batch together with the second have the maxima of both. -/
theorem isMaximum_append {l l' tops : List α} (htops : ∀ a, a ∈ tops ↔ IsMaximum key rank l (key a) a)
    (hall : ∀ a ∈ l, ∃ b, IsMaximum key rank l (key a) b) {k : κ} {a : α} :
    IsMaximum key rank (tops ++ l') k a ↔ IsMaximum key rank (l ++ l') k a := by
  have hsub : ∀ {b}, b ∈ tops ++ l' → b ∈ l ++ l' :=
    fun {b} hb => mem_append.mpr ((mem_append.mp hb).imp_left fun h => ((htops b).mp h).1)
  constructor
  · rintro ⟨ha, hk, hmax⟩
    refine ⟨hsub ha, hk, fun b hb hbk => ?_⟩
    rcases mem_append.mp hb with hb | hb
    · -- the greatest of the first batch under this key is still there, and above `b`
      obtain ⟨c, hc⟩ := hall b hb
      have hctop : c ∈ tops := (htops c).mpr (hc.2.1.symm ▸ hc)
      exact le_trans (hc.2.2 b hb rfl) (hmax c (mem_append_left _ hctop) (hc.2.1.trans hbk))
    · exact hmax b (mem_append_right _ hb) hbk
  · rintro ⟨ha, hk, hmax⟩
    refine ⟨?_, hk, fun b hb hbk => hmax b (hsub hb) hbk⟩
    rcases mem_append.mp ha with ha | ha
    · refine mem_append_left _ ((htops a).mpr ⟨ha, rfl, fun b hb hbk => ?_⟩)
      exact hmax b (mem_append_left _ hb) (hbk.trans hk)
    · exact mem_append_right _ ha

end

/-! ## The fold -/

variable [LinearOrder κ] [LinearOrder ρ] (key : α → κ) (rank : α → ρ)

/-- Whether an element takes the place of the current one. -/
def replaces (current : Option α) (a : α) : Bool :=
  match current with
  | none => true
  | some b => rank b < rank a

/-- One round: an element replaces the one under its key if it ranks higher. -/
def keep (heads : SortedMap κ α) (a : α) : SortedMap κ α :=
  if replaces rank (heads.get? (key a)) a then heads.insert (key a) a else heads

def maxima (l : List α) : SortedMap κ α := l.foldl (keep key rank) SortedMap.empty

/-- What the fold knows about the elements so far: it holds some of them, each under its key, and none ranks above
    the one under its key. -/
structure Tracks (done : List α) (heads : SortedMap κ α) : Prop where
  held : ∀ k a, heads.get? k = some a → a ∈ done ∧ key a = k
  above : ∀ a ∈ done, ∃ b, heads.get? (key a) = some b ∧ rank a ≤ rank b

variable {key rank} {heads : SortedMap κ α} {done : List α}

/-- The step lemma. -/
theorem Tracks.keep (h : Tracks key rank done heads) (a : α) :
    Tracks key rank (done ++ [a]) (keep key rank heads a) := by
  unfold KeyedMax.keep
  by_cases hreplaces : replaces rank (heads.get? (key a)) a = true
  · rw [if_pos hreplaces]
    constructor
    · intro k b hget
      rw [SortedMap.get?_insert] at hget
      split at hget
      · rename_i hk
        cases hget
        exact ⟨by simp, hk.symm⟩
      · obtain ⟨hmem, hk⟩ := h.held k b hget
        exact ⟨mem_append_left _ hmem, hk⟩
    · intro c hc
      rw [SortedMap.get?_insert]
      by_cases hck : key c = key a
      · refine ⟨a, if_pos hck, ?_⟩
        rcases mem_append.mp hc with hc | hc
        · -- what was there ranks below the new element
          obtain ⟨b, hget, hle⟩ := h.above c hc
          rw [← hck, hget] at hreplaces
          exact le_trans hle (le_of_lt (of_decide_eq_true hreplaces))
        · rw [mem_singleton.mp hc]
      · rw [if_neg hck]
        rcases mem_append.mp hc with hc | hc
        · exact h.above c hc
        · exact absurd (congrArg key (mem_singleton.mp hc)) hck
  · rw [if_neg hreplaces]
    constructor
    · intro k b hget
      obtain ⟨hmem, hk⟩ := h.held k b hget
      exact ⟨mem_append_left _ hmem, hk⟩
    · intro c hc
      rcases mem_append.mp hc with hc | hc
      · exact h.above c hc
      · rw [mem_singleton.mp hc]
        cases hcurrent : heads.get? (key a) with
        | none => simp [hcurrent, replaces] at hreplaces
        | some b =>
          rw [hcurrent] at hreplaces
          exact ⟨b, rfl, not_lt.mp (fun hlt => hreplaces (decide_eq_true hlt))⟩

/-- The run lemma. -/
theorem Tracks.foldl (h : Tracks key rank done heads) (l : List α) :
    Tracks key rank (done ++ l) (l.foldl (KeyedMax.keep key rank) heads) := by
  induction l generalizing done heads with
  | nil => rwa [append_nil]
  | cons a rest ih =>
    have hnext := ih (h.keep a)
    rwa [append_assoc, singleton_append] at hnext

theorem tracks_maxima (key : α → κ) (rank : α → ρ) (l : List α) : Tracks key rank l (maxima key rank l) := by
  have hempty : Tracks key rank [] (SortedMap.empty : SortedMap κ α) := by
    constructor
    · intro k a h
      cases h
    · intro a ha
      exact absurd ha not_mem_nil
  exact hempty.foldl l

theorem isMaximum_of_get? {l : List α} {k : κ} {a : α} (h : (maxima key rank l).get? k = some a) :
    IsMaximum key rank l k a := by
  obtain ⟨hmem, hk⟩ := (tracks_maxima key rank l).held k a h
  refine ⟨hmem, hk, fun b hb hbk => ?_⟩
  obtain ⟨c, hc, hle⟩ := (tracks_maxima key rank l).above b hb
  rw [hbk, h] at hc
  exact Option.some.inj hc ▸ hle

/-- Every key of an element has a maximum. -/
theorem exists_isMaximum {l : List α} {a : α} (ha : a ∈ l) : ∃ b, IsMaximum key rank l (key a) b := by
  obtain ⟨b, hb, -⟩ := (tracks_maxima key rank l).above a ha
  exact ⟨b, isMaximum_of_get? hb⟩

/-- **Under a key stands the maximum of that key.** -/
theorem get?_maxima {l : List α} (hinj : RankInjective rank l) {k : κ} {a : α} :
    (maxima key rank l).get? k = some a ↔ IsMaximum key rank l k a := by
  refine ⟨isMaximum_of_get?, fun ⟨hmem, hk, hmax⟩ => ?_⟩
  obtain ⟨b, hb, hle⟩ := (tracks_maxima key rank l).above a hmem
  obtain ⟨hbmem, hbk, -⟩ := isMaximum_of_get? hb
  have hab : a = b := hinj a hmem b hbmem (le_antisymm hle (hmax b hbmem (hbk.trans hk)))
  rw [← hk, hb, hab]

end MartyCore.KeyedMax
