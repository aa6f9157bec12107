import Mathlib.Data.List.Forall2

/-!
# `Lib.Code` — texts that can be told apart from the front

An encoder that concatenates the texts of its parts is injective when the end of every part can be found from
the front. `Separates Stop s t R` says this of two texts: whatever follows them, as long as it may follow
(`Stop`), an equality of the two longer texts gives `R` and leaves the same rest. Concatenation composes it
(`Separates.append`), and so does a list with separators and a closing symbol (`separates_joined`).
-/

namespace MartyCore.Code

open List

variable {σ α : Type}

/-- Equal texts that begin with `s` and `t` give `R`, and agree on what follows. -/
def Separates (Stop : List σ → Prop) (s t : List σ) (R : Prop) : Prop :=
  ∀ rest rest', Stop rest → Stop rest' → s ++ rest = t ++ rest' → R ∧ rest = rest'

/-- Anything may follow. -/
def Always (_ : List σ) : Prop := True

theorem Separates.imp {Stop Stop' : List σ → Prop} {s t : List σ} {R R' : Prop} (h : Separates Stop s t R)
    (hstop : ∀ rest, Stop' rest → Stop rest) (hR : R → R') : Separates Stop' s t R' := by
  intro rest rest' hrest hrest' heq
  obtain ⟨hr, htail⟩ := h rest rest' (hstop rest hrest) (hstop rest' hrest') heq
  exact ⟨hR hr, htail⟩

/-- A part and what follows it. -/
theorem Separates.append {Stop Stop' : List σ → Prop} {s s' t t' : List σ} {R R' : Prop}
    (h : Separates Stop s t R) (h' : R → Separates Stop' s' t' R')
    (hs : ∀ rest, Stop' rest → Stop (s' ++ rest)) (ht : ∀ rest, Stop' rest → Stop (t' ++ rest)) :
    Separates Stop' (s ++ s') (t ++ t') (R ∧ R') := by
  intro rest rest' hrest hrest' heq
  rw [append_assoc, append_assoc] at heq
  obtain ⟨hr, heq⟩ := h _ _ (hs rest hrest) (ht rest' hrest') heq
  obtain ⟨hr', htail⟩ := h' hr rest rest' hrest hrest' heq
  exact ⟨⟨hr, hr'⟩, htail⟩

theorem separates_self (s : List σ) : Separates Always s s True :=
  fun _ _ _ _ heq => ⟨trivial, append_cancel_left heq⟩

/-- The same symbol in front of both. -/
theorem Separates.cons {Stop : List σ → Prop} {s t : List σ} {R : Prop} (c : σ) (h : Separates Stop s t R) :
    Separates Stop (c :: s) (c :: t) R := by
  intro rest rest' hrest hrest' heq
  exact h rest rest' hrest hrest' (List.cons.inj heq).2

/-- An encoder with a reader that finds the end of its texts. -/
theorem separates_of_read {enc : α → List σ} {read : List σ → Option (α × List σ)}
    (hread : ∀ a rest, read (enc a ++ rest) = some (a, rest)) (a b : α) :
    Separates Always (enc a) (enc b) (a = b) := by
  intro rest rest' _ _ heq
  have h := hread a rest
  rw [heq, hread b rest'] at h
  injection h with h
  exact ⟨(congrArg Prod.fst h).symm, (congrArg Prod.snd h).symm⟩

/-- Texts over an alphabet that what follows does not begin with: the first foreign symbol is the end. -/
theorem separates_of_alphabet {p : σ → Bool} {s t : List σ} (hs : ∀ c ∈ s, p c = true) (ht : ∀ c ∈ t, p c = true) :
    Separates (fun rest => ∀ c ∈ rest.head?, p c = false) s t (s = t) := by
  intro rest rest' hrest hrest' heq
  have hspan : ∀ {s rest : List σ}, (∀ c ∈ s, p c = true) → (∀ c ∈ rest.head?, p c = false) →
      (s ++ rest).takeWhile p = s := by
    intro s rest hs hrest
    rw [takeWhile_append_of_pos hs]
    cases rest with
    | nil => simp
    | cons c rest =>
      rw [takeWhile_cons_of_neg (by simp [hrest c (by simp)]), append_nil]
  have hst : s = t := by rw [← hspan hs hrest, heq, hspan ht hrest']
  subst hst
  exact ⟨rfl, append_cancel_left heq⟩

/-- Texts with equally many separators, before one. -/
theorem separates_of_count [DecidableEq σ] {sep : σ} {s t : List σ} (hcount : s.count sep = t.count sep) :
    Separates (fun rest => rest.head? = some sep) s t (s = t) := by
  intro rest rest' hrest hrest' heq
  induction s generalizing t with
  | nil =>
    cases t with
    | nil => exact ⟨rfl, heq⟩
    | cons c t =>
      subst heq
      cases hrest
      simp at hcount
  | cons c s ih =>
    cases t with
    | nil =>
      subst heq
      cases hrest'
      simp at hcount
    | cons d t =>
      obtain ⟨rfl, htail⟩ := List.cons.inj heq
      obtain ⟨rfl, hsame⟩ := ih (by simpa [count_cons] using hcount) htail
      exact ⟨rfl, hsame⟩

/-! ## Lists with separators -/

/-- `parts.join(sep)`. -/
def joined (sep : σ) : List (List σ) → List σ
  | [] => []
  | part :: rest => part ++ rest.flatMap (fun other => sep :: other)

section

variable {Stop : List σ → Prop} {sep close : σ} {enc : α → List σ} {R : α → α → Prop}
  (hsep : ∀ rest, Stop (sep :: rest)) (hclose : ∀ rest, Stop (close :: rest))

include hsep hclose

/-- What follows an element is a separator or the closing symbol. -/
theorem stop_tail (as : List α) (rest : List σ) :
    Stop ((as.map enc).flatMap (fun other => sep :: other) ++ [close] ++ rest) := by
  cases as with
  | nil => exact hclose rest
  | cons a as => exact hsep _

/-- The elements behind the first: each is announced by a separator, so the closing symbol ends them. -/
theorem separates_tail (hne : sep ≠ close) (as bs : List α)
    (h : ∀ a ∈ as, ∀ b ∈ bs, Separates Stop (enc a) (enc b) (R a b)) :
    Separates Always ((as.map enc).flatMap (fun other => sep :: other) ++ [close])
      ((bs.map enc).flatMap (fun other => sep :: other) ++ [close]) (List.Forall₂ R as bs) := by
  induction as generalizing bs with
  | nil =>
    cases bs with
    | nil => exact (separates_self [close]).imp (fun _ h => h) (fun _ => List.Forall₂.nil)
    | cons b bs =>
      intro rest rest' _ _ heq
      exact absurd (List.cons.inj heq).1.symm hne
  | cons a as ih =>
    cases bs with
    | nil =>
      intro rest rest' _ _ heq
      exact absurd (List.cons.inj heq).1 hne
    | cons b bs =>
      have hhead := h a mem_cons_self b mem_cons_self
      have htail := ih bs (fun x hx y hy => h x (mem_cons_of_mem _ hx) y (mem_cons_of_mem _ hy))
      simp only [map_cons, flatMap_cons, cons_append, append_assoc]
      refine Separates.cons sep ?_
      exact (hhead.append (fun _ => htail) (fun rest _ => stop_tail hsep hclose as rest)
        (fun rest _ => stop_tail hsep hclose bs rest)).imp (fun _ h => h)
        (fun hr => List.Forall₂.cons hr.1 hr.2)

/-- **Lists are told apart by their elements**: no element begins with the closing symbol, and the separator is
    another symbol. -/
theorem separates_joined (hne : sep ≠ close) {as bs : List α}
    (hstart : ∀ a ∈ as ++ bs, ∃ c tail, enc a = c :: tail ∧ c ≠ close)
    (h : ∀ a ∈ as, ∀ b ∈ bs, Separates Stop (enc a) (enc b) (R a b)) :
    Separates Always (joined sep (as.map enc) ++ [close]) (joined sep (bs.map enc) ++ [close])
      (List.Forall₂ R as bs) := by
  cases as with
  | nil =>
    cases bs with
    | nil => exact (separates_self [close]).imp (fun _ h => h) (fun _ => List.Forall₂.nil)
    | cons b bs =>
      obtain ⟨c, tail, henc, hc⟩ := hstart b (by simp)
      intro rest rest' _ _ heq
      simp only [map_nil, joined, map_cons, henc, nil_append, cons_append] at heq
      exact absurd (List.cons.inj heq).1.symm hc
  | cons a as =>
    cases bs with
    | nil =>
      obtain ⟨c, tail, henc, hc⟩ := hstart a (by simp)
      intro rest rest' _ _ heq
      simp only [map_nil, joined, map_cons, henc, nil_append, cons_append] at heq
      exact absurd (List.cons.inj heq).1 hc
    | cons b bs =>
      -- with a separator in front these are elements behind a first one
      intro rest rest' hrest hrest' heq
      exact separates_tail hsep hclose hne (a :: as) (b :: bs) h rest rest' hrest hrest' (congrArg (sep :: ·) heq)

end
end MartyCore.Code
