import MartyCore.Lib.ListFacts

/-!
# `Lib.Exec` — the outcome of a fallible call that may also panic

A Rust call returns `Ok`, returns `Err`, or does not return at all: an `expect`, an index or a checked
subtraction can panic. `Exec ε α` keeps the three apart, so "returns an error" and "never panics" are
different statements about one model. Loops that the source writes as `while` are modelled with fuel;
running out of it is the fourth outcome (`Fault.fuel`), and every theorem that says a call returns
excludes it.

A call with no such exit is a plain `Except`; its guards and lemmas (`Result`) are the ones `Exec` builds on.

Proofs peel a successful computation apart with `bind_ok_iff` and `reject_ok_iff`. A validator is specified
by `Decides`: what it accepts, what its result then satisfies, and that it always returns; validators
compose by `Decides.bind`. Nothing downstream unfolds the monad.
-/

namespace MartyCore

/-- Outcomes are compared by evaluation. -/
instance instDecidableEqExcept {ε α : Type} [DecidableEq ε] [DecidableEq α] : DecidableEq (Except ε α)
  | .ok a, .ok b => decidable_of_iff (a = b) (by rw [Except.ok.injEq])
  | .error e, .error e' => decidable_of_iff (e = e') (by rw [Except.error.injEq])
  | .ok _, .error _ => isFalse (fun h => nomatch h)
  | .error _, .ok _ => isFalse (fun h => nomatch h)

/-! ## Calls that cannot panic -/

namespace Result

variable {ε ε' α β : Type}

/-- `if c { return Err(e) }`. -/
def reject (c : Prop) [Decidable c] (e : ε) : Except ε Unit := if c then .error e else .ok ()

/-- `option.ok_or(e)?`. -/
def orFail (e : ε) : Option α → Except ε α
  | some a => .ok a
  | none => .error e

variable {f : α → Except ε β}

variable {b : β}

theorem bind_ok_iff {x : Except ε α} : (x >>= f) = .ok b ↔ ∃ a, x = .ok a ∧ f a = .ok b := by
  cases x with
  | error e | ok a => simp [bind, Except.bind]

theorem of_bind {x : Except ε α} (h : (x >>= f) = .ok b) : ∃ a, x = .ok a ∧ f a = .ok b := bind_ok_iff.mp h

@[simp] theorem ok_bind {a : α} : ((.ok a : Except ε α) >>= f) = f a := rfl

@[simp] theorem error_bind {e : ε} : ((.error e : Except ε α) >>= f) = .error e := rfl

theorem reject_ok_iff {c : Prop} [Decidable c] {e : ε} {u : Unit} : (reject c e : Except ε Unit) = .ok u ↔ ¬ c := by
  unfold reject
  by_cases h : c
  · simp [h]
  · simp [h]

/-- A guard that lets the rest run: the failing branch is excluded and the continuation is exposed. -/
theorem reject_bind_ok_iff {c : Prop} [Decidable c] {e : ε} {k : Unit → Except ε β} :
    (reject c e >>= k) = .ok b ↔ ¬ c ∧ k () = .ok b := by
  rw [bind_ok_iff, Unique.exists_iff, reject_ok_iff]

theorem of_reject {c : Prop} [Decidable c] {e : ε} {k : Unit → Except ε β} (h : (reject c e >>= k) = .ok b) :
    ¬ c ∧ k () = .ok b := reject_bind_ok_iff.mp h

theorem orFail_ok_iff {e : ε} {o : Option α} {a : α} : (orFail e o : Except ε α) = .ok a ↔ o = some a := by
  cases o with
  | none | some b => simp [orFail]

/-- `for a in l { f(a)?; }`. -/
theorem forM_ok_iff {f : α → Except ε Unit} {l : List α} {u : Unit} : l.forM f = .ok u ↔ ∀ a ∈ l, f a = .ok () := by
  induction l with
  | nil => simp [pure, Except.pure]
  | cons a rest ih =>
    show (f a >>= fun _ => rest.forM f) = _ ↔ _
    rw [bind_ok_iff, List.forall_mem_cons]
    exact ⟨fun ⟨(), ha, hrest⟩ => ⟨ha, ih.mp hrest⟩, fun ⟨ha, hrest⟩ => ⟨(), ha, ih.mpr hrest⟩⟩

/-- `l.iter().map(f).collect::<Result<_, _>>()`. -/
theorem mapM_ok_iff {l : List α} {bs : List β} : l.mapM f = .ok bs ↔ List.Forall₂ (fun a b => f a = .ok b) l bs := by
  induction l generalizing bs with
  | nil => simp [pure, Except.pure, eq_comm]
  | cons a rest ih =>
    rw [List.mapM_cons, bind_ok_iff, List.forall₂_cons_left_iff]
    constructor
    · rintro ⟨b, hb, h⟩
      obtain ⟨bs', hrest, h⟩ := bind_ok_iff.mp h
      cases h
      exact ⟨b, bs', hb, ih.mp hrest, rfl⟩
    · rintro ⟨b, bs', hb, hrest, rfl⟩
      exact ⟨b, hb, bind_ok_iff.mpr ⟨bs', ih.mpr hrest, rfl⟩⟩

/-- Where every element has a result, so has the list. -/
theorem exists_mapM_ok {P : α → β → Prop} {l : List α} (h : ∀ a ∈ l, ∃ b, f a = .ok b ∧ P a b) :
    ∃ bs, l.mapM f = .ok bs ∧ List.Forall₂ (fun a b => f a = .ok b ∧ P a b) l bs := by
  obtain ⟨bs, hbs⟩ := exists_forall₂_iff.mpr h
  exact ⟨bs, mapM_ok_iff.mpr (hbs.imp (fun _ _ h => h.1)), hbs⟩

theorem map_ok_iff {f : α → β} {x : Except ε α} : x.map f = .ok b ↔ ∃ a, x = .ok a ∧ f a = b := by
  cases x with
  | error e | ok a => simp [Except.map]

theorem of_map_error {f : α → β} {x : Except ε α} {e : ε} (h : x.map f = .error e) : x = .error e := by
  cases x with
  | error e' => exact congrArg Except.error (Except.error.inj h)
  | ok a => cases h

theorem mapError_ok_iff {f : ε → ε'} {x : Except ε α} {a : α} : x.mapError f = .ok a ↔ x = .ok a := by
  cases x with
  | error e | ok b => simp [Except.mapError]

end Result

/-! ## Calls that may panic -/

/-- Why a call did not return a value. -/
inductive Fault (ε : Type) where
  /-- The call returned `Err(e)`. -/
  | err (e : ε)
  /-- The call panicked (`expect`, index out of bounds, arithmetic overflow). -/
  | panic (message : String)
  /-- The model's loop bound was too small: not an outcome of the source. -/
  | fuel
deriving DecidableEq, Repr

/-- The outcome of a call with result `α` and error type `ε`. -/
abbrev Exec (ε α : Type) := Except (Fault ε) α

namespace Exec

variable {ε α β : Type}

/-- `return Err(e)`. -/
def fail (e : ε) : Exec ε α := .error (.err e)

/-- `if c { return Err(e) }`. -/
def reject (c : Prop) [Decidable c] (e : ε) : Exec ε Unit := Result.reject c (.err e)

/-- `option.ok_or(e)?`. -/
def orFail (e : ε) : Option α → Exec ε α := Result.orFail (.err e)

/-- `option.expect(message)`. -/
def expect (message : String) : Option α → Exec ε α := Result.orFail (.panic message)

/-- `xs[i]`. -/
def index (xs : List α) (i : Nat) : Exec ε α :=
  expect ("index out of bounds: the len is " ++ toString xs.length ++ " but the index is " ++ toString i) xs[i]?

/-- `xs[start..stop]`. -/
def slice (xs : List α) (start stop : Nat) : Exec ε (List α) :=
  if stop < start then
    .error (.panic ("slice index starts at " ++ toString start ++ " but ends at " ++ toString stop))
  else if xs.length < stop then
    .error (.panic ("range end index " ++ toString stop ++ " out of range for slice of length " ++ toString xs.length))
  else .ok ((xs.take stop).drop start)

/-- `result.map_err(f)?`: an error is replaced, a panic is not caught. -/
def mapErr {ε' : Type} (f : ε → ε') : Exec ε α → Exec ε' α
  | .ok a => .ok a
  | .error (.err e) => .error (.err (f e))
  | .error (.panic message) => .error (.panic message)
  | .error .fuel => .error .fuel

/-- `for (i, a) in l.enumerate() { results.push(f(i, a)?); }`, where so many elements are before `l`. -/
def mapFrom (f : Nat → α → Exec ε β) : Nat → List α → Exec ε (List β)
  | _, [] => .ok []
  | i, a :: rest => do
    let b ← f i a
    let bs ← mapFrom f (i + 1) rest
    .ok (b :: bs)

variable {x : Exec ε α} {f : α → Exec ε β}

theorem bind_ok_iff : (x >>= f) = .ok b ↔ ∃ a, x = .ok a ∧ f a = .ok b := Result.bind_ok_iff

theorem of_bind (h : (x >>= f) = .ok b) : ∃ a, x = .ok a ∧ f a = .ok b := bind_ok_iff.mp h

variable {c : Prop} {e : ε}

theorem reject_ok_iff [Decidable c] {u : Unit} : (reject c e : Exec ε Unit) = .ok u ↔ ¬ c := Result.reject_ok_iff

variable {k : Unit → Exec ε β}

theorem reject_bind_ok_iff [Decidable c] : (reject c e >>= k) = .ok b ↔ ¬ c ∧ k () = .ok b := Result.reject_bind_ok_iff

theorem of_reject [Decidable c] (h : (reject c e >>= k) = .ok b) : ¬ c ∧ k () = .ok b :=
  reject_bind_ok_iff.mp h

variable {a : α}

theorem orFail_ok_iff {o : Option α} : (orFail e o : Exec ε α) = .ok a ↔ o = some a := Result.orFail_ok_iff

theorem expect_ok_iff {message : String} {o : Option α} :
    (expect message o : Exec ε α) = .ok a ↔ o = some a := Result.orFail_ok_iff

theorem index_of_lt {xs : List α} {i : Nat} (h : i < xs.length) : (index xs i : Exec ε α) = .ok xs[i] := by
  rw [index, List.getElem?_eq_getElem h]
  rfl

/-- The element behind a known part. -/
theorem index_append {pre post : List α} {x : α} {i : Nat} (h : i = pre.length) :
    (index (pre ++ x :: post) i : Exec ε α) = .ok x := by
  subst h
  rw [index, List.getElem?_append_right (Nat.le_refl _), Nat.sub_self]
  rfl

/-- The part between two others. -/
theorem slice_append {pre xs post : List α} {start stop : Nat} (hstart : start = pre.length)
    (hstop : stop = pre.length + xs.length) : (slice (pre ++ xs ++ post) start stop : Exec ε (List α)) = .ok xs := by
  have hlength : (pre ++ xs).length = stop := by rw [hstop, List.length_append]
  rw [slice, if_neg (by omega), if_neg (by rw [List.length_append, hlength]; omega), ← hlength,
    List.take_left, hstart, List.drop_left]

theorem mapErr_ok_iff {ε' : Type} {f : ε → ε'} : mapErr f x = .ok a ↔ x = .ok a := by
  rcases x with (e | message | _) | b <;> simp [mapErr]

/-! ## One step of a computation -/

theorem reject_pos [Decidable c] (h : c) : reject c e = fail e := if_pos h

theorem reject_neg [Decidable c] (h : ¬ c) : (reject c e : Exec ε Unit) = .ok () := if_neg h

theorem reject_pos_bind [Decidable c] (h : c) : (reject c e >>= k) = fail e := by
  rw [reject_pos h]
  rfl

theorem reject_neg_bind [Decidable c] (h : ¬ c) : (reject c e >>= k) = k () := by
  rw [reject_neg h]
  rfl

@[simp] theorem orFail_none_bind {k : α → Exec ε β} : (orFail e none >>= k) = fail e := rfl

@[simp] theorem orFail_some_bind {k : α → Exec ε β} : (orFail e (some a) >>= k) = k a := rfl

@[simp] theorem expect_some_bind {message : String} {k : α → Exec ε β} : (expect message (some a) >>= k) = k a := rfl

/-! ## Enumerated loops -/

/-- **A loop has one result for each element, or ends at the first that fails.** -/
theorem mapFrom_spec (f : Nat → α → Exec ε β) (i : Nat) (l : List α) :
    (∃ bs, mapFrom f i l = .ok bs ∧ bs.length = l.length ∧
        ∀ j b, bs[j]? = some b → ∃ a, l[j]? = some a ∧ f (i + j) a = .ok b) ∨
      ∃ j a e, mapFrom f i l = .error e ∧ l[j]? = some a ∧ f (i + j) a = .error e ∧
        ∀ k < j, ∃ a b, l[k]? = some a ∧ f (i + k) a = .ok b := by
  induction l generalizing i with
  | nil => exact .inl ⟨[], rfl, rfl, by simp⟩
  | cons a rest ih =>
    cases hfirst : f i a with
    | error e =>
      refine .inr ⟨0, a, e, ?_, rfl, hfirst, by simp⟩
      rw [mapFrom, hfirst]
      rfl
    | ok b =>
      simp only [mapFrom, hfirst, Result.ok_bind]
      have hrest := ih (i + 1)
      simp only [Nat.add_assoc, Nat.add_comm 1] at hrest
      rcases hrest with ⟨bs, hbs, hlength, hall⟩ | ⟨j, a', e, he, hj, hfails, hbefore⟩
      · rw [hbs]
        refine .inl ⟨b :: bs, rfl, congrArg (· + 1) hlength, ?_⟩
        intro j b' hj
        cases j with
        | zero =>
          cases hj
          exact ⟨a, rfl, hfirst⟩
        | succ j => exact hall j b' hj
      · rw [he]
        refine .inr ⟨j + 1, a', e, rfl, hj, hfails, ?_⟩
        intro k hk
        cases k with
        | zero => exact ⟨a, b, rfl, hfirst⟩
        | succ k => exact hbefore k (Nat.lt_of_succ_lt_succ hk)

theorem mapFrom_ok {f : Nat → α → Exec ε β} {l : List α} {bs : List β} (h : mapFrom f 0 l = .ok bs) :
    bs.length = l.length ∧ ∀ j b, bs[j]? = some b → ∃ a, l[j]? = some a ∧ f j a = .ok b := by
  rcases mapFrom_spec f 0 l with ⟨bs', hbs', hlength, hall⟩ | ⟨j, a, e, he, -⟩
  · rw [hbs'] at h
    cases h
    simp only [Nat.zero_add] at hall
    exact ⟨hlength, hall⟩
  · rw [he] at h
    cases h

/-! ## Calls that decide a property -/

/-- **`x` decides `P`**: it returns `Ok` with a result satisfying `Q` when `P` holds, and returns `Err` when
    `P` fails. In particular it returns: no panic, and no exhausted loop bound. -/
def Decides (x : Exec ε α) (P : Prop) (Q : α → Prop) : Prop :=
  (∃ a, x = .ok a ∧ P ∧ Q a) ∨ ∃ e, x = .error (.err e) ∧ ¬ P

variable {P R : Prop} {Q : α → Prop} {S : β → Prop}

theorem decides_ok (hP : P) (hQ : Q a) : Decides (.ok a : Exec ε α) P Q :=
  .inl ⟨a, rfl, hP, hQ⟩

/-- A call followed by the rest: what the call accepts is necessary, and the rest may use its result. -/
theorem Decides.bind (hx : Decides x P Q) (hP : R → P) (hf : ∀ a, P → Q a → Decides (f a) R S) :
    Decides (x >>= f) R S := by
  rcases hx with ⟨a, rfl, hp, hq⟩ | ⟨e, rfl, hp⟩
  · exact hf a hp hq
  -- the call has failed, so what it decides fails, and with it the whole property
  · exact .inr ⟨e, rfl, fun hR => hp (hP hR)⟩

/-- A guard followed by the rest. -/
theorem Decides.reject_bind [Decidable c] (hc : R → ¬ c) (hk : ¬ c → Decides (k ()) R S) :
    Decides (reject c e >>= k) R S := by
  unfold reject Result.reject
  by_cases h : c
  · rw [if_pos h]; exact .inr ⟨e, rfl, fun hR => hc hR h⟩
  · rw [if_neg h]; exact hk h

/-- An `expect` that does not fire. -/
theorem Decides.expect_bind {message : String} {o : Option α} (ho : o = some a) (hf : Decides (f a) R S) :
    Decides (expect message o >>= f) R S := by
  rw [ho]; exact hf

theorem Decides.imp {T : α → Prop} (h : Decides x P Q) (hR : P ↔ R) (hT : ∀ a, Q a → T a) : Decides x R T := by
  rcases h with ⟨a, ha, hp, hq⟩ | ⟨e, he, hp⟩
  · exact .inl ⟨a, ha, hR.mp hp, hT a hq⟩
  · exact .inr ⟨e, he, fun hr => hp (hR.mpr hr)⟩

theorem Decides.ok_iff (h : Decides x P Q) : (∃ a, x = .ok a) ↔ P := by
  rcases h with ⟨a, rfl, hp, -⟩ | ⟨e, rfl, hp⟩
  · exact ⟨fun _ => hp, fun _ => ⟨a, rfl⟩⟩
  · exact ⟨fun ⟨a, ha⟩ => (by cases ha), fun h' => absurd h' hp⟩

/-! ## Calls that return -/

/-- The call returns: it neither panics nor runs out of its bound. -/
def Answers (x : Exec ε α) : Prop := ∀ fault, x = .error fault → ∃ e, fault = .err e

theorem answers_ok : Answers (.ok a : Exec ε α) := by
  rintro fault ⟨⟩

theorem answers_fail : Answers (fail e : Exec ε α) := by
  rintro fault ⟨⟩
  exact ⟨e, rfl⟩

theorem Answers.bind (hx : Answers x) (hf : ∀ a, x = .ok a → Answers (f a)) : Answers (x >>= f) := by
  cases x with
  | error fault =>
    rintro _ ⟨⟩
    exact hx fault rfl
  | ok a => exact hf a rfl

theorem answers_reject [Decidable c] : Answers (reject c e) := by
  by_cases hc : c
  · rw [reject_pos hc]
    exact answers_fail
  · rw [reject_neg hc]
    exact answers_ok

theorem answers_orFail {o : Option α} : Answers (orFail e o) := by
  cases o with
  | none => exact answers_fail
  | some a => exact answers_ok

/-! ## Calls that return unless they panic -/

/-- **`x` returns `value` unless `panics` is set**, and panics when it is: there is no third outcome. -/
def ReturnsUnless (panics : Bool) (value : α) (x : Exec ε α) : Prop :=
  if panics then ∃ message, x = .error (.panic message) else x = .ok value

theorem returnsUnless_ok (a : α) : ReturnsUnless false a (.ok a : Exec ε α) := rfl

theorem returnsUnless_panic (a : α) (message : String) :
    ReturnsUnless true a (.error (.panic message) : Exec ε α) := ⟨message, rfl⟩

/-- A call followed by the rest, which runs on the call's value. -/
theorem ReturnsUnless.bind {p q : Bool} (hx : ReturnsUnless p a x) (hf : ReturnsUnless q b (f a)) :
    ReturnsUnless (p || q) b (x >>= f) := by
  cases p with
  | true =>
    obtain ⟨message, rfl⟩ := hx
    exact ⟨message, rfl⟩
  | false =>
    have hok : x = .ok a := hx
    rw [hok]
    exact hf

/-- A call whose value is computed with. -/
theorem ReturnsUnless.bind_ok {p : Bool} (hx : ReturnsUnless p a x) (g : α → β) :
    ReturnsUnless p (g a) (x >>= fun a => .ok (g a)) := by
  have h : ReturnsUnless (p || false) (g a) (x >>= fun a => .ok (g a)) := hx.bind (returnsUnless_ok (g a))
  rw [Bool.or_false] at h
  exact h

theorem ReturnsUnless.ok_iff {p : Bool} {a b : α} (h : ReturnsUnless p a x) : x = .ok b ↔ p = false ∧ b = a := by
  cases p with
  | true =>
    obtain ⟨message, rfl⟩ := h
    simp
  | false =>
    have hok : x = .ok a := h
    rw [hok, Except.ok.injEq]
    simp [eq_comm]

theorem ReturnsUnless.exists_ok_iff {p : Bool} {a : α} (h : ReturnsUnless p a x) : (∃ b, x = .ok b) ↔ p = false := by
  simp [h.ok_iff]

end Exec
end MartyCore
