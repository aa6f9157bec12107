import Mathlib.Data.Fintype.Basic
import Mathlib.Tactic.FinCases
import MartyCore.Lib.Code
import MartyCore.Lib.Str

/-!
# `Lib.Json` — JSON values and the text of their scalars

A JSON value as a parser builds it: objects are lists of members, in whatever order the parser keeps, and a map
has no key twice, at any depth (`WellFormed`; a `Value` carries it). Two values are `Equiv` when they are equal
with objects as unordered maps.

The texts are the compact ones of the standard serialiser: `quote` escapes quotes, backslashes and control
characters and nothing else, and can be read back off the front of any longer text (`separates_quote`). How
numbers are held and printed is left open: `NumberFormat` is any printing that is injective and stays in the
alphabet of JSON numbers.

`same` is the equality the parser's values come with. It looks up the members of one object in the other, and is an
equivalence on values because keys are distinct (`same_equivalence`).
-/

namespace MartyCore

open Code List

/-- A JSON value over a type of numbers. -/
inductive Json (N : Type) where
  | null
  | bool (b : Bool)
  | num (n : N)
  | str (s : Str)
  | arr (values : List (Json N))
  | obj (members : List (Str × Json N))

namespace Json

variable {N : Type}

/-- Induction with the hypothesis for every element and every member. -/
theorem ind {P : Json N → Prop} (null : P .null) (bool : ∀ b, P (.bool b)) (num : ∀ n, P (.num n))
    (str : ∀ s, P (.str s)) (arr : ∀ values, (∀ v ∈ values, P v) → P (.arr values))
    (obj : ∀ members : List (Str × Json N), (∀ m ∈ members, P m.2) → P (.obj members)) (v : Json N) : P v :=
  @Json.rec N P (fun values => ∀ v ∈ values, P v) (fun members => ∀ m ∈ members, P m.2)
    (fun member => P member.2) null bool num str arr obj
    (by simp) (fun _ _ hv hrest => forall_mem_cons.mpr ⟨hv, hrest⟩)
    (by simp) (fun _ _ hm hrest => forall_mem_cons.mpr ⟨hm, hrest⟩) (fun _ _ hv => hv) v

/-! ## Maps and their equality -/

/-- No object has a key twice, at any depth. -/
inductive WellFormed : Json N → Prop
  | null : WellFormed .null
  | bool (b : Bool) : WellFormed (.bool b)
  | num (n : N) : WellFormed (.num n)
  | str (s : Str) : WellFormed (.str s)
  | arr {values : List (Json N)} (elements : ∀ v ∈ values, WellFormed v) : WellFormed (.arr values)
  | obj {members : List (Str × Json N)} (distinct : (members.map Prod.fst).Nodup)
      (elements : ∀ m ∈ members, WellFormed m.2) : WellFormed (.obj members)

/-- A value with maps for objects. -/
abbrev Value (N : Type) := { v : Json N // v.WellFormed }

/-- Equality of values with objects as unordered maps: the same keys, and under each key equal values. -/
inductive Equiv : Json N → Json N → Prop
  | null : Equiv .null .null
  | bool (b : Bool) : Equiv (.bool b) (.bool b)
  | num (n : N) : Equiv (.num n) (.num n)
  | str (s : Str) : Equiv (.str s) (.str s)
  | arr {values values' : List (Json N)} (length : values.length = values'.length)
      (elements : ∀ p ∈ values.zip values', Equiv p.1 p.2) : Equiv (.arr values) (.arr values')
  | obj {members members' : List (Str × Json N)}
      (keys : ∀ key, key ∈ members.map Prod.fst ↔ key ∈ members'.map Prod.fst)
      (elements : ∀ key v v', (key, v) ∈ members → (key, v') ∈ members' → Equiv v v') :
      Equiv (.obj members) (.obj members')

/-! ## Strings -/

/-- `0` to `f`. -/
def hexDigit (n : Nat) : Char := if n < 10 then Char.ofNat (48 + n) else Char.ofNat (87 + n)

/-- The text of one character inside a string. -/
def escape (c : Char) : Str :=
  if c = '"' then ['\\', '"']
  else if c = '\\' then ['\\', '\\']
  else if 0x20 ≤ c.toNat then [c]
  else if c.toNat = 0x08 then ['\\', 'b']
  else if c.toNat = 0x09 then ['\\', 't']
  else if c.toNat = 0x0A then ['\\', 'n']
  else if c.toNat = 0x0C then ['\\', 'f']
  else if c.toNat = 0x0D then ['\\', 'r']
  else ['\\', 'u', '0', '0', hexDigit (c.toNat / 16), hexDigit (c.toNat % 16)]

/-- The text of a string. -/
def quote (s : Str) : Str := '"' :: (s.flatMap escape ++ ['"'])

/-- The value of a digit written by `hexDigit`. -/
def hexValue (c : Char) : Nat := if c.toNat < 87 then c.toNat - 48 else c.toNat - 87

/-- One character of a string, read back; nothing at the closing quote. -/
def readChar : Str → Option (Char × Str)
  | '\\' :: 'b' :: rest => some (Char.ofNat 0x08, rest)
  | '\\' :: 't' :: rest => some (Char.ofNat 0x09, rest)
  | '\\' :: 'n' :: rest => some (Char.ofNat 0x0A, rest)
  | '\\' :: 'f' :: rest => some (Char.ofNat 0x0C, rest)
  | '\\' :: 'r' :: rest => some (Char.ofNat 0x0D, rest)
  | '\\' :: 'u' :: '0' :: '0' :: high :: low :: rest =>
    some (Char.ofNat (16 * hexValue high + hexValue low), rest)
  | '\\' :: c :: rest => some (c, rest)
  | '"' :: _ => none
  | c :: rest => some (c, rest)
  | [] => none

theorem readChar_escape_control (n : Fin 32) (rest : Str) :
    readChar (escape (Char.ofNat n) ++ rest) = some (Char.ofNat n, rest) := by
  fin_cases n <;> rfl

theorem readChar_escape (c : Char) (rest : Str) : readChar (escape c ++ rest) = some (c, rest) := by
  by_cases hcontrol : c.toNat < 32
  · have h := readChar_escape_control ⟨c.toNat, hcontrol⟩ rest
    rwa [Char.ofNat_toNat] at h
  · unfold escape
    by_cases hquote : c = '"'
    · subst hquote
      rfl
    · by_cases hback : c = '\\'
      · subst hback
        rfl
      · rw [if_neg hquote, if_neg hback, if_pos (Nat.le_of_not_lt hcontrol)]
        show readChar (c :: rest) = _
        unfold readChar
        split <;> simp_all

/-- **A quoted string ends at its closing quote**, whatever it contains and whatever follows. -/
theorem separates_quote (s t : Str) : Separates Always (quote s) (quote t) (s = t) := by
  refine Separates.cons '"' ?_
  -- a closing quote is not the first symbol of any escape
  have hclose : ∀ (c : Char) (rest rest' : Str), '"' :: rest ≠ escape c ++ rest' := by
    intro c rest rest' heq
    have h := readChar_escape c rest'
    rw [← heq] at h
    cases h
  induction s generalizing t with
  | nil =>
    cases t with
    | nil => exact (separates_self _).imp (fun _ h => h) (fun _ => rfl)
    | cons d t =>
      intro rest rest' _ _ heq
      rw [flatMap_cons, append_assoc, append_assoc, append_assoc] at heq
      exact absurd heq (hclose d _ _)
  | cons c s ih =>
    cases t with
    | nil =>
      intro rest rest' _ _ heq
      rw [flatMap_cons, append_assoc, append_assoc] at heq
      exact absurd heq.symm (hclose c _ _)
    | cons d t =>
      rw [flatMap_cons, flatMap_cons, append_assoc, append_assoc]
      refine ((separates_of_read readChar_escape c d).append (fun _ => ih t) (fun _ h => h) (fun _ h => h)).imp
        (fun _ h => h) ?_
      rintro ⟨rfl, rfl⟩
      rfl

/-! ## Numbers -/

/-- The characters of a JSON number. -/
def isNumberChar (c : Char) : Bool := c.isDigit || c = '-' || c = '+' || c = '.' || c = 'e' || c = 'E'

/-- How the numbers of `N` are printed. -/
structure NumberFormat (N : Type) where
  text : N → Str
  injective : ∀ {m n : N}, text m = text n → m = n
  ne_nil : ∀ n, text n ≠ []
  alphabet : ∀ n, ∀ c ∈ text n, isNumberChar c = true

/-- Natural numbers, in decimal. -/
def decimal : NumberFormat Nat where
  text := Nat.toDigits 10
  injective := fun {m n} h => by
    rw [← @Nat.ofDigitChars_ten_toDigits m, h, Nat.ofDigitChars_ten_toDigits]
  ne_nil := fun n => Nat.toDigits_ne_nil
  alphabet := fun n c hc => by
    have hdigit := Nat.isDigit_of_mem_toDigits (by decide) (by decide) hc
    simp [isNumberChar, hdigit]

/-- Integers, in decimal. -/
def integer : NumberFormat Int where
  text
    | .ofNat n => Nat.toDigits 10 n
    | .negSucc n => '-' :: Nat.toDigits 10 (n + 1)
  injective := fun {m n} h => by
    -- a sign is not a digit
    have hsign : ∀ k rest, Nat.toDigits 10 k ≠ '-' :: rest := by
      intro k rest heq
      have hdigit := Nat.isDigit_of_mem_toDigits (by decide) (by decide) (heq ▸ mem_cons_self)
      exact absurd hdigit (by decide)
    cases m with
    | ofNat m =>
      cases n with
      | ofNat n => rw [decimal.injective h]
      | negSucc n => exact absurd h (hsign _ _)
    | negSucc m =>
      cases n with
      | ofNat n => exact absurd h.symm (hsign _ _)
      | negSucc n => rw [Nat.succ.inj (decimal.injective (List.cons.inj h).2)]
  ne_nil
    | .ofNat n => decimal.ne_nil n
    | .negSucc n => cons_ne_nil _ _
  alphabet
    | .ofNat n => decimal.alphabet n
    | .negSucc n => fun c hc => by
        rcases mem_cons.mp hc with rfl | hc
        · rfl
        · exact decimal.alphabet (n + 1) c hc

/-- What may follow a number. -/
def AfterNumber (rest : Str) : Prop := ∀ c ∈ rest.head?, isNumberChar c = false

theorem NumberFormat.separates (format : NumberFormat N) (m n : N) :
    Separates AfterNumber (format.text m) (format.text n) (m = n) :=
  (separates_of_alphabet (format.alphabet m) (format.alphabet n)).imp (fun _ h => h) format.injective

/-! ## The whole text, and equality as the parser's values compare -/

section

variable (number : N → Str)

mutual

/-- The compact text: members in the order they are stored. -/
def text : Json N → Str
  | .null => "null".toList
  | .bool b => if b then "true".toList else "false".toList
  | .num n => number n
  | .str s => quote s
  | .arr values => '[' :: (joined ',' (valueTexts values) ++ [']'])
  | .obj members => '\x7b' :: (joined ',' (memberTexts members) ++ ['\x7d'])

def valueTexts : List (Json N) → List Str
  | [] => []
  | v :: rest => text v :: valueTexts rest

def memberTexts : List (Str × Json N) → List Str
  | [] => []
  | (key, v) :: rest => (quote key ++ ':' :: text v) :: memberTexts rest

end

theorem valueTexts_eq_map (values : List (Json N)) : valueTexts number values = values.map (text number) := by
  induction values with
  | nil => rfl
  | cons v rest ih => rw [valueTexts, ih, map_cons]

/-- The text of a member. -/
def memberText (member : Str × Json N) : Str := quote member.1 ++ ':' :: text number member.2

theorem memberTexts_eq_map (members : List (Str × Json N)) :
    memberTexts number members = members.map (memberText number) := by
  induction members with
  | nil => rfl
  | cons m rest ih => rw [memberTexts, ih, map_cons, memberText]

theorem text_arr (values : List (Json N)) :
    text number (.arr values) = '[' :: (joined ',' (values.map (text number)) ++ [']']) := by
  rw [text, valueTexts_eq_map]

theorem text_obj (members : List (Str × Json N)) :
    text number (.obj members) = '\x7b' :: (joined ',' (members.map (memberText number)) ++ ['\x7d']) := by
  rw [text, memberTexts_eq_map]

end

/-! ## Equal texts come from equal values -/

section

variable (format : NumberFormat N)

/-- The kind of a value, told by its first character; no value begins with a closing bracket. -/
def leadKind (c : Char) : Nat :=
  if c = 'n' then 0
  else if c = 't' ∨ c = 'f' then 1
  else if c = '"' then 3
  else if c = '[' then 4
  else if c = '\x7b' then 5
  else if c = ']' then 6
  else 2

def kind : Json N → Nat
  | .null => 0
  | .bool _ => 1
  | .num _ => 2
  | .str _ => 3
  | .arr _ => 4
  | .obj _ => 5

theorem leadKind_of_isNumberChar {c : Char} (h : isNumberChar c = true) : leadKind c = 2 := by
  have hne : ∀ d, isNumberChar d = false → c ≠ d := by
    rintro d hd rfl
    rw [h] at hd
    cases hd
  unfold leadKind
  rw [if_neg (hne _ rfl), if_neg (not_or.mpr ⟨hne _ rfl, hne _ rfl⟩), if_neg (hne _ rfl), if_neg (hne _ rfl),
    if_neg (hne _ rfl), if_neg (hne _ rfl)]

theorem text_lead (v : Json N) : ∃ c tail, text format.text v = c :: tail ∧ leadKind c = kind v := by
  cases v with
  | null => exact ⟨'n', _, rfl, rfl⟩
  | bool b =>
    cases b with
    | true => exact ⟨'t', _, rfl, rfl⟩
    | false => exact ⟨'f', _, rfl, rfl⟩
  | num n =>
    cases htext : format.text n with
    | nil => exact absurd htext (format.ne_nil n)
    | cons c tail =>
      refine ⟨c, tail, htext, leadKind_of_isNumberChar (format.alphabet n c ?_)⟩
      rw [htext]
      exact mem_cons_self
  | str s => exact ⟨'"', _, rfl, rfl⟩
  | arr values => exact ⟨'[', _, rfl, rfl⟩
  | obj members => exact ⟨'\x7b', _, rfl, rfl⟩

/-- Values of different kinds differ at the first character. -/
theorem separates_of_kind {v w : Json N} {Stop : Str → Prop} {R : Prop} (h : kind v ≠ kind w) :
    Separates Stop (text format.text v) (text format.text w) R := by
  obtain ⟨c, tail, hv, hc⟩ := text_lead format v
  obtain ⟨d, tail', hw, hd⟩ := text_lead format w
  intro rest rest' _ _ heq
  rw [hv, hw] at heq
  have hcd : c = d := (List.cons.inj heq).1
  exact absurd (hc.symm.trans (hcd ▸ hd)) h

theorem afterNumber_cons {c : Char} (h : isNumberChar c = false) (rest : Str) : AfterNumber (c :: rest) := by
  intro d hd
  rwa [← Option.some.inj hd]

/-- **The text of a value ends where it can be seen to end**: what follows is never part of it. -/
theorem separates_text (v w : Json N) : Separates AfterNumber (text format.text v) (text format.text w) (v = w) := by
  have hanywhere : ∀ {s t : Str} {R R' : Prop}, Separates Always s t R → (R → R') →
      Separates AfterNumber s t R' := fun h hR => h.imp (fun _ _ => trivial) hR
  induction v using Json.ind generalizing w with
  | null =>
    cases w with
    | null => exact hanywhere (separates_self _) (fun _ => rfl)
    | _ => exact separates_of_kind format (by simp [kind])
  | bool b =>
    cases w with
    | bool b' =>
      by_cases hb : b = b'
      · subst hb
        exact hanywhere (separates_self _) (fun _ => rfl)
      · -- `true` and `false` differ at the first character
        intro rest rest' _ _ heq
        cases b <;> cases b' <;> first | exact absurd rfl hb | exact absurd heq (by simp [text])
    | _ => exact separates_of_kind format (by simp [kind])
  | num n =>
    cases w with
    | num n' => exact (format.separates n n').imp (fun _ h => h) (congrArg Json.num)
    | _ => exact separates_of_kind format (by simp [kind])
  | str s =>
    cases w with
    | str t => exact hanywhere (separates_quote s t) (congrArg Json.str)
    | _ => exact separates_of_kind format (by simp [kind])
  | arr values ih =>
    cases w with
    | arr values' =>
      rw [text_arr, text_arr]
      refine hanywhere (Separates.cons '[' (separates_joined (R := Eq)
        (afterNumber_cons rfl) (afterNumber_cons rfl) (by decide) ?_ (fun x hx y _ => ih x hx y))) ?_
      · intro x _
        obtain ⟨c, tail, htext, hkind⟩ := text_lead format x
        refine ⟨c, tail, htext, ?_⟩
        rintro rfl
        cases x <;> cases hkind
      · intro h
        rw [forall₂_eq_eq_eq] at h
        rw [h]
    | _ => exact separates_of_kind format (by simp [kind])
  | obj members ih =>
    cases w with
    | obj members' =>
      rw [text_obj, text_obj]
      refine hanywhere (Separates.cons '\x7b' (separates_joined (R := Eq)
        (afterNumber_cons rfl) (afterNumber_cons rfl) (by decide) (fun m _ => ⟨'"', _, rfl, by decide⟩) ?_)) ?_
      · intro m hm m' _
        exact ((separates_quote m.1 m'.1).append
          (fun _ => Separates.cons ':' (ih m hm m'.2)) (fun _ _ => trivial) (fun _ _ => trivial)).imp
          (fun _ h => h) (fun h => Prod.ext h.1 h.2)
      · intro h
        rw [forall₂_eq_eq_eq] at h
        rw [h]
    | _ => exact separates_of_kind format (by simp [kind])

/-- **Different values have different texts.** -/
theorem text_injective {v w : Json N} (h : text format.text v = text format.text w) : v = w := by
  have hend : AfterNumber [] := by simp [AfterNumber]
  exact (separates_text format v w [] [] hend hend (by rw [h])).1

end

section

variable (eq : N → N → Bool)

mutual

/-- `==` on values: arrays by position, objects by key. -/
def same : Json N → Json N → Bool
  | .null, .null => true
  | .bool a, .bool b => a = b
  | .num m, .num n => eq m n
  | .str s, .str t => s = t
  | .arr values, .arr values' => sameValues values values'
  | .obj members, .obj members' => (members.length = members'.length) && sameMembers members members'
  | _, _ => false

def sameValues : List (Json N) → List (Json N) → Bool
  | [], [] => true
  | v :: rest, w :: rest' => same v w && sameValues rest rest'
  | _, _ => false

/-- Every member has an equal one under its key in the other object. -/
def sameMembers : List (Str × Json N) → List (Str × Json N) → Bool
  | [], _ => true
  | (key, v) :: rest, other =>
    (match other.lookup key with
      | some w => same v w
      | none => false) && sameMembers rest other

end

variable {eq}

attribute [local simp] same sameValues sameMembers

theorem sameValues_iff {values values' : List (Json N)} :
    sameValues eq values values' = true ↔ List.Forall₂ (fun v w => same eq v w = true) values values' := by
  induction values generalizing values' with
  | nil => cases values' <;> simp
  | cons v rest ih => cases values' <;> simp [ih]

theorem sameMembers_iff {members other : List (Str × Json N)} (hnodup : (other.map Prod.fst).Nodup) :
    sameMembers eq members other = true ↔ ∀ m ∈ members, ∃ w, (m.1, w) ∈ other ∧ same eq m.2 w = true := by
  induction members with
  | nil => simp
  | cons m rest ih =>
    obtain ⟨key, v⟩ := m
    rw [sameMembers, Bool.and_eq_true, ih, forall_mem_cons]
    refine and_congr_left' ?_
    cases hlookup : other.lookup key with
    | none =>
      have habsent : ∀ w, (key, w) ∉ other := by
        intro w hw
        simpa using lookup_eq_none_iff.mp hlookup (key, w) hw
      simp [habsent]
    | some u =>
      have hu : (key, u) ∈ other := by
        obtain ⟨before, after, rfl, -⟩ := lookup_eq_some_iff.mp hlookup
        simp
      constructor
      · exact fun h => ⟨u, hu, h⟩
      · rintro ⟨w, hw, h⟩
        obtain rfl : w = u := congrArg Prod.snd (inj_on_of_nodup_map hnodup hw hu rfl)
        exact h

variable {w : Json N}

/-- What a value is equal to, by its constructor. -/
theorem same_null_iff : same eq .null w = true ↔ w = .null := by
  cases w <;> simp

theorem same_bool_iff {b : Bool} : same eq (.bool b) w = true ↔ w = .bool b := by
  cases w <;> simp [eq_comm]

theorem same_num_iff {m : N} : same eq (.num m) w = true ↔ ∃ n, w = .num n ∧ eq m n = true := by
  cases w <;> simp

theorem same_str_iff {s : Str} : same eq (.str s) w = true ↔ w = .str s := by
  cases w <;> simp [eq_comm]

theorem same_arr_iff {values : List (Json N)} : same eq (.arr values) w = true ↔
    ∃ values', w = .arr values' ∧ values.length = values'.length ∧
      ∀ i (h : i < values.length) (h' : i < values'.length), same eq values[i] values'[i] = true := by
  cases w <;> simp [sameValues_iff, forall₂_iff_get]

theorem same_obj_iff {members : List (Str × Json N)} (hw : w.WellFormed) :
    same eq (.obj members) w = true ↔ ∃ members', w = .obj members' ∧ members.length = members'.length ∧
      ∀ m ∈ members, ∃ v, (m.1, v) ∈ members' ∧ same eq m.2 v = true := by
  cases hw with
  | obj distinct _ => simp [sameMembers_iff distinct]
  | _ => simp

theorem same_refl (hrefl : ∀ n, eq n n = true) {v : Json N} (hv : v.WellFormed) : same eq v v = true := by
  induction v using Json.ind with
  | null => rfl
  | bool b => exact same_bool_iff.mpr rfl
  | num n => exact hrefl n
  | str s => exact same_str_iff.mpr rfl
  | arr values ih =>
    cases hv with | arr helements =>
    refine same_arr_iff.mpr ⟨values, rfl, rfl, fun i h _ => ?_⟩
    exact ih _ (getElem_mem h) (helements _ (getElem_mem h))
  | obj members ih =>
    have helements : ∀ m ∈ members, m.2.WellFormed := by
      cases hv with | obj _ helements =>
      exact helements
    exact (same_obj_iff hv).mpr ⟨members, rfl, rfl, fun m hm => ⟨m.2, hm, ih m hm (helements m hm)⟩⟩

/-- Values equal to one value are equal. Distinct keys that all occur among as many others are those others, so equality
    of objects can be read from either side. -/
theorem same_euclidean (heq : ∀ k m n, eq k m = true → eq k n = true → eq m n = true) {u v w : Json N}
    (hu : u.WellFormed) (hv : v.WellFormed) (hw : w.WellFormed) (huv : same eq u v = true) (huw : same eq u w = true) :
    same eq v w = true := by
  induction u using Json.ind generalizing v w with
  | null =>
    obtain rfl := same_null_iff.mp huv
    exact huw
  | bool b =>
    obtain rfl := same_bool_iff.mp huv
    exact huw
  | num k =>
    obtain ⟨m, rfl, hkm⟩ := same_num_iff.mp huv
    obtain ⟨n, rfl, hkn⟩ := same_num_iff.mp huw
    exact same_num_iff.mpr ⟨n, rfl, heq k m n hkm hkn⟩
  | str s =>
    obtain rfl := same_str_iff.mp huv
    exact huw
  | arr values ih =>
    obtain ⟨values', rfl, hlength, hsame⟩ := same_arr_iff.mp huv
    obtain ⟨values'', rfl, hlength', hsame'⟩ := same_arr_iff.mp huw
    cases hu with | arr helements =>
    cases hv with | arr helements' =>
    cases hw with | arr helements'' =>
    refine same_arr_iff.mpr ⟨values'', rfl, hlength.symm.trans hlength', fun i h' h'' => ?_⟩
    have h : i < values.length := by omega
    exact ih _ (getElem_mem h) (helements _ (getElem_mem h)) (helements' _ (getElem_mem h'))
      (helements'' _ (getElem_mem h'')) (hsame i h h') (hsame' i h h'')
  | obj members ih =>
    obtain ⟨members', rfl, hlength, hsame⟩ := (same_obj_iff hv).mp huv
    obtain ⟨members'', rfl, hlength', hsame'⟩ := (same_obj_iff hw).mp huw
    refine (same_obj_iff hw).mpr ⟨members'', rfl, hlength.symm.trans hlength', ?_⟩
    cases hu with | obj hdistinct helements =>
    cases hv with | obj hdistinct' helements' =>
    cases hw with | obj _ helements'' =>
    have hkeys : members.map Prod.fst ⊆ members'.map Prod.fst := by
      intro key hkey
      obtain ⟨m, hm, rfl⟩ := mem_map.mp hkey
      obtain ⟨v, hv, -⟩ := hsame m hm
      exact mem_map.mpr ⟨_, hv, rfl⟩
    have hperm : (members.map Prod.fst).Perm (members'.map Prod.fst) :=
      (hdistinct.subperm hkeys).perm_of_length_le (by simp [hlength])
    intro m' hm'
    obtain ⟨m, hm, hkey⟩ := mem_map.mp (hperm.mem_iff.mpr (mem_map_of_mem hm'))
    obtain ⟨v, hv, hmv⟩ := hsame m hm
    obtain ⟨w, hw, hmw⟩ := hsame' m hm
    obtain rfl : (m.1, v) = m' := inj_on_of_nodup_map hdistinct' hv hm' hkey
    exact ⟨w, hw, ih m hm (helements m hm) (helements' _ hm') (helements'' _ hw) hmv hmw⟩

/-- **`==` is an equivalence on values** whenever it is one on numbers. -/
theorem same_equivalence (h : Equivalence (fun m n => eq m n = true)) :
    Equivalence (fun v w : Value N => same eq v.1 w.1 = true) := by
  have heq : ∀ k m n, eq k m = true → eq k n = true → eq m n = true := fun _ _ _ hkm hkn => h.trans (h.symm hkm) hkn
  have hsymm : ∀ {v w : Value N}, same eq v.1 w.1 = true → same eq w.1 v.1 = true :=
    fun {v w} hvw => same_euclidean heq v.2 w.2 v.2 hvw (same_refl h.refl v.2)
  exact ⟨fun v => same_refl h.refl v.2, hsymm, fun {u v w} huv hvw => same_euclidean heq v.2 u.2 w.2 (hsymm huv) hvw⟩

end

end Json
end MartyCore
