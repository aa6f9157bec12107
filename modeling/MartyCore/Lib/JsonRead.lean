import MartyCore.Lib.Json
import MartyCore.Lib.SortedMap

/-!
# `Lib.JsonRead` — reading typed values out of JSON

A reader takes a JSON value to a typed one, or refuses it. Structs are read by the names of their fields: an object
gives each field the member of its name and ignores other members, an array gives the fields its elements in the order
of declaration. A field that is absent has its default, if it has one.

Two facts carry proofs about readers. A reader that `Respects` equality of values gives the same result for members in
any order; scalars, lists, options and the fields of structs do. And an object written with the names of a struct is
read back field by field (`fields_obj_zip`).
-/

namespace MartyCore.Json

open SortedMap
open List hiding lookup

variable {N α : Type}

/-! ## Readers -/

/-- `Value::get` with a key. -/
def get? (key : Str) : Json N → Option (Json N)
  | .obj members => lookup key members
  | _ => none

/-- `Map::remove`. -/
def remove (key : Str) : Json N → Json N
  | .obj members => .obj (eraseList key members)
  | v => v

/-- `value[key]` as a place: the member of that key changed. -/
def modify (key : Str) (f : Json N → Json N) : Json N → Json N
  | .obj members => .obj (members.map (fun m => if m.1 = key then (m.1, f m.2) else m))
  | v => v

/-- `value[key] = v`, in the place of a member of that key or behind the others. -/
def set (key : Str) (new : Json N) : Json N → Json N
  | .obj members =>
    if key ∈ members.map Prod.fst then modify key (fun _ => new) (.obj members) else .obj (members ++ [(key, new)])
  | v => v

def asStr : Json N → Option Str
  | .str s => some s
  | _ => none

def asBool : Json N → Option Bool
  | .bool b => some b
  | _ => none

def asNum (read : N → Option α) : Json N → Option α
  | .num n => read n
  | _ => none

def asArray : Json N → Option (List (Json N))
  | .arr values => some values
  | _ => none

/-- Each element read, or nothing. -/
def readAll (read : Json N → Option α) : List (Json N) → Option (List α)
  | [] => some []
  | v :: rest => do
    let a ← read v
    let as ← readAll read rest
    some (a :: as)

def asList (read : Json N → Option α) : Json N → Option (List α)
  | .arr values => readAll read values
  | _ => none

def asOption (read : Json N → Option α) : Json N → Option (Option α)
  | .null => some none
  | v => (read v).map some

/-- The values of the fields of a struct, in the order of declaration. -/
def fields (names : List Str) : Json N → Option (List (Option (Json N)))
  | .obj members => some (names.map (fun name => lookup name members))
  | .arr values =>
    if values.length ≤ names.length then
      some (values.map some ++ List.replicate (names.length - values.length) none)
    else none
  | _ => none

/-- A field with a default. -/
def fieldOr (default : α) (read : Json N → Option α) : Option (Json N) → Option α
  | none => some default
  | some v => read v

/-- A field without a default. -/
def required (read : Json N → Option α) : Option (Json N) → Option α
  | none => none
  | some v => read v

/-- A reader of fields, which takes them one after the other. -/
abbrev Fields (N α : Type) := StateT (List (Option (Json N))) Option α

namespace Fields

def next (read : Option (Json N) → Option α) : Fields N α
  | [] => none
  | x :: rest => (read x).map (fun a => (a, rest))

def text : Fields N Str := next (fieldOr [] asStr)

def flag : Fields N Bool := next (fieldOr false asBool)

def option (read : Json N → Option α) : Fields N (Option α) := next (fieldOr none (asOption read))

def list (read : Json N → Option α) : Fields N (List α) := next (fieldOr [] (asList read))

end Fields

/-- A struct read from its fields. -/
def struct (names : List Str) (read : Fields N α) (v : Json N) : Option α :=
  (fields names v).bind (fun xs => (read xs).map Prod.fst)

/-! ## Readers cannot tell equal values apart -/

section

/-- The same result for equal values. -/
def Respects (read : Json N → Option α) : Prop :=
  ∀ ⦃v w : Json N⦄, v.WellFormed → w.WellFormed → Equiv v w → read v = read w

/-- Both absent, or both there and equal. -/
inductive Agree : Option (Json N) → Option (Json N) → Prop
  | none : Agree none none
  | some {v w : Json N} (hv : v.WellFormed) (hw : w.WellFormed) (h : Equiv v w) : Agree (some v) (some w)

theorem respects_asStr : Respects (asStr : Json N → Option Str) := by
  intro v w _ _ h
  cases h <;> rfl

theorem respects_asBool : Respects (asBool : Json N → Option Bool) := by
  intro v w _ _ h
  cases h <;> rfl

theorem respects_asNum (read : N → Option α) : Respects (asNum read) := by
  intro v w _ _ h
  cases h <;> rfl

variable {read : Json N → Option α}

theorem Respects.readAll (hread : Respects read) {values values' : List (Json N)}
    (hlength : values.length = values'.length) (hv : ∀ v ∈ values, v.WellFormed) (hw : ∀ v ∈ values', v.WellFormed)
    (h : ∀ p ∈ values.zip values', Equiv p.1 p.2) : Json.readAll read values = Json.readAll read values' := by
  induction values generalizing values' with
  | nil =>
    cases values' with
    | nil => rfl
    | cons w rest => cases hlength
  | cons v rest ih =>
    cases values' with
    | nil => cases hlength
    | cons w rest' =>
      simp only [zip_cons_cons, forall_mem_cons] at hv hw h
      have htail := ih (Nat.succ.inj hlength) hv.2 hw.2 h.2
      simp only [Json.readAll, hread hv.1 hw.1 h.1, htail]

theorem Respects.asList (hread : Respects read) : Respects (Json.asList read) := by
  intro v w hv hw h
  cases h with
  | arr hlength helements =>
    cases hv with | arr hv =>
    cases hw with | arr hw =>
    exact hread.readAll hlength hv hw helements
  | _ => rfl

theorem Respects.asOption (hread : Respects read) : Respects (Json.asOption read) := by
  intro v w hv hw h
  have heq := hread hv hw h
  cases h with
  | null => rfl
  | _ => exact congrArg (Option.map some) heq

theorem Respects.fieldOr (hread : Respects read) (default : α) {x y : Option (Json N)} (h : Agree x y) :
    Json.fieldOr default read x = Json.fieldOr default read y := by
  cases h with
  | none => rfl
  | some hv hw h => exact hread hv hw h

theorem Respects.required (hread : Respects read) {x y : Option (Json N)} (h : Agree x y) :
    Json.required read x = Json.required read y := by
  cases h with
  | none => rfl
  | some hv hw h => exact hread hv hw h

variable {members members' : List (Str × Json N)}

variable {q : Str}

theorem lookup_eq_none_iff : lookup q members = none ↔ q ∉ members.map Prod.fst := by
  induction members with
  | nil => simp [lookup]
  | cons m rest ih =>
    obtain ⟨key', v⟩ := m
    by_cases hq : key' = q
    · simp [lookup, hq]
    · simp [lookup, hq, Ne.symm hq, ih]

theorem lookup_eq_none (h : q ∉ members.map Prod.fst) : lookup q members = none :=
  lookup_eq_none_iff.mpr h

theorem exists_lookup_of_mem (h : q ∈ members.map Prod.fst) : ∃ v, lookup q members = some v :=
  Option.ne_none_iff_exists'.mp (fun hnone => lookup_eq_none_iff.mp hnone h)

theorem agree_lookup (hv : (Json.obj members).WellFormed)
    (hw : (Json.obj members').WellFormed) (h : Equiv (.obj members) (.obj members')) (key : Str) :
    Agree (lookup key members) (lookup key members') := by
  cases hv with | obj hnodup helements =>
  cases hw with | obj hnodup' helements' =>
  cases h with | obj hkeys hvalues =>
  cases hlookup : lookup key members with
  | none =>
    rw [lookup_eq_none_iff, hkeys key] at hlookup
    rw [lookup_eq_none hlookup]
    exact .none
  | some v =>
    have hmem := (lookup_eq_some_iff_of_nodup hnodup).mp hlookup
    obtain ⟨w, hlookup'⟩ := exists_lookup_of_mem ((hkeys key).mp (mem_map_of_mem hmem))
    have hmem' := (lookup_eq_some_iff_of_nodup hnodup').mp hlookup'
    rw [hlookup']
    exact .some (helements _ hmem) (helements' _ hmem') (hvalues key v w hmem hmem')

theorem agree_get? {v w : Json N} (hv : v.WellFormed) (hw : w.WellFormed) (h : Equiv v w) (key : Str) :
    Agree (v.get? key) (w.get? key) := by
  cases h with
  | obj hkeys helements => exact agree_lookup hv hw (.obj hkeys helements) key
  | _ => exact .none

/-- The fields of equal values agree. -/
theorem fields_agree (names : List Str) {v w : Json N} (hv : v.WellFormed) (hw : w.WellFormed) (h : Equiv v w) :
    (fields names v = none ∧ fields names w = none) ∨
    ∃ xs ys, fields names v = some xs ∧ fields names w = some ys ∧ List.Forall₂ Agree xs ys := by
  cases h with
  | obj hkeys helements =>
    refine .inr ⟨_, _, rfl, rfl, ?_⟩
    rw [forall₂_map_left_iff, forall₂_map_right_iff, forall₂_same]
    exact fun name _ => agree_lookup hv hw (.obj hkeys helements) name
  | arr hlength helements =>
    simp only [fields, hlength]
    split
    · refine .inr ⟨_, _, rfl, rfl, rel_append ?_ ?_⟩
      · rw [forall₂_map_left_iff, forall₂_map_right_iff, forall₂_iff_zip]
        refine ⟨hlength, ?_⟩
        intro a b hmem
        cases hv with | arr hv =>
        cases hw with | arr hw =>
        exact .some (hv a (of_mem_zip hmem).1) (hw b (of_mem_zip hmem).2) (helements _ hmem)
      · exact forall₂_same.mpr (fun x hx => (eq_of_mem_replicate hx) ▸ .none)
    · exact .inl ⟨rfl, rfl⟩
  | null | bool b | num n | str s => exact .inl ⟨rfl, rfl⟩

/-- The same result for fields that agree, with fields left that agree. -/
def Fields.Respects (read : Fields N α) : Prop :=
  ∀ ⦃xs ys⦄, List.Forall₂ Agree xs ys →
    Option.Rel (fun p q => p.1 = q.1 ∧ List.Forall₂ Agree p.2 q.2) (read xs) (read ys)

namespace Fields

theorem respects_pure (a : α) : Fields.Respects (pure a : Fields N α) := by
  intro xs ys h
  exact .some ⟨rfl, h⟩

theorem respects_next {read : Option (Json N) → Option α} (hread : ∀ {x y}, Agree x y → read x = read y) :
    Fields.Respects (next read) := by
  intro xs ys h
  cases h with
  | nil => exact .none
  | cons hxy hrest =>
    show Option.Rel _ ((read _).map _) ((read _).map _)
    rw [hread hxy]
    cases read _ with
    | none => exact .none
    | some a => exact .some ⟨rfl, hrest⟩

variable {read : Fields N α} {β : Type}

theorem Respects.bind {k : α → Fields N β} (hread : read.Respects)
    (hk : ∀ a, (k a).Respects) : Fields.Respects (read >>= k) := by
  intro xs ys h
  show Option.Rel _ ((read xs).bind (fun p => k p.1 p.2)) ((read ys).bind (fun p => k p.1 p.2))
  have hrel := hread h
  generalize read xs = p at hrel ⊢
  generalize read ys = q at hrel ⊢
  cases hrel with
  | none => exact .none
  | some hpq =>
    obtain ⟨heq, hrest⟩ := hpq
    simp only [Option.bind_some, heq]
    exact hk _ hrest

theorem Respects.result (hread : read.Respects) {xs ys : List (Option (Json N))}
    (h : List.Forall₂ Agree xs ys) : (read xs).map Prod.fst = (read ys).map Prod.fst := by
  have hrel := hread h
  generalize read xs = p at hrel ⊢
  generalize read ys = q at hrel ⊢
  cases hrel with
  | none => rfl
  | some hpq => exact congrArg some hpq.1

theorem Respects.text_bind {k : Str → Fields N β} (hk : ∀ s, (k s).Respects) :
    Fields.Respects (text >>= k) :=
  (respects_next (respects_asStr.fieldOr [])).bind hk

theorem Respects.flag_bind {k : Bool → Fields N β} (hk : ∀ b, (k b).Respects) :
    Fields.Respects (flag >>= k) :=
  (respects_next (respects_asBool.fieldOr false)).bind hk

variable {read : Json N → Option α}

theorem respects_option (hread : Json.Respects read) : Fields.Respects (option read) :=
  respects_next (hread.asOption.fieldOr none)

theorem respects_list (hread : Json.Respects read) : Fields.Respects (list read) :=
  respects_next (hread.asList.fieldOr [])

end Fields

variable {read : Fields N α} {names : List Str}

/-- **Structs are read alike from equal values.** -/
theorem respects_struct (hread : read.Respects) :
    Respects (struct names read) := by
  intro v w hv hw h
  unfold struct
  rcases fields_agree names hv hw h with ⟨hnone, hnone'⟩ | ⟨xs, ys, hxs, hys, hagree⟩
  · rw [hnone, hnone']
  · rw [hxs, hys]
    exact hread.result hagree

/-- It is enough that the members with the names of the fields agree. -/
theorem struct_congr (hread : read.Respects) {members members' : List (Str × Json N)}
    (h : ∀ name ∈ names, Agree (lookup name members) (lookup name members')) :
    struct names read (.obj members) = struct names read (.obj members') := by
  refine hread.result ?_
  rw [forall₂_map_left_iff, forall₂_map_right_iff, forall₂_same]
  exact h

end

/-! ## Reading field by field -/

namespace Fields

/-- One field read, the others left. -/
theorem bind_of_eq {β : Type} {read : Fields N α} {k : α → Fields N β} {xs rest : List (Option (Json N))} {a : α}
    (h : read xs = some (a, rest)) : (read >>= k) xs = k a rest := by
  show (read xs).bind (fun p => k p.1 p.2) = k a rest
  rw [h]
  rfl

theorem text_cons (s : Str) (rest : List (Option (Json N))) : text (some (.str s) :: rest) = some (s, rest) := rfl

theorem flag_cons (b : Bool) (rest : List (Option (Json N))) : flag (some (.bool b) :: rest) = some (b, rest) := rfl

theorem next_cons {read : Option (Json N) → Option α} {x : Option (Json N)} {a : α} (h : read x = some a)
    (rest : List (Option (Json N))) : next read (x :: rest) = some (a, rest) := by
  show (read x).map _ = _
  rw [h]
  rfl

theorem list_cons {read : Json N → Option α} {values : List (Json N)} {as : List α}
    (h : readAll read values = some as) (rest : List (Option (Json N))) :
    list read (some (.arr values) :: rest) = some (as, rest) :=
  next_cons h rest

end Fields

theorem readAll_map {write : α → Json N} {read : Json N → Option α} (h : ∀ a, read (write a) = some a)
    (as : List α) : readAll read (as.map write) = some as := by
  induction as with
  | nil => rfl
  | cons a rest ih => simp [readAll, h, ih]

/-! ## Objects written with the names of a struct -/

variable {names : List Str} {values : List (Json N)}

theorem lookup_zip (hnodup : names.Nodup) (hlength : values.length = names.length) :
    names.map (fun name => lookup name (names.zip values)) = values.map some := by
  induction names generalizing values with
  | nil =>
    rw [length_nil, length_eq_zero_iff] at hlength
    rw [hlength]
    rfl
  | cons name rest ih =>
    obtain ⟨hfresh, hrest⟩ := nodup_cons.mp hnodup
    cases values with
    | nil => cases hlength
    | cons v values =>
      -- the other names do not see the first member
      have htail : rest.map (fun other => lookup other ((name :: rest).zip (v :: values))) =
          rest.map (fun other => lookup other (rest.zip values)) := by
        refine map_congr_left ?_
        intro other hother
        have hne : name ≠ other := fun heq => hfresh (heq ▸ hother)
        simp [lookup, hne]
      rw [map_cons, htail, ih hrest (Nat.succ.inj hlength)]
      simp [lookup]

theorem not_mem_keys_zip {key : Str} (h : key ∉ names) : key ∉ (names.zip values).map Prod.fst := by
  intro hmem
  obtain ⟨m, hm, rfl⟩ := mem_map.mp hmem
  exact h (of_mem_zip hm).1

section

variable (hnames : names.Nodup ∧ names.length = values.length)

include hnames

/-- **What was written under the names of a struct is read back.** -/
theorem fields_obj_zip : fields names (.obj (names.zip values)) = some (values.map some) :=
  congrArg some (lookup_zip hnames.1 hnames.2.symm)

theorem wellFormed_obj_zip (hvalues : values.Forall WellFormed) : (Json.obj (names.zip values)).WellFormed := by
  refine .obj ?_ ?_
  · rw [map_fst_zip (Nat.le_of_eq hnames.2)]
    exact hnames.1
  · intro m hm
    exact forall_iff_forall_mem.mp hvalues _ (of_mem_zip hm).2

theorem struct_obj_zip {read : Fields N α} {a : α} (hread : read (values.map some) = some (a, [])) :
    struct names read (.obj (names.zip values)) = some a := by
  rw [struct, fields_obj_zip hnames]
  exact congrArg (Option.map Prod.fst) hread

end

/-! ## Changed members -/

variable {xs : List (Option (Json N))} {key : Str} {i : Nat}

/-- A member that is found with another value is the only field that changes. -/
theorem fields_of_lookup (hnodup : names.Nodup) (hkey : names[i]? = some key)
    {members members' : List (Str × Json N)} (h : fields names (.obj members) = some xs) {y : Option (Json N)}
    (hlookup : ∀ q, lookup q members' = if q = key then y else lookup q members) :
    fields names (.obj members') = some (xs.set i y) := by
  obtain ⟨hi, hget⟩ := List.getElem?_eq_some_iff.mp hkey
  have hxs := Option.some.inj h
  refine congrArg some ?_
  refine ext_getElem (by simp [← hxs]) ?_
  intro j hj _
  have hj' : j < names.length := by simpa using hj
  rw [getElem_map, getElem_set]
  by_cases hij : i = j
  · subst hij
    rw [if_pos rfl, hget, hlookup, if_pos rfl]
  · have hne : names[j] ≠ key := fun heq => hij ((hnodup.getElem_inj_iff).mp (hget.trans heq.symm))
    rw [if_neg hij, hlookup, if_neg hne]
    simp [← hxs]

variable {members : List (Str × Json N)}

theorem fields_remove (hnodup : names.Nodup) (hkey : names[i]? = some key)
    (h : fields names (.obj members) = some xs) :
    fields names (remove key (.obj members)) = some (xs.set i none) := by
  refine fields_of_lookup hnodup hkey h (fun q => ?_)
  rw [lookup_eraseList]
  congr

theorem lookup_modify (key : Str) (f : Json N → Json N) (members : List (Str × Json N)) (q : Str) :
    lookup q (members.map (fun m => if m.1 = key then (m.1, f m.2) else m)) =
      if q = key then (lookup q members).map f else lookup q members := by
  induction members with
  | nil => simp [lookup]
  | cons m rest ih =>
    obtain ⟨key', v⟩ := m
    by_cases hkey : key' = key
    · subst hkey
      by_cases hq : key' = q
      · subst hq
        simp [lookup]
      · simp [lookup, hq, ih, Ne.symm hq]
    · by_cases hq : key' = q
      · subst hq
        simp [lookup, hkey]
      · simp [lookup, hkey, hq, ih]

theorem fields_modify (hnodup : names.Nodup) (hkey : names[i]? = some key)
    (h : fields names (.obj members) = some xs) {v : Json N} (hv : lookup key members = some v) (f : Json N → Json N) :
    fields names (modify key f (.obj members)) = some (xs.set i (some (f v))) := by
  refine fields_of_lookup hnodup hkey h (fun q => ?_)
  rw [lookup_modify]
  refine ite_congr rfl ?_ (fun _ => rfl)
  rintro rfl
  rw [hv, Option.map_some]

theorem lookup_of_fields (hkey : names[i]? = some key) (h : fields names (.obj members) = some xs) :
    xs[i]? = some (lookup key members) := by
  rw [← Option.some.inj h, getElem?_map, hkey]
  rfl

theorem lookup_append (q : Str) (members extra : List (Str × Json N)) :
    lookup q (members ++ extra) = (lookup q members).or (lookup q extra) := by
  induction members with
  | nil => simp [lookup]
  | cons m rest ih =>
    obtain ⟨key', v⟩ := m
    by_cases hq : key' = q
    · simp [lookup, hq]
    · simp [lookup, hq, ih]

/-- Members that are not fields are not seen. -/
theorem fields_append (members : List (Str × Json N)) {extra : List (Str × Json N)}
    (hextra : ∀ m ∈ extra, m.1 ∉ names) : fields names (.obj (members ++ extra)) = fields names (.obj members) := by
  refine congrArg some (map_congr_left ?_)
  intro name hname
  have hnone : lookup name extra = none := by
    apply lookup_eq_none
    intro hmem
    obtain ⟨m, hm, rfl⟩ := mem_map.mp hmem
    exact hextra m hm hname
  rw [lookup_append, hnone, Option.or_none]

theorem wellFormed_remove {v : Json N} (h : v.WellFormed) : (remove key v).WellFormed := by
  cases v with
  | obj members =>
    cases h with | obj hnodup helements =>
    exact .obj (hnodup.sublist (filter_sublist.map Prod.fst))
      (fun m hm => helements m (mem_of_mem_filter hm))
  | _ => exact h

theorem wellFormed_modify {f : Json N → Json N} (hf : ∀ v : Json N, v.WellFormed → (f v).WellFormed) {v : Json N}
    (h : v.WellFormed) : (modify key f v).WellFormed := by
  cases v with
  | obj members =>
    cases h with | obj hnodup helements =>
    have hkeys : (members.map (fun m => if m.1 = key then (m.1, f m.2) else m)).map Prod.fst = members.map Prod.fst := by
      rw [map_map]
      refine map_congr_left ?_
      intro m _
      show (if m.1 = key then (m.1, f m.2) else m).1 = m.1
      split <;> rfl
    refine .obj (hkeys ▸ hnodup) ?_
    intro m hm
    obtain ⟨m', hm', rfl⟩ := mem_map.mp hm
    split
    · exact hf _ (helements m' hm')
    · exact helements m' hm'
  | _ => exact h

theorem wellFormed_set {new : Json N} (hnew : new.WellFormed) {v : Json N} (h : v.WellFormed) :
    (set key new v).WellFormed := by
  cases v with
  | obj members =>
    by_cases hkey : key ∈ members.map Prod.fst
    · rw [set, if_pos hkey]
      exact wellFormed_modify (fun _ _ => hnew) h
    · rw [set, if_neg hkey]
      cases h with | obj hnodup helements =>
      exact .obj (nodup_map_concat_iff.mpr ⟨hkey, hnodup⟩)
        (forall_mem_append.mpr ⟨helements, forall_mem_singleton.mpr hnew⟩)
  | _ => exact h

end MartyCore.Json
