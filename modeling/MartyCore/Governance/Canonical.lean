import MartyCore.Lib.Json

/-!
# `Governance.Canonical` — canonical JSON

The embedding of `canonical_json` and `canonical_digest` of `marty-verification/src/governance.rs`. The serialiser
recurses through arrays and objects by hand and leaves scalars and keys to the standard one; members are written
in key order. Serialising a scalar cannot fail, so neither can it.

The result is that the text is a canonical form: equal texts exactly for values that are equal with objects as
unordered maps (`canonicalJson_eq_iff`). One direction is a computation on sorted members. For the other, the text is
the standard text of the value with its keys sorted (`canonicalJson_eq_text`), and standard texts are injective
(`Json.text_injective`).
-/

namespace MartyCore.Governance

open List

variable {N : Type} (format : Json.NumberFormat N)

/-! ## The serialiser -/

/-- `{encoded_key}:{value}`. -/
def memberText (member : Str × Str) : Str := Json.quote member.1 ++ ':' :: member.2

/-- The members in key order: the source sorts the keys and looks each one up again. -/
def sortMembers {α : Type} (members : List (Str × α)) : List (Str × α) :=
  members.insertionSort (fun a b => a.1 ≤ b.1)

mutual

def canonicalJson : Json N → Str
  | .null => "null".toList
  | .bool b => if b then "true".toList else "false".toList
  | .num n => format.text n
  | .str s => Json.quote s
  | .arr values => '[' :: (Code.joined ',' (canonicalValues values) ++ [']'])
  | .obj members =>
    '\x7b' :: (Code.joined ',' ((sortMembers (canonicalMembers members)).map memberText) ++ ['\x7d'])

/-- The texts of the elements of an array. -/
def canonicalValues : List (Json N) → List Str
  | [] => []
  | v :: rest => canonicalJson v :: canonicalValues rest

/-- The texts of the members of an object, with their keys. -/
def canonicalMembers : List (Str × Json N) → List (Str × Str)
  | [] => []
  | (key, v) :: rest => (key, canonicalJson v) :: canonicalMembers rest

end

/-- `{:x}`: two digits a byte. -/
def hexText (bytes : Bytes) : Str :=
  bytes.flatMap (fun b => [Json.hexDigit (b.toNat / 16), Json.hexDigit (b.toNat % 16)])

/-- `format!("sha256:{:x}", …)` of the canonical text. -/
def canonicalDigest (sha256 : Bytes → Block 32) (v : Json N) : Str :=
  "sha256:".toList ++ hexText (sha256 (Str.bytes (canonicalJson format v))).bytes

variable (values : List (Json N))

theorem canonicalValues_eq_map : canonicalValues format values = values.map (canonicalJson format) := by
  induction values with
  | nil => rfl
  | cons v rest ih => rw [canonicalValues, ih, map_cons]

variable (members : List (Str × Json N))

theorem canonicalMembers_eq_map :
    canonicalMembers format members = members.map (fun m => (m.1, canonicalJson format m.2)) := by
  induction members with
  | nil => rfl
  | cons m rest ih => rw [canonicalMembers, ih, map_cons]

theorem canonicalJson_arr :
    canonicalJson format (.arr values) = '[' :: (Code.joined ',' (values.map (canonicalJson format)) ++ [']']) := by
  rw [canonicalJson, canonicalValues_eq_map]

/-- The text of a member from its value. -/
def memberEnc (member : Str × Json N) : Str :=
  Json.quote member.1 ++ ':' :: canonicalJson format member.2

/-- Sorting the texts by key is sorting the members by key. -/
theorem canonicalJson_obj :
    canonicalJson format (.obj members) =
      '\x7b' :: (Code.joined ',' ((sortMembers members).map (memberEnc format)) ++ ['\x7d']) := by
  have hsort : (sortMembers members).map (fun m => (m.1, canonicalJson format m.2)) =
      sortMembers (members.map (fun m => (m.1, canonicalJson format m.2))) :=
    map_insertionSort _ _ _ _ (fun _ _ _ _ => Iff.rfl)
  rw [canonicalJson, canonicalMembers_eq_map, ← hsort, map_map]
  rfl

/-! ## Equal values have equal texts -/

/-- The members' texts of two equal maps are the same, up to order. -/
theorem members_perm {members members' : List (Str × Json N)} (hnodup : (members.map Prod.fst).Nodup)
    (hnodup' : (members'.map Prod.fst).Nodup) (hkeys : ∀ key, key ∈ members.map Prod.fst ↔ key ∈ members'.map Prod.fst)
    (htext : ∀ key v v', (key, v) ∈ members → (key, v') ∈ members' → canonicalJson format v = canonicalJson format v') :
    (members.map (fun m => (m.1, canonicalJson format m.2))).Perm
      (members'.map (fun m => (m.1, canonicalJson format m.2))) := by
  have hdistinct : ∀ {ms : List (Str × Json N)}, (ms.map Prod.fst).Nodup →
      (ms.map (fun m => (m.1, canonicalJson format m.2))).Nodup := by
    intro ms hms
    refine List.Nodup.of_map Prod.fst ?_
    rwa [map_map]
  rw [perm_ext_iff_of_nodup (hdistinct hnodup) (hdistinct hnodup')]
  rintro ⟨key, text⟩
  simp only [mem_map, Prod.mk.injEq]
  constructor
  · rintro ⟨⟨_, v⟩, hv, rfl, rfl⟩
    obtain ⟨⟨_, v'⟩, hv', rfl⟩ := mem_map.mp ((hkeys _).mp (mem_map_of_mem hv))
    exact ⟨_, hv', rfl, (htext _ v v' hv hv').symm⟩
  · rintro ⟨⟨_, v'⟩, hv', rfl, rfl⟩
    obtain ⟨⟨_, v⟩, hv, rfl⟩ := mem_map.mp ((hkeys _).mpr (mem_map_of_mem hv'))
    exact ⟨_, hv, rfl, htext _ v v' hv hv'⟩

theorem canonicalJson_of_equiv {v w : Json N} (h : Json.Equiv v w) (hv : v.WellFormed) (hw : w.WellFormed) :
    canonicalJson format v = canonicalJson format w := by
  induction h with
  | null | bool | num | str => rfl
  | @arr values values' hlen _ ih =>
    cases hv with | arr hv =>
    cases hw with | arr hw =>
    have htexts : values.map (canonicalJson format) = values'.map (canonicalJson format) := by
      rw [← forall₂_eq_eq_eq, forall₂_map_left_iff, forall₂_map_right_iff, forall₂_iff_zip]
      exact ⟨hlen, fun hp => ih _ hp (hv _ (of_mem_zip hp).1) (hw _ (of_mem_zip hp).2)⟩
    rw [canonicalJson_arr, canonicalJson_arr, htexts]
  | obj hkeys _ ih =>
    cases hv with | obj hnodup hv =>
    cases hw with | obj hnodup' hw =>
    have hperm := members_perm format hnodup hnodup' hkeys
      (fun key x x' hx hx' => ih key x x' hx hx' (hv _ hx) (hw _ hx'))
    rw [canonicalJson, canonicalJson, canonicalMembers_eq_map, canonicalMembers_eq_map, sortMembers, sortMembers,
      insertionSort_of_perm hperm]
    rw [map_map]
    exact hnodup'

/-! ## Equal texts come from equal values -/

mutual

/-- The value with the members of every object in key order. -/
def sortKeys : Json N → Json N
  | .arr values => .arr (sortValues values)
  | .obj members => .obj (sortMembers (sortMemberValues members))
  | .null => .null
  | .bool b => .bool b
  | .num n => .num n
  | .str s => .str s

def sortValues : List (Json N) → List (Json N)
  | [] => []
  | v :: rest => sortKeys v :: sortValues rest

def sortMemberValues : List (Str × Json N) → List (Str × Json N)
  | [] => []
  | (key, v) :: rest => (key, sortKeys v) :: sortMemberValues rest

end

theorem sortKeys_arr : sortKeys (.arr values) = .arr (values.map sortKeys) := by
  have hmap : sortValues values = values.map sortKeys := by
    induction values with
    | nil => rfl
    | cons v rest ih => rw [sortValues, ih, map_cons]
  rw [sortKeys, hmap]

/-- Sorting the keys inside and then the members is sorting the members first. -/
theorem sortKeys_obj : sortKeys (.obj members) = .obj ((sortMembers members).map (fun m => (m.1, sortKeys m.2))) := by
  have hmap : sortMemberValues members = members.map (fun m => (m.1, sortKeys m.2)) := by
    induction members with
    | nil => rfl
    | cons m rest ih => rw [sortMemberValues, ih, map_cons]
  have hsort : (sortMembers members).map (fun m => (m.1, sortKeys m.2)) =
      sortMembers (members.map (fun m => (m.1, sortKeys m.2))) :=
    map_insertionSort _ _ _ _ (fun _ _ _ _ => Iff.rfl)
  rw [sortKeys, hmap, hsort]

theorem mem_sortMembers {members : List (Str × Json N)} {m : Str × Json N} : m ∈ sortMembers members ↔ m ∈ members :=
  mem_insertionSort _

/-- **Canonical JSON is the standard text of the value with its keys sorted.** -/
theorem canonicalJson_eq_text (v : Json N) : canonicalJson format v = Json.text format.text (sortKeys v) := by
  induction v using Json.ind with
  | null | bool | num | str => rfl
  | arr values ih => rw [canonicalJson_arr, sortKeys_arr, Json.text_arr, map_map, map_congr_left ih]; rfl
  | obj members ih =>
    have htexts : (sortMembers members).map (memberEnc format) =
        ((sortMembers members).map (fun m => (m.1, sortKeys m.2))).map (Json.memberText format.text) := by
      rw [map_map]
      refine map_congr_left fun m hm => ?_
      show Json.quote m.1 ++ ':' :: canonicalJson format m.2 = Json.quote m.1 ++ ':' :: Json.text format.text _
      rw [ih m (mem_sortMembers.mp hm)]
    rw [canonicalJson_obj, sortKeys_obj, Json.text_obj, htexts]

/-- Lists with equal images agree one by one. -/
theorem forall₂_of_map_eq {α β : Type} {f : α → β} {as bs : List α} (h : as.map f = bs.map f) :
    List.Forall₂ (fun a b => f a = f b) as bs := by
  rwa [← forall₂_eq_eq_eq, forall₂_map_left_iff, forall₂_map_right_iff] at h

/-- Values with the same sorted form are equal with objects as unordered maps. -/
theorem equiv_of_sortKeys {v w : Json N} (hv : v.WellFormed) (hw : w.WellFormed) (h : sortKeys v = sortKeys w) :
    Json.Equiv v w := by
  induction v using Json.ind generalizing w with
  | null => cases w <;> cases h; exact .null
  | bool b => cases w <;> cases h; exact .bool b
  | num n => cases w <;> cases h; exact .num n
  | str s => cases w <;> cases h; exact .str s
  | arr values ih =>
    cases hw with
    | arr hw =>
      cases hv with | arr hv =>
      rw [sortKeys_arr, sortKeys_arr] at h
      have hzip := forall₂_iff_zip.mp (forall₂_of_map_eq (Json.arr.inj h))
      refine .arr hzip.1 (fun p hp => ?_)
      obtain ⟨hp₁, hp₂⟩ := of_mem_zip hp
      exact ih p.1 hp₁ (hv p.1 hp₁) (hw p.2 hp₂) (hzip.2 hp)
    | _ => cases h
  | obj members ih =>
    cases hw with
    | obj hnodup' hw =>
      cases hv with | obj hnodup hv =>
      rw [sortKeys_obj, sortKeys_obj] at h
      have hsorted := forall₂_of_map_eq (Json.obj.inj h)
      refine .obj (fun key => ?_) (fun key v v' hmv hmv' => ?_)
      · simp only [mem_map]
        constructor
        · rintro ⟨m, hm, rfl⟩
          obtain ⟨m', hm', heq⟩ := exists_of_mem_forall₂ hsorted (mem_sortMembers.mpr hm)
          exact ⟨m', mem_sortMembers.mp hm', ((Prod.mk.injEq ..).mp heq).1.symm⟩
        · rintro ⟨m', hm', rfl⟩
          obtain ⟨m, hm, heq⟩ := exists_of_mem_forall₂ hsorted.flip (mem_sortMembers.mpr hm')
          exact ⟨m, mem_sortMembers.mp hm, ((Prod.mk.injEq ..).mp heq).1⟩
      · obtain ⟨m', hm', heq⟩ := exists_of_mem_forall₂ hsorted (mem_sortMembers.mpr hmv)
        obtain ⟨hkey, hvalue⟩ := (Prod.mk.injEq ..).mp heq
        -- the partner has the same key, and there is one member with it
        have hsame : m' = (key, v') := inj_on_of_nodup_map hnodup' (mem_sortMembers.mp hm') hmv' hkey.symm
        rw [hsame] at hvalue
        exact ih (key, v) hmv (hv _ hmv) (hw _ hmv') hvalue
    | _ => cases h

theorem wellFormed_sortKeys {v : Json N} (hv : v.WellFormed) : (sortKeys v).WellFormed := by
  induction v using Json.ind with
  | null => exact .null
  | bool b => exact .bool b
  | num n => exact .num n
  | str s => exact .str s
  | arr values ih =>
    cases hv with | arr hv =>
    rw [sortKeys_arr]
    exact .arr (forall_mem_map.mpr (fun v hmem => ih v hmem (hv v hmem)))
  | obj members ih =>
    cases hv with | obj hnodup hv =>
    rw [sortKeys_obj]
    refine .obj ?_ ?_
    · rw [map_map]
      exact ((perm_insertionSort _ members).map Prod.fst).nodup_iff.mpr hnodup
    · intro m hm
      obtain ⟨m', hmem, rfl⟩ := mem_map.mp hm
      exact ih m' (mem_sortMembers.mp hmem) (hv m' (mem_sortMembers.mp hmem))

/-- Sorting keys gives an equal value. -/
theorem equiv_sortKeys {v : Json N} (hv : v.WellFormed) : Json.Equiv v (sortKeys v) := by
  induction v using Json.ind with
  | null => exact .null
  | bool b => exact .bool b
  | num n => exact .num n
  | str s => exact .str s
  | arr values ih =>
    cases hv with | arr hv =>
    have hzip : List.Forall₂ Json.Equiv values (values.map sortKeys) := by
      rw [forall₂_map_right_iff, forall₂_same]
      exact fun v hmem => ih v hmem (hv v hmem)
    rw [sortKeys_arr]
    exact .arr hzip.length_eq (fun p hp => (forall₂_iff_zip.mp hzip).2 hp)
  | obj members ih =>
    cases hv with | obj hnodup hv =>
    rw [sortKeys_obj]
    refine .obj ?_ ?_
    · intro key
      rw [map_map]
      exact ((perm_insertionSort _ members).map Prod.fst).mem_iff.symm
    · intro key v v' hmem hmem'
      obtain ⟨⟨key', w⟩, hw, heq⟩ := mem_map.mp hmem'
      obtain ⟨rfl, rfl⟩ := (Prod.mk.injEq ..).mp heq
      -- there is one member with the key
      have hsame := inj_on_of_nodup_map hnodup (mem_sortMembers.mp hw) hmem rfl
      obtain rfl : w = v := congrArg Prod.snd hsame
      exact ih _ hmem (hv _ hmem)

/-- **Canonical JSON is a canonical form.** Two values have the same text exactly when they are equal with
    objects as unordered maps, at every depth. -/
theorem canonicalJson_eq_iff (v w : Json.Value N) :
    canonicalJson format v.1 = canonicalJson format w.1 ↔ Json.Equiv v.1 w.1 := by
  constructor
  · intro h
    rw [canonicalJson_eq_text, canonicalJson_eq_text] at h
    exact equiv_of_sortKeys v.2 w.2 (Json.text_injective format h)
  · exact fun h => canonicalJson_of_equiv format h v.2 w.2

end MartyCore.Governance
