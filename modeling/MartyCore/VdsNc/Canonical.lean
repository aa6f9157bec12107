import MartyCore.VdsNc.Model

/-!
# `VdsNc.Canonical` — canonical documents are fixed points

What normalisation returns, it returns again when it is given it: for a text (`normalizeText_idem`), a number, a JSON
value (through `Normal`, the values `normalizeJson` leaves as they are) and so for a field and for a document
(`canonicalizeDocument_idempotent`). The strings and keys of a canonical document are `Clean`: none contains the delimiter of
the envelope or a control character.
-/

namespace MartyCore.VdsNc

open Result SortedMap Json
open List hiding lookup

/-- Without the delimiter and without control characters. -/
def Clean (s : Str) : Prop := s.any isForbidden = false

instance (s : Str) : Decidable (Clean s) := inferInstanceAs (Decidable (_ = _))

variable {s : Str}

theorem Clean.not_mem (h : Clean s) {c : Char} (hc : isForbidden c = true) : c ∉ s := by
  intro hmem
  have hany : s.any isForbidden = true := any_eq_true.mpr ⟨c, hmem, hc⟩
  rw [h] at hany
  cases hany

theorem clean_of_not (h : ¬ s.any isForbidden = true) : Clean s := Bool.eq_false_iff.mpr h

/-! ## Envelope texts -/

theorem validateEnvelopeText_ok_iff {field : String} {value : Str} {maxChars : Nat} :
    validateEnvelopeText field value maxChars = .ok s ↔ s = value.trim ∧ s ≠ [] ∧ s.length ≤ maxChars ∧ Clean s := by
  unfold validateEnvelopeText
  rw [reject_bind_ok_iff, reject_bind_ok_iff, reject_bind_ok_iff]
  constructor
  · rintro ⟨hne, hlength, hclean, hs⟩
    obtain rfl : value.trim = s := by simpa [pure, Except.pure] using hs
    exact ⟨rfl, hne, Nat.le_of_not_lt hlength, clean_of_not hclean⟩
  · rintro ⟨rfl, hne, hlength, hclean⟩
    exact ⟨hne, Nat.not_lt_of_le hlength, Bool.eq_false_iff.mp hclean, rfl⟩

/-- A text the issuer wrote is canonical to the parser. -/
theorem checkCanonicalText_of_ok {field field' : String} {value : Str} {maxChars : Nat}
    (h : validateEnvelopeText field value maxChars = .ok s) : checkCanonicalText field' s maxChars = .ok () := by
  obtain ⟨hs, hne, hlength, hclean⟩ := validateEnvelopeText_ok_iff.mp h
  have htrim : s.trim = s := by rw [hs, Str.trim_trim]
  have hagain : validateEnvelopeText field' s maxChars = .ok s :=
    validateEnvelopeText_ok_iff.mpr ⟨htrim.symm, hne, hlength, hclean⟩
  rw [checkCanonicalText, hagain, ok_bind, reject_ok_iff]
  simp

section

variable {N : Type} {platform : Platform N}

/-! ## Texts -/

variable {spec : FieldSpec} {value : Json N}

theorem normalizeText_ok_iff :
    normalizeText platform spec value = .ok s ↔
      ∃ raw, rawText platform spec value = .ok raw ∧
        s = Str.toUppercase platform.unicode.toCaseMapping raw.trim ∧ checkText platform spec s = .ok () := by
  unfold normalizeText
  simp only [bind_ok_iff]
  constructor
  · rintro ⟨raw, hraw, u, hcheck, hs⟩
    cases hs
    exact ⟨raw, hraw, rfl, hcheck⟩
  · rintro ⟨raw, hraw, rfl, hcheck⟩
    exact ⟨raw, hraw, (), hcheck, rfl⟩

/-- **A normalised text is normal.** -/
theorem normalizeText_idem (h : normalizeText platform spec value = .ok s) :
    normalizeText platform spec (.str s) = .ok s := by
  obtain ⟨raw, -, hs, hcheck⟩ := normalizeText_ok_iff.mp h
  refine normalizeText_ok_iff.mpr ⟨s, rfl, ?_, hcheck⟩
  rw [hs, Str.toUppercase_trim_stable]

theorem checkPattern_of_checkText (h : checkText platform spec s = .ok ()) : checkPattern platform spec s = .ok () := by
  obtain ⟨-, h⟩ := of_reject h
  obtain ⟨-, -, h⟩ := of_bind h
  exact h

/-! ## Integers -/

theorem normalizeInteger_range {n : Int} (h : normalizeInteger platform spec value = .ok n) :
    - 2 ^ 63 ≤ n ∧ n < 2 ^ 63 := by
  cases value with
  | num x => exact platform.asI64_range x n (orFail_ok_iff.mp h)
  | str s => exact (Str.parseSigned_eq_some_iff.mp (orFail_ok_iff.mp h)).2
  | _ => cases h

theorem normalizeInteger_idem {n : Int} (h : normalizeInteger platform spec value = .ok n) :
    normalizeInteger platform spec (.num (platform.ofI64 n)) = .ok n := by
  obtain ⟨hlow, hhigh⟩ := normalizeInteger_range h
  exact orFail_ok_iff.mpr (platform.asI64_ofI64 n hlow hhigh)

end

/-! ## JSON values -/

section

variable {N : Type} {field : String}

variable {depth : Nat}

theorem checkDepth_bind_ok_iff {α : Type} {k : Unit → Except Oid4vciError α} {a : α} :
    (checkDepth field depth >>= k) = .ok a ↔ depth ≤ 16 ∧ k () = .ok a := by
  unfold checkDepth
  rw [reject_bind_ok_iff, Nat.not_lt]

theorem normalizeValues_ok_iff {values ws : List (Json N)} :
    normalizeValues field depth values = .ok ws ↔
      List.Forall₂ (fun v w => normalizeJson field depth v = .ok w) values ws := by
  induction values generalizing ws with
  | nil =>
    rw [normalizeValues, forall₂_nil_left_iff]
    exact ⟨fun h => (Except.ok.inj h).symm, fun h => h ▸ rfl⟩
  | cons v rest ih =>
    rw [normalizeValues, bind_ok_iff]
    constructor
    · rintro ⟨w, hw, h⟩
      obtain ⟨others, hothers, h⟩ := of_bind h
      cases h
      exact .cons hw (ih.mp hothers)
    · intro h
      cases h with
      | cons hw hothers => exact ⟨_, hw, bind_ok_iff.mpr ⟨_, ih.mpr hothers, rfl⟩⟩

/-- One member, before and after. -/
def MemberOk (field : String) (depth : Nat) (m n : Str × Json N) : Prop :=
  ¬ isInvalidKey m.1 ∧ n.1 = m.1 ∧ normalizeJson field depth m.2 = .ok n.2

theorem normalizeMembers_ok_iff {members ns : List (Str × Json N)} :
    normalizeMembers field depth members = .ok ns ↔ List.Forall₂ (MemberOk field depth) members ns := by
  induction members generalizing ns with
  | nil =>
    rw [normalizeMembers, forall₂_nil_left_iff]
    exact ⟨fun h => (Except.ok.inj h).symm, fun h => h ▸ rfl⟩
  | cons m rest ih =>
    obtain ⟨key, v⟩ := m
    rw [normalizeMembers, reject_bind_ok_iff, bind_ok_iff]
    constructor
    · rintro ⟨hkey, w, hw, h⟩
      obtain ⟨others, hothers, h⟩ := of_bind h
      cases h
      exact .cons ⟨hkey, rfl, hw⟩ (ih.mp hothers)
    · intro h
      cases h with
      | @cons _ n _ _ hn hothers =>
        obtain ⟨hkey, hsame, hw⟩ := hn
        obtain ⟨key', w⟩ := n
        obtain rfl : key' = key := hsame
        exact ⟨hkey, w, hw, bind_ok_iff.mpr ⟨_, ih.mpr hothers, rfl⟩⟩

/-- The values that normalisation leaves as they are, at a depth. -/
inductive Normal : Nat → Json N → Prop
  | null {d : Nat} (depth : d ≤ 16) : Normal d .null
  | bool {d : Nat} (depth : d ≤ 16) (b : Bool) : Normal d (.bool b)
  | num {d : Nat} (depth : d ≤ 16) (n : N) : Normal d (.num n)
  | str {d : Nat} (depth : d ≤ 16) {s : Str} (clean : Clean s) (length : s.length ≤ 512) : Normal d (.str s)
  | arr {d : Nat} (depth : d ≤ 16) {values : List (Json N)} (length : values.length ≤ 128)
      (elements : ∀ v ∈ values, Normal (d + 1) v) : Normal d (.arr values)
  | obj {d : Nat} (depth : d ≤ 16) (members : SortedMap Str (Json N)) (length : members.entries.length ≤ 128)
      (keys : ∀ m ∈ members.entries, ¬ isInvalidKey m.1) (elements : ∀ m ∈ members.entries, Normal (d + 1) m.2) :
      Normal d (.obj members.entries)

/-- **What normalisation returns is normal**, and nothing new is in it: its texts are clean, what bounded the numbers
    still does, and it is no deeper than what is left of the depth. -/
theorem normalizeJson_spec {v w : Json N} (h : normalizeJson field depth v = .ok w) :
    Normal depth w ∧ ∀ {K : N → Prop} {n : Nat}, v.Bounded (fun _ => True) K n → w.Bounded Clean K (17 - depth) := by
  induction v using ind generalizing depth w with
  | null =>
    rw [normalizeJson, checkDepth_bind_ok_iff] at h
    obtain rfl := Except.ok.inj h.2
    exact ⟨.null h.1, fun _ => .null⟩
  | bool b =>
    rw [normalizeJson, checkDepth_bind_ok_iff] at h
    obtain rfl := Except.ok.inj h.2
    exact ⟨.bool h.1 b, fun _ => .bool b⟩
  | num n =>
    rw [normalizeJson, checkDepth_bind_ok_iff] at h
    obtain rfl := Except.ok.inj h.2
    refine ⟨.num h.1 n, fun hv => ?_⟩
    cases hv with
    | num hK => exact .num hK
  | str s =>
    rw [normalizeJson, checkDepth_bind_ok_iff, reject_bind_ok_iff, reject_bind_ok_iff] at h
    obtain ⟨hdepth, hclean, hlength, h⟩ := h
    cases h
    exact ⟨.str hdepth (clean_of_not hclean) (Nat.le_of_not_lt hlength), fun _ => .str (clean_of_not hclean)⟩
  | arr values ih =>
    rw [normalizeJson, checkDepth_bind_ok_iff, reject_bind_ok_iff, bind_ok_iff] at h
    obtain ⟨hdepth, hlength, ws, hws, h⟩ := h
    cases h
    have hall := normalizeValues_ok_iff.mp hws
    have hspec := fun w hw => exists_of_mem_forall₂ hall.flip (a := w) hw
    constructor
    · refine .arr hdepth (hall.length_eq ▸ Nat.le_of_not_lt hlength) ?_
      intro w hw
      obtain ⟨v, hv, hstep⟩ := hspec w hw
      exact (ih v hv hstep).1
    · intro K n hbounded
      cases hbounded with
      | arr helements =>
        rw [show 17 - depth = (17 - (depth + 1)) + 1 by omega]
        refine .arr ?_
        intro w hw
        obtain ⟨v, hv, hstep⟩ := hspec w hw
        exact (ih v hv hstep).2 (helements v hv)
  | obj members ih =>
    rw [normalizeJson, checkDepth_bind_ok_iff, reject_bind_ok_iff, bind_ok_iff] at h
    obtain ⟨hdepth, hlength, ns, hns, h⟩ := h
    cases h
    have hall := normalizeMembers_ok_iff.mp hns
    have hspec : ∀ n ∈ (Json.sortedMap ns).entries, ∃ m ∈ members, MemberOk field (depth + 1) m n :=
      fun n hn => exists_of_mem_forall₂ hall.flip (mem_of_mem_sortedMap hn)
    have hkeys : ∀ n ∈ (Json.sortedMap ns).entries, ¬ isInvalidKey n.1 := by
      intro n hn
      obtain ⟨m, -, hkey, hsame, -⟩ := hspec n hn
      exact hsame ▸ hkey
    constructor
    · refine .obj hdepth _ ((length_sortedMap_le ns).trans (hall.length_eq ▸ Nat.le_of_not_lt hlength)) hkeys ?_
      intro n hn
      obtain ⟨m, hm, -, -, hstep⟩ := hspec n hn
      exact (ih m hm hstep).1
    · intro K n hbounded
      cases hbounded with
      | obj _ helements =>
        rw [show 17 - depth = (17 - (depth + 1)) + 1 by omega]
        refine .obj (fun n hn => clean_of_not (fun hforbidden => hkeys n hn (.inr (.inr hforbidden)))) ?_
        intro n hn
        obtain ⟨m, hm, -, -, hstep⟩ := hspec n hn
        exact (ih m hm hstep).2 (helements m hm)

theorem Normal.normalizeJson_eq {v : Json N} (h : Normal depth v) : normalizeJson field depth v = .ok v := by
  induction h with
  | null hdepth | bool hdepth b | num hdepth n => exact checkDepth_bind_ok_iff.mpr ⟨hdepth, rfl⟩
  | str hdepth hclean hlength =>
    rw [normalizeJson, checkDepth_bind_ok_iff, reject_bind_ok_iff, reject_bind_ok_iff]
    exact ⟨hdepth, Bool.eq_false_iff.mp hclean, Nat.not_lt_of_le hlength, rfl⟩
  | arr hdepth hlength _ ih =>
    rw [normalizeJson, checkDepth_bind_ok_iff, reject_bind_ok_iff, bind_ok_iff]
    refine ⟨hdepth, Nat.not_lt_of_le hlength, _, normalizeValues_ok_iff.mpr ?_, rfl⟩
    exact forall₂_same.mpr ih
  | obj hdepth members hlength hkeys _ ih =>
    rw [normalizeJson, checkDepth_bind_ok_iff, reject_bind_ok_iff, bind_ok_iff]
    refine ⟨hdepth, Nat.not_lt_of_le hlength, members.entries, normalizeMembers_ok_iff.mpr ?_, ?_⟩
    · exact forall₂_same.mpr (fun m hm => ⟨hkeys m hm, rfl, ih m hm⟩)
    · rw [sortedMap_entries]
      rfl

theorem Normal.keysSorted {v : Json N} (h : Normal depth v) : v.KeysSorted := by
  induction h with
  | null => exact .null
  | bool _ b => exact .bool b
  | num _ n => exact .num n
  | str => exact .str _
  | arr _ _ _ ih => exact .arr ih
  | obj _ members _ _ _ ih => exact .obj members.sorted ih

end

/-! ## Fields -/

section

variable {N : Type} {platform : Platform N}

/-- **A normalised field is normal**, with its keys in order, and clean. -/
theorem normalizeField_spec {spec : FieldSpec} {v w : Json N} (h : normalizeField platform spec v = .ok w) :
    normalizeField platform spec w = .ok w ∧ w.KeysSorted ∧
      (v.NumbersIn platform.IsInteger → w.Bounded Clean platform.IsInteger 17) := by
  unfold normalizeField at h ⊢
  cases hkind : spec.kind with
  | text =>
    rw [hkind] at h
    obtain ⟨s, hs, h⟩ := of_bind h
    cases h
    obtain ⟨-, -, -, hcheck⟩ := normalizeText_ok_iff.mp hs
    exact ⟨bind_ok_iff.mpr ⟨s, normalizeText_idem hs, rfl⟩, .str s, fun _ => .str (clean_of_not (of_reject hcheck).1)⟩
  | integer =>
    rw [hkind] at h
    obtain ⟨n, hn, h⟩ := of_bind h
    cases h
    exact ⟨bind_ok_iff.mpr ⟨n, normalizeInteger_idem hn, rfl⟩, .num _, fun _ => .num (platform.isInteger_ofI64 n)⟩
  | json =>
    rw [hkind] at h
    obtain ⟨hnormal, hbounded⟩ := normalizeJson_spec h
    exact ⟨hnormal.normalizeJson_eq, hnormal.keysSorted, fun ⟨_, hn⟩ => hbounded hn⟩

/-! ## Documents -/

/-- What a document of this type is after normalisation: its members are normalised fields of the profile, with the
    required ones among them, and it names its type. -/
structure Canonical (platform : Platform N) (documentType : DocumentType) (document : SortedMap Str (Json N)) : Prop where
  normal : ∀ m ∈ document.entries, ∃ spec ∈ fields documentType,
    spec.key.toList = m.1 ∧ normalizeField platform spec m.2 = .ok m.2
  required : ∀ spec ∈ fields documentType, spec.required = true → spec.key.toList ∈ document.entries.map Prod.fst
  docType : ∃ name, document.get? "docType".toList = some (.str name) ∧ DocumentType.parse name = .ok documentType

theorem nodup_keys_fields (documentType : DocumentType) :
    ((fields documentType).map (fun spec => spec.key.toList)).Nodup := by
  cases documentType with
  | cmc | mrv | eVisa => decide

variable {input : List (Str × Json N)}

variable {specs : List FieldSpec}

/-- What the loop over the fields inserts: under the key of a field, in the order of the fields, the normalised value. -/
theorem canonicalMembers_spec {members : List (Str × Json N)}
    (h : canonicalMembers platform input specs = .ok members) :
    List.Sublist (members.map Prod.fst) (specs.map (fun spec => spec.key.toList)) ∧
    (∀ m ∈ members, ∃ spec ∈ specs, spec.key.toList = m.1 ∧
      ∃ v, (m.1, v) ∈ input ∧ normalizeField platform spec v = .ok m.2) ∧
    ∀ spec ∈ specs, spec.required = true → spec.key.toList ∈ members.map Prod.fst := by
  induction specs generalizing members with
  | nil =>
    cases h
    simp
  | cons spec rest ih =>
    rw [canonicalMembers] at h
    cases hlookup : lookup spec.key.toList input with
    | none =>
      rw [hlookup] at h
      obtain ⟨hoptional, h⟩ := of_reject h
      obtain ⟨hkeys, hmembers, hrequired⟩ := ih h
      refine ⟨hkeys.cons _, ?_, ?_⟩
      · intro m hm
        obtain ⟨s, hs, hrest⟩ := hmembers m hm
        exact ⟨s, mem_cons_of_mem _ hs, hrest⟩
      · intro s hs hreq
        rcases mem_cons.mp hs with rfl | hs
        · exact absurd hreq hoptional
        · exact hrequired s hs hreq
    | some value =>
      rw [hlookup] at h
      obtain ⟨w, hw, h⟩ := of_bind h
      obtain ⟨others, hothers, h⟩ := of_bind h
      cases h
      obtain ⟨hkeys, hmembers, hrequired⟩ := ih hothers
      refine ⟨hkeys.cons_cons _, ?_, ?_⟩
      · intro m hm
        rcases mem_cons.mp hm with rfl | hm
        · exact ⟨spec, mem_cons_self, rfl, value, mem_of_lookup hlookup, hw⟩
        · obtain ⟨s, hs, hrest⟩ := hmembers m hm
          exact ⟨s, mem_cons_of_mem _ hs, hrest⟩
      · intro s hs hreq
        rcases mem_cons.mp hs with rfl | hs
        · exact mem_cons_self
        · exact mem_cons_of_mem _ (hrequired s hs hreq)

variable {document : SortedMap Str (Json N)} {documentType : DocumentType}

theorem canonicalizeDocument_ok_iff :
    canonicalizeDocument platform documentType input = .ok document ↔
      ∃ members, canonicalMembers platform input (fields documentType) = .ok members ∧
        document = Json.sortedMap members ∧ extraKeys (fields documentType) input = [] ∧
        ∃ name, document.get? "docType".toList = some (.str name) ∧ DocumentType.parse name = .ok documentType := by
  unfold canonicalizeDocument
  rw [bind_ok_iff]
  refine exists_congr fun members => and_congr_right fun _ => ?_
  rw [reject_bind_ok_iff, bind_ok_iff]
  constructor
  · rintro ⟨hextra, name, hname, h⟩
    obtain ⟨parsed, hparsed, h⟩ := of_bind h
    obtain ⟨hsame, h⟩ := of_reject h
    cases h
    obtain ⟨v, hv, hstr⟩ := Option.bind_eq_some_iff.mp (orFail_ok_iff.mp hname)
    refine ⟨rfl, Classical.not_not.mp hextra, name, ?_, ?_⟩
    · cases v with
      | str s =>
        cases hstr
        exact hv
      | _ => cases hstr
    · rw [hparsed, Classical.not_not.mp hsame]
  · rintro ⟨rfl, hextra, name, hname, hparsed⟩
    refine ⟨fun hne => hne hextra, name, ?_, ?_⟩
    · rw [orFail_ok_iff, hname]
      rfl
    · rw [hparsed, ok_bind, reject_bind_ok_iff]
      exact ⟨fun hne => hne rfl, rfl⟩

/-- Each member of a canonical document is the normal form of a member of the input. -/
theorem exists_normalizeField (h : canonicalizeDocument platform documentType input = .ok document) {m : Str × Json N}
    (hm : m ∈ document.entries) :
    ∃ spec ∈ fields documentType, spec.key.toList = m.1 ∧
      ∃ v, (m.1, v) ∈ input ∧ normalizeField platform spec v = .ok m.2 := by
  obtain ⟨members, hmembers, rfl, -, -⟩ := canonicalizeDocument_ok_iff.mp h
  exact (canonicalMembers_spec hmembers).2.1 m (mem_of_mem_sortedMap hm)

/-- **What `canonicalize_document` returns is canonical.** -/
theorem canonical_of_canonicalizeDocument (h : canonicalizeDocument platform documentType input = .ok document) :
    Canonical platform documentType document := by
  refine ⟨?_, ?_, ?_⟩
  · intro m hm
    obtain ⟨spec, hspec, hkey, v, -, hv⟩ := exists_normalizeField h hm
    exact ⟨spec, hspec, hkey, (normalizeField_spec hv).1⟩
  · intro spec hspec hrequired
    obtain ⟨members, hmembers, rfl, -, -⟩ := canonicalizeDocument_ok_iff.mp h
    obtain ⟨hkeys, -, hreq⟩ := canonicalMembers_spec hmembers
    have hnodup : (members.map Prod.fst).Nodup := hkeys.nodup (nodup_keys_fields documentType)
    obtain ⟨m, hm, hkey⟩ := mem_map.mp (hreq spec hspec hrequired)
    have hlookup : lookup spec.key.toList members = some m.2 :=
      (lookup_eq_some_iff_of_nodup hnodup).mpr (hkey ▸ hm)
    rw [mem_keys_iff, get?_sortedMap hnodup, hlookup]
    rfl
  · obtain ⟨-, -, -, -, hdocType⟩ := canonicalizeDocument_ok_iff.mp h
    exact hdocType

/-- The members of a map that are fields, in the order of the fields. -/
def fieldMembers (input : List (Str × Json N)) (specs : List FieldSpec) : List (Str × Json N) :=
  specs.filterMap (fun spec => (lookup spec.key.toList input).map (fun v => (spec.key.toList, v)))

theorem canonicalMembers_eq_fieldMembers
    (hfixed : ∀ spec ∈ specs, ∀ v, lookup spec.key.toList input = some v → normalizeField platform spec v = .ok v)
    (hrequired : ∀ spec ∈ specs, spec.required = true → (lookup spec.key.toList input).isSome = true) :
    canonicalMembers platform input specs = .ok (fieldMembers input specs) := by
  induction specs with
  | nil => rfl
  | cons spec rest ih =>
    have htail := ih (fun s hs => hfixed s (mem_cons_of_mem _ hs))
      (fun s hs => hrequired s (mem_cons_of_mem _ hs))
    rw [canonicalMembers, fieldMembers, filterMap_cons]
    cases hlookup : lookup spec.key.toList input with
    | none =>
      have hoptional : ¬ spec.required = true := by
        intro hreq
        have hsome := hrequired spec mem_cons_self hreq
        rw [hlookup] at hsome
        cases hsome
      exact reject_bind_ok_iff.mpr ⟨hoptional, htail⟩
    | some v =>
      show (normalizeField platform spec v >>= _) = _
      rw [hfixed spec mem_cons_self v hlookup, ok_bind, htail]
      rfl

/-- A document all of whose keys are fields is its own fields. -/
theorem sortedMap_fieldMembers (hspecs : (specs.map (fun spec => spec.key.toList)).Nodup)
    (hmembers : canonicalMembers platform input specs = .ok (fieldMembers input specs))
    (hinput : ∀ key, lookup key input = document.get? key)
    (hkeys : ∀ key ∈ document.entries.map Prod.fst, ∃ spec ∈ specs, spec.key.toList = key) :
    Json.sortedMap (fieldMembers input specs) = document := by
  have hnodup := (canonicalMembers_spec hmembers).1.nodup hspecs
  refine ext_get? fun key => ?_
  rw [get?_sortedMap hnodup]
  refine Option.ext fun v => ?_
  rw [lookup_eq_some_iff_of_nodup hnodup, fieldMembers, mem_filterMap]
  constructor
  · rintro ⟨spec, -, hspec⟩
    obtain ⟨w, hw, heq⟩ := Option.map_eq_some_iff.mp hspec
    obtain ⟨rfl, rfl⟩ := Prod.mk.inj heq
    rw [← hinput, hw]
  · intro hget
    have hkey : key ∈ document.entries.map Prod.fst := by
      rw [mem_keys_iff, hget]
      rfl
    obtain ⟨spec, hspec, rfl⟩ := hkeys key hkey
    refine ⟨spec, hspec, ?_⟩
    rw [hinput, hget]
    rfl

/-- **A canonical document is returned unchanged**, in whatever order its members are given. -/
theorem Canonical.canonicalizeDocument_eq (h : Canonical platform documentType document)
    (hinput : input.Perm document.entries) :
    canonicalizeDocument platform documentType input = .ok document := by
  have hnodup : (input.map Prod.fst).Nodup := (hinput.map Prod.fst).nodup_iff.mpr document.nodup_keys
  have hlookup : ∀ key, lookup key input = document.get? key := by
    intro key
    refine Option.ext fun v => ?_
    rw [lookup_eq_some_iff_of_nodup hnodup, hinput.mem_iff, mem_iff_get?]
  have hkeys : ∀ key ∈ document.entries.map Prod.fst, ∃ spec ∈ fields documentType, spec.key.toList = key := by
    intro key hkey
    obtain ⟨m, hm, rfl⟩ := mem_map.mp hkey
    obtain ⟨spec, hspec, hsame, -⟩ := h.normal m hm
    exact ⟨spec, hspec, hsame⟩
  have hmembers : canonicalMembers platform input (fields documentType) =
      .ok (fieldMembers input (fields documentType)) := by
    refine canonicalMembers_eq_fieldMembers ?_ ?_
    · intro spec hspec v hv
      rw [hlookup] at hv
      obtain ⟨other, hother, hkey, hfixed⟩ := h.normal _ (mem_iff_get?.mpr hv)
      -- the field of this key is the only one
      have hsame := inj_on_of_nodup_map (nodup_keys_fields documentType) hother hspec hkey
      exact hsame ▸ hfixed
    · intro spec hspec hrequired
      rw [hlookup, ← mem_keys_iff]
      exact h.required spec hspec hrequired
  refine canonicalizeDocument_ok_iff.mpr ⟨_, hmembers, ?_, ?_, h.docType⟩
  · exact (sortedMap_fieldMembers (nodup_keys_fields documentType) hmembers hlookup hkeys).symm
  · rw [extraKeys, filter_eq_nil_iff]
    intro key hkey
    obtain ⟨spec, hspec, rfl⟩ := hkeys key ((hinput.map Prod.fst).mem_iff.mp hkey)
    have hallowed : spec.key.toList ∈ (fields documentType).map (fun spec => spec.key.toList) :=
      mem_map_of_mem hspec
    simp [hallowed]

/-- **Canonicalising twice is canonicalising once**, in whatever order the members are given then, and it returns
    exactly the canonical documents. -/
theorem canonicalizeDocument_idempotent (documentType : DocumentType) (input : List (Str × Json N))
    (order : IterationOrder (Str × Json N)) :
    (canonicalizeDocument platform documentType input).bind (fun document =>
      canonicalizeDocument platform documentType (order.arrange document.entries)) =
        canonicalizeDocument platform documentType input ∧
    ∀ document, (∃ input, canonicalizeDocument platform documentType input = .ok document) ↔
      Canonical platform documentType document := by
  refine ⟨?_, fun document =>
    ⟨fun ⟨_, h⟩ => canonical_of_canonicalizeDocument h, fun h => ⟨_, h.canonicalizeDocument_eq .rfl⟩⟩⟩
  cases h : canonicalizeDocument platform documentType input with
  | error e => rfl
  | ok document => exact (canonical_of_canonicalizeDocument h).canonicalizeDocument_eq (order.perm _)

theorem Canonical.not_mem_vds (h : Canonical platform documentType document) :
    "_vds".toList ∉ document.entries.map Prod.fst := by
  intro hmem
  obtain ⟨m, hm, hkey⟩ := mem_map.mp hmem
  obtain ⟨spec, hspec, hsame, -⟩ := h.normal m hm
  have hreserved : ∀ t, ∀ spec ∈ fields t, spec.key.toList ≠ "_vds".toList := by
    intro t
    cases t with
    | cmc | mrv | eVisa => decide
  exact hreserved documentType spec hspec (hsame.trans hkey)

end

end MartyCore.VdsNc
