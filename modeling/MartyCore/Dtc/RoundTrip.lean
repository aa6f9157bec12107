import MartyCore.Dtc.Model

/-!
# `Dtc.RoundTrip` — a record is what its JSON says

Writing a record and reading it back gives the record (`DtcRecord.fromValue_toValue`), also with other members beside
it; reading does not depend on the order of members, at any depth (`DtcRecord.respects_fromValue`); and the value that
is signed reads as the record without its signature (`fromValue_unsignedValue`).

Each type has the same three facts, from the lists of its names and values: the round trip, that what is written has no
member twice, and that reading respects equality of values.
-/

namespace MartyCore.Dtc

open Json Fields

variable {N : Type} (platform : Platform N)

/-! ## Field names -/

/-- The members that are left are the ones of the legacy form, in its order. -/
theorem unsignedValue_eq_legacyValue (record : DtcRecord) :
    unsignedValue platform record = legacyValue platform record := by
  rfl

theorem DataGroup.names : dataGroupNames.Nodup ∧ dataGroupNames.length = 3 := by decide

theorem Type1Profile.names : type1Names.Nodup ∧ type1Names.length = 5 := by decide

theorem Type2Profile.names : type2Names.Nodup ∧ type2Names.length = 4 := by decide

theorem Type3Profile.names : type3Names.Nodup ∧ type3Names.length = 5 := by decide

theorem SignatureInfo.names : signatureInfoNames.Nodup ∧ signatureInfoNames.length = 4 := by decide

theorem PersonalDetails.names : personalDetailsNames.Nodup ∧ personalDetailsNames.length = 9 := by decide

theorem DtcRecord.names : recordNames.Nodup ∧ recordNames.length = 20 := by decide

theorem isSigned_position : recordNames[15]? = some "is_signed".toList := rfl

theorem signatureInfo_position : recordNames[19]? = some "signature_info".toList := rfl

-- from here on only their number and that they differ matters
attribute [local irreducible] dataGroupNames type1Names type2Names type3Names signatureInfoNames personalDetailsNames
  recordNames

/-! ## The parts of a record -/

theorem wellFormed_writeOption {α : Type} {write : α → Json N} (h : ∀ a, (write a).WellFormed) (a : Option α) :
    (writeOption write a).WellFormed := by
  cases a with
  | none => exact .null
  | some a => exact h a

/-- An optional value is read back where a value is never written as `null`. -/
theorem asOption_writeOption {α : Type} {write : α → Json N} {read : Json N → Option α}
    (hread : ∀ a, read (write a) = some a) (hnull : ∀ a, write a ≠ .null) (a : Option α) :
    asOption read (writeOption write a) = some a := by
  cases a with
  | none => rfl
  | some a =>
    have hsome : asOption read (write a) = (read (write a)).map some := by
      cases h : write a with
      | null => exact absurd h (hnull a)
      | _ => rfl
    rw [writeOption, hsome, hread]
    rfl

theorem wellFormed_arr_map {α : Type} {write : α → Json N} (h : ∀ a, (write a).WellFormed) (as : List α) :
    (Json.arr (as.map write)).WellFormed := by
  refine .arr ?_
  intro v hv
  obtain ⟨a, -, rfl⟩ := List.mem_map.mp hv
  exact h a

namespace DataGroup

theorem fromValue_toValue (dg : DataGroup) : fromValue platform (dg.toValue platform) = some dg := by
  have hread : read platform [some (.num (platform.ofI32 dg.dgNumber)), some (.str dg.data), some (.str dg.dataType)] =
      some (dg, []) :=
    (bind_of_eq (next_cons (platform.asI32_ofI32 dg.dgNumber) _)).trans rfl
  exact struct_obj_zip names hread

theorem wellFormed_toValue (dg : DataGroup) : (dg.toValue platform).WellFormed :=
  wellFormed_obj_zip names ⟨.num _, .str _, .str _⟩

theorem respects_fromValue : Respects (fromValue platform) := by
  refine respects_struct ?_
  refine (respects_next (respects_asNum _).required).bind fun _ => ?_
  exact .text_bind fun _ => .text_bind fun _ => respects_pure _

end DataGroup

namespace Type1Profile

theorem fromValue_toValue (t1 : Type1Profile) : fromValue (t1.toValue : Json N) = some t1 :=
  struct_obj_zip names rfl

theorem wellFormed_toValue (t1 : Type1Profile) : (t1.toValue : Json N).WellFormed :=
  wellFormed_obj_zip names ⟨.str _, .str _, .str _, .str _, .bool _⟩

theorem respects_fromValue : Respects (fromValue : Json N → Option Type1Profile) := by
  refine respects_struct (.text_bind fun _ => .text_bind fun _ => .text_bind fun _ => .text_bind fun _ => ?_)
  exact .flag_bind fun _ => respects_pure _

end Type1Profile

namespace Type2Profile

theorem fromValue_toValue (t2 : Type2Profile) : fromValue (t2.toValue : Json N) = some t2 :=
  struct_obj_zip names rfl

theorem wellFormed_toValue (t2 : Type2Profile) : (t2.toValue : Json N).WellFormed :=
  wellFormed_obj_zip names ⟨.str _, .str _, .str _, .bool _⟩

theorem respects_fromValue : Respects (fromValue : Json N → Option Type2Profile) := by
  refine respects_struct (.text_bind fun _ => .text_bind fun _ => .text_bind fun _ => ?_)
  exact .flag_bind fun _ => respects_pure _

end Type2Profile

namespace Type3Profile

theorem fromValue_toValue (t3 : Type3Profile) : fromValue (t3.toValue : Json N) = some t3 :=
  struct_obj_zip names rfl

theorem wellFormed_toValue (t3 : Type3Profile) : (t3.toValue : Json N).WellFormed :=
  wellFormed_obj_zip names ⟨.str _, .str _, .str _, .str _, .str _⟩

theorem respects_fromValue : Respects (fromValue : Json N → Option Type3Profile) := by
  refine respects_struct (.text_bind fun _ => .text_bind fun _ => .text_bind fun _ => .text_bind fun _ => ?_)
  exact .text_bind fun _ => respects_pure _

end Type3Profile

namespace SignatureInfo

theorem fromValue_toValue (info : SignatureInfo) : fromValue (info.toValue : Json N) = some info :=
  struct_obj_zip names rfl

theorem wellFormed_toValue (info : SignatureInfo) : (info.toValue : Json N).WellFormed :=
  wellFormed_obj_zip names ⟨.str _, .str _, .str _, .bool _⟩

theorem respects_fromValue : Respects (fromValue : Json N → Option SignatureInfo) := by
  refine respects_struct (.text_bind fun _ => .text_bind fun _ => .text_bind fun _ => ?_)
  exact .flag_bind fun _ => respects_pure _

end SignatureInfo

namespace PersonalDetails

theorem fromValue_toValue (details : PersonalDetails) : fromValue (details.toValue : Json N) = some details := by
  have hnames : readAll asStr (details.otherNames.map (.str : Str → Json N)) = some details.otherNames :=
    readAll_map (fun (_ : Str) => rfl) _
  have hread : read [some (.str details.firstName), some (.str details.lastName), some (.str details.dateOfBirth),
      some (.str details.gender), some (.str details.nationality), some (.str details.placeOfBirth),
      some (.str details.portrait), some (.str details.signature),
      some (.arr (details.otherNames.map (.str : Str → Json N)))] = some (details, []) := by
    have htext := fun {k : Str → Fields N PersonalDetails} {s : Str} {rest : List (Option (Json N))} =>
      bind_of_eq (k := k) (text_cons s rest)
    refine htext.trans (htext.trans (htext.trans (htext.trans ?_)))
    refine htext.trans (htext.trans (htext.trans (htext.trans ?_)))
    exact (bind_of_eq (list_cons hnames _)).trans rfl
  exact struct_obj_zip names hread

theorem wellFormed_toValue (details : PersonalDetails) : (details.toValue : Json N).WellFormed :=
  wellFormed_obj_zip names ⟨.str _, .str _, .str _, .str _, .str _, .str _, .str _, .str _, wellFormed_arr_map .str _⟩

theorem respects_fromValue : Respects (fromValue : Json N → Option PersonalDetails) := by
  refine respects_struct (.text_bind fun _ => .text_bind fun _ => .text_bind fun _ => .text_bind fun _ => ?_)
  refine .text_bind fun _ => .text_bind fun _ => .text_bind fun _ => .text_bind fun _ => ?_
  exact (respects_list respects_asStr).bind fun _ => respects_pure _

end PersonalDetails

/-! ## Records -/

namespace DtcRecord

variable (record : DtcRecord)

theorem fields_toValue : fields recordNames (record.toValue platform) = some ((record.values platform).map some) :=
  fields_obj_zip names

theorem wellFormed_toValue : (record.toValue platform).WellFormed := by
  refine wellFormed_obj_zip names ?_
  exact ⟨.str _, .str _, .str _, .str _, .str _, PersonalDetails.wellFormed_toValue _,
    wellFormed_arr_map (DataGroup.wellFormed_toValue platform) _, .num _, .num _, .str _, .str _, .str _,
    wellFormed_writeOption Type1Profile.wellFormed_toValue _, wellFormed_writeOption Type2Profile.wellFormed_toValue _,
    wellFormed_writeOption Type3Profile.wellFormed_toValue _, .bool _, .bool _, wellFormed_writeOption .str _, .str _,
    wellFormed_writeOption SignatureInfo.wellFormed_toValue _⟩

theorem respects_read : (read platform).Respects := by
  refine .text_bind fun _ => .text_bind fun _ => .text_bind fun _ => .text_bind fun _ => .text_bind fun _ => ?_
  refine (respects_next (PersonalDetails.respects_fromValue.fieldOr {})).bind fun _ => ?_
  refine (respects_list (DataGroup.respects_fromValue platform)).bind fun _ => ?_
  refine (respects_next ((respects_asNum _).fieldOr 0)).bind fun _ => ?_
  refine (respects_next ((respects_asNum _).fieldOr 0)).bind fun _ => ?_
  refine .text_bind fun _ => .text_bind fun _ => .text_bind fun _ => ?_
  refine (respects_option Type1Profile.respects_fromValue).bind fun _ => ?_
  refine (respects_option Type2Profile.respects_fromValue).bind fun _ => ?_
  refine (respects_option Type3Profile.respects_fromValue).bind fun _ => ?_
  refine .flag_bind fun _ => .flag_bind fun _ => ?_
  refine (respects_option respects_asStr).bind fun _ => .text_bind fun _ => ?_
  exact (respects_option SignatureInfo.respects_fromValue).bind fun _ => respects_pure _

theorem respects_fromValue : Respects (fromValue platform) := respects_struct (respects_read platform)

/-- The fields read one by one, with the two that are not signed as they come. -/
theorem read_values (isSigned signatureInfo : Option (Json N)) {signed : Bool} {info : Option SignatureInfo}
    (hsigned : fieldOr false asBool isSigned = some signed)
    (hinfo : fieldOr none (asOption SignatureInfo.fromValue) signatureInfo = some info) :
    read platform ((((record.values platform).map some).set 15 isSigned).set 19 signatureInfo) =
      some ({ record with isSigned := signed, signatureInfo := info }, []) := by
  have hoption : ∀ {α : Type} (write : α → Json N) {fromValue : Json N → Option α}
      (_ : ∀ a, fromValue (write a) = some a) (_ : ∀ a, write a ≠ .null) (a : Option α) (rest : List (Option (Json N))),
      Fields.option fromValue (some (writeOption write a) :: rest) = some (a, rest) :=
    fun write _ hread hnull a rest => next_cons (asOption_writeOption hread hnull a) rest
  have htext := fun {k : Str → Fields N DtcRecord} {s : Str} {rest : List (Option (Json N))} =>
    bind_of_eq (k := k) (text_cons s rest)
  refine htext.trans (htext.trans (htext.trans (htext.trans (htext.trans ?_))))
  refine (bind_of_eq (next_cons (PersonalDetails.fromValue_toValue _) _)).trans ?_
  refine (bind_of_eq (list_cons (readAll_map (DataGroup.fromValue_toValue platform) _) _)).trans ?_
  refine (bind_of_eq (next_cons (platform.asI32_ofI32 _) _)).trans ?_
  refine (bind_of_eq (next_cons (platform.asI32_ofI32 _) _)).trans ?_
  refine htext.trans (htext.trans (htext.trans ?_))
  refine (bind_of_eq (hoption _ Type1Profile.fromValue_toValue (fun _ h => nomatch h) _ _)).trans ?_
  refine (bind_of_eq (hoption _ Type2Profile.fromValue_toValue (fun _ h => nomatch h) _ _)).trans ?_
  refine (bind_of_eq (hoption _ Type3Profile.fromValue_toValue (fun _ h => nomatch h) _ _)).trans ?_
  refine (bind_of_eq (next_cons hsigned _)).trans ?_
  refine (bind_of_eq (flag_cons _ _)).trans ?_
  refine (bind_of_eq (hoption .str (fun _ => rfl) (fun _ h => nomatch h) _ _)).trans (htext.trans ?_)
  exact (bind_of_eq (next_cons hinfo _)).trans rfl

/-- Other members do not matter. -/
theorem fromValue_append (extra : List (Str × Json N)) (hextra : ∀ m ∈ extra, m.1 ∉ recordNames) :
    fromValue platform (.obj (recordNames.zip (record.values platform) ++ extra)) = some record := by
  have hinfo := asOption_writeOption SignatureInfo.fromValue_toValue (fun _ h => nomatch h) record.signatureInfo (N := N)
  have hread := read_values platform record (some (.bool record.isSigned))
    (some (writeOption SignatureInfo.toValue record.signatureInfo)) rfl hinfo
  rw [fromValue, struct, fields_append _ hextra, fields_obj_zip names]
  exact congrArg (Option.map Prod.fst) hread

/-- **What was written is read back.** -/
theorem fromValue_toValue : fromValue platform (record.toValue platform) = some record := by
  have hplain := fromValue_append platform record [] (by simp)
  rwa [List.append_nil] at hplain

end DtcRecord

/-! ## The signed values -/

/-- The record without what is not signed. -/
def DtcRecord.unsigned (record : DtcRecord) : DtcRecord := { record with isSigned := false, signatureInfo := none }

/-- **The canonical value reads as the unsigned record.** -/
theorem fromValue_unsignedValue (record : DtcRecord) :
    DtcRecord.fromValue platform (unsignedValue platform record) = some record.unsigned := by
  have hinfo := fields_remove DtcRecord.names.1 signatureInfo_position (record.fields_toValue platform)
  have hboth := fields_remove DtcRecord.names.1 isSigned_position hinfo
  have hread := record.read_values platform none none rfl rfl
  have hfields : fields recordNames (unsignedValue platform record) =
      some ((((record.values platform).map some).set 15 none).set 19 none) := hboth
  rw [DtcRecord.fromValue, struct, hfields]
  exact congrArg (Option.map Prod.fst) hread

end MartyCore.Dtc
