import MartyCore.ChipIo.KeyInfo
import MartyCore.Mrz.Parse

/-!
# `ChipIo.KeyPaths` — three ways from a zone to its key information

The key information of a zone is what stands in it: document number, date of birth and date of expiry, each with
its check digit (`rawInformation`). The repository rebuilds it three times, with two check-digit functions.

The parser's own `mrzInformation` and the BAC fields give back the raw text for every zone with valid check
digits. The compatibility PACE path keeps only letters and digits of the document number and fills up behind
them: it gives back the raw text exactly when the fillers of the document number are all at its end
(`key_paths_agree_iff`).
-/

namespace MartyCore.ChipIo

open Mrz Str List

/-! ## The two check-digit functions -/

theorem byteValue_toUInt8 {c : Char} (h : isMrzChar c = true) : byteValue c.val.toUInt8 = charValue c := by
  revert h
  by_cases hascii : Text.isAscii c = true
  · exact Text.forall_isAscii
      (P := fun c => isMrzChar c = true → byteValue c.val.toUInt8 = charValue c) (by decide) hascii
  · exact fun h => absurd (isAscii_of_isMrzChar h) hascii

theorem charOfByte_digit {digit : UInt32} (h : digit < 10) :
    charOfByte (0x30 + digit.toUInt8) = (fromDigit digit).getD '0' := by
  have hall : ∀ n : Fin 10, charOfByte (0x30 + (UInt32.ofNat n).toUInt8)
      = (fromDigit (UInt32.ofNat n)).getD '0' := by decide
  have hlt : digit.toNat < 10 := UInt32.lt_iff_toNat_lt.mp h
  have hdigit := hall ⟨digit.toNat, hlt⟩
  rw [UInt32.ofNat_toNat] at hdigit
  exact hdigit

/-- **On the alphabet of the zone the two check-digit functions agree.** They differ on lower-case letters. -/
theorem withCheckDigit_eq {field : Str} (h : ∀ c ∈ field, isMrzChar c = true) :
    withCheckDigit field = field ++ [computeCheckDigit field] := by
  have hascii : ∀ c ∈ field, Text.isAscii c = true := fun c hc => isAscii_of_isMrzChar (h c hc)
  have hvalues : (bytes field).map byteValue = field.map charValue := by
    rw [bytes_of_isAscii hascii, map_map]
    exact map_congr_left (fun c hc => byteValue_toUInt8 (h c hc))
  unfold withCheckDigit mrzCheckDigit computeCheckDigit
  rw [hvalues, charOfByte_digit]
  exact UInt32.mod_lt _ (by decide)

/-! ## BAC -/

variable {mrz : Mrz}

/-- The raw key information with the second check-digit function. -/
theorem rawInformation_eq_withCheckDigit (hwf : WellFormed mrz)
    (hvalid : mrz.validateCheckDigits = .ok true) :
    mrz.rawInformation = withCheckDigit mrz.rawDocumentNumber ++ withCheckDigit mrz.dateOfBirth ++
      withCheckDigit mrz.dateOfExpiry := by
  have hdoc : ∀ c ∈ mrz.rawDocumentNumber, isMrzChar c = true := hwf.isMrzChar_of_mem_read _
  have hbirth : ∀ c ∈ mrz.dateOfBirth, isMrzChar c = true := by
    rw [hwf.dateOfBirth]
    exact hwf.isMrzChar_of_mem_read _
  have hexpiry : ∀ c ∈ mrz.dateOfExpiry, isMrzChar c = true := by
    rw [hwf.dateOfExpiry]
    exact hwf.isMrzChar_of_mem_read _
  rw [rawInformation_eq hwf hvalid, withCheckDigit_eq hdoc, withCheckDigit_eq hbirth, withCheckDigit_eq hexpiry]

/-- **The BAC fields of a zone are the raw key information.** -/
theorem mrzInfo_eq_rawInformation (hwf : WellFormed mrz)
    (hvalid : mrz.validateCheckDigits = .ok true) {info : MrzKeyInfo}
    (h : MrzKeyInfo.tryFromMrzFields mrz.rawDocumentNumber mrz.dateOfBirth mrz.dateOfExpiry = .ok info) :
    info.mrzInfo = mrz.rawInformation := by
  obtain ⟨-, h⟩ := Exec.of_reject h
  obtain ⟨-, h⟩ := Exec.of_reject h
  injection h with h
  rw [← h, rawInformation_eq_withCheckDigit hwf hvalid]
  rfl

/-! ## PACE -/

/-- Behind the first filler there are only fillers. -/
def FillersOnlyAtEnd (field : Str) : Prop := ∀ c ∈ field.dropWhile (fun c => decide (c ≠ '<')), c = '<'

instance (field : Str) : Decidable (FillersOnlyAtEnd field) :=
  List.decidableBAll (fun c => c = '<') (field.dropWhile (fun c => decide (c ≠ '<')))

/-- Letters and digits of the zone's alphabet are what is not the filler, and are in upper case. -/
theorem isMrzChar_spec {c : Char} (h : isMrzChar c = true) :
    c.toUpper = c ∧ c.isAlphanum = decide (c ≠ '<') ∧ c ≠ ' ' :=
  Text.forall_isAscii
    (P := fun c => isMrzChar c = true → c.toUpper = c ∧ c.isAlphanum = decide (c ≠ '<') ∧ c ≠ ' ')
    (by decide) (isAscii_of_isMrzChar h) h

/-- The document number as PACE rebuilds it: all fillers moved to the end. -/
theorem paceDocumentNumber_eq (hwf : WellFormed mrz) :
    replace ' ' '<' (padRight 9 (((mrz.documentNumber.map Char.toUpper).filter Char.isAlphanum).take 9))
      = mrz.rawDocumentNumber.filter (fun c => decide (c ≠ '<')) ++
        List.replicate (mrz.rawDocumentNumber.length -
          (mrz.rawDocumentNumber.filter (fun c => decide (c ≠ '<'))).length) '<' := by
  have hchars : ∀ c ∈ mrz.rawDocumentNumber, isMrzChar c = true := hwf.isMrzChar_of_mem_read _
  have htrim := trimEndMatches_append_replicate '<' mrz.rawDocumentNumber
  have hchars' : ∀ c ∈ mrz.documentNumber, isMrzChar c = true := by
    intro c hc
    apply hchars c
    rw [← htrim]
    rw [hwf.documentNumber] at hc
    exact mem_append_left _ hc
  have hmap : mrz.documentNumber.map Char.toUpper = mrz.documentNumber :=
    (map_congr_left (fun c hc => (isMrzChar_spec (hchars' c hc)).1)).trans (map_id _)
  have hfilter : mrz.documentNumber.filter Char.isAlphanum
      = mrz.rawDocumentNumber.filter (fun c => decide (c ≠ '<')) := by
    rw [filter_congr (fun c hc => (isMrzChar_spec (hchars' c hc)).2.1), hwf.documentNumber]
    conv_rhs => rw [← htrim, filter_append]
    rw [filter_replicate_of_neg (by simp), append_nil]
    rfl
  -- nine characters at most, so the truncation does nothing
  have hshort : (mrz.rawDocumentNumber.filter (fun c => decide (c ≠ '<'))).length ≤ 9 := by
    rw [← hwf.rawDocumentNumber_length]
    exact length_filter_le _ _
  have hspace : ∀ c ∈ mrz.rawDocumentNumber.filter (fun c => decide (c ≠ '<')), c ≠ ' ' :=
    fun c hc => (isMrzChar_spec (hchars c (mem_of_mem_filter hc))).2.2
  rw [hmap, hfilter, take_of_length_le hshort, replace_padRight hspace, hwf.rawDocumentNumber_length]

/-- **The PACE path gives back the raw key information exactly when the document number has its fillers at the
    end.** -/
theorem paceInformation_eq_rawInformation_iff (hwf : WellFormed mrz)
    (hvalid : mrz.validateCheckDigits = .ok true) :
    paceInformation mrz = mrz.rawInformation ↔ FillersOnlyAtEnd mrz.rawDocumentNumber := by
  rw [rawInformation_eq_withCheckDigit hwf hvalid]
  unfold paceInformation FillersOnlyAtEnd
  simp only [paceDocumentNumber_eq hwf]
  rw [← filter_append_replicate_eq_iff]
  -- the dates are the same on both sides, and a check digit determines nothing more than its field
  constructor
  · intro h
    apply append_inj_left' (append_cancel_right (append_cancel_right h))
    rw [length_singleton, length_singleton]
  · intro h
    rw [h]

/-- A number of at most ten digits is not a zone. -/
theorem parseMrzString_digits (unicode : CaseMapping) {password : Str}
    (hdigits : password.all Char.isDigit = true) (hlen : 6 ≤ password.len ∧ password.len ≤ 10) (mrz : Mrz) :
    parseMrzString unicode password ≠ .ok mrz := by
  have hspec : ∀ c ∈ password, _ := fun c hc => isDigit_spec (all_eq_true.mp hdigits c hc)
  have hne : password ≠ [] := by
    rintro rfl
    exact absurd hlen.1 (by decide)
  have hlines : lines password = [password] :=
    lines_of_not_mem hne (fun hmem => (hspec _ hmem).2.2.2 rfl)
  have hupper : toUppercase unicode (trim password) = password := by
    rw [trim_eq_self (fun c hc => (hspec c hc).2.1), toUppercase_of_isAscii unicode (fun c hc => (hspec c hc).1)]
    exact (map_congr_left (fun c hc => (hspec c hc).2.2.1)).trans (map_id _)
  have hclean : cleanLines unicode [password] = [password] := by
    unfold cleanLines
    rw [map_singleton, hupper]
    simp [hne]
  intro h
  unfold parseMrzString parseMrz at h
  rw [hlines, hclean, Exec.reject_bind_ok_iff] at h
  obtain ⟨format, hformat, -⟩ := Exec.of_bind h.2
  -- no layout has lines of six to ten characters
  have hlength : password.len = format.lineLength := detectFormat_ok hformat
  have hlong : 10 < format.lineLength := by
    cases format with
    | td1 | td2 | td3 => decide
  omega

/-- A zone of at most 128 bytes is hashed. -/
theorem pacePasswordText_of_parse {unicode : CaseMapping} {text : Str}
    (hparse : parseMrzString unicode text = .ok mrz) (hlen : text.len ≤ 128) :
    pacePasswordText unicode text = .ok (paceInformation mrz) := by
  refine Exec.reject_bind_ok_iff.mpr ⟨Nat.not_lt.mpr hlen, ?_⟩
  rw [if_neg, hparse]
  · rfl
  · rintro ⟨hdigits, hshort⟩
    exact parseMrzString_digits unicode hdigits hshort mrz hparse

/-! ## The three paths -/

/-- **The key-derivation paths agree on a zone**: what each of them makes of it is what stands in it. PACE hashes
    the zone only if it takes the text, and BAC only if it takes the fields. -/
structure KeyPathsAgree (unicode : CaseMapping) (text : Str) (mrz : Mrz) : Prop where
  pace : ∀ hashed, pacePasswordText unicode text = .ok hashed → hashed = mrz.rawInformation
  parser : mrz.mrzInformation = mrz.rawInformation
  bac : ∀ info, MrzKeyInfo.tryFromMrzFields mrz.rawDocumentNumber mrz.dateOfBirth mrz.dateOfExpiry = .ok info →
    info.mrzInfo = mrz.rawInformation

/-- **The paths agree exactly when the fillers of the document number are at its end**, unless the text is too
    long for PACE. PACE hashes every accepted zone of at most 128 bytes. -/
theorem key_paths_agree_iff (unicode : CaseMapping) (text : Str) (mrz : Mrz)
    (hparse : parseMrzString unicode text = .ok mrz) (hvalid : mrz.validateCheckDigits = .ok true) :
    (KeyPathsAgree unicode text mrz ↔ (text.len ≤ 128 → FillersOnlyAtEnd mrz.rawDocumentNumber)) ∧
    (text.len ≤ 128 → pacePasswordText unicode text = .ok (paceInformation mrz)) := by
  obtain ⟨hwf, -⟩ := parseMrz_ok hparse
  refine ⟨⟨?_, ?_⟩, pacePasswordText_of_parse hparse⟩
  · intro hagree hlen
    rw [← paceInformation_eq_rawInformation_iff hwf hvalid]
    exact hagree.pace _ (pacePasswordText_of_parse hparse hlen)
  · intro hfillers
    refine ⟨?_, mrzInformation_eq_rawInformation hwf hvalid,
      fun info hinfo => mrzInfo_eq_rawInformation hwf hvalid hinfo⟩
    intro hashed hhashed
    have hlen : text.len ≤ 128 := by
      unfold pacePasswordText at hhashed
      rw [Exec.reject_bind_ok_iff] at hhashed
      exact Nat.not_lt.mp hhashed.1
    rw [pacePasswordText_of_parse hparse hlen] at hhashed
    injection hhashed with hhashed
    rw [← hhashed, paceInformation_eq_rawInformation_iff hwf hvalid]
    exact hfillers hlen

/-! ## Examples -/

/-- The upper line of the specimen passport of ICAO 9303. -/
def nameLine : Str := "P<UTOERIKSSON<<ANNA<MARIA<<<<<<<<<<<<<<<<<<<".toList

/-- Its lower line, with the number `L898902C` and a filler at its end. -/
def specimenLine : Str := "L898902C<3UTO6908061F9406236ZE184226B<<<<<14".toList

/-- What the parser reads from the two lines. -/
def specimen : Mrz where
  format := .td3
  documentType := ['P']
  issuingCountry := ['U', 'T', 'O']
  surname := "ERIKSSON".toList
  givenNames := "ANNA MARIA".toList
  documentNumber := "L898902C".toList
  documentNumberCheck := '3'
  nationality := ['U', 'T', 'O']
  dateOfBirth := "690806".toList
  dateOfBirthCheck := '1'
  sex := 'F'
  dateOfExpiry := "940623".toList
  dateOfExpiryCheck := '6'
  optionalData := "ZE184226B".toList
  compositeCheck := some '4'
  rawLines := [nameLine, specimenLine]

theorem key_paths_agree_iff_specimen :
    parseMrzString asciiMapping (nameLine ++ '\n' :: specimenLine) = .ok specimen ∧
    KeyPathsAgree asciiMapping (nameLine ++ '\n' :: specimenLine) specimen := by
  have hparse : parseMrzString asciiMapping (nameLine ++ '\n' :: specimenLine) = .ok specimen := by
    decide
  have hfillers : FillersOnlyAtEnd specimen.rawDocumentNumber := by decide
  have hiff := (key_paths_agree_iff asciiMapping _ specimen hparse (by decide)).1
  exact ⟨hparse, hiff.mpr (fun _ => hfillers)⟩

/-- The same passport with the number `L8-8902C3`, whose hyphen is a filler in the zone. -/
def hyphenLine : Str := "L8<8902C37UTO6908061F9406236ZE184226B<<<<<16".toList

def hyphenZone : Mrz :=
  { specimen with
    documentNumber := "L8<8902C3".toList
    documentNumberCheck := '7'
    compositeCheck := some '6'
    rawLines := [nameLine, hyphenLine] }

/-- PACE hashes a key information that does not stand in the zone, and so derives another key than BAC. -/
theorem pace_moves_filler_hyphenZone :
    parseMrzString asciiMapping (nameLine ++ '\n' :: hyphenLine) = .ok hyphenZone ∧
    hyphenZone.validateCheckDigits = .ok true ∧
    pacePasswordText asciiMapping (nameLine ++ '\n' :: hyphenLine) = .ok "L88902C3<769080619406236".toList ∧
    hyphenZone.rawInformation = "L8<8902C3769080619406236".toList ∧
    ¬ KeyPathsAgree asciiMapping (nameLine ++ '\n' :: hyphenLine) hyphenZone := by
  have hparse : parseMrzString asciiMapping (nameLine ++ '\n' :: hyphenLine) = .ok hyphenZone := by
    decide
  have hpace : pacePasswordText asciiMapping (nameLine ++ '\n' :: hyphenLine)
      = .ok "L88902C3<769080619406236".toList := by
    decide
  have hraw : hyphenZone.rawInformation = "L8<8902C3769080619406236".toList := by decide
  refine ⟨hparse, by decide, hpace, hraw, ?_⟩
  intro hagree
  have heq := hagree.pace _ hpace
  exact absurd heq (by decide)

end MartyCore.ChipIo
