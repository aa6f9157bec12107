import MartyCore.Mrz.Model

/-!
# `Mrz.Parse` — what an accepted zone is

A zone that the parser accepts is well formed (`parseMrz_ok`): its lines are lines of its layout, over the
alphabet of upper-case letters, digits and the filler, so that no slice of them can panic, and the key fields are
what stands at their places. The parser accepts all ASCII lines of a layout, and others whose upper case is ASCII
(`parse_mrz_accepts_iff`). Where the check digits are valid too, each key field is followed by its own
(`validateCheckDigits_ok`).
-/

namespace MartyCore.Mrz

open Result Str Text List

/-! ## Lines -/

/-- The alphabet of the zone. -/
def isMrzChar (c : Char) : Bool := c.isUpper || c.isDigit || c == '<'

/-- A line of a zone of a layout. -/
structure IsLine (format : MrzFormat) (line : Str) : Prop where
  length_eq : line.length = format.lineLength
  chars : ∀ c ∈ line, isMrzChar c = true

/-- The lines of a zone of a layout. -/
structure AreLines (format : MrzFormat) (lines : List Str) : Prop where
  count : lines.length = format.lineCount
  lines : ∀ line ∈ lines, IsLine format line

theorem isAscii_of_isMrzChar {c : Char} (h : isMrzChar c = true) : isAscii c = true := by
  by_cases hfiller : c = '<'
  · rw [hfiller]
    decide
  · apply isAscii_of_isAlphanum
    rw [isAlphanum_eq]
    simp only [isMrzChar, beq_false_of_ne hfiller, Bool.or_false, Bool.or_eq_true] at h ⊢
    exact h.imp_left .inl

variable {format : MrzFormat} {line : Str}

theorem IsLine.isAscii (h : IsLine format line) : ∀ c ∈ line, isAscii c = true :=
  fun c hc => isAscii_of_isMrzChar (h.chars c hc)

variable {lines : List Str}

theorem AreLines.getD (h : AreLines format lines) {n : Nat} (hn : n < format.lineCount) :
    IsLine format (lines.getD n []) := by
  rw [← h.count] at hn
  rw [getD_eq_getElem?_getD, getElem?_eq_getElem hn]
  exact h.lines _ (getElem_mem hn)

/-- The check lets lower-case letters through; the clean-up has left none. -/
theorem isMrzChar_eq {c : Char} (hupper : c.isLower = false) : isMrzChar c = (c == '<' || c.isAlphanum) := by
  rw [isMrzChar, isAlphanum_eq, hupper, Bool.or_false, Bool.or_comm]

/-- What the checks of `validateLineStructure` leave of text in upper case. -/
theorem checkLines_ok_iff {index : Nat} (hupper : ∀ line ∈ lines, ∀ c ∈ line, c.isLower = false) :
    checkLines format index lines = .ok () ↔ ∀ line ∈ lines, IsLine format line := by
  induction lines generalizing index with
  | nil => simp [checkLines]
  | cons line lines ih =>
    rw [forall_mem_cons] at hupper
    have halphabet : line.all (fun c => c == '<' || c.isAlphanum) = true ↔ ∀ c ∈ line, isMrzChar c = true := by
      rw [all_eq_true]
      exact forall₂_congr (fun c hc => by rw [isMrzChar_eq (hupper.1 c hc)])
    rw [checkLines, Exec.reject_bind_ok_iff, Exec.reject_bind_ok_iff, ih hupper.2, forall_mem_cons, not_or,
      Bool.not_eq_false, Bool.not_eq_false, halphabet, not_not, all_eq_true, ← and_assoc]
    refine and_congr_left (fun _ => ⟨?_, ?_⟩)
    · rintro ⟨⟨hascii, hchars⟩, hlen⟩
      exact ⟨by rw [← hlen, len_of_isAscii hascii], hchars⟩
    · intro h
      exact ⟨⟨h.isAscii, h.chars⟩, by rw [len_of_isAscii h.isAscii, h.length_eq]⟩

/-- A slice in range of a line cannot panic. -/
theorem IsLine.slice (h : IsLine format line) {start stop : Nat} (horder : start ≤ stop)
    (hstop : stop ≤ format.lineLength) :
    (slice line start stop : Exec String Str) = .ok ((line.drop start).take (stop - start)) :=
  slice_of_isAscii h.isAscii horder (by rw [h.length_eq]; exact hstop)

/-! ## Fields -/

/-- Where a field with a check digit behind it stands. -/
structure Field where
  line : Nat
  start : Nat
  width : Nat

def Field.read (field : Field) (lines : List Str) : Str :=
  ((lines.getD field.line []).drop field.start).take field.width

/-- The field and the character behind it. -/
def Field.readWithCheck (field : Field) (lines : List Str) : Str :=
  ((lines.getD field.line []).drop field.start).take (field.width + 1)

def MrzFormat.documentNumber : MrzFormat → Field
  | td1 => ⟨0, 5, 9⟩
  | td2 | td3 => ⟨1, 0, 9⟩

def MrzFormat.dateOfBirth : MrzFormat → Field
  | td1 => ⟨1, 0, 6⟩
  | td2 | td3 => ⟨1, 13, 6⟩

def MrzFormat.dateOfExpiry : MrzFormat → Field
  | td1 => ⟨1, 8, 6⟩
  | td2 | td3 => ⟨1, 21, 6⟩

def MrzFormat.nationality : MrzFormat → Field
  | td1 => ⟨1, 15, 3⟩
  | td2 | td3 => ⟨1, 10, 3⟩

/-- A field without its trailing fillers. -/
def Field.readTrimmed (field : Field) (lines : List Str) : Str := trimEndMatches '<' (field.read lines)

def MrzFormat.optionalData (lines : List Str) : MrzFormat → Str
  | td1 => Field.readTrimmed ⟨0, 15, 15⟩ lines ++ Field.readTrimmed ⟨1, 18, 11⟩ lines
  | td2 => Field.readTrimmed ⟨1, 28, 7⟩ lines
  | td3 => Field.readTrimmed ⟨1, 28, 14⟩ lines

def MrzFormat.name : MrzFormat → Field
  | td1 => ⟨2, 0, 30⟩
  | td2 => ⟨0, 5, 31⟩
  | td3 => ⟨0, 5, 39⟩

/-- The character at some distance behind a field. -/
def Field.behind (field : Field) (distance : Nat) (lines : List Str) : Char :=
  charAt (lines.getD field.line []) (field.start + field.width + distance)

/-- The zone that stands in lines of a layout. -/
def zone (format : MrzFormat) (lines : List Str) : Mrz where
  format := format
  documentType := Field.readTrimmed ⟨0, 0, 2⟩ lines
  issuingCountry := Field.read ⟨0, 2, 3⟩ lines
  surname := (parseName (format.name.read lines)).1
  givenNames := (parseName (format.name.read lines)).2
  documentNumber := format.documentNumber.readTrimmed lines
  documentNumberCheck := format.documentNumber.behind 0 lines
  nationality := format.nationality.read lines
  dateOfBirth := format.dateOfBirth.read lines
  dateOfBirthCheck := format.dateOfBirth.behind 0 lines
  sex := format.dateOfBirth.behind 1 lines
  dateOfExpiry := format.dateOfExpiry.read lines
  dateOfExpiryCheck := format.dateOfExpiry.behind 0 lines
  optionalData := format.optionalData lines
  compositeCheck := (lines.getD 1 [])[format.lineLength - 1]?
  rawLines := lines

/-- **A well-formed zone**: lines of its layout, and the key fields are what stands in them; only the document
    number is stored without its trailing fillers. -/
structure WellFormed (mrz : Mrz) : Prop where
  line_count : mrz.rawLines.length = mrz.format.lineCount
  lines : ∀ line ∈ mrz.rawLines, IsLine mrz.format line
  documentNumber : mrz.documentNumber = trimEndMatches '<' (mrz.format.documentNumber.read mrz.rawLines)
  dateOfBirth : mrz.dateOfBirth = mrz.format.dateOfBirth.read mrz.rawLines
  dateOfExpiry : mrz.dateOfExpiry = mrz.format.dateOfExpiry.read mrz.rawLines

variable {mrz : Mrz}

theorem WellFormed.areLines (h : WellFormed mrz) : AreLines mrz.format mrz.rawLines := ⟨h.line_count, h.lines⟩

theorem WellFormed.isMrzChar_of_mem_read (h : WellFormed mrz) (field : Field) :
    ∀ c ∈ field.read mrz.rawLines, isMrzChar c = true := by
  intro c hc
  have hc' := mem_of_mem_drop (mem_of_mem_take hc)
  rw [getD_eq_getElem?_getD] at hc'
  cases hline : mrz.rawLines[field.line]? with
  | none =>
    rw [hline] at hc'
    cases hc'
  | some line =>
    rw [hline] at hc'
    exact (h.lines line (mem_of_getElem? hline)).chars c hc'

/-- A field inside its line is as long as it is wide. -/
theorem WellFormed.read_length (h : WellFormed mrz) {field : Field} (hline : field.line < mrz.format.lineCount)
    (hstop : field.start + field.width ≤ mrz.format.lineLength) :
    (field.read mrz.rawLines).length = field.width := by
  rw [Field.read, length_take, length_drop, (h.areLines.getD hline).length_eq]
  omega

/-- The document number before its trailing fillers are taken off. -/
def rawDocumentNumber (mrz : Mrz) : Str := mrz.format.documentNumber.read mrz.rawLines

/-- Every layout has its key fields, and a check digit behind each, inside its lines. -/
theorem MrzFormat.keyFields_inside (format : MrzFormat) :
    ∀ field ∈ [format.documentNumber, format.dateOfBirth, format.dateOfExpiry],
      field.line < format.lineCount ∧ field.start + field.width < format.lineLength := by
  cases format with
  | td1 | td2 | td3 => decide

theorem WellFormed.rawDocumentNumber_length (h : WellFormed mrz) : mrz.rawDocumentNumber.length = 9 := by
  obtain ⟨hline, hstop⟩ := mrz.format.keyFields_inside _ mem_cons_self
  unfold rawDocumentNumber
  rw [h.read_length hline hstop.le]
  cases mrz.format <;> rfl

/-- What is read from the lines of a layout. -/
theorem parseFormat_eq (h : AreLines format lines) : parseFormat format lines = .ok (zone format lines) := by
  cases format with
  | td1 =>
    obtain ⟨line1, line2, line3, rfl⟩ := length_eq_three.mp h.count
    have h1 := h.lines line1 (by simp)
    have h2 := h.lines line2 (by simp)
    have hname : MrzFormat.td1.name.read [line1, line2, line3] = line3 :=
      take_of_length_le (h.lines line3 (by simp)).length_eq.le
    simp only [parseFormat, parseTd1]
    simp (disch := decide) only [h1.slice, h2.slice, ok_bind]
    rw [zone, hname]
    rfl
  | td2 =>
    obtain ⟨line1, line2, rfl⟩ := length_eq_two.mp h.count
    have h1 := h.lines line1 (by simp)
    have h2 := h.lines line2 (by simp)
    simp only [parseFormat, parseTd2, parseTwoLines]
    simp (disch := decide) only [h1.slice, h2.slice, ok_bind]
    rfl
  | td3 =>
    obtain ⟨line1, line2, rfl⟩ := length_eq_two.mp h.count
    have h1 := h.lines line1 (by simp)
    have h2 := h.lines line2 (by simp)
    simp only [parseFormat, parseTd3, parseTwoLines]
    simp (disch := decide) only [h1.slice, h2.slice, ok_bind]
    rfl

/-- The detected layout has lines of the length of the first one. -/
theorem detectFormat_ok (h : detectFormat lines = .ok format) : (lines.head?.map len).getD 0 = format.lineLength := by
  unfold detectFormat at h
  simp only at h
  split_ifs at h with h1 h2 h3 h4 h5 h6
  all_goals cases h
  exacts [h1.2, h2.2, h3.2, h4, h5, h6]

/-- The cleaned-up lines have no lower-case letters. -/
theorem cleanLines_not_isLower (unicode : CaseMapping) (lines : List Str) :
    ∀ line ∈ cleanLines unicode lines, ∀ c ∈ line, c.isLower = false := by
  intro line hmem
  obtain ⟨l, -, rfl⟩ := mem_map.mp (mem_of_mem_filter hmem)
  exact toUppercase_not_isLower unicode _

/-- What lines of a layout are. -/
theorem detectFormat_eq (h : AreLines format lines) : detectFormat lines = .ok format := by
  cases lines with
  | nil => cases format <;> cases h.count
  | cons line rest =>
    have hline := h.lines line mem_cons_self
    have hlen : line.len = format.lineLength := by rw [len_of_isAscii hline.isAscii, hline.length_eq]
    rw [detectFormat, h.count, head?_cons, Option.map_some, hlen]
    cases format with
    | td1 | td2 | td3 => rfl

variable {unicode : CaseMapping}

/-- **What the parser accepts**: the lines of a layout. -/
theorem parseMrz_ok_iff : parseMrz unicode lines = .ok mrz ↔
    ∃ format, AreLines format (cleanLines unicode lines) ∧ mrz = zone format (cleanLines unicode lines) := by
  have hupper := cleanLines_not_isLower unicode lines
  unfold parseMrz
  generalize cleanLines unicode lines = cleaned at hupper
  have hstructure : ∀ format, validateLineStructure cleaned format = .ok () ↔ AreLines format cleaned := by
    intro format
    rw [validateLineStructure, Exec.reject_bind_ok_iff, not_not, checkLines_ok_iff hupper]
    exact ⟨fun h => ⟨h.1, h.2⟩, fun h => ⟨h.count, h.lines⟩⟩
  rw [Exec.reject_bind_ok_iff, Exec.bind_ok_iff]
  constructor
  · rintro ⟨-, format, -, h⟩
    obtain ⟨_, hvalid, h⟩ := Exec.of_bind h
    have hlines := (hstructure format).mp hvalid
    rw [parseFormat_eq hlines] at h
    exact ⟨format, hlines, (Except.ok.inj h).symm⟩
  · rintro ⟨format, hlines, rfl⟩
    refine ⟨?_, format, detectFormat_eq hlines, Exec.bind_ok_iff.mpr ⟨(), ?_, parseFormat_eq hlines⟩⟩
    · rintro rfl
      cases format <;> cases hlines.count
    · exact (hstructure format).mpr hlines

/-- **What the parser accepts is well formed.** -/
theorem parseMrz_ok (h : parseMrz unicode lines = .ok mrz) :
    WellFormed mrz ∧ mrz.rawLines = cleanLines unicode lines := by
  obtain ⟨format, hlines, rfl⟩ := parseMrz_ok_iff.mp h
  exact ⟨⟨hlines.count, hlines.lines, rfl, rfl, rfl⟩, rfl⟩

/-- The lines that are not blank, as they were given. -/
def inputLines (lines : List Str) : List Str := (lines.map trim).filter (fun line => !line.isEmpty)

theorem cleanLines_eq (hascii : ∀ line ∈ inputLines lines, ∀ c ∈ line, isAscii c = true) :
    cleanLines unicode lines = (inputLines lines).map (List.map Char.toUpper) := by
  have hall : ∀ line ∈ lines, toUppercase unicode (trim line) = (trim line).map Char.toUpper := by
    intro line hline
    refine toUppercase_of_isAscii unicode (fun c hc => hascii _ ?_ c hc)
    refine mem_filter.mpr ⟨mem_map_of_mem hline, ?_⟩
    simpa using ne_nil_of_mem hc
  rw [cleanLines, inputLines, map_congr_left hall]
  simp [filter_map, Function.comp_def]

theorem isLine_upper_iff (hascii : ∀ c ∈ line, isAscii c = true) :
    IsLine format (line.map Char.toUpper) ↔
      line.length = format.lineLength ∧ ∀ c ∈ line, c = '<' ∨ c.isAlphanum = true := by
  have hchar : ∀ c ∈ line, isMrzChar c.toUpper = true ↔ c = '<' ∨ c.isAlphanum = true :=
    fun c hc => forall_isAscii (P := fun c => isMrzChar c.toUpper = true ↔ c = '<' ∨ c.isAlphanum = true)
      (by decide) (hascii c hc)
  constructor
  · rintro ⟨hlength, hchars⟩
    rw [length_map] at hlength
    exact ⟨hlength, fun c hc => (hchar c hc).mp (hchars _ (mem_map_of_mem hc))⟩
  · rintro ⟨hlength, hchars⟩
    refine ⟨by rw [length_map, hlength], ?_⟩
    rw [forall_mem_map]
    exact fun c hc => (hchar c hc).mpr (hchars c hc)

/-- The lines of a layout, in either case. -/
def IsLayout (lines : List Str) : Prop :=
  ∃ format : MrzFormat, lines.length = format.lineCount ∧ ∀ line ∈ lines,
    line.length = format.lineLength ∧ ∀ c ∈ line, c = '<' ∨ c.isAlphanum = true

variable (unicode) in
theorem isLayout_iff : IsLayout (inputLines lines) ↔
    (∃ mrz, parseMrz unicode lines = .ok mrz) ∧ ∀ line ∈ inputLines lines, ∀ c ∈ line, isAscii c = true := by
  constructor
  · rintro ⟨format, hcount, hlines⟩
    have hascii : ∀ line ∈ inputLines lines, ∀ c ∈ line, isAscii c = true := by
      intro line hline c hc
      rcases (hlines line hline).2 c hc with rfl | halphanum
      · decide
      · exact isAscii_of_isAlphanum halphanum
    refine ⟨⟨_, parseMrz_ok_iff.mpr ⟨format, ⟨?_, ?_⟩, rfl⟩⟩, hascii⟩
    · rw [cleanLines_eq hascii, length_map, hcount]
    · rw [cleanLines_eq hascii, forall_mem_map]
      exact fun line hline => (isLine_upper_iff (hascii line hline)).mpr (hlines line hline)
  · rintro ⟨⟨mrz, hparse⟩, hascii⟩
    obtain ⟨format, ⟨hcount, hlines⟩, -⟩ := parseMrz_ok_iff.mp hparse
    rw [cleanLines_eq hascii, length_map] at hcount
    rw [cleanLines_eq hascii, forall_mem_map] at hlines
    exact ⟨format, hcount, fun line hline => (isLine_upper_iff (hascii line hline)).mp (hlines line hline)⟩

/-- **What is accepted**: just the lines of a layout, exactly if the lines are ASCII or are no layout in upper case. -/
theorem parse_mrz_accepts_iff (unicode : CaseMapping) (lines : List Str) :
    (((∃ mrz, parseMrz unicode lines = .ok mrz) ↔ IsLayout (inputLines lines)) ↔
      (∀ line ∈ inputLines lines, ∀ c ∈ line, isAscii c = true) ∨
        ¬∃ format, AreLines format (cleanLines unicode lines)) ∧
    ∀ mrz, parseMrz unicode lines = .ok mrz ↔
      ∃ format, AreLines format (cleanLines unicode lines) ∧ mrz = zone format (cleanLines unicode lines) := by
  refine ⟨?_, fun mrz => parseMrz_ok_iff⟩
  have hok : (∃ mrz, parseMrz unicode lines = .ok mrz) ↔ ∃ format, AreLines format (cleanLines unicode lines) := by
    simp only [parseMrz_ok_iff]
    exact ⟨fun ⟨_, format, hlines, _⟩ => ⟨format, hlines⟩, fun ⟨format, hlines⟩ => ⟨_, format, hlines, rfl⟩⟩
  rw [isLayout_iff unicode, hok]
  tauto

/-- As Unicode has it, the dotless i is no ASCII letter and its upper case is one. -/
def dotlessMapping : CaseMapping where
  upper c := if c = 'ı' then ['I'] else asciiMapping.upper c
  upper_of_isAscii c h := by
    rw [if_neg (by rintro rfl; cases h)]
    exact asciiMapping.upper_of_isAscii c h
  upper_not_isLower c := by
    split
    · decide
    · exact asciiMapping.upper_not_isLower c

theorem dotless_i_accepted :
    parseMrz dotlessMapping ['ı' :: List.replicate 35 '<', List.replicate 36 '<'] =
      .ok (zone .td2 ['I' :: List.replicate 35 '<', List.replicate 36 '<']) := by
  decide

/-! ## Check digits -/

theorem charOfByte_toUInt8 {c : Char} (h : isAscii c = true) : charOfByte c.val.toUInt8 = c := by
  have hlt : c.val.toNat < 128 := of_decide_eq_true h
  unfold charOfByte
  rw [UInt32.toNat_toUInt8, Nat.mod_eq_of_lt (by omega)]
  exact Char.ofNat_toNat c

theorem checkDigitAt_of_isAscii {text : Str} (h : ∀ c ∈ text, isAscii c = true) (index : Nat) :
    checkDigitAt text index = text[index]? := by
  unfold checkDigitAt
  rw [bytes_of_isAscii h, getElem?_map]
  cases hc : text[index]? with
  | none => rfl
  | some c =>
    exact congrArg some (charOfByte_toUInt8 (h c (mem_of_getElem? hc)))

theorem both_eq_ok_true {a b : Exec String Bool} : both a b = .ok true ↔ a = .ok true ∧ b = .ok true := by
  unfold both
  rw [Exec.bind_ok_iff]
  constructor
  · rintro ⟨first, ha, hb⟩
    cases first with
    | true => exact ⟨ha, hb⟩
    | false => cases hb
  · rintro ⟨ha, hb⟩
    exact ⟨true, ha, hb⟩

/-- A checked field is followed by its check digit. -/
theorem fieldCheck_eq_ok_true (hline : IsLine format line) {start stop : Nat} (horder : start ≤ stop)
    (hstop : stop < format.lineLength) (h : fieldCheck line start stop = .ok true) :
    (line.drop start).take (stop - start + 1)
      = (line.drop start).take (stop - start) ++ [computeCheckDigit ((line.drop start).take (stop - start))] := by
  have hlt : stop < line.length := by
    rw [hline.length_eq]
    exact hstop
  unfold fieldCheck at h
  rw [hline.slice horder (Nat.le_of_lt hstop), ok_bind, checkDigitAt_of_isAscii hline.isAscii,
    getElem?_eq_getElem hlt] at h
  injection h with h
  rw [take_add_one, getElem?_drop, Nat.add_sub_cancel' horder, getElem?_eq_getElem hlt, beq_iff_eq.mp h]
  rfl

/-- Each of the key fields of `lines` is followed by its check digit. -/
def FieldsChecked (format : MrzFormat) (lines : List Str) : Prop :=
  ∀ field ∈ [format.documentNumber, format.dateOfBirth, format.dateOfExpiry],
    field.readWithCheck lines = field.read lines ++ [computeCheckDigit (field.read lines)]

theorem fieldsChecked_of_checks (hlines : AreLines format lines)
    (h : ∀ field ∈ [format.documentNumber, format.dateOfBirth, format.dateOfExpiry],
      fieldCheck (lines.getD field.line []) field.start (field.start + field.width) = .ok true) :
    FieldsChecked format lines := by
  intro field hfield
  obtain ⟨hcount, hstop⟩ := format.keyFields_inside field hfield
  have hchecked := fieldCheck_eq_ok_true (hlines.getD hcount) (Nat.le_add_right _ _) hstop (h field hfield)
  rwa [Nat.add_sub_cancel_left] at hchecked

/-- **In a zone with valid check digits, each key field is followed by its check digit.** -/
theorem validateCheckDigits_ok (hwf : WellFormed mrz) (h : mrz.validateCheckDigits = .ok true) :
    FieldsChecked mrz.format mrz.rawLines := by
  have hlines := hwf.areLines
  refine fieldsChecked_of_checks hlines ?_
  unfold validateCheckDigits at h
  generalize mrz.format = format at h hlines ⊢
  generalize mrz.rawLines = lines at h hlines ⊢
  simp only [forall_mem_cons]
  cases format with
  | td1 =>
    obtain ⟨line1, line2, line3, rfl⟩ := length_eq_three.mp hlines.count
    have h1 := hlines.lines line1 (by simp)
    have h2 := hlines.lines line2 (by simp)
    simp only [validateTd1CheckDigits] at h
    simp (disch := decide) only [h1.slice, h2.slice, ok_bind, both_eq_ok_true] at h
    exact ⟨h.1, h.2.1, h.2.2.1, forall_mem_nil _⟩
  | td2 =>
    obtain ⟨line1, line2, rfl⟩ := length_eq_two.mp hlines.count
    have h2 := hlines.lines line2 (by simp)
    simp only [validateTd2CheckDigits] at h
    simp (disch := decide) only [h2.slice, ok_bind, both_eq_ok_true] at h
    exact ⟨h.1, h.2.1, h.2.2.1, forall_mem_nil _⟩
  | td3 =>
    obtain ⟨line1, line2, rfl⟩ := length_eq_two.mp hlines.count
    have h2 := hlines.lines line2 (by simp)
    simp only [validateTd3CheckDigits] at h
    simp (disch := decide) only [h2.slice, ok_bind, both_eq_ok_true] at h
    exact ⟨h.1, h.2.1, h.2.2.1, forall_mem_nil _⟩

/-- The key information as it stands in the zone: the three fields, each with the character behind it. -/
def rawInformation (mrz : Mrz) : Str :=
  mrz.format.documentNumber.readWithCheck mrz.rawLines ++ mrz.format.dateOfBirth.readWithCheck mrz.rawLines ++
    mrz.format.dateOfExpiry.readWithCheck mrz.rawLines

theorem rawInformation_eq (hwf : WellFormed mrz) (h : mrz.validateCheckDigits = .ok true) :
    mrz.rawInformation
      = mrz.rawDocumentNumber ++ [computeCheckDigit mrz.rawDocumentNumber] ++
        (mrz.dateOfBirth ++ [computeCheckDigit mrz.dateOfBirth]) ++
        (mrz.dateOfExpiry ++ [computeCheckDigit mrz.dateOfExpiry]) := by
  have hchecked := validateCheckDigits_ok hwf h
  unfold rawInformation
  rw [hchecked _ (by simp), hchecked _ (by simp), hchecked mrz.format.dateOfExpiry (by simp), hwf.dateOfBirth,
    hwf.dateOfExpiry]
  rfl

/-- **The parser's key information is the raw one.** -/
theorem mrzInformation_eq_rawInformation (hwf : WellFormed mrz) (h : mrz.validateCheckDigits = .ok true) :
    mrz.mrzInformation = mrz.rawInformation := by
  have hspace : ∀ c ∈ mrz.documentNumber, c ≠ ' ' := by
    intro c hc
    rw [hwf.documentNumber] at hc
    have hchar := hwf.isMrzChar_of_mem_read _ c (List.IsPrefix.mem hc (List.rdropWhile_prefix _ _))
    rintro rfl
    exact absurd hchar (by decide)
  have hdoc : replace ' ' '<' (padRight 9 mrz.documentNumber) = mrz.rawDocumentNumber := by
    rw [replace_padRight hspace, hwf.documentNumber, ← hwf.rawDocumentNumber_length]
    exact trimEndMatches_append_replicate '<' mrz.rawDocumentNumber
  rw [rawInformation_eq hwf h]
  unfold mrzInformation computeMrzInformation
  simp only [hdoc, append_assoc]

end MartyCore.Mrz
