import Mathlib.Data.List.DropRight
import MartyCore.Lib.Bytes
import MartyCore.Lib.Exec
import MartyCore.Lib.Text

/-!
# `Lib.Str` — strings as Rust handles them

A `str` as its characters, with the operations of the standard library: some count bytes (`len`, slicing, which
panics off a character boundary), some count characters (padding). On ASCII text the two agree, and slicing is
`drop` and `take` (`slice_of_isAscii`).

The upper-case mapping of Unicode is a table the models do not contain; `CaseMapping` is any table with the
properties the standard fixes.
-/

namespace MartyCore

open Text List

abbrev Str := List Char

namespace Str

/-- Membership tests on lists of strings all refer to this instance. -/
instance instLawfulBEq : LawfulBEq Str := inferInstance

open Text (isAscii)

/-! ## Bytes -/

/-- `len`, in bytes. -/
def len (s : Str) : Nat := String.utf8Len s

/-- `as_bytes`. -/
def bytes (s : Str) : Bytes := s.flatMap String.utf8EncodeChar

/-- `b as char`: the character with the byte's number. -/
def charOfByte (b : UInt8) : Char := Char.ofNat b.toNat

/-- UTF-8 is injective. -/
theorem bytes_injective {s t : Str} (h : bytes s = bytes t) : s = t := by
  have hencode : s.utf8Encode = t.utf8Encode := congrArg List.toByteArray h
  exact String.ofList_inj.mp (String.toByteArray_inj.mp hencode)

/-- `str::from_utf8`. -/
def fromUtf8 (bytes : Bytes) : Option Str := (String.fromUTF8? bytes.toByteArray).map String.toList

theorem fromUtf8_bytes (s : Str) : fromUtf8 (bytes s) = some s := by
  have hvalid : s.utf8Encode.IsValidUTF8 := (String.ofList s).isValidUTF8
  have htext : String.fromUTF8 s.utf8Encode hvalid = String.ofList s := String.toByteArray_inj.mp rfl
  show (String.fromUTF8? s.utf8Encode).map String.toList = some s
  rw [String.fromUTF8?, dif_pos hvalid, htext, Option.map_some, String.toList_ofList]

variable {s : Str}

theorem bytes_of_isAscii (h : ∀ c ∈ s, isAscii c = true) : bytes s = s.map (fun c => c.val.toUInt8) := by
  induction s with
  | nil => rfl
  | cons c rest ih =>
    rw [forall_mem_cons] at h
    rw [bytes, flatMap_cons, String.utf8EncodeChar_eq_singleton (utf8Size_of_isAscii h.1), map_cons, ← ih h.2]
    rfl

theorem len_of_isAscii (h : ∀ c ∈ s, isAscii c = true) : s.len = s.length :=
  utf8Len_of_isAscii (all_eq_true.mpr h)

/-! ## Slices -/

/-- The text before and after a byte index; none where the index is not on a character boundary. -/
def splitAtByte : Nat → Str → Option (Str × Str)
  | 0, s => some ([], s)
  | _ + 1, [] => none
  | n + 1, c :: s =>
    if c.utf8Size ≤ n + 1 then (splitAtByte (n + 1 - c.utf8Size) s).map (fun parts => (c :: parts.1, parts.2))
    else none

/-- `&s[start..stop]`. -/
def slice {ε : Type} (s : Str) (start stop : Nat) : Exec ε Str := do
  let tail ← Exec.expect "byte index is out of bounds or not a char boundary" (splitAtByte start s)
  let field ← Exec.expect "byte index is out of bounds or not a char boundary"
    (if stop < start then none else splitAtByte (stop - start) tail.2)
  .ok field.1

theorem splitAtByte_of_isAscii (h : ∀ c ∈ s, isAscii c = true) {n : Nat} (hn : n ≤ s.length) :
    splitAtByte n s = some (s.take n, s.drop n) := by
  induction s generalizing n with
  | nil =>
    obtain rfl : n = 0 := Nat.le_zero.mp hn
    rfl
  | cons c rest ih =>
    cases n with
    | zero => rfl
    | succ n =>
      rw [forall_mem_cons] at h
      rw [splitAtByte, utf8Size_of_isAscii h.1, if_pos (Nat.le_add_left 1 n), Nat.add_sub_cancel,
        ih h.2 (Nat.le_of_succ_le_succ hn)]
      rfl

/-- **On ASCII text a slice in range is `drop` and `take`.** -/
theorem slice_of_isAscii {ε : Type} (h : ∀ c ∈ s, isAscii c = true) {start stop : Nat} (horder : start ≤ stop)
    (hstop : stop ≤ s.length) :
    (slice s start stop : Exec ε Str) = .ok ((s.drop start).take (stop - start)) := by
  have hrest : ∀ c ∈ s.drop start, isAscii c = true := fun c hc => h c (mem_of_mem_drop hc)
  have hlen : stop - start ≤ (s.drop start).length := by
    rw [length_drop]
    omega
  have hfield : (if stop < start then none else splitAtByte (stop - start) (s.drop start))
      = some ((s.drop start).take (stop - start), (s.drop start).drop (stop - start)) := by
    rw [if_neg (Nat.not_lt.mpr horder)]
    exact splitAtByte_of_isAscii hrest hlen
  refine Exec.bind_ok_iff.mpr ⟨(s.take start, s.drop start), Exec.expect_ok_iff.mpr ?_,
    Exec.bind_ok_iff.mpr ⟨_, Exec.expect_ok_iff.mpr hfield, rfl⟩⟩
  exact splitAtByte_of_isAscii h (Nat.le_trans horder hstop)

/-! ## Lines, trimming and padding -/

/-- `char::is_whitespace`: the property `White_Space`. -/
def isWhitespace (c : Char) : Bool :=
  let n := c.toNat
  decide (0x09 ≤ n ∧ n ≤ 0x0D ∨ n = 0x20 ∨ n = 0x85 ∨ n = 0xA0 ∨ n = 0x1680 ∨ 0x2000 ≤ n ∧ n ≤ 0x200A ∨
    n = 0x2028 ∨ n = 0x2029 ∨ n = 0x202F ∨ n = 0x205F ∨ n = 0x3000)

/-- `char::is_control`: the category `Cc`. -/
def isControl (c : Char) : Bool := decide (c.toNat ≤ 0x1F ∨ 0x7F ≤ c.toNat ∧ c.toNat ≤ 0x9F)

def trim (s : Str) : Str := (s.dropWhile isWhitespace).rdropWhile isWhitespace

/-- `trim_end_matches(c)`. -/
def trimEndMatches (c : Char) (s : Str) : Str := s.rdropWhile (fun d => d == c)

/-- `strip_suffix`. -/
def stripSuffix (ending s : Str) : Option Str :=
  if ending.isSuffixOf s then some (s.take (s.length - ending.length)) else none

/-- `trim_end_matches` with a text: as many times as it is there. Each time the text gets shorter, so its length is
    enough for `fuel`. -/
def trimEndTextLoop (ending : Str) : Nat → Str → Str
  | 0, s => s
  | fuel + 1, s =>
    match stripSuffix ending s with
    | some rest => trimEndTextLoop ending fuel rest
    | none => s

def trimEndText (ending s : Str) : Str := trimEndTextLoop ending s.length s

def stripCarriageReturn (s : Str) : Str := if s.getLast? = some '\r' then s.dropLast else s

/-- `str::lines`: a line ends with `\n` or `\r\n`; the last one needs no ending. -/
def lines (s : Str) : List Str :=
  let pieces := s.splitOn '\n'
  -- the piece behind the last `\n` is a line only if there is something in it
  pieces.dropLast.map stripCarriageReturn ++ [pieces.getLastD []].filter (fun last => !last.isEmpty)

/-- The pieces between the occurrences of `cc`. -/
def splitDouble (c : Char) : Str → List Str
  | a :: b :: rest =>
    if a = c ∧ b = c then [] :: splitDouble c rest
    else (splitDouble c (b :: rest)).modifyHead (fun piece => a :: piece)
  | rest => [rest]

/-- `replace(c, d)` for single characters. -/
def replace (c d : Char) (s : Str) : Str := s.map (fun x => if x = c then d else x)

/-- The format specification `{:<width}`, which counts characters. -/
def padRight (width : Nat) (s : Str) : Str := s ++ List.replicate (width - s.length) ' '

theorem lines_of_not_mem (hne : s ≠ []) (h : '\n' ∉ s) : lines s = [s] := by
  unfold lines
  rw [splitOn_eq_singleton h]
  simp [hne]

/-- Nothing to trim at either end. -/
def Trimmed (s : Str) : Prop := (∀ c ∈ s.head?, isWhitespace c = false) ∧ ∀ c ∈ s.getLast?, isWhitespace c = false

theorem trimmed_trim (s : Str) : Trimmed (trim s) := by
  have hfront : ∀ c ∈ (s.dropWhile isWhitespace).head?, isWhitespace c = false := by
    intro c hc
    have hnot := head?_dropWhile_not isWhitespace s
    rw [hc] at hnot
    exact hnot
  refine ⟨?_, ?_⟩
  · intro c hc
    obtain ⟨rest, hprefix⟩ := rdropWhile_prefix isWhitespace (l := s.dropWhile isWhitespace)
    have hhead : ((s.dropWhile isWhitespace).rdropWhile isWhitespace).head? = some c := hc
    apply hfront
    rw [← hprefix, head?_append, hhead]
    rfl
  · intro c hc
    obtain ⟨hne, rfl⟩ := mem_getLast?_eq_getLast hc
    exact Bool.eq_false_of_not_eq_true (rdropWhile_last_not _ _ hne)

theorem trim_of_trimmed (h : Trimmed s) : trim s = s := by
  have hfront : s.dropWhile isWhitespace = s := by
    cases s with
    | nil => rfl
    | cons c rest =>
      have hc := h.1 c rfl
      simp [hc]
  unfold trim
  rw [hfront, rdropWhile_eq_self_iff]
  intro hne hlast
  rw [h.2 _ (getLast?_eq_some_getLast hne)] at hlast
  cases hlast

theorem trim_trim (s : Str) : trim (trim s) = trim s := trim_of_trimmed (trimmed_trim s)

theorem trim_eq_self (h : ∀ c ∈ s, isWhitespace c = false) : trim s = s :=
  trim_of_trimmed ⟨fun c hc => h c (mem_of_mem_head? hc), fun c hc => h c (mem_of_getLast? hc)⟩

variable {c : Char}

theorem isDigit_spec (h : c.isDigit = true) :
    isAscii c = true ∧ isWhitespace c = false ∧ c.toUpper = c ∧ c ≠ '\n' := by
  have hascii : isAscii c = true := by
    apply isAscii_of_isAlphanum
    rw [isAlphanum_eq, h, Bool.or_true]
  exact ⟨hascii, forall_isAscii
    (P := fun c => c.isDigit = true → isWhitespace c = false ∧ c.toUpper = c ∧ c ≠ '\n')
    (by decide) hascii h⟩

/-- What trimming takes off the end is fillers. -/
theorem trimEndMatches_append_replicate (c : Char) (s : Str) :
    trimEndMatches c s ++ List.replicate (s.length - (trimEndMatches c s).length) c = s := by
  have hsplit : trimEndMatches c s ++ s.rtakeWhile (fun d => d == c) = s := rdropWhile_append_rtakeWhile
  have hfill : s.rtakeWhile (fun d => d == c) = List.replicate (s.rtakeWhile (fun d => d == c)).length c := by
    apply eq_replicate_of_mem
    intro d hd
    have hdc := mem_rtakeWhile_imp hd
    exact beq_iff_eq.mp hdc
  -- so as many fillers as characters are missing
  have hlen := congrArg List.length hsplit
  rw [length_append] at hlen
  rw [show s.length - (trimEndMatches c s).length = (s.rtakeWhile (fun d => d == c)).length by omega, ← hfill, hsplit]

theorem trimEndMatches_append_singleton (h : c ∉ s) : trimEndMatches c (s ++ [c]) = s := by
  have hlast : s.rdropWhile (fun d => d == c) = s := by
    rw [rdropWhile_eq_self_iff]
    intro hne hc
    exact h (beq_iff_eq.mp hc ▸ getLast_mem hne)
  have hdrop := rdropWhile_concat_pos (fun d => d == c) s c (beq_self_eq_true c)
  exact hdrop.trans hlast

theorem trimEndText_of_not_mem {ending s : Str} (hc : c ∈ ending) (h : c ∉ s) :
    trimEndText ending s = s := by
  have hstrip : stripSuffix ending s = none := by
    refine if_neg ?_
    intro hsuffix
    exact h ((isSuffixOf_iff_suffix.mp hsuffix).subset hc)
  unfold trimEndText
  cases s.length with
  | zero => rfl
  | succ n => simp [trimEndTextLoop, hstrip]

/-- Padding with spaces that become `c`. -/
theorem replace_padRight {width : Nat} (h : ∀ d ∈ s, d ≠ ' ') :
    replace ' ' c (padRight width s) = s ++ List.replicate (width - s.length) c := by
  unfold replace padRight
  rw [map_append, map_replicate, if_pos rfl]
  congr 1
  exact (map_congr_left (fun d hd => if_neg (h d hd))).trans (map_id s)

/-! ## Case -/

/-- An upper-case mapping of Unicode: it is the usual one on ASCII, and nothing it produces is an ASCII lower-case
    letter. -/
structure CaseMapping where
  upper : Char → Str
  upper_of_isAscii : ∀ c, isAscii c = true → upper c = [c.toUpper]
  upper_not_isLower : ∀ c, ∀ d ∈ upper c, d.isLower = false

/-- The mapping of ASCII, with every other character its own upper case. -/
def asciiMapping : CaseMapping where
  upper c := if isAscii c = true then [c.toUpper] else [c]
  upper_of_isAscii c h := if_pos h
  upper_not_isLower c d hd := by
    by_cases hc : isAscii c = true
    · rw [if_pos hc, mem_singleton] at hd
      rw [hd]
      exact forall_isAscii (P := fun c => c.toUpper.isLower = false) (by decide) hc
    · rw [if_neg hc, mem_singleton] at hd
      rw [hd, ← Bool.not_eq_true]
      intro hlower
      apply hc
      apply isAscii_of_isAlphanum
      rw [isAlphanum_eq, hlower, Bool.or_true, Bool.true_or]

/-- `str::to_uppercase`. -/
def toUppercase (unicode : CaseMapping) (s : Str) : Str := s.flatMap unicode.upper

theorem toUppercase_of_isAscii (unicode : CaseMapping) (h : ∀ c ∈ s, isAscii c = true) :
    toUppercase unicode s = s.map Char.toUpper := by
  unfold toUppercase
  rw [flatMap_congr (fun c hc => unicode.upper_of_isAscii c (h c hc))]
  exact (map_eq_flatMap).symm

/-- A mapping whose results are upper case already and which keeps white space apart from the rest, as the tables of
    Unicode do. -/
structure StableCaseMapping extends CaseMapping where
  upper_upper : ∀ c, (upper c).flatMap upper = upper c
  upper_ne_nil : ∀ c, upper c ≠ []
  upper_not_isWhitespace : ∀ c, isWhitespace c = false → ∀ d ∈ upper c, isWhitespace d = false

def stableAsciiMapping : StableCaseMapping where
  toCaseMapping := asciiMapping
  upper_upper c := by
    show List.flatMap (fun c => if isAscii c = true then [c.toUpper] else [c]) _ = _
    by_cases hc : isAscii c = true
    · have hupper := forall_isAscii (P := fun c => isAscii c.toUpper = true ∧ c.toUpper.toUpper = c.toUpper)
        (by decide) hc
      simp [asciiMapping, hc, hupper.1, hupper.2]
    · simp [asciiMapping, hc]
  upper_ne_nil c := by
    show (if isAscii c = true then [c.toUpper] else [c]) ≠ []
    split <;> simp
  upper_not_isWhitespace c h d hd := by
    by_cases hc : isAscii c = true
    · have hspace := forall_isAscii (P := fun c => isWhitespace c = false → isWhitespace c.toUpper = false)
        (by decide) hc
      obtain rfl : d = c.toUpper := by simpa [asciiMapping, hc] using hd
      exact hspace h
    · obtain rfl : d = c := by simpa [asciiMapping, hc] using hd
      exact h

variable (unicode : StableCaseMapping)

theorem toUppercase_toUppercase (s : Str) :
    toUppercase unicode.toCaseMapping (toUppercase unicode.toCaseMapping s) = toUppercase unicode.toCaseMapping s := by
  unfold toUppercase
  rw [flatMap_assoc]
  exact flatMap_congr (fun c _ => unicode.upper_upper c)

theorem trimmed_toUppercase (h : Trimmed s) : Trimmed (toUppercase unicode.toCaseMapping s) := by
  refine ⟨?_, ?_⟩
  · intro d hd
    cases s with
    | nil => cases hd
    | cons c rest =>
      rw [toUppercase, flatMap_cons, head?_append_of_ne_nil _ (unicode.upper_ne_nil c)] at hd
      exact unicode.upper_not_isWhitespace c (h.1 c rfl) d (mem_of_mem_head? hd)
  · intro d hd
    rcases eq_nil_or_concat s with rfl | ⟨front, c, rfl⟩
    · cases hd
    · have hlast := h.2 c (by simp)
      rw [toUppercase, concat_eq_append, flatMap_append, flatMap_singleton,
        getLast?_append_of_ne_nil _ (unicode.upper_ne_nil c)] at hd
      exact unicode.upper_not_isWhitespace c hlast d (mem_of_getLast? hd)

/-- **Trimmed and upper-cased text stays as it is.** -/
theorem toUppercase_trim_stable (s : Str) :
    toUppercase unicode.toCaseMapping (trim (toUppercase unicode.toCaseMapping (trim s))) =
      toUppercase unicode.toCaseMapping (trim s) := by
  rw [trim_of_trimmed (trimmed_toUppercase unicode (trimmed_trim s)), toUppercase_toUppercase]

theorem toUppercase_not_isLower (unicode : CaseMapping) (s : Str) : ∀ d ∈ toUppercase unicode s, d.isLower = false := by
  intro d hd
  obtain ⟨c, -, hdc⟩ := mem_flatMap.mp hd
  exact unicode.upper_not_isLower c d hdc

end Str
end MartyCore
