import MartyCore.Lib.Str

/-!
# `Mrz.Model` — machine-readable zones

The embedding of `marty-verification/src/mrz`: the check digits of `checksum.rs` and the parser of `parser.rs`
for the three layouts, with its error paths.

Every error of the parser is `VerificationError::encoding_error(reason)` and is its `reason`. A slice of a line
that is too short panics; that is an outcome of the model, and that an accepted zone never reaches it is a
theorem. Sums wrap at 32 bits, as in a release build.
-/

namespace MartyCore
namespace Mrz

/-! ## Check digits -/

/-- The weights `WEIGHTS[i % 3]`. -/
def weight (i : Nat) : UInt32 := [7, 3, 1].getD (i % 3) 0

/-- The sum that both check-digit functions of the repository take over the values of the characters. -/
def weightedSum (values : List UInt32) : UInt32 :=
  (values.zipIdx.map (fun entry => entry.1 * weight entry.2)).foldl (fun sum term => sum + term) 0

def charValue (c : Char) : UInt32 :=
  if c = '<' then 0
  else if c.isDigit then c.val - '0'.val
  else if c.isUpper then c.val - 'A'.val + 10
  else if c.isLower then c.val - 'a'.val + 10
  else 0

/-- `char::from_digit(digit, 10)`. -/
def fromDigit (digit : UInt32) : Option Char :=
  if digit < 10 then some (Char.ofNat ('0'.toNat + digit.toNat)) else none

def computeCheckDigit (input : Str) : Char :=
  (fromDigit (weightedSum (input.map charValue) % 10)).getD '0'

def validateCheckDigit (data : Str) (checkDigit : Char) : Bool := computeCheckDigit data == checkDigit

def computeMrzInformation (documentNumber dateOfBirth dateOfExpiry : Str) : Str :=
  let docNum := Str.replace ' ' '<' (Str.padRight 9 documentNumber)
  docNum ++ [computeCheckDigit docNum] ++ dateOfBirth ++ [computeCheckDigit dateOfBirth] ++
    dateOfExpiry ++ [computeCheckDigit dateOfExpiry]

/-! ## Zones -/

inductive MrzFormat where
  | td1
  | td2
  | td3
deriving DecidableEq

def MrzFormat.lineLength : MrzFormat → Nat
  | td1 => 30
  | td2 => 36
  | td3 => 44

def MrzFormat.lineCount : MrzFormat → Nat
  | td1 => 3
  | td2 | td3 => 2

def formatName : MrzFormat → String
  | .td1 => "TD1"
  | .td2 => "TD2"
  | .td3 => "TD3"

end Mrz

structure Mrz where
  format : Mrz.MrzFormat
  documentType : Str
  issuingCountry : Str
  surname : Str
  givenNames : Str
  documentNumber : Str
  documentNumberCheck : Char
  nationality : Str
  dateOfBirth : Str
  dateOfBirthCheck : Char
  sex : Char
  dateOfExpiry : Str
  dateOfExpiryCheck : Char
  optionalData : Str
  compositeCheck : Option Char
  rawLines : List Str
deriving DecidableEq

namespace Mrz

def mrzInformation (self : Mrz) : Str :=
  computeMrzInformation self.documentNumber self.dateOfBirth self.dateOfExpiry

/-! ### Checking the check digits -/

/-- The byte at an index, as a character. -/
def checkDigitAt (line : Str) (index : Nat) : Option Char :=
  (Str.bytes line)[index]?.map Str.charOfByte

/-- `a && b` where both may panic. -/
def both (a b : Exec String Bool) : Exec String Bool := do
  let first ← a
  if first then b else .ok false

/-- The field from `start` to `stop` against the check digit that follows it. -/
def fieldCheck (line : Str) (start stop : Nat) : Exec String Bool := do
  let data ← Str.slice line start stop
  .ok (validateCheckDigit data ((checkDigitAt line stop).getD '<'))

/-- The composite data against the check digit at `index`. -/
def compositeDigitCheck (compositeData line : Str) (index : Nat) : Exec String Bool :=
  .ok (computeCheckDigit compositeData == (checkDigitAt line index).getD '<')

def validateTd1CheckDigits : List Str → Exec String Bool
  | [line1, line2, _line3] => do
    -- the composite data is sliced before the first comparison
    let part1 ← Str.slice line1 5 30
    let part2 ← Str.slice line2 0 7
    let part3 ← Str.slice line2 8 15
    let part4 ← Str.slice line2 18 29
    both (fieldCheck line1 5 14) (both (fieldCheck line2 0 6) (both (fieldCheck line2 8 14)
      (compositeDigitCheck (part1 ++ part2 ++ part3 ++ part4) line2 29)))
  | _ => .ok false

def validateTd2CheckDigits : List Str → Exec String Bool
  | [_line1, line2] => do
    let part1 ← Str.slice line2 0 10
    let part2 ← Str.slice line2 13 20
    let part3 ← Str.slice line2 21 35
    both (fieldCheck line2 0 9) (both (fieldCheck line2 13 19) (both (fieldCheck line2 21 27)
      (compositeDigitCheck (part1 ++ part2 ++ part3) line2 35)))
  | _ => .ok false

/-- The only layout with a check digit over the optional data. -/
def validateTd3CheckDigits : List Str → Exec String Bool
  | [_line1, line2] => do
    let part1 ← Str.slice line2 0 10
    let part2 ← Str.slice line2 13 20
    let part3 ← Str.slice line2 21 43
    both (fieldCheck line2 0 9) (both (fieldCheck line2 13 19) (both (fieldCheck line2 21 27)
      (both (fieldCheck line2 28 42) (compositeDigitCheck (part1 ++ part2 ++ part3) line2 43))))
  | _ => .ok false

def validateCheckDigits (self : Mrz) : Exec String Bool :=
  match self.format with
  | .td1 => validateTd1CheckDigits self.rawLines
  | .td2 => validateTd2CheckDigits self.rawLines
  | .td3 => validateTd3CheckDigits self.rawLines

/-! ## Parsing -/

/-- The name field: the pieces before and after the first `<<`. -/
def parseName (nameField : Str) : Str × Str :=
  let parts := Str.splitDouble '<' nameField
  (Str.trim (Str.replace '<' ' ' (parts[0]?.getD [])), Str.trim (Str.replace '<' ' ' (parts[1]?.getD [])))

/-- The character at an index, `<` where there is none. -/
def charAt (line : Str) (index : Nat) : Char := line.getD index '<'

variable (lines : List Str)

def parseTd1 : Exec String Mrz :=
  match lines with
  | line1 :: line2 :: line3 :: _ => do
    let documentType ← Str.slice line1 0 2
    let issuingCountry ← Str.slice line1 2 5
    let documentNumber ← Str.slice line1 5 14
    let optionalData1 ← Str.slice line1 15 30
    let dateOfBirth ← Str.slice line2 0 6
    let dateOfExpiry ← Str.slice line2 8 14
    let nationality ← Str.slice line2 15 18
    let optionalData2 ← Str.slice line2 18 29
    .ok
      { format := .td1
        documentType := Str.trimEndMatches '<' documentType
        issuingCountry
        surname := (parseName line3).1
        givenNames := (parseName line3).2
        documentNumber := Str.trimEndMatches '<' documentNumber
        documentNumberCheck := charAt line1 14
        nationality
        dateOfBirth
        dateOfBirthCheck := charAt line2 6
        sex := charAt line2 7
        dateOfExpiry
        dateOfExpiryCheck := charAt line2 14
        optionalData := Str.trimEndMatches '<' optionalData1 ++ Str.trimEndMatches '<' optionalData2
        compositeCheck := line2[29]?
        rawLines := lines }
  | _ => Exec.fail "TD1 requires 3 lines"

/-- TD2 and TD3 differ in the width of the name, of the optional data, and in where the composite check digit is. -/
def parseTwoLines (format : MrzFormat) (nameStop optionalStop compositeAt : Nat) (line1 line2 : Str)
    (lines : List Str) : Exec String Mrz := do
  let documentType ← Str.slice line1 0 2
  let issuingCountry ← Str.slice line1 2 5
  let nameField ← Str.slice line1 5 nameStop
  let documentNumber ← Str.slice line2 0 9
  let nationality ← Str.slice line2 10 13
  let dateOfBirth ← Str.slice line2 13 19
  let dateOfExpiry ← Str.slice line2 21 27
  let optionalData ← Str.slice line2 28 optionalStop
  .ok
    { format
      documentType := Str.trimEndMatches '<' documentType
      issuingCountry
      surname := (parseName nameField).1
      givenNames := (parseName nameField).2
      documentNumber := Str.trimEndMatches '<' documentNumber
      documentNumberCheck := charAt line2 9
      nationality
      dateOfBirth
      dateOfBirthCheck := charAt line2 19
      sex := charAt line2 20
      dateOfExpiry
      dateOfExpiryCheck := charAt line2 27
      optionalData := Str.trimEndMatches '<' optionalData
      compositeCheck := line2[compositeAt]?
      rawLines := lines }

def parseTd2 : Exec String Mrz :=
  match lines with
  | line1 :: line2 :: _ => parseTwoLines .td2 36 35 35 line1 line2 lines
  | _ => Exec.fail "TD2 requires 2 lines"

def parseTd3 : Exec String Mrz :=
  match lines with
  | line1 :: line2 :: _ => parseTwoLines .td3 44 42 43 line1 line2 lines
  | _ => Exec.fail "TD3 requires 2 lines"

/-- The count alone does not decide: a zone with the wrong number of lines is rejected afterwards. -/
def detectFormat : Exec String MrzFormat :=
  let lineCount := lines.length
  let firstLineLen := (lines.head?.map Str.len).getD 0
  if lineCount = 3 ∧ firstLineLen = 30 then .ok .td1
  else if lineCount = 2 ∧ firstLineLen = 36 then .ok .td2
  else if lineCount = 2 ∧ firstLineLen = 44 then .ok .td3
  -- the length of the first line alone, for zones with a wrong number of lines
  else if firstLineLen = 44 then .ok .td3
  else if firstLineLen = 36 then .ok .td2
  else if firstLineLen = 30 then .ok .td1
  else Exec.fail ("Unknown MRZ format: " ++ toString lineCount ++ " lines, " ++ toString firstLineLen ++ " chars")

/-- `index` is the index of the first of the lines. -/
def checkLines (format : MrzFormat) : Nat → List Str → Exec String Unit
  | _, [] => .ok ()
  | index, line :: lines => do
    Exec.reject (line.all Text.isAscii = false ∨ line.all (fun c => c == '<' || c.isAlphanum) = false)
      ("MRZ line " ++ toString (index + 1) ++ " contains invalid characters")
    Exec.reject (line.len ≠ format.lineLength)
      (formatName format ++ " line " ++ toString (index + 1) ++ " must be exactly " ++
        toString format.lineLength ++ " characters")
    checkLines format (index + 1) lines

def validateLineStructure (format : MrzFormat) : Exec String Unit := do
  Exec.reject (lines.length ≠ format.lineCount)
    (formatName format ++ " requires exactly " ++ toString format.lineCount ++ " lines")
  checkLines format 0 lines

def parseFormat (format : MrzFormat) (lines : List Str) : Exec String Mrz :=
  match format with
  | .td1 => parseTd1 lines
  | .td2 => parseTd2 lines
  | .td3 => parseTd3 lines

variable (unicode : Str.CaseMapping)

/-- The cleaned-up lines: trimmed, in upper case, without the empty ones. -/
def cleanLines (lines : List Str) : List Str :=
  (lines.map (fun l => Str.toUppercase unicode (Str.trim l))).filter (fun l => !l.isEmpty)

def parseMrz (lines : List Str) : Exec String Mrz := do
  -- lower-case input is accepted and read as upper case
  let lines := cleanLines unicode lines
  Exec.reject (lines = []) "No MRZ lines provided"
  let format ← detectFormat lines
  validateLineStructure lines format
  parseFormat format lines

def parseMrzString (mrzText : Str) : Exec String Mrz :=
  parseMrz unicode (Str.lines mrzText)

end Mrz
end MartyCore
