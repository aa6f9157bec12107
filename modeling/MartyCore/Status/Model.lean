import MartyCore.Lib.Base64
import MartyCore.Lib.Method

/-!
# `Status.Model` — credential status lists

The embedding of `marty-status/src/lib.rs`: `TokenStatusList`, with entries of 1, 2, 4 or 8 bits from the low end of
each byte up, and `BitstringStatusList`, with single bits from the high end down; their mutation, and their compressed
base64url form.

The fields of both lists are private in the source and every constructor validates them, so the invariant is part of
the types here: the size is within the limit, the width is one of the four, and there are exactly as many bytes as
the entries need. Validations return what they have established. Indexing and shifts that panic in the source panic
here.

The compressors are parameters (`Codec`). A decoder is what it makes of its input: the bytes it produces and the
error, if any, that it ends with. `usize` has 64 bits.
-/

namespace MartyCore.Status

open Method

def maxStatusListEntries : Nat := 16777216

def w3cMinStatusListBits : Nat := 131072

inductive StatusListError where
  | sizeLimit (size maximum : Nat)
  | invalidBits
  | indexOutOfRange (index size : Nat)
  | statusOutOfRange (status bits maximum : UInt8)
  | encodedSizeLimit
  | invalidBase64 (error : Str)
  | invalidMultibase
  | invalidCompression (error : Str)
  | decodedLength (actual expected : Nat)
  | privacyFloor (minimum : Nat)
  | invalidSubject
deriving DecidableEq

/-! ## Machine arithmetic -/

def usizeMax : Nat := 2 ^ 64 - 1

def saturatingAdd (a b : Nat) : Nat := min (a + b) usizeMax

def saturatingMul (a b : Nat) : Nat := min (a * b) usizeMax

def divCeil (a b : Nat) : Nat := (a + (b - 1)) / b

variable {ε : Type}

/-- `byte >> shift`. -/
def shiftRight (byte : UInt8) (shift : Nat) : Exec ε UInt8 :=
  if shift < 8 then .ok (byte >>> UInt8.ofNat shift) else .error (.panic "attempt to shift right with overflow")

/-- `byte << shift`. -/
def shiftLeft (byte : UInt8) (shift : Nat) : Exec ε UInt8 :=
  if shift < 8 then .ok (byte <<< UInt8.ofNat shift) else .error (.panic "attempt to shift left with overflow")

/-! ## Validation -/

/-- The widths of an entry. -/
def ValidBits (bits : UInt8) : Prop := bits = 1 ∨ bits = 2 ∨ bits = 4 ∨ bits = 8

instance (bits : UInt8) : Decidable (ValidBits bits) := inferInstanceAs (Decidable (_ ∨ _ ∨ _ ∨ _))

/-- Refuses more entries than the limit. -/
def validateSize (size : Nat) : Exec StatusListError (PLift (size ≤ maxStatusListEntries)) :=
  if h : size > maxStatusListEntries then Exec.fail (.sizeLimit size maxStatusListEntries)
  else .ok ⟨Nat.le_of_not_lt h⟩

/-- Refuses any other width. -/
def validateBits (bits : UInt8) : Exec StatusListError (PLift (ValidBits bits)) :=
  if h : ValidBits bits then .ok ⟨h⟩ else Exec.fail .invalidBits

/-- The bytes that the entries need. -/
def tokenByteLen (size : Nat) (bits : UInt8) : Nat := divCeil size (8 / bits.toNat)

/-- The bytes that the bits need. -/
def bitstringByteLen (size : Nat) : Nat := divCeil size 8

/-- Refuses a text that is too long for so many bytes. -/
def validateEncodedLen (encodedLen expectedBytes : Nat) : Exec StatusListError Unit :=
  let maxCompressed := saturatingAdd (saturatingMul expectedBytes 2) 1024
  let maxEncoded := saturatingMul (divCeil maxCompressed 3) 4
  Exec.reject (encodedLen > maxEncoded) .encodedSizeLimit

/-! ## Compression -/

/-- What reading from a decoder gives: bytes, and then the end or an error. -/
structure Reader where
  bytes : Bytes
  error : Option Str

/-- `reader.take(limit).read_to_end(…)`: the error is only met when the limit is not. -/
def Reader.readToEnd (limit : Nat) (reader : Reader) : Except Str Bytes :=
  if limit ≤ reader.bytes.length then .ok (reader.bytes.take limit)
  else
    match reader.error with
    | some error => .error error
    | none => .ok reader.bytes

/-- A compressor and its decoder. -/
structure Codec where
  encode : Bytes → Except Str Bytes
  decode : Bytes → Reader

/-- The foreign code. -/
structure Platform where
  zlib : Codec
  gzip : Codec
  /-- What the base64 decoder says of a text it refuses. -/
  base64Error : Str → Str

variable (platform : Platform)

/-- `.map_err(compression_error)`. -/
def compressionError {α : Type} : Except Str α → Exec StatusListError α
  | .ok a => .ok a
  | .error error => Exec.fail (.invalidCompression error)

def decodeBase64url (encoded : Str) : Exec StatusListError Bytes :=
  Exec.orFail (.invalidBase64 (platform.base64Error encoded)) (Base64.decode encoded)

/-- Reads one byte more than expected, to tell whether there is one. -/
def readExactBounded (reader : Reader) (expected : Nat) : Exec StatusListError Bytes := do
  -- a `usize` always converts to `u64` here
  let output ← compressionError (reader.readToEnd (saturatingAdd expected 1))
  Exec.reject (output.length ≠ expected) (.decodedLength output.length expected)
  return output

/-! ## Token status lists -/

/-- Entries from the low end of each byte up. -/
@[ext] structure TokenStatusList where
  bits : UInt8
  data : Bytes
  size : Nat
  bits_valid : ValidBits bits
  size_le : size ≤ maxStatusListEntries
  length_eq : data.length = tokenByteLen size bits
deriving DecidableEq

namespace TokenStatusList

def new (size : Nat) (bits : UInt8) : Exec StatusListError TokenStatusList := do
  let ⟨hsize⟩ ← validateSize size
  let ⟨hbits⟩ ← validateBits bits
  return ⟨bits, List.replicate (tokenByteLen size bits) 0, size, hbits, hsize, List.length_replicate⟩

def fromBytes (data : Bytes) (size : Nat) (bits : UInt8) : Exec StatusListError TokenStatusList := do
  let ⟨hsize⟩ ← validateSize size
  let ⟨hbits⟩ ← validateBits bits
  let expected := tokenByteLen size bits
  if hlen : data.length = expected then return ⟨bits, data, size, hbits, hsize, hlen⟩
  else Exec.fail (.decodedLength data.length expected)

variable (self : TokenStatusList)

/-- The largest status. -/
def mask : UInt8 := ((1 : UInt16) <<< self.bits.toUInt16 - 1).toUInt8

variable (index : Nat)

def validateIndex : Exec StatusListError Unit :=
  Exec.reject (index ≥ self.size) (.indexOutOfRange index self.size)

/-- The status of an entry. -/
def get : Exec StatusListError UInt8 := do
  self.validateIndex index
  let entriesPerByte := 8 / self.bits.toNat
  let byteIndex := index / entriesPerByte
  let shift := index % entriesPerByte * self.bits.toNat
  let byte ← Exec.index self.data byteIndex
  let shifted ← shiftRight byte shift
  return shifted &&& self.mask

/-- `self.data[index] = byte`, where the index has been read before. -/
def withByte (byte : UInt8) : TokenStatusList :=
  { self with data := self.data.set index byte, length_eq := (List.length_set).trans self.length_eq }

/-- Replaces the bits of an entry. -/
def set (status : UInt8) : Method TokenStatusList StatusListError Unit := do
  let self ← MonadState.get
  call (self.validateIndex index)
  let mask := self.mask
  call (Exec.reject (status > mask) (.statusOutOfRange status self.bits mask))
  let entriesPerByte := 8 / self.bits.toNat
  let byteIndex := index / entriesPerByte
  let shift := index % entriesPerByte * self.bits.toNat
  let byte ← call (Exec.index self.data byteIndex)
  let hole ← call (shiftLeft mask shift)
  let value ← call (shiftLeft status shift)
  MonadStateOf.set (self.withByte byteIndex ((byte &&& ~~~hole) ||| value))

def isRevoked : Exec StatusListError Bool := do
  return (← self.get index) != 0

def revoke : Method TokenStatusList StatusListError Unit := set index 1

def reinstate : Method TokenStatusList StatusListError Unit := set index 0

/-- The zlib form of the bytes. -/
def compress : Exec StatusListError Bytes := compressionError (platform.zlib.encode self.data)

def toBase64url : Exec StatusListError Str := do
  return Base64.encode (← self.compress platform)

/-- The decoded bytes have to be as many as the size says. -/
def fromCompressed (data : Bytes) (size : Nat) (bits : UInt8) : Exec StatusListError TokenStatusList := do
  let _ ← validateSize size
  let _ ← validateBits bits
  let decoded ← readExactBounded (platform.zlib.decode data) (tokenByteLen size bits)
  fromBytes decoded size bits

/-- The length of the text is checked before it is decoded. -/
def fromBase64url (encoded : Str) (size : Nat) (bits : UInt8) : Exec StatusListError TokenStatusList := do
  let _ ← validateSize size
  let _ ← validateBits bits
  validateEncodedLen encoded.len (tokenByteLen size bits)
  let compressed ← decodeBase64url platform encoded
  fromCompressed platform compressed size bits

end TokenStatusList

/-! ## Bitstring status lists -/

/-- Bits from the high end of each byte down. -/
@[ext] structure BitstringStatusList where
  data : Bytes
  size : Nat
  size_le : size ≤ maxStatusListEntries
  length_eq : data.length = bitstringByteLen size
deriving DecidableEq

namespace BitstringStatusList

def new (size : Nat) : Exec StatusListError BitstringStatusList := do
  let ⟨hsize⟩ ← validateSize size
  return ⟨List.replicate (bitstringByteLen size) 0, size, hsize, List.length_replicate⟩

def fromBytes (data : Bytes) (size : Nat) : Exec StatusListError BitstringStatusList := do
  let ⟨hsize⟩ ← validateSize size
  let expected := bitstringByteLen size
  if hlen : data.length = expected then return ⟨data, size, hsize, hlen⟩
  else Exec.fail (.decodedLength data.length expected)

variable (self : BitstringStatusList) (index : Nat)

def validateIndex : Exec StatusListError Unit :=
  Exec.reject (index ≥ self.size) (.indexOutOfRange index self.size)

def get : Exec StatusListError Bool := do
  self.validateIndex index
  let byteIndex := index / 8
  let shift := 7 - index % 8
  let byte ← Exec.index self.data byteIndex
  let shifted ← shiftRight byte shift
  return (shifted &&& 1) == 1

/-- `self.data[index] = byte`, where the index has been read before. -/
def withByte (byte : UInt8) : BitstringStatusList :=
  { self with data := self.data.set index byte, length_eq := (List.length_set).trans self.length_eq }

def set (revoked : Bool) : Method BitstringStatusList StatusListError Unit := do
  let self ← MonadState.get
  call (self.validateIndex index)
  let byteIndex := index / 8
  let shift := 7 - index % 8
  let byte ← call (Exec.index self.data byteIndex)
  let bit ← call (shiftLeft 1 shift)
  MonadStateOf.set (self.withByte byteIndex (if revoked then byte ||| bit else byte &&& ~~~bit))

def isRevoked : Exec StatusListError Bool := self.get index

def revoke : Method BitstringStatusList StatusListError Unit := set index true

def reinstate : Method BitstringStatusList StatusListError Unit := set index false

/-- Counts the padding bits too. -/
def countRevoked : Nat := (self.data.map countOnes).foldl Nat.add 0

def compress : Exec StatusListError Bytes :=
  compressionError (platform.gzip.encode self.data)

def toBase64url : Exec StatusListError Str := do
  return 'u' :: Base64.encode (← self.compress platform)

def fromCompressed (data : Bytes) (size : Nat) : Exec StatusListError BitstringStatusList := do
  let _ ← validateSize size
  let decoded ← readExactBounded (platform.gzip.decode data) (bitstringByteLen size)
  fromBytes decoded size

/-- `encoded.strip_prefix('u')`. -/
def stripMultibase : Str → Exec StatusListError Str
  | 'u' :: payload => .ok payload
  | _ => Exec.fail .invalidMultibase

def fromBase64url (encoded : Str) (size : Nat) : Exec StatusListError BitstringStatusList := do
  let _ ← validateSize size
  let payload ← stripMultibase encoded
  validateEncodedLen payload.len (bitstringByteLen size)
  let compressed ← decodeBase64url platform payload
  fromCompressed platform compressed size

/-- The entry count is what the bytes hold. -/
def fromBase64urlBounded (encoded : Str) : Exec StatusListError BitstringStatusList := do
  let payload ← stripMultibase encoded
  let maximumBytes := bitstringByteLen maxStatusListEntries
  validateEncodedLen payload.len maximumBytes
  let compressed ← decodeBase64url platform payload
  let data ← compressionError ((platform.gzip.decode compressed).readToEnd (saturatingAdd maximumBytes 1))
  Exec.reject (data.length > maximumBytes) (.sizeLimit (saturatingMul data.length 8) maxStatusListEntries)
  let size := saturatingMul data.length 8
  Exec.reject (size < w3cMinStatusListBits) (.privacyFloor w3cMinStatusListBits)
  fromBytes data size

end BitstringStatusList

end MartyCore.Status
