import Mathlib.Data.String.Basic
import MartyCore.Lib.Bytes
import MartyCore.Lib.Method

/-!
# `ChipIo.Model` — BAC secure messaging

The embedding of the secure-messaging session of `marty-verification/src/chip_io/mod.rs`: BER-TLV objects,
ISO 7816 padding, the retail MAC, and the two methods `protectCommand` and `unprotectResponse` of a
`BacSession`, on the block cipher of `marty-crypto/src/des.rs`.

The two methods run in `Method BacSession`: they read the session, make fallible calls, and assign the counter
where the source does. Every error of this file is `VerificationError::internal(reason)` and is its `reason`.
A decoder that walks a slice with an offset takes the rest of the slice here; the loop over the objects of a
response has the response's length as fuel. The 3DES-CBC transformation itself is foreign code (`TdesCbc`); its
parameter checks are not.
-/

namespace MartyCore.ChipIo

open Exec Method

/-! ## 3DES-CBC -/

/-- The `cbc` and `des` crates on valid parameters: key, IV and data to data. -/
structure TdesCbc where
  encrypt : Bytes → Bytes → Bytes → Bytes
  decrypt : Bytes → Bytes → Bytes → Bytes

/-- The errors are `CryptoError::internal`, in their display form. -/
def validateTdesParams (key iv data : Bytes) : Exec String Unit := do
  reject (key.length ≠ 24) "Internal error: 3DES requires 24-byte (192-bit) key"
  reject (iv.length ≠ 8) "Internal error: 3DES-CBC requires 8-byte IV"
  reject (data = [] ∨ data.length % 8 ≠ 0)
    "Internal error: 3DES-CBC data must be a non-empty multiple of 8 bytes"

variable (cipher : TdesCbc)

def tdesCbcEncrypt (key iv plaintext : Bytes) : Exec String Bytes := do
  validateTdesParams key iv plaintext
  .ok (cipher.encrypt key iv plaintext)

def tdesCbcDecrypt (key iv ciphertext : Bytes) : Exec String Bytes := do
  validateTdesParams key iv ciphertext
  .ok (cipher.decrypt key iv ciphertext)

/-- `K1‖K2‖K1`. -/
def extendTo24Bytes (key16 : Block 16) : Bytes :=
  key16.bytes.take 8 ++ key16.bytes.drop 8 ++ key16.bytes.take 8

/-- `K‖K‖K`, under which 3DES is single DES. -/
def extendSingleDes (k8 : Bytes) : Bytes := k8 ++ k8 ++ k8

def icao3desCbcIv : Bytes := List.replicate 8 0

/-! ## Padding -/

/-- The loop that pushes zeros up to the block boundary; seven are always enough. -/
def zeroFill : Nat → Bytes → Bytes
  | 0, padded => padded
  | fuel + 1, padded => if padded.length % 8 = 0 then padded else zeroFill fuel (padded ++ [0x00])

def iso7816Pad (data : Bytes) : Bytes := zeroFill 7 (data ++ [0x80])

/-- The loop from the last byte: zeros up to the `0x80`. -/
def unpadLoop : Bytes → Option Bytes
  | [] => none
  | b :: rest => if b = 0x80 then some rest else if b ≠ 0x00 then none else unpadLoop rest

def iso7816Unpad (data : Bytes) : Exec String Bytes :=
  orFail "SM: invalid ISO 7816-4 padding" ((unpadLoop data.reverse).map List.reverse)

/-! ## Retail MAC -/

/-- `cbc[cbc.len() - 8..]` copied into eight bytes. -/
def lastEight (cbc : Bytes) : Exec String Bytes :=
  if cbc.length < 8 then .error (.panic "attempt to subtract with overflow")
  else .ok (cbc.drop (cbc.length - 8))

/-- `final_mac[..8]`. -/
def firstEight (finalMac : Bytes) : Exec String Bytes :=
  if finalMac.length < 8 then .error (.panic "range end index 8 out of range for slice")
  else .ok (finalMac.take 8)

/-- The CBC-MAC of all blocks but the last, under single DES. -/
def macIntermediate (key16 : Block 16) (padded : Bytes) (n : Nat) : Exec String Bytes :=
  if n > 1 then do
    let cbc ← mapErr (fun e => "Retail-MAC single-DES: " ++ e)
      (tdesCbcEncrypt cipher (extendSingleDes (key16.bytes.take 8)) icao3desCbcIv
        (padded.take ((n - 1) * 8)))
    lastEight cbc
  else .ok icao3desCbcIv

def retailMac3des (key16 : Block 16) (data : Bytes) : Exec String Bytes := do
  let padded := iso7816Pad data
  let n := padded.length / 8
  let intermediate ← macIntermediate cipher key16 padded n
  -- `padded` is never empty, so `n - 1` does not underflow
  let lastBlock := padded.drop ((n - 1) * 8)
  let xored := List.zipWith (fun a b => a ^^^ b) intermediate lastBlock
  let finalMac ← mapErr (fun e => "Retail-MAC 3DES: " ++ e)
    (tdesCbcEncrypt cipher (extendTo24Bytes key16) icao3desCbcIv xored)
  firstEight finalMac

def constantTimeEq (a b : Bytes) : Bool :=
  if a.length ≠ b.length then false
  else (List.zipWith (fun x y => x ^^^ y) a b).foldl (fun diff d => diff ||| d) 0 == 0

/-! ## BER-TLV -/

structure BerTlv where
  tag : UInt8
  encoded : Bytes
  value : Bytes
deriving DecidableEq

/-- The length field after the tag: how long the header is and how long the value. -/
def berLength (data : Bytes) (context : String) : Exec String (Nat × Nat) := do
  let firstLength ← orFail (context ++ ": malformed BER-TLV") data[1]?
  if firstLength ≤ 0x7f then .ok (2, firstLength.toNat)
  else if firstLength = 0x81 then do
    let value ← orFail (context ++ ": malformed BER-TLV") data[2]?
    reject (value.toNat < 0x80) (context ++ ": non-canonical BER-TLV length")
    .ok (3, value.toNat)
  else if firstLength = 0x82 then do
    let high ← orFail (context ++ ": malformed BER-TLV") data[2]?
    let low ← orFail (context ++ ": malformed BER-TLV") data[3]?
    reject (high.toNat * 256 + low.toNat ≤ 0xff) (context ++ ": non-canonical BER-TLV length")
    .ok (4, high.toNat * 256 + low.toNat)
  else fail (context ++ ": unsupported BER-TLV length")

/-- `data` is the slice from the offset on; the result carries the slice after the object. -/
def nextBerTlv (data : Bytes) (context : String) : Exec String (BerTlv × Bytes) := do
  let tag ← orFail (context ++ ": malformed BER-TLV") data[0]?
  let lengths ← berLength data context
  let stop := lengths.1 + lengths.2
  reject (data.length < stop) (context ++ ": malformed BER-TLV")
  .ok (⟨tag, data.take stop, (data.take stop).drop lengths.1⟩, data.drop stop)

def pushBerTlv (tag : UInt8) (value output : Bytes) : Exec String Bytes :=
  if value.length ≤ 0x7f then .ok (output ++ [tag] ++ [UInt8.ofNat value.length] ++ value)
  else if value.length ≤ 0xff then .ok (output ++ [tag] ++ [0x81, UInt8.ofNat value.length] ++ value)
  else if value.length ≤ 0xffff then
    .ok (output ++ [tag] ++ [0x82, UInt8.ofNat (value.length / 256), UInt8.ofNat (value.length % 256)]
      ++ value)
  else fail "Secure-messaging TLV value is too large"

/-! ## The session -/

structure ApduCommand where
  cla : UInt8
  ins : UInt8
  p1 : UInt8
  p2 : UInt8
  data : Bytes
  le : Option Nat
deriving DecidableEq

structure ApduResponse where
  data : Bytes
  sw1 : UInt8
  sw2 : UInt8
deriving DecidableEq

structure BacSession where
  kEnc : Block 16
  kMac : Block 16
  ssc : Block 8
deriving DecidableEq

def maxApduDataBytes : Nat := 65535
def maxBacCommandDataBytes : Nat := 65511
def maxBacProtectedResponseBytes : Nat := maxApduDataBytes

/-- The next counter, without wraparound. -/
def checkedNextSsc (ssc : Block 8) : Exec String (Block 8) :=
  orFail "BAC secure-messaging counter exhausted" ssc.increment

/-- DO'87 of a command, empty when it has no data. -/
def commandDo87 (kEnc : Block 16) (data : Bytes) : Exec String Bytes :=
  if data = [] then .ok []
  else do
    let enc ← mapErr (fun e => "SM encrypt: " ++ e)
      (tdesCbcEncrypt cipher (extendTo24Bytes kEnc) icao3desCbcIv (iso7816Pad data))
    pushBerTlv 0x87 (0x01 :: enc) []

/-- DO'97 of a command, empty when it has no Le. -/
def commandDo97 (le : Option Nat) : Bytes :=
  match le with
  | some le => [0x97, 0x01, if le = 256 then 0 else UInt8.ofNat le]
  | none => []

def protectCommand (cmd : ApduCommand) : Method BacSession String ApduCommand := do
  let self ← get
  call (reject (cmd.data.length > maxBacCommandDataBytes)
    ("BAC SM command data exceeds " ++ toString maxBacCommandDataBytes ++ " bytes"))
  call (reject (cmd.le.any (fun le => decide (le > 256)) = true)
    "BAC SM supports only short-form Le values up to 256")
  -- computed here, stored only after the last check
  let nextSsc ← call (checkedNextSsc self.ssc)
  let do87 ← call (commandDo87 cipher self.kEnc cmd.data)
  let do97 := commandDo97 cmd.le
  let maskedHeader : Bytes := [cmd.cla ||| 0x0C, cmd.ins, cmd.p1, cmd.p2, 0x80, 0x00, 0x00, 0x00]
  let mac ← call
    (retailMac3des cipher self.kMac (nextSsc.bytes ++ (maskedHeader ++ do87 ++ do97)))
  let smData := do87 ++ do97 ++ [0x8E, 0x08] ++ mac
  call (reject (smData.length > maxApduDataBytes)
    "BAC SM protected command exceeds extended APDU capacity")
  set { self with ssc := nextSsc }
  pure { cla := cmd.cla ||| 0x0C, ins := cmd.ins, p1 := cmd.p1, p2 := cmd.p2, data := smData, le := some 0 }

/-- What the loop over a response's objects has found. -/
structure SmObjects where
  receivedMac : Option Bytes
  do87Bytes : Option Bytes
  encryptedData : Option Bytes
  do99Bytes : Option Bytes
  status : Option (UInt8 × UInt8)
deriving DecidableEq

def SmObjects.empty : SmObjects := ⟨none, none, none, none, none⟩

/-- One object: each kind at most once, of its own shape, and no other kind. -/
def absorbObject (objects : SmObjects) (tlv : BerTlv) : Exec String SmObjects :=
  if tlv.tag = 0x87 then
    if objects.do87Bytes.isSome = true ∨ tlv.value.head? ≠ some 0x01 ∨ tlv.value.length ≤ 1 ∨
        (tlv.value.length - 1) % 8 ≠ 0 then
      fail "BAC SM: malformed protected response"
    else .ok { objects with do87Bytes := some tlv.encoded, encryptedData := some (tlv.value.drop 1) }
  else if tlv.tag = 0x99 ∧ tlv.value.length = 2 ∧ objects.do99Bytes = none then
    .ok { objects with
          do99Bytes := some tlv.encoded
          status := some (tlv.value[0]?.getD 0, tlv.value[1]?.getD 0) }
  else if tlv.tag = 0x8E ∧ tlv.value.length = 8 ∧ objects.receivedMac = none then
    .ok { objects with receivedMac := some tlv.value }
  else fail "BAC SM: malformed protected response"

/-- The `while` loop of `unprotect_response`. -/
def objectLoop : Nat → Bytes → SmObjects → Exec String SmObjects
  | _, [], objects => .ok objects
  | 0, _ :: _, _ => .error .fuel
  | fuel + 1, data, objects => do
    let next ← nextBerTlv data "BAC SM"
    let objects ← absorbObject objects next.1
    objectLoop fuel next.2 objects

/-- The plaintext of DO'87, empty when there is none. -/
def decryptObject (kEnc : Block 16) (encryptedData : Option Bytes) : Exec String Bytes :=
  match encryptedData with
  | none => .ok []
  | some ciphertext => do
    let decrypted ← mapErr (fun e => "SM decrypt: " ++ e)
      (tdesCbcDecrypt cipher (extendTo24Bytes kEnc) icao3desCbcIv ciphertext)
    iso7816Unpad decrypted

def unprotectResponse (resp : ApduResponse) : Method BacSession String ApduResponse := do
  let self ← get
  call (reject (resp.data.length > maxBacProtectedResponseBytes)
    ("BAC SM protected response exceeds " ++ toString maxBacProtectedResponseBytes ++ " bytes"))
  let nextSsc ← call (checkedNextSsc self.ssc)
  let objects ← call (objectLoop resp.data.length resp.data SmObjects.empty)
  let do99Bytes ← call
    (orFail "BAC SM: protected response missing DO99 or DO8E" objects.do99Bytes)
  let receivedMac ← call
    (orFail "BAC SM: protected response missing DO99 or DO8E" objects.receivedMac)
  let expected ← call
    (retailMac3des cipher self.kMac (nextSsc.bytes ++ (objects.do87Bytes.getD [] ++ do99Bytes)))
  call (reject (constantTimeEq expected receivedMac = false)
    "BAC SM: response MAC verification failed")
  -- nothing is decrypted before the MAC is verified
  let plainData ← call (decryptObject cipher self.kEnc objects.encryptedData)
  let status ← call (orFail "BAC SM: protected response missing DO99" objects.status)
  set { self with ssc := nextSsc }
  -- the status word is that of DO'99; `resp.sw1` and `resp.sw2` are not read
  pure { data := plainData, sw1 := status.1, sw2 := status.2 }

end MartyCore.ChipIo
