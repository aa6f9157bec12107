import MartyCore.Lib.Str

/-!
# `Crypto.Iso9796` — scheme 1 of ISO 9796-2

A signature of this scheme opens to a block with the message in it, `6A || BB … BB || 00 || M || BC`. The reader finds
the message by its padding: it skips the separator only where it skipped a padding byte. So a message that fills the
block to the last byte comes back with the separator as its first byte, and is not the message that was signed.
-/

namespace MartyCore.Iso9796

open Exec

/-- A key that was loaded: the length of its modulus, and what a signature opens to. -/
structure RsaPublicKey where
  /-- `n().bits().div_ceil(8)` -/
  size : Nat
  size_pos : 0 < size
  /-- `s.modpow(e, n)`, behind zeroes to the length of the modulus. -/
  modpow : Bytes → Bytes
  length_modpow : ∀ signature, (modpow signature).length = size

/-- `while start < stop && encoded[start] == 0xBB { start += 1 }`. -/
def skipPadding (encoded : Bytes) (stop start : Nat) : Exec String Nat :=
  if start < stop then do
    let byte ← index encoded start
    if byte = 0xBB then skipPadding encoded stop (start + 1) else .ok start
  else .ok start
termination_by stop - start

def scheme1Message (encoded : Bytes) : Exec String Bytes := do
  let format := "Invalid Scheme 1 signature format"
  reject (encoded.length < 3) format
  let header ← index encoded 0
  reject (header ≠ 0x6A) format
  let trailer ← index encoded (encoded.length - 1)
  reject (trailer ≠ 0xBC) format
  let start ← skipPadding encoded (encoded.length - 1) 1
  reject (start > 1 ∧ encoded[start]? ≠ some 0) "Invalid Scheme 1 padding separator"
  slice encoded (if start > 1 then start + 1 else start) (encoded.length - 1)

def scheme1Verify (key : RsaPublicKey) (message signature : Bytes) : Exec String Bool :=
  if signature.length ≠ key.size then .ok false else do
    let padded := key.modpow signature
    let header ← index padded 0
    let trailer ← index padded (padded.length - 1)
    if header ≠ 0x6A ∨ trailer ≠ 0xBC then .ok false else do
      let recovered ← scheme1Message padded
      return decide (recovered = message)

/-- The block of a message for a key of `k` bytes. -/
def scheme1Block (k : Nat) (message : Bytes) : Bytes :=
  0x6A :: List.replicate (k - 3 - message.length) 0xBB ++ 0 :: message ++ [0xBC]

theorem skipPadding_eq {p start stop : Nat} {encoded post : Bytes} {byte : UInt8} (hbyte : byte ≠ 0xBB)
    (hstop : start + p < stop) (h : encoded.drop start = List.replicate p 0xBB ++ byte :: post) :
    skipPadding encoded stop start = .ok (start + p) := by
  induction p generalizing start with
  | zero =>
    rw [skipPadding, if_pos (by omega), index, ← List.head?_drop, h]
    exact if_neg hbyte
  | succ p ih =>
    have hrest : encoded.drop (start + 1) = List.replicate p 0xBB ++ byte :: post := by
      rw [← List.tail_drop, h]
      rfl
    rw [skipPadding, if_pos (by omega), index, ← List.head?_drop, h]
    show skipPadding encoded stop (start + 1) = _
    rw [ih (by omega) hrest, Nat.add_assoc, Nat.add_comm 1]

variable {k : Nat} {message : Bytes}

theorem length_scheme1Block (hfits : message.length + 3 ≤ k) : (scheme1Block k message).length = k := by
  simp [scheme1Block]
  omega

theorem index_trailer (hfits : message.length + 3 ≤ k) :
    (index (scheme1Block k message) (k - 1) : Exec String UInt8) = .ok 0xBC :=
  index_append (by simp; omega)

/-- Without a padding byte the separator is read for the first byte of the message. -/
theorem scheme1Message_block (hfits : message.length + 3 ≤ k) :
    scheme1Message (scheme1Block k message) = .ok (if message.length + 3 < k then message else 0 :: message) := by
  have hskip : skipPadding (scheme1Block k message) (k - 1) 1 = .ok (1 + (k - 3 - message.length)) :=
    @skipPadding_eq _ _ _ _ (message ++ [0xBC]) 0 (by decide) (by omega) (by simp [scheme1Block])
  have hseparator : (scheme1Block k message)[1 + (k - 3 - message.length)]? = some 0 := by
    simp [scheme1Block, Nat.add_comm 1]
  unfold scheme1Message
  rw [length_scheme1Block hfits, reject_neg_bind (by omega), show index _ 0 = .ok _ from rfl, Result.ok_bind,
    reject_neg_bind (by simp), index_trailer hfits, Result.ok_bind, reject_neg_bind (by simp), hskip, Result.ok_bind,
    reject_neg_bind (by simp [hseparator])]
  by_cases hpadded : message.length + 3 < k
  · rw [if_pos (by omega), if_pos hpadded, scheme1Block, List.append_cons _ 0]
    exact slice_append (by simp; omega) (by simp; omega)
  · rw [if_neg (by omega), if_neg hpadded, scheme1Block, show k - 3 - message.length = 0 by omega]
    show slice ([0x6A] ++ 0 :: message ++ [0xBC]) 1 (k - 1) = _
    exact slice_append rfl (by simp; omega)

theorem scheme1Verify_block {key : RsaPublicKey} {signature : Bytes} (hfits : message.length + 3 ≤ key.size)
    (hsize : signature.length = key.size) (hblock : key.modpow signature = scheme1Block key.size message) (given : Bytes) :
    scheme1Verify key given signature =
      .ok (decide ((if message.length + 3 < key.size then message else 0 :: message) = given)) := by
  rw [scheme1Verify, if_neg (not_not.mpr hsize), hblock]
  dsimp only
  rw [length_scheme1Block hfits, index_trailer hfits, scheme1Message_block hfits]
  rfl

/-- **A message comes back from its block exactly if a padding byte stands before it.** -/
theorem scheme1_recovers_padded (k : Nat) :
    (∀ message : Bytes, message.length + 3 ≤ k →
      (scheme1Message (scheme1Block k message) = .ok message ↔ message.length + 3 < k)) ∧
    (∀ message message' : Bytes, message.length + 3 ≤ k → message'.length + 3 ≤ k →
      scheme1Block k message = scheme1Block k message' → message = message') ∧
    ∀ (key : RsaPublicKey) (message signature : Bytes), key.size = k → signature.length = k → message.length + 3 ≤ k →
      key.modpow signature = scheme1Block k message →
        ((∀ given, scheme1Verify key given signature = .ok (decide (given = message))) ↔ message.length + 3 < k) := by
  refine ⟨?_, ?_, ?_⟩
  · intro message hfits
    rw [scheme1Message_block hfits, Except.ok.injEq]
    simp
  · intro message message' hfits hfits' hblock
    have hread := scheme1Message_block hfits
    rw [hblock, scheme1Message_block hfits', Except.ok.injEq] at hread
    have hlength := congrArg List.length hread
    split_ifs at hread hlength with hpadded' hpadded hpadded
    · exact hread.symm
    · rw [List.length_cons] at hlength
      omega
    · rw [List.length_cons] at hlength
      omega
    · exact (List.cons.inj hread).2.symm
  · rintro key message signature rfl hsize hfits hblock
    simp only [scheme1Verify_block hfits hsize hblock, Except.ok.injEq, decide_eq_decide]
    constructor
    · intro hall
      simpa using (hall message).mpr rfl
    · intro hpadded given
      rw [if_pos hpadded, eq_comm]

/-- The empty message fills a block of three bytes, and the separator comes back. -/
theorem scheme1_separator_recovered : scheme1Message (scheme1Block 3 []) = .ok [0] := by
  decide +kernel

end MartyCore.Iso9796
