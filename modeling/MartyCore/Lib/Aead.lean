import MartyCore.Lib.Bytes

/-!
# `Lib.Aead` — authenticated encryption, and the ideal of it

A cipher is a pair of functions. No fixed pair of functions is unforgeable, so the ideal cipher decrypts relative to what
has been encrypted so far: it accepts exactly the ciphertexts that came out of a call of `encrypt` with the same key, nonce
and associated data, and returns the plaintext that went in. Every injective encryption has such an ideal
(`Ideal.ofInjective`).
-/

namespace MartyCore.Aead

variable {ε : Type}

/-- `encrypt key nonce plaintext aad` and `decrypt key nonce ciphertext aad`. -/
structure Cipher (ε : Type) where
  encrypt : Bytes → Bytes → Bytes → Bytes → Except ε Bytes
  decrypt : Bytes → Bytes → Bytes → Bytes → Except ε Bytes

/-- A call of `encrypt` that has returned a ciphertext. -/
structure Sealed where
  key : Bytes
  nonce : Bytes
  aad : Bytes
  plaintext : Bytes
  ciphertext : Bytes
deriving DecidableEq

/-- What is on record really happened. -/
def Genuine (encrypt : Bytes → Bytes → Bytes → Bytes → Except ε Bytes) (log : List Sealed) : Prop :=
  ∀ e ∈ log, encrypt e.key e.nonce e.plaintext e.aad = .ok e.ciphertext

structure Ideal (ε : Type) where
  encrypt : Bytes → Bytes → Bytes → Bytes → Except ε Bytes
  decrypt : List Sealed → Bytes → Bytes → Bytes → Bytes → Except ε Bytes
  decrypt_ok_iff : ∀ {log : List Sealed}, Genuine encrypt log → ∀ {key nonce ciphertext aad plaintext : Bytes},
    decrypt log key nonce ciphertext aad = .ok plaintext ↔ ⟨key, nonce, aad, plaintext, ciphertext⟩ ∈ log

/-- The cipher after these calls. -/
def Ideal.cipher (ideal : Ideal ε) (log : List Sealed) : Cipher ε := ⟨ideal.encrypt, ideal.decrypt log⟩

/-- The ideal of an encryption from whose ciphertexts the plaintexts can be told. -/
def Ideal.ofInjective (encrypt : Bytes → Bytes → Bytes → Bytes → Except ε Bytes) (failure : ε)
    (hinjective : ∀ {key nonce aad p p' c : Bytes}, encrypt key nonce p aad = .ok c → encrypt key nonce p' aad = .ok c →
      p = p') : Ideal ε where
  encrypt := encrypt
  decrypt log key nonce ciphertext aad :=
    match log.find? (fun e => e.key = key ∧ e.nonce = nonce ∧ e.aad = aad ∧ e.ciphertext = ciphertext) with
    | some e => .ok e.plaintext
    | none => .error failure
  decrypt_ok_iff := by
    intro log hlog key nonce ciphertext aad plaintext
    cases hfind : log.find? (fun e => e.key = key ∧ e.nonce = nonce ∧ e.aad = aad ∧ e.ciphertext = ciphertext) with
    | none =>
      have hnone := List.find?_eq_none.mp hfind
      constructor
      · intro h
        cases h
      · intro hmem
        exact absurd (by simp) (hnone _ hmem)
    | some e =>
      have hmem := List.mem_of_find?_eq_some hfind
      have hmatch := List.find?_some hfind
      simp only [decide_eq_true_eq] at hmatch
      obtain ⟨rfl, rfl, rfl, rfl⟩ := hmatch
      constructor
      · intro h
        cases h
        exact hmem
      · intro hother
        exact congrArg Except.ok (hinjective (hlog _ hmem) (hlog _ hother))

end MartyCore.Aead
