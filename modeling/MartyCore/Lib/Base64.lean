import MartyCore.Lib.Str

/-!
# `Lib.Base64` — the URL-safe alphabet without padding, and the standard one with padding

Three bytes are four digits of six bits. A last group of one or two bytes has two or three digits, and the bits of
its last digit that belong to no byte are zero; the decoder refuses a text where they are not, so every byte string
has one text (`decode_encode`).

The standard text has `+` and `/` for the last two digits and is filled up with `=` to a multiple of four characters,
no more and no less (`decodeStandard_encodeStandard`).
-/

namespace MartyCore.Base64

open List

/-- The digits `A`–`Z`, `a`–`z`, `0`–`9`, `-` and `_`. -/
def digit (n : Nat) : Char :=
  if n < 26 then Char.ofNat (65 + n)
  else if n < 52 then Char.ofNat (97 + (n - 26))
  else if n < 62 then Char.ofNat (48 + (n - 52))
  else if n = 62 then '-'
  else '_'

def value (c : Char) : Option Nat :=
  if c.isUpper then some (c.toNat - 65)
  else if c.isLower then some (c.toNat - 97 + 26)
  else if c.isDigit then some (c.toNat - 48 + 52)
  else if c = '-' then some 62
  else if c = '_' then some 63
  else none

theorem value_digit {n : Nat} (h : n < 64) : value (digit n) = some n := by
  have hall : ∀ m : Fin 64, value (digit m) = some m.val := by decide
  exact hall ⟨n, h⟩

/-- What holds of the 64 digits holds of every number's: a number that is too large has the last digit. -/
theorem forall_digit {P : Char → Prop} (h : ∀ m : Fin 64, P (digit m)) (n : Nat) : P (digit n) := by
  by_cases hn : n < 64
  · exact h ⟨n, hn⟩
  · have hlast : digit n = digit (63 : Fin 64) := by
      rw [digit, if_neg (by omega), if_neg (by omega), if_neg (by omega), if_neg (by omega)]
      rfl
    rw [hlast]
    exact h 63

def encode : Bytes → Str
  | a :: b :: c :: rest =>
    digit (a.toNat / 4) :: digit (a.toNat % 4 * 16 + b.toNat / 16) :: digit (b.toNat % 16 * 4 + c.toNat / 64) ::
      digit (c.toNat % 64) :: encode rest
  | [a, b] => [digit (a.toNat / 4), digit (a.toNat % 4 * 16 + b.toNat / 16), digit (b.toNat % 16 * 4)]
  | [a] => [digit (a.toNat / 4), digit (a.toNat % 4 * 16)]
  | [] => []

def decode : Str → Option Bytes
  | a :: b :: c :: d :: rest => do
    let w ← value a
    let x ← value b
    let y ← value c
    let z ← value d
    let bytes ← decode rest
    return UInt8.ofNat (w * 4 + x / 16) :: UInt8.ofNat (x % 16 * 16 + y / 4) :: UInt8.ofNat (y % 4 * 64 + z) :: bytes
  | [a, b, c] => do
    let w ← value a
    let x ← value b
    let y ← value c
    if y % 4 = 0 then return [UInt8.ofNat (w * 4 + x / 16), UInt8.ofNat (x % 16 * 16 + y / 4)] else none
  | [a, b] => do
    let w ← value a
    let x ← value b
    if x % 16 = 0 then return [UInt8.ofNat (w * 4 + x / 16)] else none
  | [_] => none
  | [] => some []

theorem ofNat_eq {n : Nat} {b : UInt8} (h : n = b.toNat) : UInt8.ofNat n = b := by
  rw [h, UInt8.ofNat_toNat]

variable (data : Bytes)

/-- **Decoding an encoded byte string gives it back.** -/
theorem decode_encode : decode (encode data) = some data := by
  fun_induction encode data with
  | case1 a b c rest ih =>
    have ha := a.toNat_lt
    have hb := b.toNat_lt
    have hc := c.toNat_lt
    simp only [decode]
    rw [value_digit (by omega), value_digit (by omega), value_digit (by omega), value_digit (by omega), ih]
    simp only [Option.bind_eq_bind, Option.bind_some, Option.pure_def]
    rw [ofNat_eq (b := a) (by omega), ofNat_eq (b := b) (by omega), ofNat_eq (b := c) (by omega)]
  | case2 a b =>
    have ha := a.toNat_lt
    have hb := b.toNat_lt
    simp only [decode]
    rw [value_digit (by omega), value_digit (by omega), value_digit (by omega)]
    simp only [Option.bind_eq_bind, Option.bind_some, Option.pure_def]
    rw [if_pos (by omega), ofNat_eq (b := a) (by omega), ofNat_eq (b := b) (by omega)]
  | case3 a =>
    have ha := a.toNat_lt
    simp only [decode]
    rw [value_digit (by omega), value_digit (by omega)]
    simp only [Option.bind_eq_bind, Option.bind_some, Option.pure_def]
    rw [if_pos (by omega), ofNat_eq (b := a) (by omega)]
  | case4 => rfl

theorem length_encode : (encode data).length = (4 * data.length + 2) / 3 := by
  fun_induction encode data with
  | case1 a b c rest ih =>
    simp only [length_cons, ih]
    omega
  | case2 a b | case3 a => simp
  | case4 => rfl

/-- The characters of an encoded text are digits. -/
theorem forall_mem_encode {P : Char → Prop} (h : ∀ m : Fin 64, P (digit m)) (data : Bytes) : ∀ c ∈ encode data, P c := by
  have hdigit := forall_digit h
  fun_induction encode data with
  | case1 a b c rest ih => simpa [hdigit] using ih
  | case2 a b | case3 a => simp [hdigit]
  | case4 => simp

theorem encode_isAscii : (encode data).all Text.isAscii = true :=
  all_eq_true.mpr (forall_mem_encode (by decide) data)

/-- A character that is no digit is in no encoded text. -/
theorem not_mem_encode {c : Char} (h : value c = none) (data : Bytes) : c ∉ encode data := by
  intro hc
  have hsome := forall_mem_encode (P := fun c => (value c).isSome = true) (by decide) data c hc
  rw [h] at hsome
  cases hsome

theorem encode_injective {a b : Bytes} (h : encode a = encode b) : a = b := by
  have hdecode := decode_encode a
  rw [h, decode_encode] at hdecode
  exact (Option.some.inj hdecode).symm

/-! ## The standard alphabet -/

/-- From one alphabet to the other. -/
def swapDigit (c : Char) : Char :=
  if c = '-' then '+' else if c = '+' then '-' else if c = '_' then '/' else if c = '/' then '_' else c

theorem swapDigit_swapDigit (c : Char) : swapDigit (swapDigit c) = c := by
  unfold swapDigit
  split_ifs <;> simp_all

def encodeStandard (data : Bytes) : Str :=
  (encode data).map swapDigit ++ List.replicate ((4 - (encode data).length % 4) % 4) '='

/-- At most two fillers are taken off; another one is no digit. -/
def stripPadding (s : Str) : Str :=
  match s.reverse with
  | '=' :: '=' :: rest => rest.reverse
  | '=' :: rest => rest.reverse
  | _ => s

def decodeStandard (s : Str) : Option Bytes :=
  if s.length % 4 = 0 then decode ((stripPadding s).map swapDigit) else none

theorem encode_ne_filler : ∀ c ∈ (encode data).map swapDigit, c ≠ '=' := by
  intro c hc
  obtain ⟨d, hd, rfl⟩ := mem_map.mp hc
  exact forall_mem_encode (P := fun c => swapDigit c ≠ '=') (by decide) data d hd

theorem stripPadding_append {body : Str} (hbody : ∀ c ∈ body, c ≠ '=') {n : Nat} (hn : n ≤ 2) :
    stripPadding (body ++ List.replicate n '=') = body := by
  have hlast : ∀ c ∈ body.reverse, c ≠ '=' := by simpa using hbody
  unfold stripPadding
  match n, hn with
  | 0, _ =>
    simp only [replicate_zero, append_nil]
    cases hrev : body.reverse with
    | nil => rfl
    | cons c rest =>
      split <;> simp_all
  | 1, _ =>
    simp only [replicate_one, reverse_append, reverse_singleton, singleton_append]
    cases hrev : body.reverse with
    | nil => simp_all
    | cons c rest =>
      split
      · simp_all
      · rename_i heq
        simp only [List.cons.injEq, true_and] at heq
        rw [← heq, ← hrev, reverse_reverse]
      · simp_all
  | 2, _ => simp [List.replicate]

/-- **Decoding an encoded byte string gives it back.** -/
theorem decodeStandard_encodeStandard : decodeStandard (encodeStandard data) = some data := by
  have hlength := length_encode data
  -- a text is never one digit longer than a multiple of four
  have hfill : (4 - (encode data).length % 4) % 4 ≤ 2 := by omega
  have hwhole : (encodeStandard data).length % 4 = 0 := by
    rw [encodeStandard, length_append, length_map, length_replicate]
    omega
  rw [decodeStandard, if_pos hwhole, encodeStandard, stripPadding_append (encode_ne_filler data) hfill, map_map]
  have hback : swapDigit ∘ swapDigit = id := funext swapDigit_swapDigit
  rw [hback, map_id, decode_encode]

end MartyCore.Base64
