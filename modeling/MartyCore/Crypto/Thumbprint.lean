import Mathlib.Algebra.Order.BigOperators.Group.List
import MartyCore.Lib.Base64
import MartyCore.Lib.Json

/-!
# `Crypto.Thumbprint` — what a JWK thumbprint identifies

`thumbprint` puts the required members of a key into a text by itself, between quotation marks and not escaped, and the
parser accepts every string for them. The text is the JSON text of the members just if they have no character that JSON
escapes, and then it fixes them. A quotation mark in a member can close it and open the next.
-/

namespace MartyCore

open Result

/-- The members that `thumbprint` reads. -/
structure Jwk where
  kty : Str
  (crv x y n e k : Option Str)
deriving DecidableEq

namespace Jwk

/-! ## Reading a key -/

variable {N : Type}

def maxPublicJwkJsonBytes : Nat := 64 * 1024

def boundedString : Json N → Except String Str
  | .str value => do
    reject (value.len > 16 * 1024) "JWK string member exceeds 16384 bytes"
    .ok value
  | _ => .error "expected a JWK string no larger than 16384 bytes"

def consume (amount remaining : Nat) : Except String Nat := do
  reject (amount > remaining) "JWK extensions exceed 65536 bytes"
  .ok (remaining - amount)

/-- `optional_string!`. -/
def optionalString (value : Json N) (remaining : Nat) : Except String (Option Str × Nat) :=
  match value with
  | .null => .ok (none, remaining)
  | value => do
    let text ← boundedString value
    let remaining ← consume text.len remaining
    .ok (some text, remaining)

def optionalMembers : List (String × (Jwk → Option Str → Jwk)) :=
  [("crv", fun jwk s => { jwk with crv := s }), ("x", fun jwk s => { jwk with x := s }),
    ("y", fun jwk s => { jwk with y := s }), ("n", fun jwk s => { jwk with n := s }),
    ("e", fun jwk s => { jwk with e := s })]

/-- A member that is not read here, as the private ones, is refused or taken from the budget. -/
abbrev OtherMembers (N : Type) := Str → Json N → Nat → Except String Nat

def visitMember (other : OtherMembers N) (jwk : Jwk) (key : Str) (value : Json N) (remaining : Nat) :
    Except String (Jwk × Nat) :=
  if key = "kty".toList then do
    let kty ← boundedString value
    let remaining ← consume kty.len remaining
    .ok ({ jwk with kty }, remaining)
  else
    match optionalMembers.lookup (String.ofList key) with
    | some set => do
      let result ← optionalString value remaining
      .ok (set jwk result.1, result.2)
    | none => do
      let remaining ← other key value remaining
      .ok (jwk, remaining)

def visitMap (other : OtherMembers N) (seen : List Str) (jwk : Jwk) (remaining : Nat) :
    List (Str × Json N) → Except String Jwk
  | [] => do
    reject ("kty".toList ∉ seen) "missing field kty"
    .ok jwk
  | (key, value) :: rest => do
    let key ← boundedString (.str key : Json N)
    reject (key ∈ seen) ("duplicate JWK member '" ++ String.ofList key ++ "'")
    let remaining ← consume key.len remaining
    let result ← visitMember other jwk key value remaining
    visitMap other (key :: seen) result.1 result.2 rest

/-- With the members of the object as the parser delivers them. -/
def fromJson (parse : Str → Except String (List (Str × Json N))) (other : OtherMembers N) (json : Str) :
    Except String Jwk := do
  reject (json.len > maxPublicJwkJsonBytes) "JWK JSON exceeds 65536 bytes"
  let members ← parse json
  visitMap other [] ⟨[], none, none, none, none, none, none⟩ maxPublicJwkJsonBytes members

/-! ## The thumbprint -/

/-- The required members of a key, in the order of their names. -/
def requiredMembers (jwk : Jwk) : Except String (List (String × Str)) :=
  match String.ofList jwk.kty with
  | "EC" => do
    let crv ← orFail "EC key missing crv" jwk.crv
    let x ← orFail "EC key missing x" jwk.x
    let y ← orFail "EC key missing y" jwk.y
    .ok [("crv", crv), ("kty", jwk.kty), ("x", x), ("y", y)]
  | "OKP" => do
    let crv ← orFail "OKP key missing crv" jwk.crv
    let x ← orFail "OKP key missing x" jwk.x
    .ok [("crv", crv), ("kty", jwk.kty), ("x", x)]
  | "RSA" => do
    let e ← orFail "RSA key missing e" jwk.e
    let n ← orFail "RSA key missing n" jwk.n
    .ok [("e", e), ("kty", jwk.kty), ("n", n)]
  | "oct" => do
    let k ← orFail "Symmetric key missing k" jwk.k
    .ok [("k", k), ("kty", jwk.kty)]
  | kty => .error ("Unsupported key type for thumbprint: " ++ kty)

/-- The text of `format!`; there is nothing to escape in the names. -/
def canonical (members : List (String × Str)) : Str :=
  '\x7b' :: (Code.joined ',' (members.map (fun m => Json.quote m.1.toList ++ ":\"".toList ++ m.2 ++ ['"'])) ++ ['\x7d'])

variable (sha256 : Bytes → Bytes)

def thumbprint (jwk : Jwk) : Except String Str := do
  let members ← jwk.requiredMembers
  .ok (Base64.encode (sha256 (canonical members).bytes))

/-- The names of the members that RFC 7638 requires of each type of key, in their order. -/
def rfc7638 : String → Option (List String)
  | "EC" => some ["crv", "kty", "x", "y"]
  | "OKP" => some ["crv", "kty", "x"]
  | "RSA" => some ["e", "kty", "n"]
  | "oct" => some ["k", "kty"]
  | _ => none

def member (jwk : Jwk) : String → Option Str
  | "kty" => some jwk.kty
  | "crv" => jwk.crv
  | "x" => jwk.x
  | "y" => jwk.y
  | "n" => jwk.n
  | "e" => jwk.e
  | "k" => jwk.k
  | _ => none

/-- The members of a key by these names. -/
def rfcMembers (jwk : Jwk) : Option (List (String × Str)) := do
  let names ← rfc7638 (String.ofList jwk.kty)
  names.mapM (fun name => (jwk.member name).map (Prod.mk name))

/-- JSON escapes no character of the text. -/
def Plain (s : Str) : Prop := ∀ c ∈ s, Json.escape c = [c]

/-- The members as a JSON object. -/
def object (members : List (String × Str)) : Json Nat := .obj (members.map (fun m => (m.1.toList, .str m.2)))

def rfcThumbprint (members : List (String × Str)) : Str :=
  Base64.encode (sha256 (Json.text Json.decimal.text (object members)).bytes)

variable {sha256} {members members' : List (String × Str)}

theorem canonical_of_plain (hplain : ∀ m ∈ members, Plain m.2) :
    canonical members = Json.text Json.decimal.text (object members) := by
  have hquote : ∀ s, Plain s → Json.quote s = '"' :: (s ++ ['"']) := by
    intro s hs
    rw [Json.quote, List.flatMap_congr hs, List.flatMap_singleton']
  rw [canonical, object, Json.text_obj, List.map_map]
  congr 3
  refine List.map_congr_left (fun m hm => ?_)
  simp [Json.memberText, Json.text, hquote m.2 (hplain m hm)]

theorem length_lt_of_not_plain {s : Str} (h : ¬ Plain s) : s.length < (s.flatMap Json.escape).length := by
  have hlength (c : Char) : 1 ≤ (Json.escape c).length ∧ (Json.escape c ≠ [c] → 1 < (Json.escape c).length) := by
    unfold Json.escape
    split_ifs <;> simp
  obtain ⟨c, hc, hne⟩ : ∃ c ∈ s, Json.escape c ≠ [c] := by simpa [Plain] using h
  simpa using List.sum_lt_sum (fun _ => 1) (fun c => (Json.escape c).length) (fun c _ => (hlength c).1)
    ⟨c, hc, (hlength c).2 hne⟩

theorem length_joined {sep : Char} (parts : List Str) :
    (Code.joined sep parts).length = (parts.map (fun part => part.length + 1)).sum - 1 := by
  cases parts with
  | nil => rfl
  | cons part rest => simp [Code.joined, List.length_flatMap]

/-- Escapes make the text longer. -/
theorem plain_of_canonical (h : canonical members = Json.text Json.decimal.text (object members)) :
    ∀ m ∈ members, Plain m.2 := by
  by_contra! hnot
  obtain ⟨m, hm, hplain⟩ := hnot
  have hle (s : Str) : s.length ≤ (s.flatMap Json.escape).length := by
    by_cases hs : Plain s
    · rw [List.flatMap_congr hs, List.flatMap_singleton']
    · exact (length_lt_of_not_plain hs).le
  have hlt := List.sum_lt_sum (fun m : String × Str => (Json.quote m.1.toList).length + m.2.length + 4)
    (fun m => (Json.quote m.1.toList).length + (m.2.flatMap Json.escape).length + 4)
    (fun m _ => by simpa using hle m.2) ⟨m, hm, by simpa using length_lt_of_not_plain hplain⟩
  have hlength := congrArg List.length h
  have := List.length_pos_of_mem hm
  simp [canonical, object, Json.text_obj, length_joined, Json.memberText, Json.text, Function.comp_def, Json.quote]
    at hlength hlt
  omega

theorem rfcMembers_eq_some_iff {jwk : Jwk} : jwk.rfcMembers = some members ↔ jwk.requiredMembers = .ok members := by
  unfold rfcMembers requiredMembers
  split <;> simp [*, rfc7638, member, Option.bind_eq_some_iff, bind_ok_iff, orFail_ok_iff]

theorem object_injective (h : object members = object members') : members = members' := by
  refine List.map_injective_iff.mpr ?_ (Json.obj.inj h)
  intro m m' hm
  simpa [Prod.ext_iff, String.toList_inj] using hm

theorem thumbprint_eq_iff {jwk : Jwk} {text : Str} (hsha256 : Function.Injective sha256)
    (hmembers : jwk.rfcMembers = some members) :
    jwk.thumbprint sha256 = .ok (Base64.encode (sha256 text.bytes)) ↔ canonical members = text := by
  rw [thumbprint, rfcMembers_eq_some_iff.mp hmembers, ok_bind, Except.ok.injEq]
  exact ⟨fun h => Str.bytes_injective (hsha256 (Base64.encode_injective h)), fun h => by rw [h]⟩

/-- **Thumbprints are those of RFC 7638, and identify the members it requires, just for members that need no escapes.** -/
theorem thumbprint_identifies_iff {jwk jwk' : Jwk} (hsha256 : Function.Injective sha256)
    (hmembers : jwk.rfcMembers = some members) (hmembers' : jwk'.rfcMembers = some members') :
    (jwk.thumbprint sha256 = .ok (rfcThumbprint sha256 members) ∧
      jwk'.thumbprint sha256 = .ok (rfcThumbprint sha256 members') ∧
      (jwk.thumbprint sha256 = jwk'.thumbprint sha256 ↔ members = members')) ↔
    (∀ m ∈ members, Plain m.2) ∧ ∀ m ∈ members', Plain m.2 := by
  constructor
  · rintro ⟨h, h', -⟩
    exact ⟨plain_of_canonical ((thumbprint_eq_iff hsha256 hmembers).mp h),
      plain_of_canonical ((thumbprint_eq_iff hsha256 hmembers').mp h')⟩
  · rintro ⟨hplain, hplain'⟩
    have h' := (thumbprint_eq_iff hsha256 hmembers').mpr (canonical_of_plain hplain')
    refine ⟨(thumbprint_eq_iff hsha256 hmembers).mpr (canonical_of_plain hplain), h', ?_⟩
    rw [h', thumbprint_eq_iff hsha256 hmembers, canonical_of_plain hplain]
    exact ⟨fun h => object_injective (Json.text_injective Json.decimal h), fun h => by rw [h]⟩

def ecKey (x y : String) : Jwk := ⟨"EC".toList, some "P-256".toList, some x.toList, some y.toList, none, none, none⟩

theorem thumbprint_identifies_iff_ec : (ecKey "a" "b").thumbprint id ≠ (ecKey "a" "c").thumbprint id :=
  mt ((thumbprint_identifies_iff Function.injective_id rfl rfl).mpr (by unfold Plain; decide)).2.2.mp (by decide)

/-- An EC key with these coordinates is read. -/
def Reads (x y : String) : Prop :=
  let members := [("kty", "EC"), ("crv", "P-256"), ("x", x), ("y", y)].map (fun m => (m.1.toList, .str m.2.toList))
  fromJson (fun _ => .ok members) (fun _ _ => .ok) (Json.text Json.decimal.text (.obj members)) = .ok (ecKey x y)

/-- Quotation marks move the end of `x`, and the thumbprint stays. -/
theorem thumbprint_collides : Reads "a\",\"y\":\"b" "c" ∧ Reads "a" "b\",\"y\":\"c" ∧
    (ecKey "a\",\"y\":\"b" "c").thumbprint id = (ecKey "a" "b\",\"y\":\"c").thumbprint id := by
  unfold Reads
  decide

end Jwk
end MartyCore
