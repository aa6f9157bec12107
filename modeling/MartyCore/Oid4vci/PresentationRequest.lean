import MartyCore.Oid4vci.Types

/-!
# `Oid4vci.PresentationRequest` — the ids of the claims in a DCQL query

The claims of a requirement have distinct names, and a claim's id is its name with `-` and `.` written as `_`. So the
ids are distinct as long as no two of the listed names differ in their separators only.
-/

namespace MartyCore.Oid4vci
namespace PresentationRequest

open Result List

structure RequestedClaimInput where
  claimName : Str
  displayName : Option Str
  purpose : Option Str
  required : Bool
  intentToRetain : Bool

inductive FormatFamily where
  | sdJwt | mdoc | jwtVc | ldpVc
deriving DecidableEq

/-- A member of `claims`; `intent_to_retain` is written for mDoc claims only. -/
structure DcqlClaim where
  id : Str
  path : List Str
  intentToRetain : Option Bool
deriving DecidableEq

def configError (message : Str) : Oid4vciError := .configError (String.ofList message)

def validateText (label : String) (value : Str) : Except Oid4vciError Unit := do
  reject (value.trim = []) (.configError (label ++ " must not be empty"))
  reject (value.len > 2048) (.configError (label ++ " exceeds 2048 bytes"))

def validateClaimName (value : Str) : Except Oid4vciError Unit := do
  validateText "claim name" value
  reject (¬ value.all (fun c => c.isAlphanum || c ∈ ['_', '-', '.'])) (configError ("invalid claim name: ".toList ++ value))

/-- The loop, with the names of the claims before. -/
def validateRequestedClaims (seen : List Str) : List RequestedClaimInput → Except Oid4vciError (List RequestedClaimInput)
  | [] => .ok []
  | claim :: rest => do
    validateClaimName claim.claimName
    reject (claim.claimName ∈ seen) (configError ("duplicate requested claim: ".toList ++ claim.claimName))
    claim.displayName.forM (validateText "claim display name")
    claim.purpose.forM (validateText "claim purpose")
    let result ← validateRequestedClaims (claim.claimName :: seen) rest
    .ok (claim :: result)

def claimId (value : Str) : Str := "claim_".toList ++ value.map (fun c => if c = '-' ∨ c = '.' then '_' else c)

def dcqlClaims (family : FormatFamily) (claims : List RequestedClaimInput) (mdocMappings : Str → Option (Str × Str))
    (descriptorId : Str) : Except Oid4vciError (List DcqlClaim) :=
  if family = .mdoc then claims.mapM (fun claim => do
    let mapping ← orFail (configError ("descriptor ".toList ++ descriptorId ++
      " is missing the mDoc mapping for ".toList ++ claim.claimName)) (mdocMappings claim.claimName)
    .ok ⟨claimId claim.claimName, [mapping.1, mapping.2], some claim.intentToRetain⟩)
  else .ok ((claims.filter (fun claim => !claims.any RequestedClaimInput.required || claim.required)).map
    (fun claim => ⟨claimId claim.claimName, [claim.claimName], none⟩))

/-- The names of the claims a query lists: for mDoc all, otherwise the required ones, or all if none is required. -/
def listed (family : FormatFamily) (claims : List RequestedClaimInput) : List Str :=
  (claims.filter (fun claim => family = .mdoc || !claims.any RequestedClaimInput.required || claim.required)).map
    RequestedClaimInput.claimName

/-- Names that differ in their separators only. -/
def Alike : Str → Str → Prop := List.Forall₂ (fun c d => c = d ∨ c ∈ ['_', '-', '.'] ∧ d ∈ ['_', '-', '.'])

theorem claimId_eq_iff {a b : Str} : claimId a = claimId b ↔ Alike a b := by
  unfold claimId
  rw [append_cancel_left_eq, ← forall₂_eq_eq_eq, forall₂_map_left_iff, forall₂_map_right_iff]
  have hchar : ∀ c d : Char, ((if c = '-' ∨ c = '.' then '_' else c) = if d = '-' ∨ d = '.' then '_' else d) ↔
      c = d ∨ c ∈ ['_', '-', '.'] ∧ d ∈ ['_', '-', '.'] := by
    intro c d
    simp only [mem_cons, not_mem_nil, or_false]
    split_ifs with hc hd hd <;> grind
  exact ⟨fun h => h.imp (fun c d => (hchar c d).mp), fun h => h.imp (fun c d => (hchar c d).mpr)⟩

variable {claims accepted : List RequestedClaimInput}

theorem validateRequestedClaims_ok {seen : List Str} (h : validateRequestedClaims seen claims = .ok accepted) :
    accepted = claims ∧ (claims.map RequestedClaimInput.claimName).Nodup ∧
      ∀ name ∈ claims.map RequestedClaimInput.claimName, name ∉ seen := by
  induction claims generalizing seen accepted with
  | nil =>
    cases h
    simp
  | cons claim rest ih =>
    obtain ⟨-, -, h⟩ := of_bind h
    obtain ⟨hnew, h⟩ := of_reject h
    obtain ⟨-, -, h⟩ := of_bind h
    obtain ⟨-, -, h⟩ := of_bind h
    obtain ⟨result, hresult, h⟩ := of_bind h
    cases h
    obtain ⟨rfl, hfresh⟩ := ih hresult
    exact ⟨rfl, nodup_fresh_cons_iff.mpr ⟨hnew, hfresh⟩⟩

variable {family : FormatFamily} {mdocMappings : Str → Option (Str × Str)} {descriptorId : Str} {entries : List DcqlClaim}

theorem ids_dcqlClaims (h : dcqlClaims family claims mdocMappings descriptorId = .ok entries) :
    entries.map DcqlClaim.id = (listed family claims).map claimId := by
  rw [listed, map_map]
  by_cases hmdoc : family = .mdoc
  · rw [dcqlClaims, if_pos hmdoc, mapM_ok_iff] at h
    simp only [hmdoc, decide_true, Bool.true_or, filter_true]
    symm
    rw [← forall₂_eq_eq_eq, forall₂_map_left_iff, forall₂_map_right_iff]
    refine h.imp (fun claim entry hentry => ?_)
    obtain ⟨mapping, -, hentry⟩ := of_bind hentry
    cases hentry
    rfl
  · rw [dcqlClaims, if_neg hmdoc] at h
    cases h
    simp [hmdoc, Function.comp_def]

/-- **The ids of the listed claims are distinct exactly if no two of the names differ in their separators only.** -/
theorem dcql_ids_distinct_iff (haccepted : validateRequestedClaims [] claims = .ok accepted)
    (hentries : dcqlClaims family accepted mdocMappings descriptorId = .ok entries) :
    (entries.map DcqlClaim.id).Nodup ↔ ∀ a ∈ listed family claims, ∀ b ∈ listed family claims, Alike a b → a = b := by
  obtain ⟨rfl, hnodup, -⟩ := validateRequestedClaims_ok haccepted
  have hlisted : (listed family accepted).Nodup := hnodup.sublist (filter_sublist.map _)
  simp only [ids_dcqlClaims hentries, nodup_map_iff_inj_on hlisted, claimId_eq_iff]

/-- A required claim of this name, without texts of its own. -/
def claimNamed (name : String) : RequestedClaimInput := ⟨name.toList, none, none, true, false⟩

theorem dcql_ids_distinct_iff_two : ∃ entries,
    dcqlClaims .sdJwt [claimNamed "a-b", claimNamed "a-c"] (fun _ => none) [] = .ok entries ∧
      (entries.map DcqlClaim.id).Nodup :=
  ⟨_, rfl, (@dcql_ids_distinct_iff [claimNamed "a-b", claimNamed "a-c"] _ .sdJwt (fun _ => none) [] _ rfl rfl).mpr
    (by simp [listed, claimNamed, Alike])⟩

/-- The names `a-b` and `a.b` are both accepted, and have one id. -/
theorem dcql_ids_collide :
    (validateRequestedClaims [] [claimNamed "a-b", claimNamed "a.b"] >>= fun claims =>
      dcqlClaims .sdJwt claims (fun _ => none) ['d']) =
    .ok [⟨"claim_a_b".toList, ["a-b".toList], none⟩, ⟨"claim_a_b".toList, ["a.b".toList], none⟩] := by
  decide

end PresentationRequest
end MartyCore.Oid4vci
