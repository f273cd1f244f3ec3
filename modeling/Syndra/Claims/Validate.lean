/-
What a saved profile passes.

Names are trimmed and defaults filled in before anything is checked. The checks stop at the
first failure and name its row.
-/

import Syndra.Claims.Token

namespace Syndra.Claims

open List Foundation.Text

def Lands.ofName (name : String) : Lands :=
  if name = "" ∨ name = "both" then .both
  else if name = "access_token" then .accessToken
  else if name = "userinfo" then .userinfo
  else .unknown name

def Lands.normalize : Lands → Lands
  | .unknown name => .ofName (trimSpace name)
  | lands => lands

def Claim.normalize (c : Claim) : Claim :=
  { c with
    path := c.path.map trimSpace
    format := if c.kind = .roles ∧ c.format = .unknown "" then .array else c.format }

def RoleMap.normalize (m : RoleMap) : RoleMap :=
  { m with key := trimSpace m.key, sentAs := trimSpace m.sentAs }

def Profile.normalize (p : Profile) : Profile :=
  { claims := p.claims.map Claim.normalize
    roles := p.roles.map RoleMap.normalize
    includeNew := p.includeNew
    lands := p.lands.normalize }

structure RowError where
  row : Option Nat
  msg : String
deriving DecidableEq

/-- What the host's library supplies: `%q`, and whether a text is JSON. -/
structure Host where
  quoted : String → String
  validJSON : String → Bool

def maxDepth : Nat := 4

def isKeyChar (char : Char) : Bool :=
  ('a' ≤ char && char ≤ 'z') || ('A' ≤ char && char ≤ 'Z') || ('0' ≤ char && char ≤ '9') ||
    char ∈ ['_','-','/',':','.']

def validClaimKey (key : String) : Bool :=
  key ≠ "" && byteLength key ≤ 128 && key.toList.all isKeyChar &&
    key.toList.head? ≠ some '.' && key.toList.getLast? ≠ some '.'

def zitadelOwns (key : String) : Bool :=
  key ∈ ["sub","aud","iss","exp","iat","nbf","jti","client_id"] ||
    "urn:zitadel:iam".toList.isPrefixOf key.toList

def pathKey (path : List String) : String := "\x00".intercalate path

section Checks

variable (host : Host)

def landsError : Lands → Option RowError
  | .unknown name =>
    some ⟨none,"lands must be both, access_token or userinfo (got " ++ host.quoted name ++ ")"⟩
  | _ => none

def roleErrors (seen : List String) : List RoleMap → Option RowError
  | [] => none
  | m :: rest =>
    if m.key = "" then some ⟨none,"a role needs its key"⟩
    else if m.key ∈ seen then some ⟨none,"role " ++ host.quoted m.key ++ " is listed twice"⟩
    else if 128 < byteLength m.sentAs ∨ m.sentAs.toList.any (·.toNat < 0x20) then
      some ⟨none,"the word for " ++ host.quoted m.key ++ " is not a usable value"⟩
    else roleErrors (m.key :: seen) rest

def validateKind (c : Claim) : Option String :=
  match c.kind with
  | .roles =>
    match c.format with
    | .unknown name =>
      some ("format must be array, csv or space_delimited (got " ++ host.quoted name ++ ")")
    | _ => none
  | .attribute =>
    match c.source with
    | .unknown name => some ("unknown source " ++ host.quoted name)
    | _ => none
  | .static =>
    let v := trimSpace (c.literal.getD "")
    if v = "" ∨ host.validJSON v = false ∨ v.toList.head? = some '{' ∨ v = "null" then
      some "a fixed value must be text, a number, yes/no or a list"
    else none
  | .ifRole => if c.roles = [] then some "choose at least one role" else none
  | .bundles | .roleEnds => none
  | .unknown name => some ("unknown kind " ++ host.quoted name)

def claimError (c : Claim) : Option String :=
  if c.path = [] ∨ maxDepth < c.path.length then
    some ("a claim needs a name, at most " ++ toString maxDepth ++ " levels deep")
  else
    match c.path.find? fun seg => !validClaimKey seg with
    | some seg => some (host.quoted seg ++ " is not a valid claim name")
    | none =>
      if zitadelOwns (c.path.headD "") then
        some ("`" ++ c.path.headD "" ++ "` is Zitadel's own claim, so Zitadel drops this one. " ++
          "Name it something else, or put it inside an object.")
      else validateKind host c

def claimErrors (row : Nat) : List Claim → Option RowError
  | [] => none
  | c :: rest =>
    match claimError host c with
    | some msg => some ⟨some row,msg⟩
    | none => claimErrors (row + 1) rest

end Checks

def pathConflict (one other : Claim × Nat) : Option RowError :=
  if one.2 = other.2 then none
  else if pathKey one.1.path = pathKey other.1.path ∧ other.2 < one.2 then
    some ⟨some one.2,"`" ++ " › ".intercalate one.1.path ++ "` is already sent by another row"⟩
  else if (pathKey one.1.path ++ "\x00").toList.isPrefixOf (pathKey other.1.path).toList then
    some ⟨some one.2,"`" ++ one.1.path.getLastD "" ++ "` is already an object here, holding `" ++
      other.1.path.getD one.1.path.length "" ++ "`."⟩
  else none

def pathErrors (claims : List Claim) : Option RowError :=
  claims.zipIdx.findSome? fun one =>
    claims.zipIdx.findSome? (pathConflict one)

def validate (host : Host) (p : Profile) : Option RowError :=
  (landsError host p.lands).or <| (roleErrors host [] p.roles).or <|
    (claimErrors host 0 p.claims).or (pathErrors p.claims)

variable {host : Host} {p : Profile}

theorem claimError_of_accepted {row : Nat} {claims : List Claim}
    (accepted : claimErrors host row claims = none) : ∀ c ∈ claims, claimError host c = none := by
  induction claims generalizing row with
  | nil =>
    intro c mem
    cases mem
  | cons _ _ ih =>
    rw [claimErrors] at accepted
    split at accepted
    · cases accepted
    rename_i sound
    intro c mem
    rcases mem_cons.mp mem with rfl | later
    · exact sound
    · exact ih accepted c later

theorem keys_of_accepted {seen : List String} {roles : List RoleMap}
    (accepted : roleErrors host seen roles = none) :
    (roles.map RoleMap.key).Nodup ∧ ∀ m ∈ roles, m.key ∉ seen := by
  induction roles generalizing seen with
  | nil => exact ⟨nodup_nil,nofun⟩
  | cons _ _ ih =>
    rw [roleErrors] at accepted
    split at accepted
    · cases accepted
    split at accepted
    · cases accepted
    rename_i fresh
    split at accepted
    · cases accepted
    obtain ⟨distinct,unseen⟩ := ih accepted
    refine ⟨nodup_cons.mpr ⟨?_,distinct⟩,?_⟩
    · intro mem
      obtain ⟨m,inRest,same⟩ := mem_map.mp mem
      exact unseen m inRest (same ▸ mem_cons_self)
    · intro m mem
      rcases mem_cons.mp mem with rfl | inRest
      · exact fresh
      · exact fun old => unseen m inRest (mem_cons_of_mem _ old)

theorem pathKey_append {path : List String} (proper : path ≠ []) {seg : String}
    {rest : List String} :
    pathKey (path ++ seg :: rest) = pathKey path ++ "\x00" ++ pathKey (seg :: rest) :=
  String.intercalate_append_of_ne_nil proper (cons_ne_nil seg rest)

theorem conflict_of_lies {one other : Claim × Nat} (different : one.2 ≠ other.2)
    (proper : one.1.path ≠ []) (lies : one.1.path <+: other.1.path) :
    pathConflict one other ≠ none ∨ pathConflict other one ≠ none := by
  obtain ⟨rest,continues⟩ := lies
  cases rest with
  | nil =>
    have same : pathKey one.1.path = pathKey other.1.path := by
      rw [← continues,append_nil]
    rcases Nat.lt_or_gt_of_ne different with before | after
    · right
      rw [pathConflict,if_neg (Ne.symm different),if_pos ⟨same.symm,before⟩]
      exact Option.some_ne_none _
    · left
      rw [pathConflict,if_neg different,if_pos ⟨same,after⟩]
      exact Option.some_ne_none _
  | cons =>
    have longer : (pathKey one.1.path ++ "\x00").toList.isPrefixOf
        (pathKey other.1.path).toList = true := by
      rw [← continues,pathKey_append proper, isPrefixOf_iff_prefix]
      simp only [String.toList_append]
      exact prefix_append _ _
    left
    rw [pathConflict,if_neg different]
    split <;> exact Option.some_ne_none _

theorem accepted_iff :
    validate host p = none ↔ landsError host p.lands = none ∧ roleErrors host [] p.roles = none ∧
      claimErrors host 0 p.claims = none ∧ pathErrors p.claims = none := by
  unfold validate
  simp only [Option.or_eq_none_iff]

theorem claimError_eq_none (accepted : validate host p = none) {c : Claim}
    (mem : c ∈ p.claims) : claimError host c = none :=
  claimError_of_accepted (accepted_iff.mp accepted).2.2.1 c mem

theorem path_of_sound {c : Claim} (sound : claimError host c = none) :
    c.path ≠ [] ∧ (∀ seg ∈ c.path, validClaimKey seg = true) ∧ validateKind host c = none := by
  unfold claimError at sound
  split at sound
  · cases sound
  rename_i sized
  split at sound
  · cases sound
  rename_i named
  split at sound
  · cases sound
  refine ⟨fun nothing => sized (.inl nothing),?_,sound⟩
  intro seg mem
  simpa using find?_eq_none.mp named seg mem

theorem distinctPaths_of_accepted (accepted : validate host p = none) : DistinctPaths p.claims := by
  have proper : ∀ c ∈ p.claims, c.path ≠ [] :=
    fun c mem => (path_of_sound (claimError_eq_none accepted mem)).1
  have clear : ∀ one ∈ p.claims.zipIdx, ∀ other ∈ p.claims.zipIdx,
      pathConflict one other = none := by
    intro one oneIn other otherIn
    have quiet := findSome?_eq_none_iff.mp (accepted_iff.mp accepted).2.2.2 one oneIn
    exact findSome?_eq_none_iff.mp quiet other otherIn
  have apart : ∀ one ∈ p.claims.zipIdx, ∀ other ∈ p.claims.zipIdx, one.2 ≠ other.2 →
      ¬ one.1.path <+: other.1.path := by
    intro one oneIn other otherIn different lies
    have inRows : one.1 ∈ p.claims := fst_mem_of_mem_zipIdx oneIn
    rcases conflict_of_lies different (proper _ inRows) lies with refused | refused
    · exact refused (clear one oneIn other otherIn)
    · exact refused (clear other otherIn one oneIn)
  refine ⟨proper,pairwise_iff_getElem.mpr ?_⟩
  intro i j below within order
  have first : (p.claims[i], i) ∈ p.claims.zipIdx := by
    rw [mk_mem_zipIdx_iff_getElem?,getElem?_eq_getElem below]
  have second : (p.claims[j], j) ∈ p.claims.zipIdx := by
    rw [mk_mem_zipIdx_iff_getElem?,getElem?_eq_getElem within]
  exact ⟨apart _ first _ second (Nat.ne_of_lt order),apart _ second _ first (Nat.ne_of_gt order)⟩

end Syndra.Claims
