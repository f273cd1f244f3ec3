/-
A token's roles are the payload's.

The facts, wherever they come from, only add to what the payload says. On every way to
a token the rows that tell of roles have the values the payload's roles give them.
-/

import Syndra.Claims.Payload
import Syndra.Claims.Token
import Syndra.Claims.Words

namespace Syndra.Claims

open List Claim

structure Result where
  claims : Object
  outcome : Outcome
  clientKnown : Bool
  miss : Bool
  gen : Int

structure Asked where
  userID : String
  projectID : String
  clientID : String
  function : Function
  roles : List String
  identity : Identity
deriving DecidableEq

/-- Where the facts come from: what Redis answers, the last copy, the time, and whether
the call ran out of time meanwhile. -/
structure FactSource where
  hGet : Reply
  get : Reply
  lkg : Lru
  now : Time
  expired : Bool

def Asked.lookup (asked : Asked) (source : FactSource) (maxAge : Time) : Lookup :=
  { userID := asked.userID, projectID := asked.projectID, maxAge := maxAge, hGet := source.hGet,
    get := source.get, now := source.now }

def Asked.bare (asked : Asked) : Facts :=
  { Facts.zero with
    userID := asked.userID
    projectID := asked.projectID
    roles := asked.roles }

section Answer

variable (lower : String → String) (decodeFacts : String → Option Facts)

def answerProject (proj : Project) (profile : Profile) (asked : Asked) (source : FactSource) :
    Object × Outcome × Bool :=
  match (facts decodeFacts source.lkg (asked.lookup source proj.mode.lkgMaxAge)).1 with
  | (f, .served, miss) =>
    (shape lower profile ({ f with roles := asked.roles }.identify asked.identity), .served, miss)
  | (f, .servedLKG, miss) =>
    (shape lower profile ({ f with roles := asked.roles }.identify asked.identity), .servedLKG,
      miss)
  | (_, .servedRolesOnly, miss) =>
    if source.expired then (proj.mode.claims, .deadlineExceeded, miss)
    else
      (shape lower profile.rolesOnly (asked.bare.identify asked.identity),
        if profile.rolesOnly.claims.length = profile.claims.length then .served
        else .servedRolesOnly, miss)
  | (_, outcome, miss) =>
    (proj.mode.claims, if source.expired then .deadlineExceeded else outcome, miss)

def Plane.answer (cfg : Option Config) (asked : Asked) (source : FactSource) : Result :=
  match cfg with
  | none =>
    { claims := [], outcome := .degradedShapeUnreadable, clientKnown := false, miss := false,
      gen := 0 }
  | some cfg =>
    match cfg.projects.lookup asked.projectID with
    | none =>
      { claims := [], outcome := .degradedShapeUnreadable, clientKnown := false, miss := false,
        gen := cfg.gen }
    | some proj =>
      let shape := (proj.shapes.for_ asked.clientID).1
      let known := (proj.shapes.for_ asked.clientID).2
      if !shape.profile.landsIn asked.function then
        { claims := [], outcome := .notLanding, clientKnown := known, miss := false,
          gen := cfg.gen }
      else
        let answered := answerProject lower decodeFacts proj shape.profile asked source
        { claims := answered.1
          outcome :=
            if answered.2.1 = .served ∧ asked.function ≠ .preAccessToken ∧
                asked.function ≠ .preUserinfo then .unknownFunction
            else answered.2.1
          clientKnown := known
          miss := answered.2.2
          gen := cfg.gen }

end Answer

def Request.asked (req : Request) (projectID : String) : Asked :=
  { userID := req.user.id, projectID := projectID, clientID := req.clientID,
    function := req.function, roles := req.roles projectID, identity := req.user.identity }

def Outcome.shaped (outcome : Outcome) : Bool :=
  outcome ∈ [.served,.servedLKG,.servedRolesOnly]

def Claim.tellsRoles (c : Claim) : Bool :=
  match c.kind with
  | .roles | .ifRole => true
  | .attribute => c.source = .roleCount
  | _ => false

def Config.profileFor (cfg : Config) (asked : Asked) : Option Profile :=
  (cfg.projects.lookup asked.projectID).map fun proj =>
    (proj.shapes.for_ asked.clientID).1.profile

structure RolesTold (profile : Profile) (roles : List String) (p : Profile) (f : Facts) : Prop where
  kept : ∀ c ∈ profile.claims, c.tellsRoles = true → c ∈ p.claims
  rows : p.claims.Sublist profile.claims
  value : ∀ c : Claim, c.tellsRoles = true →
    c.value p f = c.value profile { Facts.zero with roles := roles }
  words : ∀ held : List String, p.words held = profile.words held

section Proofs

variable {lower : String → String} {decodeFacts : String → Option Facts}
variable {profile : Profile} {roles : List String}

variable {id : Identity} {asked : Asked} {source : FactSource}

theorem identify_roles {f : Facts} : (f.identify id).roles = f.roles := by
  unfold Facts.identify
  split <;> split <;> split <;> try rfl
  all_goals split <;> try rfl
  all_goals split <;> split <;> rfl

variable {c : Claim} {f : Facts} {p : Profile}

theorem value_tellsRoles {q : Profile} {g : Facts} (tells : c.tellsRoles = true)
    (sameRoles : f.roles = g.roles) (sameWords : ∀ held, p.words held = q.words held) :
    c.value p f = c.value q g := by
  unfold tellsRoles at tells
  unfold Claim.value
  split at tells
  · next isRoles =>
    rw [isRoles]
    rw [sameRoles,sameWords]
  · next isIfRole =>
    rw [isIfRole]
    rw [sameRoles]
  · next isAttribute =>
    rw [isAttribute]
    rw [of_decide_eq_true tells]
    unfold attributeValue
    rw [sameRoles]
  · cases tells

theorem rolesTold_whole : RolesTold profile roles profile ({ f with roles := roles }.identify id):=
  ⟨fun _ mem _ => mem,Sublist.refl _,
    fun _ tells => value_tellsRoles tells identify_roles fun _ => rfl,fun _ => rfl⟩

theorem not_needsFacts (tells : c.tellsRoles = true) : c.needsFacts = false := by
  unfold tellsRoles at tells
  unfold needsFacts
  split at tells
  · next isRoles => rw [isRoles]
  · next isIfRole => rw [isIfRole]
  · next isAttribute =>
    rw [isAttribute]
    rw [of_decide_eq_true tells]
    rfl
  · cases tells

theorem rolesTold_rolesOnly (same : f.roles = roles) :
    RolesTold profile roles profile.rolesOnly (f.identify id) := by
  refine ⟨fun c mem tells => ?_,filter_sublist,fun _ tells => ?_,fun _ => rfl⟩
  · refine mem_filter.mpr ⟨mem,?_⟩
    rw [not_needsFacts tells]
    rfl
  · exact value_tellsRoles tells (identify_roles.trans same) fun _ => rfl

theorem answerProject_shaped {proj : Project}
    (shaped : (answerProject lower decodeFacts proj profile asked source).2.1.shaped = true) :
    ∃ p f, (answerProject lower decodeFacts proj profile asked source).1 = shape lower p f ∧
      RolesTold profile asked.roles p f := by
  unfold answerProject at shaped ⊢
  split at shaped
  · exact ⟨profile,_,rfl,rolesTold_whole⟩
  · exact ⟨profile,_,rfl,rolesTold_whole⟩
  · split at shaped
    · cases shaped
    rename_i inTime
    rw [if_neg inTime]
    exact ⟨profile.rolesOnly,_,rfl,rolesTold_rolesOnly rfl⟩
  · next notServed notLKG notRolesOnly _ =>
    exfalso
    split at shaped
    · cases shaped
    rcases mem_cons.mp (of_decide_eq_true shaped) with isServed | later
    · exact notServed isServed
    rcases mem_cons.mp later with isLKG | last
    · exact notLKG isLKG
    · exact notRolesOnly (mem_singleton.mp last)

theorem answer_shaped {cfg : Option Config}
    (shaped : (Plane.answer lower decodeFacts cfg asked source).outcome.shaped = true) :
    ∃ profile p f, cfg.bind (·.profileFor asked) = some profile ∧
      (Plane.answer lower decodeFacts cfg asked source).claims = shape lower p f ∧
      RolesTold profile asked.roles p f := by
  cases cfg with
  | none => cases shaped
  | some config =>
    unfold Plane.answer at shaped ⊢
    dsimp only at shaped ⊢
    cases found : config.projects.lookup asked.projectID with
    | none =>
      rw [found] at shaped
      cases shaped
    | some proj =>
      rw [found] at shaped
      dsimp only at shaped ⊢
      have profileFor : config.profileFor asked =
          some (proj.shapes.for_ asked.clientID).1.profile := by
        unfold Config.profileFor
        rw [found]
        rfl
      split at shaped
      · cases shaped
      rename_i lands
      rw [if_neg lands]
      split at shaped
      · cases shaped
      · obtain ⟨p,f,claims,told⟩ := answerProject_shaped shaped
        exact ⟨_,p,f,profileFor,claims,told⟩

theorem RolesTold.token (told : RolesTold profile roles p f)
    (distinct : DistinctPaths profile.claims) (mem : c ∈ profile.claims)
    (tells : c.tellsRoles = true) : tokenAt c.path (shape lower p f) = c.value p f := by
  have isValue : ∃ v, c.value p f = some v := by
    unfold tellsRoles at tells
    unfold Claim.value
    split at tells
    · next isRoles =>
      rw [isRoles]
      exact ⟨_,rfl⟩
    · next isIfRole =>
      rw [isIfRole]
      exact ⟨_,rfl⟩
    · next isAttribute =>
      rw [isAttribute,of_decide_eq_true tells]
      exact ⟨_,rfl⟩
    · cases tells
  obtain ⟨_,isValue⟩ := isValue
  rw [isValue]
  exact tokenAt_shape lower
    ⟨fun c inRows => distinct.1 c (told.rows.subset inRows),distinct.2.sublist told.rows⟩
    (told.kept c mem tells) isValue

end Proofs

/-- Two answers to one payload, over whatever Redis and the last copy say. The rows that
tell of roles are shaped in both with one value, which is where the row's path leads in
both tokens; a roles row's words are those the application's map sends for roles the
payload lists. -/
theorem tokenRoles_fromPayload (lower fold : String → String) (decodeFacts : String → Option Facts)
    (cfg : Option Config) (body : Option Json) (projectID : String) (one other : FactSource)
    (shapedOne : (Plane.answer lower decodeFacts cfg
      ((decode fold body).1.asked projectID) one).outcome.shaped = true)
    (shapedOther : (Plane.answer lower decodeFacts cfg
      ((decode fold body).1.asked projectID) other).outcome.shaped = true) :
    ∃ profile p f q g,
      cfg.bind (·.profileFor ((decode fold body).1.asked projectID)) = some profile ∧
      (Plane.answer lower decodeFacts cfg ((decode fold body).1.asked projectID) one).claims =
        shape lower p f ∧
      (Plane.answer lower decodeFacts cfg ((decode fold body).1.asked projectID) other).claims =
        shape lower q g ∧
      p.claims.Sublist profile.claims ∧ q.claims.Sublist profile.claims ∧
      ∀ c ∈ profile.claims, c.tellsRoles = true →
        c ∈ p.claims ∧ c ∈ q.claims ∧ c.value p f = c.value q g ∧
        (DistinctPaths profile.claims → tokenAt c.path (shape lower p f) = c.value p f ∧
          tokenAt c.path (shape lower q g) = c.value p f) ∧
        (c.kind = .roles → ∃ words, c.value p f = some (formatRoles words c.format) ∧
            ∀ word ∈ words, ∃ role, PayloadLists body projectID role ∧
              profile.Sends role word) := by
  obtain ⟨profile,p,f,isProfile,claimsOne,toldOne⟩ := answer_shaped shapedOne
  obtain ⟨_,q,g,isProfile',claimsOther,toldOther⟩ := answer_shaped shapedOther
  cases Option.some.inj (isProfile.symm.trans isProfile')
  refine ⟨profile,p,f,q,g,isProfile,claimsOne,claimsOther,toldOne.rows,toldOther.rows,
    fun c mem tells => ?_⟩
  have same : c.value p f = c.value q g := (toldOne.value c tells).trans (toldOther.value c tells).symm
  refine ⟨toldOne.kept c mem tells,toldOther.kept c mem tells,same,fun distinct => ?_,
    fun isRoles => ?_⟩
  · exact ⟨toldOne.token distinct mem tells, (toldOther.token distinct mem tells).trans same.symm⟩
  refine ⟨profile.words ((decode fold body).1.roles projectID),?_,fun word inWords => ?_⟩
  · rw [toldOne.value c tells]
    unfold Claim.value
    rw [isRoles]
    rfl
  · obtain ⟨role,inRoles,sends⟩ := mem_words.mp inWords
    exact ⟨role,payloadLists_of_roles inRoles,sends⟩

def makerConfig : Config :=
  { gen := 1, builtAt := 0, keys := Keyring.empty, debug := [], welcome := Welcome.off
    projects := [("lab",
      { mode := Mode.unset
        shapes :=
          { defaultSource := "", byClient := []
            default :=
              { claims :=
                  [⟨["roles"],.roles,.unknown "",none,[],.array⟩,
                    ⟨["team"],.attribute,.team,none,[],.array⟩]
                roles := [⟨"member","maker",true⟩], includeNew := false, lands := .both } } })] }

def makerBody : Json :=
  .object
    [("function", .string "function/preaccesstoken"),("user", .object [("id", .string "ada")]),
      ("user_grants", .array
        [.object [("project_id", .string "lab"),("roles", .array [.string "member"])]])]

def makerFacts (raw : String) : Option Facts :=
  if raw = "stored" then some { Facts.zero with roles := ["admin"], team := "wood" } else none

def storedFacts : FactSource := ⟨.value "stored",.nil,Lru.new 10,0,false⟩

def noFacts : FactSource := ⟨.error,.nil,Lru.new 10,0,false⟩

theorem tokenRoles_storedAndMissing : (Plane.answer id makerFacts (some makerConfig)
      ((decode id (some makerBody)).1.asked "lab") storedFacts).outcome = .served ∧
    (Plane.answer id makerFacts (some makerConfig)
      ((decode id (some makerBody)).1.asked "lab") noFacts).outcome = .servedRolesOnly ∧
    tokenAt ["roles"] (Plane.answer id makerFacts (some makerConfig)
        ((decode id (some makerBody)).1.asked "lab") storedFacts).claims =
      tokenAt ["roles"] (Plane.answer id makerFacts (some makerConfig)
        ((decode id (some makerBody)).1.asked "lab") noFacts).claims := by
  have isServed : (Plane.answer id makerFacts (some makerConfig)
      ((decode id (some makerBody)).1.asked "lab") storedFacts).outcome = .served := by
    decide +kernel
  have isRolesOnly : (Plane.answer id makerFacts (some makerConfig)
      ((decode id (some makerBody)).1.asked "lab") noFacts).outcome = .servedRolesOnly := by
    decide +kernel
  refine ⟨isServed,isRolesOnly,?_⟩
  obtain ⟨_,_,_,_,_,isProfile,claimsOne,claimsOther,-,-,rows⟩ :=
    tokenRoles_fromPayload id id makerFacts (some makerConfig) (some makerBody) "lab" storedFacts
      noFacts (by rw [isServed]; rfl) (by rw [isRolesOnly]; rfl)
  cases isProfile
  obtain ⟨-,-,-,tokens,-⟩ := rows ⟨["roles"],.roles,.unknown "",none,[],.array⟩ mem_cons_self rfl
  obtain ⟨tokenOne,tokenOther⟩ := tokens (by
    unfold DistinctPaths Apart
    decide)
  rw [claimsOne,claimsOther,tokenOne,tokenOther]

end Syndra.Claims
