/-
What the rules follow a named write with.

A role given by hand is written between two reads of the person's base, and the rules' part
of the closure difference is queued behind it.
-/

import Syndra.Ledger.GrantEffects

namespace Syndra.Rules

open Access Ledger Propagation List Records

structure CatalogRole where
  key : String
  label : String
deriving DecidableEq

structure ProjectCatalog where
  name : String
  roles : List CatalogRole
deriving DecidableEq

def roleNamer (findProject : String → Option ProjectCatalog) (role : Role) : String × String :=
  let project := (findProject role.projectId).getD { name := "", roles := [] }
  (project.roles.foldl (fun named listed =>
        if listed.key = role.roleKey && listed.label ≠ "" then listed.label else named)
      role.roleKey,
    if project.name ≠ "" then project.name else role.projectId)

structure RuleRow where
  projectId : String
  roleKey : String
  ruleId : String
  sentence : String
deriving DecidableEq

def ruleReachingRule (rules : List MappingRule) (reached : List Role) (role : Role) :
    Option MappingRule :=
  rules.find? fun rule =>
    rule.targetProject = role.projectId && rule.targetRole = role.roleKey &&
      Role.mk rule.sourceProject rule.sourceRole ∈ reached

def ruleRow (findProject : String → Option ProjectCatalog) (rules : List MappingRule)
    (reached : List Role) (role : Role) : RuleRow :=
  let (roleName, project) := roleNamer findProject role
  match ruleReachingRule rules reached role with
  | none =>
    { projectId := role.projectId
      roleKey := role.roleKey
      ruleId := ""
      sentence := "Also gives " ++ roleName ++ " in " ++ project ++ ", by an automatic rule." }
  | some rule =>
    { projectId := role.projectId
      roleKey := role.roleKey
      ruleId := rule.id
      sentence := "Also gives " ++ roleName ++ " in " ++ project ++
        ", by the automatic rule from " ++
        (roleNamer findProject ⟨rule.sourceProject,rule.sourceRole⟩).1 ++ "." }

def rulesFollowing (findProject : String → Option ProjectCatalog) (state : AccessState)
    (userId : String) (roles : List Role) : List RuleRow :=
  let rules := state.records.rules
  if rules = [] then []
  else
    let before := state.userBaseHoldings userId
    let after := before ++ roles
    (ruleDelta before after rules).1.map
      (ruleRow findProject rules (effectiveClosure after rules))

def ruleSentences (rows : List RuleRow) : String :=
  " ".intercalate (rows.map RuleRow.sentence)

def RuleRow.named (row : RuleRow) : Role × String := (⟨row.projectId,row.roleKey⟩, row.ruleId)

def namedBy (p : EnqueueParams) : Role × String := (roleOf p, p.sourceRef)

/-- Nothing keeps the role given out of the base: its end is still to come, an end that is
kept has not passed, and what takes the role away waits alone and is cancelled. -/
structure InForce (state : AccessState) (p : EnqueueParams) : Prop where
  ends : EndsLater state.now p
  current : ∀ grant ∈ state.records.grants, grant.userId = p.userId → grant.role = roleOf p →
    grant.lapsed state.now = true → p.endRule = .set
  clear : ∀ row ∈ state.outbox.rows, Takes p.userId (roleOf p) row →
    p.noPropagation = false ∧ row.opType = .revoke ∧ row.waitsFor p.key = true

def baseClosure (state : AccessState) (userId : String) : List Role :=
  effectiveClosure (state.userBaseHoldings userId) state.records.rules

structure Covers (findProject : String → Option ProjectCatalog) (state next : AccessState)
    (p : EnqueueParams) (rows : List EnqueueParams) : Prop where
  gained : ∀ role, (∃ row ∈ rows, row.opType = .add ∧ roleOf row = role) ↔
    role ≠ roleOf p ∧ role ∈ baseClosure next p.userId ∧ role ∉ baseClosure state p.userId
  once : (rows.map roleOf).Nodup
  revoked : ∀ row ∈ rows, row.opType = .revoke → roleOf row ∉ baseClosure next p.userId
  own : InForce state p → roleOf p ∈ baseClosure next p.userId
  named : InForce state p →
    (rulesFollowing findProject state p.userId [roleOf p]).map RuleRow.named = rows.map namedBy

section Proofs

variable {gate : Option CancelGate} {state next : AccessState} {p : EnqueueParams} {userId : String}

theorem mem_userBaseHoldings (state : AccessState) (userId : String) (role : Role) :
    role ∈ state.userBaseHoldings userId ↔ role ∈ state.records.holdings state.now userId ∧
        role ∉ queuedRevocationsFor state.outbox state.records.grants userId := by
  unfold AccessState.userBaseHoldings AccessState.userBaseHoldingsExcludingBundle holdings
  rw [mem_baseFrom]
  simp only [AccessState.personAccess,mem_append,mem_map,mem_flatMap,ne_eq,
    reduceCtorEq,not_false_eq_true,true_and]

structure Named (state next : AccessState) (p : EnqueueParams) : Prop where
  records : next.records = state.records.upsertGrant p (roleOf p).roleKey
  now : next.now = state.now
  outbox : p.noPropagation = true ∧ next.outbox = state.outbox ∨
    p.noPropagation = false ∧ ∃ inserted, Wrote true state.outbox p next.outbox inserted

theorem Named.rules (named : Named state next p) : next.records.rules = state.records.rules := by
  rw [named.records]
  exact rules_upsert

theorem writeOwn_named (single : p.Single) (op : p.opType = .add)
    (written : writeOwn gate p state = .ok next) : Named state next p := by
  have ledger := enqueueLedger_single single op state.records
  unfold writeOwn at written
  cases silent : p.noPropagation with
  | true =>
    rw [silent] at written
    cases written
    exact ⟨ledger,rfl,.inl ⟨silent,rfl⟩⟩
  | false =>
    rw [silent] at written
    cases own : enqueueRow gate true state.outbox p with
    | error =>
      rw [own] at written
      cases written
    | ok =>
      rw [own] at written
      cases written
      obtain ⟨inserted,wrote,-⟩ := enqueueRow_wrote single own
      exact ⟨ledger,rfl,.inr ⟨silent,inserted,wrote⟩⟩

variable {rows : List EnqueueParams} {rules : List MappingRule} {own : Role}
  {first second : List Role} {findProject : String → Option ProjectCatalog}

theorem followRules_ok {write : AccessState → Except ChangeError AccessState}
    (done : followRules state p write = .ok (next, rows)) :
    write state = .ok next ∧ rows = if state.records.rules = [] then [] else
        followedWrites p.userId state.records.rules (state.userBaseHoldings p.userId)
          (next.userBaseHoldings p.userId) := by
  unfold followRules at done
  cases written : write state with
  | error =>
    rw [written] at done
    cases done
  | ok =>
    simp only [written] at done
    by_cases none : state.records.rules = []
    · rw [if_pos none] at done
      cases done
      exact ⟨rfl,(if_pos none).symm⟩
    · rw [if_neg none] at done
      cases done
      exact ⟨rfl,(if_neg none).symm⟩

theorem Named.takes_iff (named : Named state next p) (single : p.Single) (op : p.opType = .add)
    (role : Role) (row : OutboxRow) :
    row ∈ next.outbox.rows ∧ Takes p.userId role row ↔
      (row ∈ state.outbox.rows ∧ Takes p.userId role row) ∧
        ¬ (p.noPropagation = false ∧ row.opType = .revoke ∧ row.waitsFor p.key = true) := by
  rcases named.outbox with ⟨silent,same⟩ | ⟨propagates,_,wrote⟩
  · rw [same,silent]
    simp
  · rw [takes_after_add wrote single op,propagates]
    simp

section Upsert

variable {records : Records} {role : Role} {roleKey : String}

theorem mem_grants_upsert (other : role ≠ ⟨p.projectId,roleKey⟩) {grant : DirectGrant}
    (isRole : grant.role = role) :
    grant ∈ (records.upsertGrant p roleKey).grants ↔ grant ∈ records.grants := by
  have apart (before : DirectGrant) (same : before.role = role) :
      ¬ sameGrant p roleKey before = true := by
    rw [sameGrant_iff,same]
    exact fun fits => other fits.2
  unfold upsertGrant
  split
  · rw [mem_map]
    constructor
    · rintro ⟨before,present,same⟩
      by_cases fits : sameGrant p roleKey before = true
      · rw [if_pos fits] at same
        subst same
        exact absurd fits (apart before isRole)
      · rw [if_neg fits] at same
        exact same ▸ present
    · intro present
      exact ⟨grant,present,if_neg (apart grant isRole)⟩
  · rw [mem_append,mem_singleton]
    refine or_iff_left fun fresh => ?_
    subst fresh
    exact other isRole.symm

theorem assignments_upsert : (records.upsertGrant p roleKey).assignments = records.assignments ∧
    (records.upsertGrant p roleKey).effectiveRoles = records.effectiveRoles := by
  unfold upsertGrant
  split <;> exact ⟨rfl,rfl⟩

theorem mem_holdings_upsert (other : role ≠ ⟨p.projectId,roleKey⟩) {now : Time} :
    role ∈ (records.upsertGrant p roleKey).holdings now userId ↔
      role ∈ records.holdings now userId := by
  rw [mem_holdings,mem_holdings,assignments_upsert.1,assignments_upsert.2]
  refine or_congr_left (exists_congr fun grant => ?_)
  constructor
  · rintro ⟨present,person,current,isRole⟩
    exact ⟨(mem_grants_upsert other isRole).mp present,person,current,isRole⟩
  · rintro ⟨present,person,current,isRole⟩
    exact ⟨(mem_grants_upsert other isRole).mpr present,person,current,isRole⟩

end Upsert

variable {role : Role}

theorem Named.mem_base (named : Named state next p) (single : p.Single) (op : p.opType = .add)
    (other : role ≠ roleOf p) :
    role ∈ next.userBaseHoldings p.userId ↔ role ∈ state.userBaseHoldings p.userId := by
  rw [mem_userBaseHoldings,mem_userBaseHoldings,named.records,named.now]
  refine and_congr (mem_holdings_upsert other) (not_congr ?_)
  rw [mem_queuedRevocationsFor,mem_queuedRevocationsFor]
  refine exists_congr fun row => ?_
  rw [← and_assoc,← and_assoc,named.takes_iff single op]
  have kept (takes : Takes p.userId role row) :
      ¬ (p.noPropagation = false ∧ row.opType = .revoke ∧ row.waitsFor p.key = true) := by
    rintro ⟨-,revokes,waits⟩
    have isOwn := (takes.revokes_of_waits waits).mp revokes
    rw [key_eq_heldBy] at isOwn
    exact other (heldBy_injective isOwn).2.symm
  have grants : (∃ grant ∈ (state.records.upsertGrant p (roleOf p).roleKey).grants,
      grant.userId = p.userId ∧ grant.role = role ∧ grant.source = .direct) ↔
        ∃ grant ∈ state.records.grants,
          grant.userId = p.userId ∧ grant.role = role ∧ grant.source = .direct := by
    refine exists_congr fun grant => ?_
    constructor
    · rintro ⟨present,person,isRole,direct⟩
      exact ⟨(mem_grants_upsert other isRole).mp present,person,isRole,direct⟩
    · rintro ⟨present,person,isRole,direct⟩
      exact ⟨(mem_grants_upsert other isRole).mpr present,person,isRole,direct⟩
  rw [grants]
  constructor
  · rintro ⟨⟨present,-⟩,replaced⟩
    exact ⟨present,replaced⟩
  · rintro ⟨present,replaced⟩
    exact ⟨⟨present,kept present.2⟩,replaced⟩

theorem Named.own_mem_base (named : Named state next p) (single : p.Single) (op : p.opType = .add)
    (inForce : InForce state p) : roleOf p ∈ next.userBaseHoldings p.userId := by
  rw [mem_userBaseHoldings,named.records,named.now]
  constructor
  · rw [mem_holdings]
    refine .inl ?_
    unfold upsertGrant
    split
    · next found =>
      obtain ⟨grant,present,fits⟩ := any_eq_true.mp found
      obtain ⟨person,isRole⟩ := (sameGrant_iff grant).mp fits
      refine ⟨renewed p grant,mem_map.mpr ⟨grant,present,if_pos fits⟩,person,?_, isRole⟩
      cases ended : grant.lapsed state.now with
      | false => exact lapsed_renewed inForce.ends ended
      | true =>
        apply lapsed_of_endsLater inForce.ends
        simp only [renewed,inForce.current grant present person isRole ended,if_true]
    · exact ⟨_,mem_append_right _ (mem_singleton.mpr rfl),rfl,
        lapsed_of_endsLater inForce.ends rfl,rfl⟩
  · intro queued
    obtain ⟨row,listed,takes,-⟩ := mem_queuedRevocationsFor.mp queued
    obtain ⟨⟨present,_⟩,kept⟩ := (named.takes_iff single op _ row).mp ⟨listed,takes⟩
    exact kept (inForce.clear row present takes)

theorem mem_effectiveClosure_nil {base : List Role} :
    role ∈ effectiveClosure base [] ↔ role ∈ base := by
  rw [mem_effectiveClosure]
  constructor
  · rintro ⟨_,held,reached⟩
    cases reached with
    | refl => exact held
    | tail _ edge => cases edge
  · intro held
    exact ⟨role,held,Reaches.refl _ _ _⟩

variable {after before : List Role}

theorem mem_ruleDelta_iff
    (elsewhere : ∀ role, role ≠ own → (role ∈ after ↔ role ∈ before)) :
    role ∈ (ruleDelta before after rules).1 ↔
      role ≠ own ∧ role ∈ effectiveClosure after rules ∧ role ∉ effectiveClosure before rules := by
  rw [mem_ruleDelta_adds]
  constructor
  · rintro ⟨gained,agrees⟩
    refine ⟨fun isOwn => ?_,gained⟩
    subst isOwn
    have same (other : Role) : other ∈ after ↔ other ∈ before := by
      by_cases isRole : other = role
      · rw [isRole]
        exact agrees.symm
      · exact elsewhere other isRole
    exact gained.2 ((mem_effectiveClosure_congr same role).mp gained.1)
  · rintro ⟨other,gained⟩
    exact ⟨gained,(elsewhere role other).symm⟩

theorem ruleDelta_congr (same : ∀ role, role ∈ first ↔ role ∈ second) :
    ruleDelta before first rules = ruleDelta before second rules := by
  have delta := closureDelta_congr (effectiveClosure_nodup before rules)
    (effectiveClosure_nodup before rules) (effectiveClosure_nodup first rules)
    (effectiveClosure_nodup second rules) (fun _ => Iff.rfl) (mem_effectiveClosure_congr same)
  unfold ruleDelta
  simp only [delta,same]

theorem ruleReaching_congr (same : ∀ role, role ∈ first ↔ role ∈ second) :
    ruleReaching rules first role = ruleReaching rules second role := by
  unfold ruleReaching
  simp only [same]

theorem named_ruleRow {reached : List Role} :
    (ruleRow findProject rules reached role).named = (role, ruleReaching rules reached role) := by
  change RuleRow.named (match ruleReachingRule rules reached role with
    | none => _
    | some rule => _) = (role, ((ruleReachingRule rules reached role).map MappingRule.id).getD "")
  cases ruleReachingRule rules reached role with
  | none | some => rfl

theorem mem_followedWrites_adds :
    (∃ row ∈ followedWrites userId rules before after, row.opType = .add ∧ roleOf row = role) ↔
      role ∈ (ruleDelta before after rules).1 := by
  unfold followedWrites
  simp only [mem_append,mem_map]
  constructor
  · rintro ⟨_,⟨_,listed,rfl⟩ | ⟨_,listed,rfl⟩,op,rfl⟩
    · exact listed
    · cases op
  · intro listed
    exact ⟨_,.inl ⟨role,listed,rfl⟩,rfl,rfl⟩

theorem followedWrites_once : ((followedWrites userId rules before after).map roleOf).Nodup:= by
  have keys := keys_followedWrites_nodup userId rules before after
  have ofKey : (followedWrites userId rules before after).map roleOf =
      ((followedWrites userId rules before after).map EnqueueParams.key).map
        fun key => Role.mk key.projectId key.roleKey := by
    rw [map_map]
    rfl
  rw [ofKey]
  refine Nodup.map_on ?_ keys
  intro _ isFirst _ isSecond same
  obtain ⟨one,among,rfl⟩ := mem_map.mp isFirst
  obtain ⟨two,amongToo,rfl⟩ := mem_map.mp isSecond
  have person (row : EnqueueParams) (listed : row ∈ followedWrites userId rules before after) :
      row.userId = userId := by
    rcases mem_append.mp listed with added | revoked
    · obtain ⟨role,-,rfl⟩ := mem_map.mp added
      rfl
    · obtain ⟨_,-,rfl⟩ := mem_map.mp revoked
      rfl
  rw [key_eq_heldBy,key_eq_heldBy,person one among,person two amongToo]
  exact congrArg (heldBy userId) same

theorem not_mem_closure_of_revoked {row : EnqueueParams}
    (listed : row ∈ followedWrites userId rules before after) (op : row.opType = .revoke) :
    roleOf row ∉ effectiveClosure after rules := by
  rcases mem_append.mp listed with added | revoked
  · obtain ⟨role,-,rfl⟩ := mem_map.mp added
    cases op
  · obtain ⟨role,lost,rfl⟩ := mem_map.mp revoked
    exact ((mem_ruleDelta_revokes before after rules role).mp lost).1.2

theorem ruleDelta_grows (grows : before ⊆ after) : (ruleDelta before after rules).2 = []:= by
  apply eq_nil_iff_forall_not_mem.mpr
  intro role lost
  obtain ⟨⟨held,gone⟩,-⟩ := (mem_ruleDelta_revokes before after rules role).mp lost
  exact gone (effectiveClosure_mono rules grows held)

theorem named_followedWrites
    (elsewhere : ∀ role, role ≠ own → (role ∈ after ↔ role ∈ before)) (held : own ∈ after) :
    ((ruleDelta before (before ++ [own]) rules).1.map
        (ruleRow findProject rules (effectiveClosure (before ++ [own]) rules))).map RuleRow.named =
      (followedWrites userId rules before after).map namedBy := by
  have same (role : Role) : role ∈ before ++ [own] ↔ role ∈ after := by
    rw [mem_append,mem_singleton]
    by_cases isOwn : role = own
    · rw [isOwn]
      exact iff_of_true (.inr rfl) held
    · rw [elsewhere role isOwn]
      exact or_iff_left isOwn
  have grows : before ⊆ after := fun role had => (same role).mp (mem_append_left _ had)
  unfold followedWrites
  rw [ruleDelta_congr same,ruleDelta_grows grows,map_nil,append_nil, map_map,map_map]
  apply map_congr_left
  intro role _gained
  change (ruleRow findProject rules _ role).named = _
  rw [named_ruleRow,ruleReaching_congr (mem_effectiveClosure_congr same)]
  rfl

theorem mem_followed (named : Named state next p) (single : p.Single) (op : p.opType = .add)
    (isRows : rows = if state.records.rules = [] then [] else
      followedWrites p.userId state.records.rules (state.userBaseHoldings p.userId)
        (next.userBaseHoldings p.userId)) (role : Role) :
    (∃ row ∈ rows, row.opType = .add ∧ roleOf row = role) ↔
      role ≠ roleOf p ∧ role ∈ baseClosure next p.userId ∧ role ∉ baseClosure state p.userId := by
  have elsewhere (role : Role) (other : role ≠ roleOf p) := named.mem_base single op other
  unfold baseClosure
  rw [named.rules]
  by_cases none : state.records.rules = []
  · subst isRows
    rw [none,mem_effectiveClosure_nil,mem_effectiveClosure_nil]
    refine iff_of_false (fun ⟨row,impossible,_⟩ => not_mem_nil impossible) ?_
    rintro ⟨other,gained,lacked⟩
    exact lacked ((elsewhere role other).mp gained)
  · rw [if_neg none] at isRows
    subst isRows
    rw [mem_followedWrites_adds,mem_ruleDelta_iff elsewhere]

end Proofs

/-- The rules follow a role given by hand with exactly what else the closure gains, and with
what was named where the role is in force. -/
theorem followRules_covers (findProject : String → Option ProjectCatalog)
    (gate : Option CancelGate) (state next : AccessState) (p : EnqueueParams)
    (rows : List EnqueueParams) (single : p.Single) (op : p.opType = .add)
    (written : followRules state p (writeOwn gate p) = .ok (next, rows)) :
    Covers findProject state next p rows := by
  obtain ⟨wrote,isRows⟩ := followRules_ok written
  have named := writeOwn_named single op wrote
  have gained := mem_followed named single op isRows
  have own (inForce : InForce state p) : roleOf p ∈ baseClosure next p.userId :=
    subset_closure Role.mk _ _ (named.own_mem_base single op inForce)
  by_cases none : state.records.rules = []
  · rw [if_pos none] at isRows
    subst isRows
    refine ⟨gained,nodup_nil,fun row impossible => ?_,own,fun _ => ?_⟩
    · exact absurd impossible not_mem_nil
    · unfold rulesFollowing
      simp only [none,if_true,map_nil]
  · rw [if_neg none] at isRows
    subst isRows
    refine ⟨gained,followedWrites_once,fun row listed revokes => ?_,own, fun inForce => ?_⟩
    · unfold baseClosure
      rw [named.rules]
      exact not_mem_closure_of_revoked listed revokes
    unfold rulesFollowing
    simp only [none]
    exact named_followedWrites
      (fun role => named.mem_base single op) (named.own_mem_base single op inForce)

namespace Lab

def member : Role := ⟨"lab","member"⟩

def entry : Role := ⟨"doors","entry"⟩

def give : EnqueueParams := roleWrite .add "ada" .direct "" member

def records (grants : List DirectGrant) (distinct : (grants.map DirectGrant.id).Nodup)
    (numbered : ∀ grant ∈ grants, grant.id < 1) : Records :=
  { Records.empty with
    grants := grants, nextGrant := 1, grantsDistinct := distinct, grantsNumbered := numbered
    rules := [⟨"doorkeeper","lab","member","doors","entry"⟩], rulesDistinct := nodup_singleton _ }

theorem none_below : ∀ grant ∈ ([] : List DirectGrant), grant.id < 1 := by decide

def nothing : Records := records [] nodup_nil none_below

def given (expiresAt : Option Time) : Records :=
  records [⟨0,"ada","lab","member",expiresAt,.direct,""⟩] (nodup_singleton _) (by simp)

def removal (status : Status) : Outbox :=
  { rows := [{ (roleWrite .revoke "ada" .direct "" member).intent.freshRow none 1 with
      status := status }]
    nextSeq := 2, ordered := pairwise_singleton _ _, idsDistinct := nodup_singleton _
    numbered := by cases status <;> decide, started := Nat.two_pos }

def state (records : Records) (removed : Status) : AccessState :=
  { records := records, outbox := removal removed, zitadel := fun _ => false, now := 0 }

theorem inForce_pending : InForce (state nothing .pending) give where
  ends := by decide
  current := by decide
  clear := by decide

theorem followRules_covers_pending :
    ∃ next rows, followRules (state nothing .pending) give (writeOwn none give) = .ok (next, rows) ∧
      rows.map namedBy = [(entry, "doorkeeper")] ∧
      (rulesFollowing (fun _ => none) (state nothing .pending) "ada" [member]).map RuleRow.named =
        rows.map namedBy := by
  have ran : (followRules (state nothing .pending) give (writeOwn none give)).toOption.any
      (fun result => decide (result.2.map namedBy = [(entry, "doorkeeper")])) = true := by
    decide +kernel
  obtain ⟨⟨next,rows⟩,reached,facts⟩ := (Option.any_eq_true _ _).mp ran
  have written := ok_of_toOption reached
  exact ⟨next,rows,written,of_decide_eq_true facts,
    (followRules_covers (fun _ => none) none _ next give rows ⟨rfl,.inl rfl⟩ rfl written).named
      inForce_pending⟩

/-- A role given again was in the closure before; so were the rows of one whose removal
waited. With the removal in flight, or with an end that is kept and has passed, nothing
follows though the rule's role was named; in flight it is gained on record. -/
theorem covers_fails_recorded :
    (followRules (state (given none) .applied) give (writeOwn none give)).toOption.any (fun result =>
      decide (result.2 = [] ∧ member ∈ (state (given none) .applied).closed "ada")) = true ∧
    (followRules (state (given none) .pending) give (writeOwn none give)).toOption.any (fun result =>
      decide (result.2.map roleOf = [entry] ∧
        entry ∈ (state (given none) .pending).closed "ada")) = true ∧
    (followRules (state nothing .inFlight) give (writeOwn none give)).toOption.any (fun result =>
      decide (result.2 = [] ∧ entry ∈ result.1.closed "ada" ∧
        entry ∉ (state nothing .inFlight).closed "ada" ∧
        (rulesFollowing (fun _ => none) (state nothing .inFlight) "ada" [member]).map
          RuleRow.named = [(entry, "doorkeeper")])) = true ∧
    (followRules (state (given (some 0)) .applied) give (writeOwn none give)).toOption.any
      (fun result => decide (result.2 = [] ∧
        (rulesFollowing (fun _ => none) (state (given (some 0)) .applied) "ada" [member]).map
          RuleRow.named = [(entry, "doorkeeper")])) = true := by
  decide +kernel

end Lab

end Syndra.Rules
