/-
No published update is lost.

A poll takes the generation before it takes anything of the configuration, and a writer
moves the generation after it wrote.
-/

import Syndra.Claims.Publish
import Syndra.Foundation.Generations
import Syndra.Foundation.Runs

namespace Syndra.Claims

open Foundation Foundation.Programs Foundation.Generations List

abbrev Plane := Pool World Task Answer Ended

def took : Except RedisError Unit → Bool
  | .error .refused => false
  | _ => true

def wrote : Exchange Answer → Bool
  | ⟨.mSet _,answer⟩ => took answer
  | ⟨.sAdd _,answer⟩ => took answer
  | _ => false

def moved : Exchange Answer → Bool
  | ⟨.incr,answer⟩ => took answer
  | _ => false

def Between (heard : List (Exchange Answer)) : Prop :=
  heard.any wrote = true ∧ heard.any moved = false

section Codec

variable (codec : Codec)

def Redis.project (redis : Redis) (id : String) : Option (String × Project) :=
  readProject codec id (redis.strings (shapesKey id)) (redis.strings (modeKey id))

/-- The configuration is the one in Redis. The set of projects has no order. -/
structure Current (redis : Redis) (config : Config) : Prop where
  projects : ∃ ids : List String, ids.Perm redis.projects ∧
    config.projects = ids.filterMap (redis.project codec)
  keys : config.keys = readKeyring codec (redis.strings keyringKey)
  debug : config.debug = readDebug codec (redis.strings debugKey)
  welcome : config.welcome = readWelcome codec (redis.strings welcomeKey)

/-- In every state in which the cached generation is the one in Redis and no writer is
between its write and its move, the cached configuration is the one in Redis. -/
def UpToDate (pool : Plane) : Prop :=
  ∀ config, pool.world.cfg = some config → config.gen = pool.world.gen →
    (∀ flight ∈ pool.flights, ¬ Between flight.heard) → Current codec pool.world.redis config

end Codec

def Command.writes : Command → Bool
  | .mSet _ | .sAdd _ => true
  | _ => false

def Command.reads : Command → Bool
  | .get _ | .mGet _ | .sMembers => true
  | _ => false

def agrees (redis : Redis) : Exchange Answer → Prop
  | ⟨.get key,.ok value⟩ => configKey key = true → value = redis.strings key
  | ⟨.mGet keys,.ok values⟩ =>
    (∀ key ∈ keys, configKey key = true) → values = keys.map redis.strings
  | ⟨.sMembers,.ok ids⟩ => (ids : List String).Perm redis.projects
  | _ => True

def genOf : Exchange Answer → Option Int
  | ⟨.getGen,.ok found⟩ => some ((found : Option Int).getD 0)
  | _ => none

def heardGen (heard : List (Exchange Answer)) : Option Int := heard.findSome? genOf

inductive Does (before after : World) (exchange : Exchange Answer) : Prop
  | quiet (same : after.redis = before.redis) (unwritten : wrote exchange = false)
      (unmoved : moved exchange = false) (told : agrees before.redis exchange)
  | writes (isWrite : exchange.request.writes = true) (written : wrote exchange = true)
      (unmoved : moved exchange = false) (stands : after.gen = before.gen)
  | moves (moved : before.gen < after.gen)

theorem does_answer (world : World) (command : Command) (mishap : Option RedisError) :
    Does world (answer world command mishap).2 ⟨command,(answer world command mishap).1⟩ := by
  cases command with
  | getGen =>
    rcases mishap with _ | _ | _ <;> exact .quiet rfl rfl rfl trivial
  | get | mGet =>
    rcases mishap with _ | _ | _
    · exact .quiet rfl rfl rfl fun _ => rfl
    · exact .quiet rfl rfl rfl trivial
    · exact .quiet rfl rfl rfl trivial
  | sMembers =>
    rcases mishap with _ | _ | _
    · exact .quiet rfl rfl rfl (Perm.refl _)
    · exact .quiet rfl rfl rfl trivial
    · exact .quiet rfl rfl rfl trivial
  | mSet | sAdd =>
    rcases mishap with _ | _ | _
    · exact .writes rfl rfl rfl rfl
    · exact .quiet rfl rfl rfl trivial
    · exact .writes rfl rfl rfl rfl
  | incr =>
    have plain : Does world (effect world .incr).2 ⟨.incr,(effect world .incr).1⟩ := by
      unfold effect
      split
      · exact .moves (Int.lt_succ _)
      · exact .quiet rfl rfl rfl trivial
    rcases mishap with _ | _ | _
    · exact plain
    · exact .quiet rfl rfl rfl trivial
    unfold answer
    simp only [failed,reduceCtorEq,if_false]
    cases canMove : world.canMove with
    | false =>
      rw [if_pos (by simp only [blocked,canMove,Bool.not_false])]
      exact plain
    | true =>
      rw [if_neg (by simp only [blocked,canMove,Bool.not_true,Bool.false_eq_true,
        not_false_eq_true])]
      refine .moves ?_
      simp only [effect,canMove]
      exact Int.lt_succ _
  | _ =>
    rcases mishap with _ | _ | _ <;> exact .quiet rfl rfl rfl trivial

theorem genOf_answer {world : World} {command : Command} {mishap : Option RedisError}
    {gen : Int} (heard : genOf ⟨command,(answer world command mishap).1⟩ = some gen) :
    command = .getGen ∧ gen = world.gen := by
  cases command with
  | getGen =>
    rcases mishap with _ | _ | _
    · exact ⟨rfl,(Option.some.inj heard).symm⟩
    · cases heard
    · cases heard
  | _ => cases heard

theorem cfg_answer (world : World) (command : Command) (mishap : Option RedisError) :
    (answer world command mishap).2.cfg = world.cfg ∨ ∃ config, command = .storeCfg config ∧
        (answer world command mishap).2.cfg = some config := by
  cases command with
  | storeCfg config =>
    rcases mishap with _ | _ | _ <;> exact .inr ⟨config,rfl,rfl⟩
  | incr =>
    have plain : (effect world .incr).2.cfg = world.cfg := by
      unfold effect
      split <;> rfl
    refine .inl ?_
    rcases mishap with _ | _ | _
    · exact plain
    · rfl
    unfold answer
    simp only [failed,reduceCtorEq,if_false]
    split <;> exact plain
  | _ =>
    rcases mishap with _ | _ | _ <;> exact .inl rfl

/-- Writes come before the move, the generation before the configuration, and what is
stored follows from what was heard. -/
structure Fits (codec : Codec) (heard : List (Exchange Answer)) (command : Command) : Prop where
  beforeMove : command.writes = true → heard.any moved = false
  genFirst : command = .getGen → ∀ exchange ∈ heard, exchange.request.reads = false
  stores : ∀ config, command = .storeCfg config → heardGen heard = some config.gen ∧
    ∀ redis, (∀ exchange ∈ heard, agrees redis exchange) → Current codec redis config

section Callers

variable {codec : Codec} {heard : List (Exchange Answer)}

def Command.plain : Command → Bool
  | .mSet _ | .sAdd _ | .getGen | .storeCfg _ => false
  | _ => true

variable {command : Command} {key : String}

theorem fits_plain (plain : command.plain = true) : Fits codec heard command:= by
  refine ⟨fun writes => ?_,fun isGen => ?_,fun config isStore => ?_⟩
  · cases command with
    | mSet | sAdd => cases plain
    | _ => cases writes
  · cases isGen
    cases plain
  · cases isStore
    cases plain

theorem fits_write (isWrite : command.writes = true)
    (unmoved : heard.any moved = false) : Fits codec heard command := by
  refine ⟨fun _ => unmoved,fun isGen => ?_,fun config isStore => ?_⟩
  · cases isGen
    cases isWrite
  · cases isStore
    cases isWrite

variable {gen : Int}

theorem heardGen_append {more : List (Exchange Answer)}
    (found : heardGen heard = some gen) :
    heardGen (heard ++ more) = some gen := by
  unfold heardGen at found ⊢
  rw [findSome?_append,found]
  rfl

theorem along_moveGen (changed : Nat) :
    (moveGen changed).Along (Fits codec) (fun _ _ => True) heard := by
  refine ⟨fits_plain rfl,fun answer => ?_⟩
  rcases answer with error | ⟨⟩ <;> trivial

theorem along_writeThrough {value : String} (unmoved : heard.any moved = false) :
    (writeThrough key value).Along (Fits codec) (fun _ _ => True) heard := by
  refine ⟨fits_write rfl unmoved,fun answer => ?_⟩
  rcases answer with _ | ⟨⟩
  · trivial
  · exact along_moveGen 1

theorem along_publishKeyringAt {k : Keyring} :
    (publishKeyringAt codec key k).Along (Fits codec) (fun _ _ => True) [] := by
  unfold publishKeyringAt
  split
  · trivial
  · exact along_writeThrough rfl

theorem along_publishDebug {watch : List (String × DebugWatch)} :
    (publishDebug codec watch).Along (Fits codec) (fun _ _ => True) [] := by
  unfold publishDebug
  split
  · trivial
  · exact along_writeThrough rfl

theorem along_publishWelcome {w : Welcome} :
    (publishWelcome codec w).Along (Fits codec) (fun _ _ => True) [] := by
  unfold publishWelcome
  split
  · trivial
  rename_i value _
  refine ⟨fits_plain rfl,fun answer => ?_⟩
  rcases answer with error | found
  · trivial
  dsimp only [Program.bind]
  split
  · trivial
  split
  · trivial
  · exact along_writeThrough rfl

theorem along_publish {projects : List (String × Project)} :
    (publish codec projects).Along (Fits codec) (fun _ _ => True) [] := by
  unfold publish
  split
  · trivial
  refine ⟨fits_plain rfl,fun answer => ?_⟩
  rcases answer with error | _
  · trivial
  dsimp only [Program.bind]
  split
  · trivial
  · trivial
  refine ⟨fits_write rfl rfl,fun answer => ?_⟩
  rcases answer with error | ⟨⟩
  · trivial
  refine ⟨fits_write rfl rfl,fun answer => ?_⟩
  rcases answer with _ | ⟨⟩
  · trivial
  · exact along_moveGen _

theorem configKey_projectKeys (ids : List String) :
    ∀ key ∈ projectKeys ids, configKey key = true := by
  intro _ mem
  obtain ⟨id,-,isKey⟩ := mem_flatMap.mp mem
  unfold configKey
  rcases mem_cons.mp isKey with rfl | isMode
  · have starts : "claim_shapes:".toList.isPrefixOf (shapesKey id).toList = true := by
      rw [shapesKey,String.toList_append, isPrefixOf_iff_prefix]
      exact prefix_append _ _
    rw [starts,Bool.or_true,Bool.true_or]
  cases mem_singleton.mp isMode
  have starts : "claim_mode:".toList.isPrefixOf (modeKey id).toList = true := by
    rw [modeKey,String.toList_append, isPrefixOf_iff_prefix]
    exact prefix_append _ _
  rw [starts,Bool.or_true]

theorem readProjects_eq {redis : Redis} {ids : List String} :
    readProjects codec ids ((projectKeys ids).map redis.strings) =
      ids.filterMap (redis.project codec) := by
  induction ids with
  | nil => rfl
  | cons id _ ih =>
    rw [projectKeys,flatMap_cons] at *
    simp only [map_cons,cons_append,readProjects]
    rw [filterMap_cons,Redis.project]
    cases readProject codec id (redis.strings (shapesKey id)) (redis.strings (modeKey id)) with
    | none => exact ih
    | some entry => exact congrArg (entry :: ·) ih

def LoadedAs (codec : Codec) : Except PollError Config → List (Exchange Answer) → Prop
  | .error _, _ => True
  | .ok config, heard => heardGen heard = some config.gen ∧
      ∀ redis, (∀ exchange ∈ heard, agrees redis exchange) → Current codec redis config

theorem along_load (found : heardGen heard = some gen) :
    (load codec gen).Along (Fits codec) (LoadedAs codec) heard := by
  refine ⟨fits_plain rfl,fun answer => ?_⟩
  rcases answer with error | ids
  · trivial
  refine ⟨fits_plain rfl,fun builtAt => ⟨fits_plain rfl,fun answer => ?_⟩⟩
  rcases answer with error | kr
  · trivial
  refine ⟨fits_plain rfl,fun answer => ?_⟩
  rcases answer with error | dw
  · trivial
  refine ⟨fits_plain rfl,fun answer => ?_⟩
  rcases answer with error | wv
  · trivial
  split
  · next none =>
    refine ⟨?_,fun redis told => ?_⟩
    · iterate 5 apply heardGen_append
      exact found
    have listed := told ⟨.sMembers,.ok ids⟩ (by simp)
    have keys := told ⟨.get keyringKey,.ok kr⟩ (by simp)
    have watched := told ⟨.get debugKey,.ok dw⟩ (by simp)
    have welcome := told ⟨.get welcomeKey,.ok wv⟩ (by simp)
    cases isEmpty_iff.mp none
    exact ⟨⟨[],listed,rfl⟩,congrArg (readKeyring codec) (keys rfl),
      congrArg (readDebug codec) (watched rfl),congrArg (readWelcome codec) (welcome rfl)⟩
  · refine ⟨fits_plain rfl,fun answer => ?_⟩
    rcases answer with _ | values
    · trivial
    refine ⟨?_,fun redis told => ?_⟩
    · iterate 6 apply heardGen_append
      exact found
    have listed := told ⟨.sMembers,.ok ids⟩ (by simp)
    have keys := told ⟨.get keyringKey,.ok kr⟩ (by simp)
    have watched := told ⟨.get debugKey,.ok dw⟩ (by simp)
    have welcome := told ⟨.get welcomeKey,.ok wv⟩ (by simp)
    have read := told ⟨.mGet (projectKeys ids),.ok values⟩ (by simp)
    have values_eq := read (configKey_projectKeys ids)
    refine ⟨⟨ids,listed,?_⟩,congrArg (readKeyring codec) (keys rfl),
      congrArg (readDebug codec) (watched rfl),congrArg (readWelcome codec) (welcome rfl)⟩
    rw [values_eq]
    exact readProjects_eq

theorem along_fail {error : PollError} : (fail error).Along (Fits codec)
    (fun _ _ => True) heard :=
  ⟨fits_plain rfl,fun _ => trivial⟩

theorem fits_store {config : Config} (loaded : LoadedAs codec (.ok config) heard) :
    Fits codec heard (.storeCfg config) := by
  refine ⟨nofun,nofun,fun stored same => ?_⟩
  cases same
  exact loaded

theorem along_reload (found : heardGen heard = some gen) :
    (reload codec gen).Along (Fits codec) (fun _ _ => True) heard := by
  refine Program.along_bind ((along_load found).mono fun result later loaded => ?_)
  cases result with
  | error error => exact along_fail
  | ok =>
    refine ⟨fits_store loaded,fun _ => ⟨fits_plain rfl,fun _ => ⟨fits_plain rfl,fun _ => ?_⟩⟩⟩
    trivial

theorem along_poll : (poll codec).Along (Fits codec) (fun _ _ => True) [] := by
  refine ⟨⟨nofun,nofun,nofun⟩,fun answer => ?_⟩
  rcases answer with _ | found
  · exact along_fail
  refine ⟨fits_plain rfl,fun cur => ?_⟩
  have heard : heardGen [⟨.getGen,.ok found⟩] = some (found.getD 0) := rfl
  rcases cur with _ | _
  · exact along_reload (heardGen_append heard)
  dsimp only [Program.bind]
  split
  · refine ⟨fits_plain rfl,fun now => ?_⟩
    dsimp only [Program.bind]
    split
    · exact ⟨fits_plain rfl,fun _ => trivial⟩
    · exact along_reload (heardGen_append (heardGen_append heard))
  · exact along_reload (heardGen_append heard)

theorem along_program (task : Task) :
    (program codec task).Along (Fits codec) (fun _ _ => True) [] := by
  have mapped {Result : Type} {call : Call Result} (ended : Result → Ended)
      (along : call.Along (Fits codec) (fun _ _ => True) []) :
      (ended <$> call).Along (Fits codec) (fun _ _ => True) [] :=
    Program.along_bind (along.mono fun _ _ _ => trivial)
  cases task with
  | publish projects => exact mapped _ along_publish
  | publishKeyring | publishEventsKeyring => exact mapped _ along_publishKeyringAt
  | publishDebug watch => exact mapped _ along_publishDebug
  | publishWelcome w => exact mapped _ along_publishWelcome
  | poll => exact mapped _ along_poll

end Callers

def published (pool : Plane) : Published Redis :=
  { generation := pool.world.gen
    contents := pool.world.redis
    pending := ∃ flight ∈ pool.flights, Between flight.heard }

structure Sound (codec : Codec) (pool : Plane) : Prop where
  along : ∀ flight ∈ pool.flights,
    flight.rest.Along (Fits codec) (fun _ _ => True) flight.heard
  heard : ∀ flight ∈ pool.flights, ∀ gen, heardGen flight.heard = some gen →
    (published pool).Fresh gen fun redis => ∀ exchange ∈ flight.heard, agrees redis exchange
  cached : ∀ config, pool.world.cfg = some config →
    (published pool).Fresh config.gen fun redis => Current codec redis config

section Steps

variable {codec : Codec} {pool : Plane}

structure SameConfig (before after : Redis) : Prop where
  gen : after.gen = before.gen
  projects : before.projects.Perm after.projects
  strings : ∀ key, configKey key = true → after.strings key = before.strings key

variable {exchange : Exchange Answer}

variable {before after : Redis} {world : World} {index : Nat} {flight : Flight Task Answer Ended}

theorem agrees_sameConfig (same : SameConfig before after)
    (told : agrees before exchange) : agrees after exchange := by
  obtain ⟨command,answer⟩ := exchange
  cases command with
  | get key =>
    rcases answer with error | _
    · trivial
    intro isConfig
    rw [same.strings key isConfig]
    exact told isConfig
  | mGet =>
    rcases answer with error | _
    · trivial
    intro areConfig
    rw [map_congr_left fun key mem => same.strings key (areConfig key mem)]
    exact told areConfig
  | sMembers =>
    rcases answer with _ | _
    · trivial
    · exact Perm.trans told same.projects
  | _ => trivial

theorem current_sameConfig (same : SameConfig before after)
    {config : Config} (current : Current codec before config) : Current codec after config := by
  obtain ⟨⟨ids,listed,projects⟩,keys,watched,welcome⟩ := current
  have project : after.project codec = before.project codec := by
    funext id
    have areConfig := configKey_projectKeys [id]
    unfold Redis.project
    rw [same.strings (shapesKey id) (areConfig _ (by simp [projectKeys])),
      same.strings (modeKey id) (areConfig _ (by simp [projectKeys]))]
  refine ⟨⟨ids,listed.trans same.projects,?_⟩,?_,?_,?_⟩
  · rw [project]
    exact projects
  · rw [same.strings keyringKey (by decide)]
    exact keys
  · rw [same.strings debugKey (by decide)]
    exact watched
  · rw [same.strings welcomeKey (by decide)]
    exact welcome

theorem Sound.outside {move : Outside} (sound : Sound codec pool)
    (taken : Claims.outside pool.world move = some world) :
    Sound codec { pool with world := world } := by
  have same : SameConfig pool.world.redis world.redis ∧ world.cfg = pool.world.cfg := by
    cases move with
    | wait =>
      cases taken
      exact ⟨⟨rfl,Perm.refl _,fun _ _ => rfl⟩,rfl⟩
    | relist =>
      rw [Claims.outside] at taken
      split at taken
      · next isPerm =>
        cases taken
        exact ⟨⟨rfl,isPerm.symm,fun _ _ => rfl⟩,rfl⟩
      · cases taken
    | elsewhere key =>
      rw [Claims.outside] at taken
      split at taken
      · cases taken
      rename_i isOther
      cases taken
      refine ⟨⟨rfl,Perm.refl _,fun other isConfig => ?_⟩,rfl⟩
      exact if_neg fun isKey : other = key => isOther (isKey ▸ isConfig)
  obtain ⟨same,kept⟩ := same
  have stands : world.gen = pool.world.gen := by
    unfold World.gen
    rw [same.gen]
  refine ⟨sound.along,fun flight mem gen found => ?_,fun config isCached => ?_⟩
  · exact (sound.heard flight mem gen found).kept stands id fun told exchange inHeard =>
      agrees_sameConfig same (told exchange inHeard)
  · exact (sound.cached config (kept ▸ isCached)).kept stands id (current_sameConfig same)

theorem agrees_of_unread {redis : Redis} (unread : exchange.request.reads = false) :
    agrees redis exchange := by
  obtain ⟨command,_⟩ := exchange
  cases command with
  | get | mGet | sMembers => cases unread
  | _ => trivial

theorem between_append {heard : List (Exchange Answer)} (unwritten : wrote exchange = false)
    (unmoved : moved exchange = false) :
    Between (heard ++ [exchange]) ↔ Between heard := by
  unfold Between
  simp only [any_append,any_cons,any_nil,unwritten,unmoved,Bool.or_false]

theorem fresh_advance {rest : Call Ended} (found : pool.flights[index]? = some flight)
    (fits : Fits codec flight.heard exchange.request) (does : Does pool.world world exchange)
    {gen : Int} {taken later : Redis → Prop} (fresh : (published pool).Fresh gen taken)
    (kept : agrees pool.world.redis exchange → taken pool.world.redis → later pool.world.redis) :
    (published
      { world := world
        flights := pool.flights.set index
          { flight with heard := flight.heard ++ [exchange], rest := rest } }).Fresh gen later := by
  have bound := (List.getElem?_eq_some_iff.mp found).1
  have advanced : { flight with heard := flight.heard ++ [exchange], rest := rest } ∈
      pool.flights.set index
        { flight with heard := flight.heard ++ [exchange], rest := rest } :=
    mem_set bound _
  cases does with
  | quiet same unwritten unmoved told =>
    refine fresh.kept ?_ ?_ ?_
    · change world.gen = pool.world.gen
      unfold World.gen
      rw [same]
    · rintro ⟨other,mem,between⟩
      obtain ⟨place,there⟩ := mem_iff_getElem?.mp mem
      by_cases here : place = index
      · cases here
        cases found.symm.trans there
        exact ⟨_,advanced,(between_append unwritten unmoved).mpr between⟩
      · refine ⟨other,mem_iff_getElem?.mpr ⟨place,?_⟩,between⟩
        rw [getElem?_set_ne (Ne.symm here)]
        exact there
    · intro holds
      change later world.redis
      rw [same]
      exact kept told holds
  | writes isWrite written unmoved stands =>
    refine fresh.written stands ⟨_,advanced,?_,?_⟩
    · rw [any_append,any_cons,written,Bool.true_or,Bool.or_true]
    · rw [any_append,fits.beforeMove isWrite,any_cons,unmoved]
      rfl
  | moves moved => exact fresh.moved moved

theorem Sound.advance {command : Command}
    {rest : Answer command → Call Ended} (mishap : Option RedisError) (sound : Sound codec pool)
    (found : pool.flights[index]? = some flight) (asking : flight.rest = .ask command rest) :
    Sound codec
      { world := (answer pool.world command mishap).2
        flights := pool.flights.set index
          { flight with
            heard := flight.heard ++ [⟨command,(answer pool.world command mishap).1⟩]
            rest := rest (answer pool.world command mishap).1 } } := by
  have mem := mem_of_getElem? found
  have along := sound.along flight mem
  rw [asking] at along
  obtain ⟨fits,goesOn⟩ := along
  have does := does_answer pool.world command mishap
  refine ⟨?_,?_,?_⟩
  · intro other inSet
    rcases mem_or_eq_of_mem_set inSet with old | rfl
    · exact sound.along other old
    · exact goesOn _
  · intro other inSet gen isHeard
    rcases mem_or_eq_of_mem_set inSet with old | rfl
    · exact fresh_advance found fits does (sound.heard other old gen isHeard) fun _ told => told
    cases before : heardGen flight.heard with
    | some =>
      cases (heardGen_append before).symm.trans isHeard
      refine fresh_advance found fits does (sound.heard flight mem gen before) ?_
      intro told all exchange inHeard
      rcases mem_append.mp inHeard with old | new
      · exact all exchange old
      · cases mem_singleton.mp new
        exact told
    | none =>
      unfold heardGen at isHeard before
      rw [findSome?_append,before,findSome?_singleton] at isHeard
      obtain ⟨rfl,rfl⟩ := genOf_answer isHeard
      have unread := fits.genFirst rfl
      have now : (published pool).Fresh pool.world.gen
          (fun redis => ∀ exchange ∈ flight.heard, agrees redis exchange) :=
        fresh_now fun exchange inHeard => agrees_of_unread (unread exchange inHeard)
      refine fresh_advance found fits does now ?_
      intro told all exchange inHeard
      rcases mem_append.mp inHeard with old | new
      · exact all exchange old
      · cases mem_singleton.mp new
        exact told
  · intro config isCached
    rcases cfg_answer pool.world command mishap with same | ⟨_,rfl,isStored⟩
    · exact fresh_advance found fits does (sound.cached config (same ▸ isCached)) fun _ held => held
    cases isStored.symm.trans isCached
    obtain ⟨isHeard,follows⟩ := fits.stores config rfl
    exact fresh_advance found fits does (sound.heard flight mem config.gen isHeard)
      fun _ => follows _

theorem Sound.step {next : Plane} {move : Move Task Outside RedisError}
    (sound : Sound codec pool) (taken : Claims.step codec pool move = some next) :
    Sound codec next := by
  cases move with
  | begin task =>
    cases taken
    have pending : (∃ flight ∈ pool.flights, Between flight.heard) →
        ∃ flight ∈ pool.flights ++ [⟨task,[],program codec task⟩], Between flight.heard :=
      fun ⟨flight,mem,between⟩ => ⟨flight,mem_append_left _ mem,between⟩
    refine ⟨?_,?_,?_⟩
    · intro flight mem
      rcases mem_append.mp mem with old | new
      · exact sound.along flight old
      · cases mem_singleton.mp new
        exact along_program task
    · intro flight mem gen isHeard
      rcases mem_append.mp mem with old | new
      · exact (sound.heard flight old gen isHeard).kept rfl pending fun told => told
      · cases mem_singleton.mp new
        cases isHeard
    · intro config isCached
      exact (sound.cached config isCached).kept rfl pending fun held => held
  | advance _ mishap =>
    obtain ⟨_,_,_,found,asking,-,rfl⟩ := step_advance taken
    exact sound.advance mishap found asking
  | outside =>
    obtain ⟨_,moved,rfl⟩ := Option.map_eq_some_iff.mp taken
    exact sound.outside moved

end Steps

def startPlane (redis : Redis) (now : Time) : Plane :=
  { world :=
      { redis := redis, cfg := none, now := now, lastCheck := none, failures := 0, reloads := 0,
        lastErr := none }
    flights := [] }

theorem sound_startPlane (codec : Codec) (redis : Redis) (now : Time) :
    Sound codec (startPlane redis now) :=
  ⟨nofun,nofun,nofun⟩

/-- Whatever writers and polls run side by side, whenever the cached generation is the
one in Redis and no writer is between its write and its move, the cached configuration
is the one in Redis. -/
theorem upToDate_run (codec : Codec) (redis : Redis) (now : Time)
    (moves : List (Move Task Outside RedisError)) (final : Plane)
    (reached : Runs.run (step codec) (startPlane redis now) moves = some final) :
    UpToDate codec final := by
  have sound := Runs.run_keeps (Sound codec) Sound.step (sound_startPlane codec redis now) reached
  intro config isCached stands settled
  refine (sound.cached config isCached).current stands ?_
  rintro ⟨flight,mem,between⟩
  exact settled flight mem between

def plainCodec : Codec :=
  { encodeKeyring := fun k => some k.current
    encodeDebug := fun _ => none
    encodeWelcome := fun _ => none
    encodeShapes := fun _ => none
    encodeMode := fun _ => none
    keyring := fun text => some { Keyring.empty with current := text }
    debug := fun _ => []
    welcome := fun _ => none
    shapes := fun _ => none
    mode := fun _ => none }

def emptyRedis : Redis := { gen := none, projects := [], strings := fun _ => none }

def followedMoves : List (Move Task Outside RedisError) :=
  .begin .poll :: .advance 0 none ::
    .begin (.publishKeyring { Keyring.empty with current := "new" }) ::
    replicate 6 (.advance 0 none) ++ .advance 1 none :: replicate 3 (.advance 0 none) ++
    .advance 1 none :: .begin .poll :: replicate 10 (.advance 2 none)

theorem upToDate_followedMoves :
    ∃ final, Runs.run (step plainCodec) (startPlane emptyRedis 0) followedMoves = some final ∧
      final.world.gen = 1 ∧
      (final.world.cfg.map fun config => (config.gen, config.keys.current)) = some (1, "new") ∧
      UpToDate plainCodec final := by
  refine Runs.exists_reached_both (by decide +kernel) fun final reached _ _ => ?_
  exact upToDate_run plainCodec emptyRedis 0 followedMoves final reached

end Syndra.Claims
