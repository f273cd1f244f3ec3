/-
Publishing the configuration and polling it.

Writers and the data plane share keys in Redis and nothing else. A writer sets the keys and
moves the generation last.
-/

import Syndra.Claims.Config
import Syndra.Foundation.Programs

namespace Syndra.Claims

open Foundation.Programs

def keyringKey : String := "claims:keyring"
def eventsKeyringKey : String := "events:keyring"
def welcomeKey : String := "claims:welcome"
def debugKey : String := "claims:debug"
def shapesKey (projectID : String) : String := "claim_shapes:" ++ projectID
def modeKey (projectID : String) : String := "claim_mode:" ++ projectID

/-- What encoding to JSON gives, and what decoding leaves. A watch set is decoded as
far as it can be. -/
structure Codec where
  encodeKeyring : Keyring → Option String
  encodeDebug : List (String × DebugWatch) → Option String
  encodeWelcome : Welcome → Option String
  encodeShapes : ProjectShapes → Option String
  encodeMode : Mode → Option String
  keyring : String → Option Keyring
  debug : String → List (String × DebugWatch)
  welcome : String → Option Welcome
  shapes : String → Option ProjectShapes
  mode : String → Option Mode

structure Redis where
  gen : Option Int
  projects : List String
  strings : String → Option String

def Redis.set (redis : Redis) (pairs : List (String × String)) : Redis :=
  { redis with
    strings := pairs.foldl (fun strings pair key =>
      if key = pair.1 then some pair.2 else strings key) redis.strings }

def Redis.add (redis : Redis) (members : List String) : Redis :=
  { redis with
    projects := members.foldl (fun projects id =>
      if id ∈ projects then projects else projects ++ [id]) redis.projects }

/-- A command that did not take effect, or took effect and lost its answer. A caller
cannot tell them apart. -/
inductive RedisError where
  | refused
  | lost
deriving DecidableEq

inductive PollError where
  | gen
  | projects
  | keyring
  | debug
  | welcome
  | config
deriving DecidableEq

inductive Command where
  | getGen
  | get (key : String)
  | mGet (keys : List String)
  | sMembers
  | mSet (pairs : List (String × String))
  | sAdd (members : List String)
  | incr
  | loadCfg
  | storeCfg (config : Config)
  | now
  | ok
  | fail (error : PollError)
  | countReload

def Answer : Command → Type
  | .getGen => Except RedisError (Option Int)
  | .get _ => Except RedisError (Option String)
  | .mGet _ => Except RedisError (List (Option String))
  | .sMembers => Except RedisError (List String)
  | .mSet _ | .sAdd _ | .incr => Except RedisError Unit
  | .loadCfg => Option Config
  | .now => Time
  | .storeCfg _ | .ok | .fail _ | .countReload => Unit

structure World where
  redis : Redis
  cfg : Option Config
  now : Time
  lastCheck : Option Time
  failures : Nat
  reloads : Nat
  lastErr : Option PollError

def World.gen (world : World) : Int := world.redis.gen.getD 0

def maxGen : Int := 2 ^ 63 - 1

def World.canMove (world : World) : Bool := world.gen < maxGen

def effect (world : World) : (command : Command) → Answer command × World
  | .getGen => (.ok world.redis.gen, world)
  | .get key => (.ok (world.redis.strings key), world)
  | .mGet keys => (.ok (keys.map world.redis.strings), world)
  | .sMembers => (.ok world.redis.projects, world)
  | .mSet pairs => (.ok (), { world with redis := world.redis.set pairs })
  | .sAdd members => (.ok (), { world with redis := world.redis.add members })
  | .incr =>
    if world.canMove then
      (.ok (), { world with redis := { world.redis with gen := some (world.gen + 1) } })
    else (.error .refused, world)
  | .loadCfg => (world.cfg, world)
  | .storeCfg config => ((), { world with cfg := some config })
  | .now => (world.now, world)
  | .ok => ((), { world with lastCheck := some world.now, failures := 0 })
  | .fail error => ((), { world with failures := world.failures + 1, lastErr := some error })
  | .countReload => ((), { world with reloads := world.reloads + 1 })

def failed (error : RedisError) : (command : Command) → Option (Answer command)
  | .getGen | .get _ | .mGet _ | .sMembers | .mSet _ | .sAdd _ | .incr => some (.error error)
  | .loadCfg | .storeCfg _ | .now | .ok | .fail _ | .countReload => none

def blocked (world : World) : Command → Bool
  | .incr => !world.canMove
  | _ => false

/-- Only a command to Redis can fail, and one that is blocked has no effect to lose. -/
def answer (world : World) (command : Command) : Option RedisError → Answer command × World
  | none => effect world command
  | some error =>
    match failed error command with
    | none => effect world command
    | some answer =>
      if error = .refused then (answer, world)
      else if blocked world command then effect world command
      else (answer, (effect world command).2)

abbrev Call := Program Command Answer

def call (command : Command) : Call (Answer command) := .ask command .done

inductive PublishError where
  | encode
  | read
  | write
  | index
  | gen
deriving DecidableEq

def moveGen (changed : Nat) : Call (Except PublishError Nat) := do
  match ← call .incr with
  | .error _ => return .error .gen
  | .ok () => return .ok changed

def writeThrough (key value : String) : Call (Except PublishError Nat) := do
  match ← call (.mSet [(key, value)]) with
  | .error _ => return .error .write
  | .ok () => moveGen 1

section Programs

variable (codec : Codec)

def publishKeyringAt (key : String) (k : Keyring) : Call (Except PublishError Nat) :=
  match codec.encodeKeyring k with
  | none => return .error .encode
  | some value => writeThrough key value

def publishKeyring (k : Keyring) : Call (Except PublishError Nat) :=
  publishKeyringAt codec keyringKey k

def publishEventsKeyring (k : Keyring) : Call (Except PublishError Nat) :=
  publishKeyringAt codec eventsKeyringKey k

def publishDebug (watch : List (String × DebugWatch)) : Call (Except PublishError Nat) :=
  match codec.encodeDebug watch with
  | none => return .error .encode
  | some value => writeThrough debugKey value

def publishWelcome (w : Welcome) : Call (Except PublishError Nat) :=
  match codec.encodeWelcome w with
  | none => return .error .encode
  | some value => do
      match ← call (.get welcomeKey) with
      | .error _ => return .error .read
      | .ok found =>
        match found <|> codec.encodeWelcome Welcome.off with
        | none => return .error .read
        | some cur => if cur = value then return .ok 0 else writeThrough welcomeKey value

def changedProjects : List (String × Project) → List (Option String) →
    Except PublishError (List (String × String × String))
  | [], _ => .ok []
  | (id, project) :: rest, s :: m :: values =>
    match codec.encodeShapes project.shapes, codec.encodeMode project.mode with
    | some shapes, some mode => do
        let later ← changedProjects rest values
        if s.getD "" = shapes ∧ m.getD "" = mode then return later
        else return (id, shapes, mode) :: later
    | _, _ => .error .encode
  | _ :: _, _ => .error .read

def projectKeys (ids : List String) : List String :=
  ids.flatMap fun id => [shapesKey id,modeKey id]

def publish (projects : List (String × Project)) : Call (Except PublishError Nat) :=
  if projects.isEmpty then return .ok 0
  else do
    match ← call (.mGet (projectKeys (projects.map Prod.fst))) with
    | .error _ => return .error .read
    | .ok cur =>
      match changedProjects codec projects cur with
      | .error error => return .error error
      | .ok [] => return .ok 0
      | .ok (first :: more) =>
        let changed := first :: more
        let sets := changed.flatMap fun entry =>
          [(shapesKey entry.1, entry.2.1),(modeKey entry.1, entry.2.2)]
        match ← call (.mSet sets) with
        | .error _ => return .error .write
        | .ok () =>
          match ← call (.sAdd (changed.map Prod.fst)) with
          | .error _ => return .error .index
          | .ok () => moveGen changed.length

def readKeyring (value : Option String) : Keyring :=
  (value.bind codec.keyring).getD Keyring.empty

def readDebug (value : Option String) : List (String × DebugWatch) :=
  (value.map codec.debug).getD []

def readWelcome (value : Option String) : Welcome :=
  (value.bind codec.welcome).getD Welcome.off

/-- A project whose shapes cannot be read is left out; a mode that cannot be read fails
closed. -/
def readProject (id : String) (shapes mode : Option String) : Option (String × Project) :=
  if shapes.getD "" = "" then none
  else
    match codec.shapes (shapes.getD "") with
    | none => none
    | some ps =>
      if ps.default.lands = .unknown "" then none
      else
        let m := mode.getD ""
        let mode := if m = "" then Mode.unset else (codec.mode m).getD Mode.unset
        some (id, { shapes := ps, mode := mode })

def readProjects : List String → List (Option String) → List (String × Project)
  | id :: ids, shapes :: mode :: values =>
    match readProject codec id shapes mode with
    | none => readProjects ids values
    | some entry => entry :: readProjects ids values
  | _, _ => []

def load (gen : Int) : Call (Except PollError Config) := do
  match ← call .sMembers with
  | .error _ => return .error .projects
  | .ok ids =>
    let builtAt : Time ← call .now
    match ← call (.get keyringKey) with
    | .error _ => return .error .keyring
    | .ok kr =>
      match ← call (.get debugKey) with
      | .error _ => return .error .debug
      | .ok dw =>
        match ← call (.get welcomeKey) with
        | .error _ => return .error .welcome
        | .ok wv =>
          let cfg : Config :=
            { gen := gen
              builtAt := builtAt
              projects := []
              keys := readKeyring codec kr
              debug := readDebug codec dw
              welcome := readWelcome codec wv }
          if ids.isEmpty then return .ok cfg
          else
            match ← call (.mGet (projectKeys ids)) with
            | .error _ => return .error .config
            | .ok values =>
              return .ok { cfg with projects := readProjects codec ids values }

def reloadAtLeast : Time := 60 * second

def fail (error : PollError) : Call (Except PollError Unit) := do
  let _ ← call (.fail error)
  return .error error

def reload (gen : Int) : Call (Except PollError Unit) := do
  match ← load codec gen with
  | .error error => fail error
  | .ok cfg => do
      let _ ← call (.storeCfg cfg)
      let _ ← call .countReload
      let _ ← call .ok
      return .ok ()

def poll : Call (Except PollError Unit) := do
  match ← call .getGen with
  | .error _ => fail .gen
  | .ok found =>
    let gen := found.getD 0
    match ← call .loadCfg with
    | none => reload codec gen
    | some cur =>
      if cur.gen = gen then do
        let now : Time ← call .now
        if now - cur.builtAt < reloadAtLeast then do
          let _ ← call .ok
          return .ok ()
        else reload codec gen
      else reload codec gen

inductive Task where
  | publish (projects : List (String × Project))
  | publishKeyring (k : Keyring)
  | publishEventsKeyring (k : Keyring)
  | publishDebug (watch : List (String × DebugWatch))
  | publishWelcome (w : Welcome)
  | poll

inductive Ended where
  | published (result : Except PublishError Nat)
  | polled (result : Except PollError Unit)

def program : Task → Call Ended
  | .publish projects => .published <$> publish codec projects
  | .publishKeyring k => .published <$> publishKeyring codec k
  | .publishEventsKeyring k => .published <$> publishEventsKeyring codec k
  | .publishDebug watch => .published <$> publishDebug codec watch
  | .publishWelcome w => .published <$> publishWelcome codec w
  | .poll => .polled <$> poll codec

end Programs

def configKey (key : String) : Bool :=
  key ∈ [keyringKey,debugKey,welcomeKey] ||
    "claim_shapes:".toList.isPrefixOf key.toList || "claim_mode:".toList.isPrefixOf key.toList

/-- Time passes; Redis lists a set in another order; a key that holds no configuration
is written. -/
inductive Outside where
  | wait (time : Nat)
  | relist (projects : List String)
  | elsewhere (key value : String)
deriving DecidableEq

def outside (world : World) : Outside → Option World
  | .wait time => some { world with now := world.now + time }
  | .relist projects =>
    if projects.Perm world.redis.projects then
      some { world with redis := { world.redis with projects := projects } }
    else none
  | .elsewhere key value =>
    if configKey key then none
    else some { world with redis := world.redis.set [(key, value)] }

def step (codec : Codec) : Pool World Task Answer Ended → Move Task Outside RedisError →
    Option (Pool World Task Answer Ended) :=
  Foundation.Programs.step answer (program codec) outside

end Syndra.Claims
