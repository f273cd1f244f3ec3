/-
Programs that ask requests and go on with the answers.

A world answers a request and may change in doing so, and something may go wrong with an
answer.
-/

import Syndra.Foundation.Places

namespace Syndra.Foundation.Programs

open List

inductive Program (Request : Type) (Answer : Request → Type) (Result : Type) : Type where
  | done (result : Result)
  | ask (request : Request) (rest : Answer request → Program Request Answer Result)

structure Exchange {Request : Type} (Answer : Request → Type) where
  request : Request
  answer : Answer request

variable {Request : Type} {Answer : Request → Type} {Result Other : Type}
variable {World Mishap Tag Outside : Type}

namespace Program

def bind : Program Request Answer Result → (Result → Program Request Answer Other) →
    Program Request Answer Other
  | .done result, next => next result
  | .ask request rest, next => .ask request fun answer => (rest answer).bind next

instance : Monad (Program Request Answer) where
  pure := .done
  bind := bind

@[simp] theorem done_bind (result : Result) (next : Result → Program Request Answer Other) :
    (Program.done result >>= next) = next result := rfl

@[simp] theorem ask_bind (request : Request)
    (rest : Answer request → Program Request Answer Result)
    (next : Result → Program Request Answer Other) :
    (Program.ask request rest >>= next) = .ask request fun answer => rest answer >>= next := rfl

variable {next : Result → Program Request Answer Other} {program : Program Request Answer Result}

theorem bind_assoc {Last : Type} {last : Other → Program Request Answer Last} :
    (program >>= next >>= last) = program >>= fun result => next result >>= last := by
  induction program with
  | done => rfl
  | ask _ _ ih =>
    rw [ask_bind,ask_bind]
    congr 1
    funext answer
    exact ih answer

/-- Every request the program can come to ask is one of these. -/
def Only (allowed : Request → Prop) : Program Request Answer Result → Prop
  | .done _ => True
  | .ask request rest => allowed request ∧ ∀ answer, (rest answer).Only allowed

variable {allowed : Request → Prop} {fits : List (Exchange Answer) → Request → Prop}
  {heard : List (Exchange Answer)}

theorem only_bind (first : program.Only allowed) (later : ∀ result, (next result).Only allowed) :
    (program >>= next).Only allowed := by
  induction program with
  | done result => exact later result
  | ask _ _ ih => exact ⟨first.1,fun answer => ih answer (first.2 answer)⟩

variable {Error : Type} {ending : Other → List (Exchange Answer) → Prop}

theorem only_except {program : Program Request Answer (Except Error Result)}
    {next : Except Error Result → Program Request Answer Other} (first : program.Only allowed)
    (failed : ∀ failure, (next (.error failure)).Only allowed)
    (later : ∀ result, (next (.ok result)).Only allowed) : (program >>= next).Only allowed := by
  refine only_bind first fun result => ?_
  cases result with
  | error failure => exact failed failure
  | ok result => exact later result

theorem only_ite {condition : Prop} [Decidable condition]
    {first second : Program Request Answer Result} (one : first.Only allowed)
    (other : second.Only allowed) : (if condition then first else second).Only allowed := by
  split
  · exact one
  · exact other

theorem Only.mono {wider : Request → Prop} (only : program.Only allowed)
    (within : ∀ request, allowed request → wider request) :
    program.Only wider := by
  induction program with
  | done => trivial
  | ask request _ ih => exact ⟨within request only.1,fun answer => ih answer (only.2 answer)⟩

def Returns (ending : Result → Prop) : Program Request Answer Result → Prop
  | .done result => ending result
  | .ask _ rest => ∀ answer, (rest answer).Returns ending

theorem returns_bind {middle : Result → Prop} {ending : Other → Prop}
    (first : program.Returns middle)
    (later : ∀ result, middle result → (next result).Returns ending) :
    (program >>= next).Returns ending := by
  induction program with
  | done result => exact later result first
  | ask _ _ ih => exact fun answer => ih answer (first answer)

theorem returns_true : program.Returns fun _ => True := by
  induction program with
  | done => trivial
  | ask _ _ ih => exact ih

/-- Whatever it is answered, each request fits what was heard before it, and the end
fits all that was heard. -/
def Along (fits : List (Exchange Answer) → Request → Prop)
    (ending : Result → List (Exchange Answer) → Prop) :
    Program Request Answer Result → List (Exchange Answer) → Prop
  | .done result, heard => ending result heard
  | .ask request rest, heard =>
    fits heard request ∧ ∀ answer, (rest answer).Along fits ending (heard ++ [⟨request,answer⟩])

theorem along_bind
    (along : program.Along fits (fun result later => (next result).Along fits ending later) heard) :
    (program >>= next).Along fits ending heard := by
  induction program generalizing heard with
  | done => exact along
  | ask _ _ ih => exact ⟨along.1,fun answer => ih answer (along.2 answer)⟩

theorem Along.mono {ending weaker : Result → List (Exchange Answer) → Prop}
    (along : program.Along fits ending heard)
    (gives : ∀ result later, ending result later → weaker result later) :
    program.Along fits weaker heard := by
  induction program generalizing heard with
  | done result => exact gives result heard along
  | ask _ _ ih => exact ⟨along.1,fun answer => ih answer (along.2 answer)⟩

theorem along_except {program : Program Request Answer (Except Error Result)}
    {next : Except Error Result → Program Request Answer Other}
    {middle : Except Error Result → List (Exchange Answer) → Prop}
    (along : program.Along fits middle heard)
    (failed : ∀ failure later, middle (.error failure) later →
      (next (.error failure)).Along fits ending later)
    (rest : ∀ result later, middle (.ok result) later →
      (next (.ok result)).Along fits ending later) : (program >>= next).Along fits ending heard := by
  refine along_bind (along.mono fun result later ends => ?_)
  cases result with
  | error failure => exact failed failure later ends
  | ok result => exact rest result later ends

theorem along_of_only {kept : List (Exchange Answer) → Prop}
    (fitting : ∀ heard request, allowed request → fits heard request)
    (keeps : ∀ heard request answer, allowed request → kept heard →
      kept (heard ++ [⟨request,answer⟩])) (only : program.Only allowed) (starts : kept heard) :
    program.Along fits (fun _ later => kept later) heard := by
  induction program generalizing heard with
  | done => exact starts
  | ask request _ ih =>
    exact ⟨fitting heard request only.1,
      fun answer => ih answer (only.2 answer) (keeps heard request answer only.1 starts)⟩

end Program

/-- The program run alone: what it asked and heard, what it returned, and the
world it left. Any request may have met with a mishap. -/
inductive Ran (answer : World → (request : Request) → Option Mishap → Answer request × World) :
    Program Request Answer Result → World → List (Exchange Answer) → Result → World → Prop
  | done (result : Result) (world : World) : Ran answer (.done result) world [] result world
  | ask (request : Request) (rest : Answer request → Program Request Answer Result)
      (world final : World) (mishap : Option Mishap) (later : List (Exchange Answer))
      (result : Result) :
      Ran answer (rest (answer world request mishap).1) (answer world request mishap).2
        later result final →
      Ran answer (.ask request rest) world
        (⟨request,(answer world request mishap).1⟩ :: later) result final

/-- The run in which nothing goes wrong. -/
def perform (effect : World → (request : Request) → Answer request × World) :
    Program Request Answer Result → World → List (Exchange Answer) × Result × World
  | .done result, world => ([], result, world)
  | .ask request rest, world =>
    let later := perform effect (rest (effect world request).1) (effect world request).2
    (⟨request,(effect world request).1⟩ :: later.1, later.2)

section Perform

variable {effect : World → (request : Request) → Answer request × World}

@[simp] theorem perform_ask (request : Request)
    (rest : Answer request → Program Request Answer Result) (world : World) :
    perform effect (.ask request rest) world = (⟨request,(effect world request).1⟩ ::
          (perform effect (rest (effect world request).1) (effect world request).2).1,
        (perform effect (rest (effect world request).1) (effect world request).2).2) := rfl

variable {program : Program Request Answer Result}

theorem perform_bind {next : Result → Program Request Answer Other} {world : World} :
    perform effect (program >>= next) world = ((perform effect program world).1 ++
          (perform effect (next (perform effect program world).2.1)
            (perform effect program world).2.2).1,
        (perform effect (next (perform effect program world).2.1)
          (perform effect program world).2.2).2) := by
  induction program generalizing world with
  | done => rfl
  | ask _ _ ih =>
    rw [Program.ask_bind,perform_ask,ih]
    rfl

theorem Program.Returns.perform {ending : Result → Prop}
    (returns : program.Returns ending) (world : World) :
    ending (perform effect program world).2.1 := by
  induction program generalizing world with
  | done => exact returns
  | ask _ _ ih => exact ih _ (returns _) _

end Perform

section Alone

variable {answer : World → (request : Request) → Option Mishap → Answer request × World}

theorem ran_perform {effect : World → (request : Request) → Answer request × World}
    (plain : ∀ world request, answer world request none = effect world request)
    (program : Program Request Answer Result) (world : World) :
    Ran answer program world (perform effect program world).1
      (perform effect program world).2.1 (perform effect program world).2.2 := by
  induction program generalizing world with
  | done result => exact Ran.done result world
  | ask request rest ih =>
    have ran := Ran.ask request rest world _ none _ _ (ih (answer world request none).1 _)
    rw [plain] at ran
    exact ran

variable {exchanges : List (Exchange Answer)} {final world : World} {result : Result}

theorem ran_done {other : Result}
    (ran : Ran answer (Program.done result : Program Request Answer Result) world exchanges
      other final) : other = result ∧ final = world := by
  cases ran
  exact ⟨rfl,rfl⟩

theorem ran_ask {request : Request} {rest : Answer request → Program Request Answer Result}
    (ran : Ran answer (.ask request rest) world exchanges result final) :
    ∃ mishap later, exchanges = ⟨request,(answer world request mishap).1⟩ :: later ∧
      Ran answer (rest (answer world request mishap).1) (answer world request mishap).2
        later result final := by
  cases ran with
  | ask _ _ _ _ mishap later _ ran => exact ⟨mishap,later,rfl,ran⟩

variable {program : Program Request Answer Result}

theorem ran_bind {next : Result → Program Request Answer Other} {result : Other}
    (ran : Ran answer (program >>= next) world exchanges result final) :
    ∃ first middle value later, Ran answer program world first value middle ∧
      Ran answer (next value) middle later result final ∧ exchanges = first ++ later := by
  induction program generalizing world exchanges with
  | done value => exact ⟨[],world,value,exchanges,Ran.done value world,ran,rfl⟩
  | ask request rest ih =>
    obtain ⟨mishap,_,rfl,answered⟩ := ran_ask ran
    obtain ⟨first,middle,value,later,ranFirst,ranLater,rfl⟩ := ih _ answered
    exact ⟨_ :: first,middle,value,later,
      Ran.ask request rest world middle mishap first value ranFirst,ranLater,rfl⟩

theorem Ran.only {allowed : Request → Prop}
    (only : program.Only allowed) (ran : Ran answer program world exchanges result final) :
    ∀ exchange ∈ exchanges, allowed exchange.request := by
  induction ran with
  | done =>
    intro exchange mem
    cases mem
  | ask _ _ _ _ _ _ _ _ ih =>
    intro exchange mem
    rcases mem_cons.mp mem with rfl | inLater
    · exact only.1
    · exact ih (only.2 _) exchange inLater

end Alone

structure Flight (Tag : Type) (Answer : Request → Type) (Result : Type) where
  tag : Tag
  heard : List (Exchange Answer)
  rest : Program Request Answer Result

def Flight.asks (flight : Flight Tag Answer Result) : Option Request :=
  match flight.rest with
  | .done _ => none
  | .ask request _ => some request

structure Pool (World Tag : Type) (Answer : Request → Type) (Result : Type) where
  world : World
  flights : List (Flight Tag Answer Result)

inductive Move (Tag Outside Mishap : Type) where
  | begin (tag : Tag)
  | advance (index : Nat) (mishap : Option Mishap)
  | outside (move : Outside)

def Flight.answered
    (answer : World → (request : Request) → Option Mishap → Answer request × World)
    (flight : Flight Tag Answer Result) (world : World) (mishap : Option Mishap) :
    Option (Flight Tag Answer Result × World) :=
  match flight.rest with
  | .done _ => none
  | .ask request rest =>
    some ({ flight with
      heard := flight.heard ++ [⟨request,(answer world request mishap).1⟩]
      rest := rest (answer world request mishap).1 }, (answer world request mishap).2)

def step (answer : World → (request : Request) → Option Mishap → Answer request × World)
    (program : Tag → Program Request Answer Result) (outside : World → Outside → Option World)
    (pool : Pool World Tag Answer Result) :
    Move Tag Outside Mishap → Option (Pool World Tag Answer Result)
  | .begin tag =>
    some { pool with flights := pool.flights ++ [⟨tag,[],program tag⟩] }
  | .advance index mishap =>
    match pool.flights[index]? with
    | none => none
    | some flight =>
      (flight.answered answer pool.world mishap).map fun next =>
        { world := next.2
          flights := pool.flights.set index next.1 }
  | .outside move =>
    (outside pool.world move).map fun world => { pool with world := world }

theorem step_advance
    {answer : World → (request : Request) → Option Mishap → Answer request × World}
    {program : Tag → Program Request Answer Result} {outside : World → Outside → Option World}
    {pool next : Pool World Tag Answer Result} {index : Nat} {mishap : Option Mishap}
    (taken : step answer program outside pool (.advance index mishap) = some next) :
    ∃ (flight : Flight Tag Answer Result) (request : Request)
      (rest : Answer request → Program Request Answer Result),
      pool.flights[index]? = some flight ∧ flight.rest = .ask request rest ∧
      flight.asks = some request ∧
      next =
        { world := (answer pool.world request mishap).2
          flights := pool.flights.set index
            { flight with
              heard := flight.heard ++ [⟨request,(answer pool.world request mishap).1⟩]
              rest := rest (answer pool.world request mishap).1 } } := by
  simp only [step] at taken
  cases found : pool.flights[index]? with
  | none =>
    rw [found] at taken
    cases taken
  | some flight =>
    rw [found] at taken
    obtain ⟨_,went,rfl⟩ := Option.map_eq_some_iff.mp taken
    unfold Flight.answered at went
    cases asking : flight.rest with
    | done =>
      rw [asking] at went
      cases went
    | ask request rest =>
      rw [asking] at went
      cases went
      refine ⟨flight,request,rest,rfl,asking,?_,rfl⟩
      unfold Flight.asks
      rw [asking]

/-- How programs in flight and the outside are to behave. `Apart` is asked of
programs in flight together, `Meets` of a request where it is asked, and `Spares`
of a request and what another program in flight has heard. -/
structure Conduct (World Tag Outside : Type) {Request : Type} (Answer : Request → Type) where
  Apart : Tag → Tag → Prop
  Meets : Tag → World → Request → Prop
  Spares : Tag → List (Exchange Answer) → Request → Prop
  OutsideMeets : World → Outside → Prop
  OutsideSpares : Tag → List (Exchange Answer) → World → Outside → Prop

def Conduct.Allows (conduct : Conduct World Tag Outside Answer)
    (pool : Pool World Tag Answer Result) : Move Tag Outside Mishap → Prop
  | .begin tag =>
    ∀ flight ∈ pool.flights, flight.asks.isSome → conduct.Apart flight.tag tag
  | .advance index _ =>
    ∀ flight ∈ pool.flights[index]?, ∀ request ∈ flight.asks,
      conduct.Meets flight.tag pool.world request ∧
        ∀ entry ∈ pool.flights.zipIdx, entry.2 ≠ index → entry.1.asks.isSome →
          conduct.Spares entry.1.tag entry.1.heard request
  | .outside move =>
    conduct.OutsideMeets pool.world move ∧ ∀ flight ∈ pool.flights, flight.asks.isSome →
        conduct.OutsideSpares flight.tag flight.heard pool.world move

/-- What the programs are proved against: an invariant of the world, what each
may rely on between its requests, what it guarantees with one, and what has to
hold where it asks. -/
structure Discipline
    (answer : World → (request : Request) → Option Mishap → Answer request × World)
    (conduct : Conduct World Tag Outside Answer) where
  Holds : World → Prop
  Rely : Tag → List (Exchange Answer) → World → World → Prop
  Guarantee : Tag → Request → World → World → Prop
  Safe : Tag → World → Request → Prop
  rely_refl : ∀ tag heard world, Rely tag heard world world
  rely_trans : ∀ {tag heard first second third}, Rely tag heard first second →
    Rely tag heard second third → Rely tag heard first third
  rely_of_guarantee : ∀ {tag other heard request before after}, Holds after →
    Guarantee tag request before after → conduct.Apart other tag →
      conduct.Spares other heard request → Rely other heard before after

section Rule

variable {answer : World → (request : Request) → Option Mishap → Answer request × World}
variable {conduct : Conduct World Tag Outside Answer}

/-- From this world on, whatever the others do, the program asks only what is
safe to ask, keeps the invariant and its guarantee, and ends as stated. -/
def Discipline.Upholds (rules : Discipline answer conduct) (tag : Tag) :
    Program Request Answer Result → List (Exchange Answer) → World →
      (Result → List (Exchange Answer) → World → Prop) → Prop
  | .done result, heard, world, ending =>
    ∀ later, rules.Rely tag heard world later → rules.Holds later → ending result heard later
  | .ask request rest, heard, world, ending =>
    ∀ later, rules.Rely tag heard world later → rules.Holds later →
      rules.Safe tag later request ∧ (conduct.Meets tag later request → ∀ mishap,
        rules.Holds (answer later request mishap).2 ∧
        rules.Guarantee tag request later (answer later request mishap).2 ∧
        Discipline.Upholds rules tag (rest (answer later request mishap).1)
          (heard ++ [⟨request,(answer later request mishap).1⟩])
          (answer later request mishap).2 ending)

namespace Discipline

variable {rules : Discipline answer conduct} {tag : Tag}

variable {ending : Result → List (Exchange Answer) → World → Prop} {heard : List (Exchange Answer)}
  {program : Program Request Answer Result} {world : World}

theorem Upholds.later {after : World} (upholds : rules.Upholds tag program heard world ending)
    (relied : rules.Rely tag heard world after) :
    rules.Upholds tag program heard after ending := by
  cases program with
  | done | ask =>
    intro later further
    exact upholds later (rules.rely_trans relied further)

theorem Upholds.ite {condition : Prop} [Decidable condition]
    {first second : Program Request Answer Result}
    (one : condition → rules.Upholds tag first heard world ending)
    (other : ¬ condition → rules.Upholds tag second heard world ending) :
    rules.Upholds tag (if condition then first else second) heard world ending := by
  split
  · next holds => exact one holds
  · next fails => exact other fails

theorem Upholds.mono {weaker : Result → List (Exchange Answer) → World → Prop}
    (upholds : rules.Upholds tag program heard world ending)
    (gives : ∀ result heard world, rules.Holds world → ending result heard world →
      weaker result heard world) :
    rules.Upholds tag program heard world weaker := by
  induction program generalizing heard world with
  | done result =>
    intro later relied holds
    exact gives result heard later holds (upholds later relied holds)
  | ask _ rest ih =>
    intro later relied holds
    obtain ⟨safe,answered⟩ := upholds later relied holds
    refine ⟨safe,fun meets mishap => ?_⟩
    obtain ⟨kept,guaranteed,rest⟩ := answered meets mishap
    exact ⟨kept,guaranteed,ih _ rest⟩

theorem Upholds.bind {next : Result → Program Request Answer Other}
    {ending : Other → List (Exchange Answer) → World → Prop} (holds : rules.Holds world)
    (upholds : rules.Upholds tag program heard world fun result heard world =>
      rules.Upholds tag (next result) heard world ending) :
    rules.Upholds tag (program >>= next) heard world ending := by
  induction program generalizing heard world with
  | done => exact upholds world (rules.rely_refl tag heard world) holds
  | ask _ rest ih =>
    intro later relied holdsLater
    obtain ⟨safe,answered⟩ := upholds later relied holdsLater
    refine ⟨safe,fun meets mishap => ?_⟩
    obtain ⟨kept,guaranteed,rest⟩ := answered meets mishap
    exact ⟨kept,guaranteed,ih _ kept rest⟩

end Discipline

/-- Every program in flight upholds the rules from here, and no two of them are
together that must not be. -/
structure Discipline.Sound (rules : Discipline answer conduct)
    (pool : Pool World Tag Answer Result) : Prop where
  holds : rules.Holds pool.world
  upholds : ∀ flight ∈ pool.flights,
    rules.Upholds flight.tag flight.rest flight.heard pool.world fun _ _ _ => True
  apart : ∀ (first second : Nat) (one another : Flight Tag Answer Result),
    pool.flights[first]? = some one → pool.flights[second]? = some another → first ≠ second →
      one.asks.isSome → another.asks.isSome → conduct.Apart one.tag another.tag

namespace Discipline

variable {rules : Discipline answer conduct}

variable {flight : Flight Tag Answer Result} {pool : Pool World Tag Answer Result}

private theorem upholds_of_not_asks {world : World} (idle : ¬ flight.asks.isSome) :
    rules.Upholds flight.tag flight.rest flight.heard world fun _ _ _ => True := by
  obtain ⟨_,_,rest⟩ := flight
  cases rest with
  | done => intro _ _ _; trivial
  | ask => exact absurd rfl idle

variable {after : World} {program : Tag → Program Request Answer Result} {request : Request}

private theorem upholds_kept {before : World}
    (upholds : rules.Upholds flight.tag flight.rest flight.heard before fun _ _ _ => True)
    (relied : flight.asks.isSome → rules.Rely flight.tag flight.heard before after) :
    rules.Upholds flight.tag flight.rest flight.heard after fun _ _ _ => True := by
  by_cases waits : flight.asks.isSome
  · exact upholds.later (relied waits)
  · exact upholds_of_not_asks waits

private theorem sound_begin {tag : Tag} (sound : rules.Sound pool)
    (symmetric : ∀ {one another}, conduct.Apart one another → conduct.Apart another one)
    (starts : rules.Upholds tag (program tag) [] pool.world fun _ _ _ => True)
    (apart : ∀ flight ∈ pool.flights, flight.asks.isSome → conduct.Apart flight.tag tag) :
    rules.Sound { pool with flights := pool.flights ++ [⟨tag,[],program tag⟩] } := by
  refine ⟨sound.holds,?_,?_⟩
  · intro flight mem
    rcases mem_append.mp mem with old | new
    · exact sound.upholds flight old
    · cases mem_singleton.mp new
      exact starts
  · intro first second one another atFirst atSecond different oneAsks anotherAsks
    rcases Places.of_append atFirst with oldFirst | ⟨rfl,rfl⟩
    · rcases Places.of_append atSecond with oldSecond | ⟨rfl,rfl⟩
      · exact sound.apart first second one another oldFirst oldSecond different oneAsks anotherAsks
      · exact apart one (mem_of_getElem? oldFirst) oneAsks
    · rcases Places.of_append atSecond with oldSecond | ⟨rfl,rfl⟩
      · exact symmetric (apart another (mem_of_getElem? oldSecond) anotherAsks)
      · exact absurd rfl different

private theorem sound_advance {index : Nat}
    {rest : Answer request → Program Request Answer Result} {mishap : Option Mishap}
    (sound : rules.Sound pool) (found : pool.flights[index]? = some flight)
    (asking : flight.rest = .ask request rest) (meets : conduct.Meets flight.tag pool.world request)
    (spares : ∀ entry ∈ pool.flights.zipIdx, entry.2 ≠ index → entry.1.asks.isSome →
      conduct.Spares entry.1.tag entry.1.heard request) :
    rules.Sound
      { world := (answer pool.world request mishap).2
        flights := pool.flights.set index
          { flight with
            heard := flight.heard ++ [⟨request,(answer pool.world request mishap).1⟩]
            rest := rest (answer pool.world request mishap).1 } } := by
  have waits : flight.asks.isSome := by
    unfold Flight.asks
    rw [asking]
    rfl
  have upheld := sound.upholds flight (mem_of_getElem? found)
  rw [asking] at upheld
  obtain ⟨-,answered⟩ := upheld pool.world (rules.rely_refl _ _ _) sound.holds
  obtain ⟨kept,guaranteed,goesOn⟩ := answered meets mishap
  refine ⟨kept,?_,?_⟩
  · intro other mem
    obtain ⟨place,bound,rfl⟩ := getElem_of_mem mem
    rw [length_set] at bound
    rw [getElem_set]
    split
    · exact goesOn
    rename_i elsewhere
    have there : pool.flights[place]? = some pool.flights[place] := getElem?_eq_getElem bound
    refine upholds_kept (sound.upholds _ (getElem_mem bound)) fun otherWaits => ?_
    exact rules.rely_of_guarantee kept guaranteed
      (sound.apart place index _ _ there found (Ne.symm elsewhere) otherWaits waits)
      (spares (pool.flights[place], place)
        (mk_mem_zipIdx_iff_getElem?.mpr there) (Ne.symm elsewhere) otherWaits)
  · intro first second one another atFirst atSecond different oneAsks anotherAsks
    have before {place : Nat} {other : Flight Tag Answer Result}
        (there : (pool.flights.set index
          { flight with
            heard := flight.heard ++ [⟨request,(answer pool.world request mishap).1⟩]
            rest := rest (answer pool.world request mishap).1 })[place]? = some other)
        (otherAsks : other.asks.isSome) :
        ∃ old, pool.flights[place]? = some old ∧ old.tag = other.tag ∧ old.asks.isSome := by
      rcases Places.of_set there with ⟨rfl,rfl⟩ | ⟨-,elsewhere⟩
      · exact ⟨flight,found,rfl,waits⟩
      · exact ⟨other,elsewhere,rfl,otherAsks⟩
    obtain ⟨oldOne,wasOne,tagOne,askedOne⟩ := before atFirst oneAsks
    obtain ⟨oldAnother,wasAnother,tagAnother,askedAnother⟩ := before atSecond anotherAsks
    rw [← tagOne,← tagAnother]
    exact sound.apart first second oldOne oldAnother wasOne wasAnother different askedOne
      askedAnother

private theorem sound_outside (sound : rules.Sound pool) (holds : rules.Holds after)
    (relied : ∀ flight ∈ pool.flights, flight.asks.isSome →
      rules.Rely flight.tag flight.heard pool.world after) :
    rules.Sound { pool with world := after } :=
  ⟨holds,fun flight mem => upholds_kept (sound.upholds flight mem) (relied flight mem), sound.apart⟩

/-- Programs that uphold the rules from wherever the invariant holds, among
outside moves that keep the invariant and what is relied on, keep the pool sound. -/
theorem sound_step {outside : World → Outside → Option World}
    (symmetric : ∀ {one another}, conduct.Apart one another → conduct.Apart another one)
    (starts : ∀ tag world, rules.Holds world →
      rules.Upholds tag (program tag) [] world fun _ _ _ => True)
    (keeps : ∀ world move after, rules.Holds world → conduct.OutsideMeets world move →
      outside world move = some after → rules.Holds after)
    (leaves : ∀ tag heard world move after, rules.Holds world →
      conduct.OutsideSpares tag heard world move → outside world move = some after →
        rules.Rely tag heard world after) {next : Pool World Tag Answer Result}
    {move : Move Tag Outside Mishap} (sound : rules.Sound pool) (allowed : conduct.Allows pool move)
    (taken : step answer program outside pool move = some next) : rules.Sound next := by
  cases move with
  | begin tag =>
    cases taken
    exact sound_begin sound symmetric (starts tag pool.world sound.holds) allowed
  | advance _ mishap =>
    obtain ⟨flight,request,_,found,asking,asks,rfl⟩ := step_advance taken
    obtain ⟨meets,spares⟩ := allowed flight found request asks
    exact sound_advance sound found asking meets spares
  | outside move =>
    obtain ⟨after,moved,rfl⟩ := Option.map_eq_some_iff.mp taken
    exact sound_outside sound (keeps _ move after sound.holds allowed.1 moved)
      fun flight mem waits => leaves _ _ _ move after sound.holds
        (allowed.2 flight mem waits) moved

theorem Sound.safe (sound : rules.Sound pool) (mem : flight ∈ pool.flights)
    (asks : flight.asks = some request) : rules.Safe flight.tag pool.world request := by
  have upheld := sound.upholds flight mem
  unfold Flight.asks at asks
  cases asking : flight.rest with
  | done =>
    rw [asking] at asks
    cases asks
  | ask =>
    rw [asking] at asks upheld
    cases asks
    exact (upheld pool.world (rules.rely_refl _ _ _) sound.holds).1

end Discipline

end Rule

end Syndra.Foundation.Programs
