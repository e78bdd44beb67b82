import Framewalk.TransitionSystem

/-!
# Programs that share a service and a cell

Several programs run side by side.  Each asks a common service one thing after
the other, waiting for the answers for ever or for a limited time, looks at the
service and at the clock, loads and stores a common cell and starts further jobs;
between any two of its steps the others may take theirs and time may pass.  A program
is confined when it asks only what is granted, stores only what its answers so
far justify, and starts only jobs that are admitted.  If every admitted job is
confined then so is whatever they do together.
-/

namespace SharedPrograms

open TransitionSystem

/-- Why an answer is no longer waited for: the time has run out, or the task that
asked has been dropped. -/
inductive Lapse where
  | timedOut
  | dropped

/-- For how long an answer is waited for, and whether a task of its own asks. -/
structure Patience where
  limit : Nat
  detached : Bool

/-- What is left of a program, by its next effect. -/
inductive Program (Service Request Reply Cell Job : Type) (α : Type) where
  | finish (result : α)
  | ask (request : Request) (resume : Reply → Program Service Request Reply Cell Job α)
  | askWithin (patience : Patience) (request : Request)
      (lapsed : Lapse → Program Service Request Reply Cell Job α)
      (resume : Reply → Program Service Request Reply Cell Job α)
  | look (resume : Service → Program Service Request Reply Cell Job α)
  | time (resume : Nat → Program Service Request Reply Cell Job α)
  | load (resume : Cell → Program Service Request Reply Cell Job α)
  | store (value : Cell) (rest : Program Service Request Reply Cell Job α)
  | fork (job : Job) (rest : Program Service Request Reply Cell Job α)

namespace Program

variable {Service Request Reply Cell Job α β : Type}

/-- One program after the other. -/
def bind (first : Program Service Request Reply Cell Job α)
    (second : α → Program Service Request Reply Cell Job β) :
    Program Service Request Reply Cell Job β :=
  match first with
  | .finish result => second result
  | .ask request resume => .ask request fun reply => (resume reply).bind second
  | .askWithin patience request lapsed resume =>
      .askWithin patience request (fun lapse => (lapsed lapse).bind second)
        fun reply => (resume reply).bind second
  | .look resume => .look fun service => (resume service).bind second
  | .time resume => .time fun now => (resume now).bind second
  | .load resume => .load fun value => (resume value).bind second
  | .store value rest => .store value (rest.bind second)
  | .fork job rest => .fork job (rest.bind second)

instance : Monad (Program Service Request Reply Cell Job) where
  pure := .finish
  bind := bind

/-- Ask the service and return its answer. -/
def asking (request : Request) : Program Service Request Reply Cell Job Reply :=
  .ask request .finish

/-- Ask the service, and return its answer unless it is no longer waited for. -/
def askingWithin (patience : Patience) (request : Request) :
    Program Service Request Reply Cell Job (Except Lapse Reply) :=
  .askWithin patience request (fun lapse => .finish (.error lapse)) fun reply => .finish (.ok reply)

/-- What the service shows at this moment. -/
def looking (view : Service → α) : Program Service Request Reply Cell Job α :=
  .look fun service => .finish (view service)

/-- What the clock shows at this moment. -/
def timing : Program Service Request Reply Cell Job Nat :=
  .time .finish

def loading : Program Service Request Reply Cell Job Cell :=
  .load .finish

def storing (value : Cell) : Program Service Request Reply Cell Job Unit :=
  .store value (.finish ())

def forking (job : Job) : Program Service Request Reply Cell Job Unit :=
  .fork job (.finish ())

/-- The program only looks, at the service and at the clock, and ends in such a
result. -/
def Quiet (results : α → Prop) : Program Service Request Reply Cell Job α → Prop
  | .finish result => results result
  | .look resume => ∀ service, (resume service).Quiet results
  | .time resume => ∀ now, (resume now).Quiet results
  | .ask _ _ | .askWithin _ _ _ _ | .load _ | .store _ _ | .fork _ _ => False

theorem Quiet.weaken {results weaker : α → Prop}
    {program : Program Service Request Reply Cell Job α} (quiet : program.Quiet results)
    (implies : ∀ result, results result → weaker result) : program.Quiet weaker := by
  induction program with
  | finish result => exact implies result quiet
  | look resume ih => exact fun service => ih service (quiet service)
  | time resume ih => exact fun now => ih now (quiet now)
  | ask | askWithin | load | store | fork => exact quiet.elim

theorem quiet_bind_iff {results : β → Prop} {first : Program Service Request Reply Cell Job α}
    {second : α → Program Service Request Reply Cell Job β} :
    (first.bind second).Quiet results ↔
      first.Quiet fun result => (second result).Quiet results := by
  induction first with
  | look resume ih => exact forall_congr' fun service => ih service
  | time resume ih => exact forall_congr' fun now => ih now
  | finish | ask | askWithin | load | store | fork => exact Iff.rfl

@[simp]
theorem quiet_do_iff {results : β → Prop} {first : Program Service Request Reply Cell Job α}
    {second : α → Program Service Request Reply Cell Job β} :
    (first >>= second).Quiet results ↔ first.Quiet fun result => (second result).Quiet results :=
  quiet_bind_iff

@[simp]
theorem quiet_pure_iff {results : α → Prop} {result : α} :
    (pure result : Program Service Request Reply Cell Job α).Quiet results ↔ results result :=
  Iff.rfl

@[simp]
theorem quiet_looking_iff {results : α → Prop} {view : Service → α} :
    (looking view : Program Service Request Reply Cell Job α).Quiet results ↔
      ∀ service, results (view service) :=
  Iff.rfl

@[simp]
theorem quiet_timing_iff {results : Nat → Prop} :
    (timing : Program Service Request Reply Cell Job Nat).Quiet results ↔ ∀ now, results now :=
  Iff.rfl

end Program

/-- Which requests have got which answers. -/
abbrev Knowledge (Request Reply : Type) :=
  Request → Reply → Prop

section Confined

variable {Service Request Reply Cell Job α β : Type}

/-- The knowledge that this answer has been added to. -/
def Knowledge.learn (known : Knowledge Request Reply) (request : Request) (reply : Reply) :
    Knowledge Request Reply :=
  fun other answer => known other answer ∨ other = request ∧ answer = reply

theorem Knowledge.learn_mono {known more : Knowledge Request Reply} (le : known ≤ more)
    (request : Request) (reply : Reply) : known.learn request reply ≤ more.learn request reply := by
  intro other answer isKnown
  exact isKnown.imp (le other answer) id

/-- What programs may do: ask what is granted, start what is admitted, and store
what is justified by answers.  More answers justify no less. -/
structure Discipline (Request Reply Cell Job : Type) where
  grants : Request → Prop
  admits : Job → Prop
  justifies : Knowledge Request Reply → Cell → Prop
  mono : ∀ {known more : Knowledge Request Reply} {value : Cell}, known ≤ more →
    justifies known value → justifies more value

variable (discipline : Discipline Request Reply Cell Job)

/-- Whatever it is answered, sees and loads, the program keeps the discipline, and
ends in the postcondition. -/
def Program.Confined (post : Knowledge Request Reply → α → Prop) :
    Knowledge Request Reply → Program Service Request Reply Cell Job α → Prop
  | known, .finish result => post known result
  | known, .ask request resume =>
      discipline.grants request ∧
        ∀ reply, (resume reply).Confined post (known.learn request reply)
  | known, .askWithin _ request lapsed resume =>
      discipline.grants request ∧ (∀ lapse, (lapsed lapse).Confined post known) ∧
        ∀ reply, (resume reply).Confined post (known.learn request reply)
  | known, .look resume => ∀ service, (resume service).Confined post known
  | known, .time resume => ∀ now, (resume now).Confined post known
  | known, .load resume =>
      ∀ more value, known ≤ more → discipline.justifies more value →
        (resume value).Confined post more
  | known, .store value rest => discipline.justifies known value ∧ rest.Confined post known
  | known, .fork job rest => discipline.admits job ∧ rest.Confined post known

variable {discipline}

theorem Program.Confined.weaken {post weaker : Knowledge Request Reply → α → Prop}
    {program : Program Service Request Reply Cell Job α} {known more : Knowledge Request Reply}
    (confined : program.Confined discipline post known) (le : known ≤ more)
    (implies : ∀ {known more : Knowledge Request Reply} {result : α}, known ≤ more →
      post known result → weaker more result) :
    program.Confined discipline weaker more := by
  induction program generalizing known more with
  | finish result => exact implies le confined
  | ask request resume ih =>
      constructor
      · exact confined.1
      · intro reply
        exact ih reply (confined.2 reply) (Knowledge.learn_mono le request reply)
  | askWithin patience request lapsed resume ihLapsed ih =>
      refine ⟨confined.1, fun lapse => ihLapsed lapse (confined.2.1 lapse) le, ?_⟩
      intro reply
      exact ih reply (confined.2.2 reply) (Knowledge.learn_mono le request reply)
  | look resume ih => exact fun service => ih service (confined service) le
  | time resume ih => exact fun now => ih now (confined now) le
  | load resume ih =>
      intro later value lateEnough justified
      exact ih value (confined later value (le.trans lateEnough) justified) le_rfl
  | store value rest ih => exact ⟨discipline.mono le confined.1, ih confined.2 le⟩
  | fork job rest ih => exact ⟨confined.1, ih confined.2 le⟩

theorem Program.Quiet.confined {results : α → Prop}
    {program : Program Service Request Reply Cell Job α} (quiet : program.Quiet results)
    {post : Knowledge Request Reply → α → Prop} {known : Knowledge Request Reply}
    (holds : ∀ result, results result → post known result) :
    program.Confined discipline post known := by
  induction program with
  | finish result => exact holds result quiet
  | look resume ih => exact fun service => ih service (quiet service)
  | time resume ih => exact fun now => ih now (quiet now)
  | ask | askWithin | load | store | fork => exact quiet.elim

theorem Program.confined_bind_iff {post : Knowledge Request Reply → β → Prop}
    {first : Program Service Request Reply Cell Job α}
    {second : α → Program Service Request Reply Cell Job β} {known : Knowledge Request Reply} :
    (first.bind second).Confined discipline post known ↔
      first.Confined discipline
        (fun known result => (second result).Confined discipline post known) known := by
  induction first generalizing known with
  | finish result => exact Iff.rfl
  | ask request resume ih => exact and_congr_right' (forall_congr' fun reply => ih reply)
  | askWithin patience request lapsed resume ihLapsed ih =>
      exact and_congr_right' (and_congr (forall_congr' fun lapse => ihLapsed lapse)
        (forall_congr' fun reply => ih reply))
  | look resume ih => exact forall_congr' fun service => ih service
  | time resume ih => exact forall_congr' fun now => ih now
  | load resume ih =>
      exact forall₂_congr fun more value => imp_congr_right fun _ => imp_congr_right fun _ =>
        ih value
  | store value rest ih => exact and_congr_right' ih
  | fork job rest ih => exact and_congr_right' ih

section Rules

variable {post : Knowledge Request Reply → α → Prop} {known : Knowledge Request Reply}

@[simp]
theorem Program.confined_do_iff {first : Program Service Request Reply Cell Job α}
    {second : α → Program Service Request Reply Cell Job β}
    {post : Knowledge Request Reply → β → Prop} :
    (first >>= second).Confined discipline post known ↔
      first.Confined discipline
        (fun known result => (second result).Confined discipline post known) known :=
  confined_bind_iff

@[simp]
theorem Program.confined_pure_iff {result : α} :
    (pure result : Program Service Request Reply Cell Job α).Confined discipline post known ↔
      post known result :=
  Iff.rfl

@[simp]
theorem Program.confined_asking_iff {request : Request}
    {post : Knowledge Request Reply → Reply → Prop} :
    (asking request : Program Service Request Reply Cell Job Reply).Confined discipline post known ↔
      discipline.grants request ∧ ∀ reply, post (known.learn request reply) reply :=
  Iff.rfl

@[simp]
theorem Program.confined_askingWithin_iff {patience : Patience} {request : Request}
    {post : Knowledge Request Reply → Except Lapse Reply → Prop} :
    (askingWithin patience request :
        Program Service Request Reply Cell Job (Except Lapse Reply)).Confined discipline post
          known ↔
      discipline.grants request ∧ (∀ lapse, post known (.error lapse)) ∧
        ∀ reply, post (known.learn request reply) (.ok reply) :=
  Iff.rfl

@[simp]
theorem Program.confined_timing_iff {post : Knowledge Request Reply → Nat → Prop} :
    (timing : Program Service Request Reply Cell Job Nat).Confined discipline post known ↔
      ∀ now, post known now :=
  Iff.rfl

@[simp]
theorem Program.confined_looking_iff {view : Service → α} :
    (looking view : Program Service Request Reply Cell Job α).Confined discipline post known ↔
      ∀ service, post known (view service) :=
  Iff.rfl

@[simp]
theorem Program.confined_loading_iff {post : Knowledge Request Reply → Cell → Prop} :
    (loading : Program Service Request Reply Cell Job Cell).Confined discipline post known ↔
      ∀ more value, known ≤ more → discipline.justifies more value → post more value :=
  Iff.rfl

@[simp]
theorem Program.confined_storing_iff {value : Cell} {post : Knowledge Request Reply → Unit → Prop} :
    (storing value : Program Service Request Reply Cell Job Unit).Confined discipline post known ↔
      discipline.justifies known value ∧ post known () :=
  Iff.rfl

@[simp]
theorem Program.confined_forking_iff {job : Job} {post : Knowledge Request Reply → Unit → Prop} :
    (forking job : Program Service Request Reply Cell Job Unit).Confined discipline post known ↔
      discipline.admits job ∧ post known () :=
  Iff.rfl

end Rules

end Confined

/-- When the time of a request runs out, whether a task of its own asks, and how the
program goes on when the answer is no longer waited for. -/
structure Expiry (Service Request Reply Cell Job Result : Type) where
  due : Nat
  detached : Bool
  lapsed : Lapse → Program Service Request Reply Cell Job Result

/-- Time runs out from the due moment on; only a task of its own can be dropped. -/
def Expiry.allows {Service Request Reply Cell Job Result : Type}
    (expiry : Expiry Service Request Reply Cell Job Result) (now : Nat) : Lapse → Bool
  | .timedOut => decide (expiry.due ≤ now)
  | .dropped => expiry.detached

/-- A program that runs, waits for the answer to a ticket, or has ended with a
result or without. -/
inductive Thread (Service Request Reply Cell Job Result : Type) where
  | ready (program : Program Service Request Reply Cell Job Result)
  | waiting (ticket : Nat) (request : Request)
      (expiry : Option (Expiry Service Request Reply Cell Job Result))
      (resume : Reply → Program Service Request Reply Cell Job Result)
  | ended (result : Option Result)

/-- A service whose calls are numbered, and the jobs that may run against it; not
every job is offered to the outside. -/
structure Host (Service ServiceLabel Request Reply Cell Job Result : Type) where
  serve : Service → ServiceLabel → Option Service
  call : Nat → Request → ServiceLabel
  isCall : ServiceLabel → Bool
  answer : Service → Nat → Option Reply
  offers : Job → Bool
  code : Job → Program Service Request Reply Cell Job Result

structure HostState (Service Request Reply Cell Job Result : Type) where
  service : Service
  cell : Cell
  threads : List (Thread Service Request Reply Cell Job Result)
  tickets : Nat
  clock : Nat

/-- A job begins, a thread takes its next step, is answered, no longer waits or is
abandoned, the service moves by itself, or time passes. -/
inductive HostLabel (ServiceLabel Job : Type) where
  | begin (job : Job)
  | perform (thread : Nat)
  | resume (thread : Nat)
  | lapse (thread : Nat) (lapse : Lapse)
  | abandon (thread : Nat)
  | serve (label : ServiceLabel)
  | tick (elapsed : Nat)

section Hosts

variable {Service ServiceLabel Request Reply Cell Job Result : Type}

namespace HostState

variable (state : HostState Service Request Reply Cell Job Result)

def start (service : Service) (cell : Cell) : HostState Service Request Reply Cell Job Result :=
  ⟨service, cell, [], 0, 0⟩

def setThread (i : Nat) (thread : Thread Service Request Reply Cell Job Result) :
    HostState Service Request Reply Cell Job Result :=
  { state with threads := state.threads.set i thread }

def addThread (program : Program Service Request Reply Cell Job Result) :
    HostState Service Request Reply Cell Job Result :=
  { state with threads := state.threads ++ [.ready program] }

end HostState

namespace Host

variable (host : Host Service ServiceLabel Request Reply Cell Job Result)
  (state : HostState Service Request Reply Cell Job Result)

/-- A thread asks under the next ticket, and waits. -/
def ask (i : Nat) (request : Request)
    (expiry : Option (Expiry Service Request Reply Cell Job Result))
    (resume : Reply → Program Service Request Reply Cell Job Result) :
    Option (HostState Service Request Reply Cell Job Result) :=
  (host.serve state.service (host.call state.tickets request)).map fun service =>
    { state with service, tickets := state.tickets + 1 }.setThread i
      (.waiting state.tickets request expiry resume)

/-- The next effect of a thread's program. -/
def perform (i : Nat) :
    Program Service Request Reply Cell Job Result →
      Option (HostState Service Request Reply Cell Job Result)
  | .finish result => some (state.setThread i (.ended (some result)))
  | .ask request resume => host.ask state i request none resume
  | .askWithin patience request lapsed resume =>
      host.ask state i request
        (some ⟨state.clock + patience.limit, patience.detached, lapsed⟩) resume
  | .look resume => some (state.setThread i (.ready (resume state.service)))
  | .time resume => some (state.setThread i (.ready (resume state.clock)))
  | .load resume => some (state.setThread i (.ready (resume state.cell)))
  | .store value rest => some ({ state with cell := value }.setThread i (.ready rest))
  | .fork job rest => some ((state.setThread i (.ready rest)).addThread (host.code job))

def step : HostLabel ServiceLabel Job → Option (HostState Service Request Reply Cell Job Result)
  | .begin job => if host.offers job then some (state.addThread (host.code job)) else none
  | .perform i =>
      match state.threads[i]? with
      | some (.ready program) => host.perform state i program
      | _ => none
  | .resume i =>
      match state.threads[i]? with
      | some (.waiting ticket _ _ resume) =>
          (host.answer state.service ticket).map fun reply =>
            state.setThread i (.ready (resume reply))
      | _ => none
  | .lapse i lapse =>
      match state.threads[i]? with
      | some (.waiting _ _ (some expiry) _) =>
          if expiry.allows state.clock lapse then
            some (state.setThread i (.ready (expiry.lapsed lapse)))
          else none
      | _ => none
  | .abandon i =>
      match state.threads[i]? with
      | some (.ready _) | some (.waiting _ _ _ _) => some (state.setThread i (.ended none))
      | _ => none
  | .serve label =>
      if host.isCall label then none
      else (host.serve state.service label).map fun service => { state with service }
  | .tick elapsed => some { state with clock := state.clock + elapsed }

end Host

/-- The job of a thread, and the answers that it has got with their tickets. -/
structure ThreadLog (Request Reply Job : Type) where
  job : Job
  answers : List (Nat × Request × Reply)

def ThreadLog.learn {Request Reply Job : Type} (log : ThreadLog Request Reply Job) (ticket : Nat)
    (request : Request) (reply : Reply) : ThreadLog Request Reply Job :=
  { log with answers := log.answers ++ [(ticket, request, reply)] }

/-- The tickets that were given out with what they ask, and the logs of the
threads, beside a memory of the service's own steps. -/
structure HostLog (Request Reply Job Memory : Type) where
  asked : List (Nat × Request)
  threads : List (ThreadLog Request Reply Job)
  service : Memory

namespace Host

variable {Memory : Type} (host : Host Service ServiceLabel Request Reply Cell Job Result)
  (noteService : Memory → Service → ServiceLabel → Service → Memory)

/-- The request that a step asks. -/
def asks? (state : HostState Service Request Reply Cell Job Result) :
    HostLabel ServiceLabel Job → Option Request
  | .perform i =>
      match state.threads[i]? with
      | some (.ready (.ask request _)) | some (.ready (.askWithin _ request _ _)) => some request
      | _ => none
  | _ => none

/-- The step that the service takes in a step of its host. -/
def serviceLabel? (state : HostState Service Request Reply Cell Job Result)
    (label : HostLabel ServiceLabel Job) : Option ServiceLabel :=
  match label with
  | .serve label => some label
  | label => (asks? state label).map (host.call state.tickets)

/-- A job that begins has a log of its own; an answer goes to the log of the thread
that waited for it. -/
def noteThreads (logs : List (ThreadLog Request Reply Job))
    (state : HostState Service Request Reply Cell Job Result) :
    HostLabel ServiceLabel Job → List (ThreadLog Request Reply Job)
  | .begin job => logs ++ [⟨job, []⟩]
  | .perform i =>
      match state.threads[i]? with
      | some (.ready (.fork job _)) => logs ++ [⟨job, []⟩]
      | _ => logs
  | .resume i =>
      match state.threads[i]? with
      | some (.waiting ticket request _ _) =>
          match host.answer state.service ticket with
          | some reply => logs.modify i fun log => log.learn ticket request reply
          | none => logs
      | _ => logs
  | .lapse _ _ | .abandon _ | .serve _ | .tick _ => logs

def note (log : HostLog Request Reply Job Memory)
    (state : HostState Service Request Reply Cell Job Result) (label : HostLabel ServiceLabel Job)
    (next : HostState Service Request Reply Cell Job Result) :
    HostLog Request Reply Job Memory where
  asked := log.asked ++ (asks? state label).toList.map fun request => (state.tickets, request)
  threads := host.noteThreads log.threads state label
  service :=
    match host.serviceLabel? state label with
    | some serviceLabel => noteService log.service state.service serviceLabel next.service
    | none => log.service

/-- What the service has answered to requests that were asked. -/
def knowledge (asked : List (Nat × Request)) (service : Service) : Knowledge Request Reply :=
  fun request reply => ∃ ticket, (ticket, request) ∈ asked ∧ host.answer service ticket = some reply

end Host

/-- A program whose next effect asks something, at this moment. -/
inductive Program.Asks (now : Nat) :
    Program Service Request Reply Cell Job Result → Request →
      Option (Expiry Service Request Reply Cell Job Result) →
        (Reply → Program Service Request Reply Cell Job Result) → Prop
  | patiently {request : Request}
      {resume : Reply → Program Service Request Reply Cell Job Result} :
      Asks now (.ask request resume) request none resume
  | within {patience : Patience} {request : Request}
      {lapsed : Lapse → Program Service Request Reply Cell Job Result}
      {resume : Reply → Program Service Request Reply Cell Job Result} :
      Asks now (.askWithin patience request lapsed resume) request
        (some ⟨now + patience.limit, patience.detached, lapsed⟩) resume

namespace Host

/-- What each step does. -/
inductive Transition (host : Host Service ServiceLabel Request Reply Cell Job Result)
    (state : HostState Service Request Reply Cell Job Result) :
    HostLabel ServiceLabel Job → HostState Service Request Reply Cell Job Result → Prop
  | begun {job : Job} : host.offers job = true →
      Transition host state (.begin job) (state.addThread (host.code job))
  | finished {i : Nat} {result : Result} : state.threads[i]? = some (.ready (.finish result)) →
      Transition host state (.perform i) (state.setThread i (.ended (some result)))
  | asked {i : Nat} {program : Program Service Request Reply Cell Job Result} {request : Request}
      {expiry : Option (Expiry Service Request Reply Cell Job Result)}
      {resume : Reply → Program Service Request Reply Cell Job Result} {service : Service} :
      state.threads[i]? = some (.ready program) →
      program.Asks state.clock request expiry resume →
      host.serve state.service (host.call state.tickets request) = some service →
      Transition host state (.perform i)
        ({ state with service, tickets := state.tickets + 1 }.setThread i
          (.waiting state.tickets request expiry resume))
  | looked {i : Nat} {resume : Service → Program Service Request Reply Cell Job Result} :
      state.threads[i]? = some (.ready (.look resume)) →
      Transition host state (.perform i) (state.setThread i (.ready (resume state.service)))
  | timed {i : Nat} {resume : Nat → Program Service Request Reply Cell Job Result} :
      state.threads[i]? = some (.ready (.time resume)) →
      Transition host state (.perform i) (state.setThread i (.ready (resume state.clock)))
  | loaded {i : Nat} {resume : Cell → Program Service Request Reply Cell Job Result} :
      state.threads[i]? = some (.ready (.load resume)) →
      Transition host state (.perform i) (state.setThread i (.ready (resume state.cell)))
  | stored {i : Nat} {value : Cell} {rest : Program Service Request Reply Cell Job Result} :
      state.threads[i]? = some (.ready (.store value rest)) →
      Transition host state (.perform i) ({ state with cell := value }.setThread i (.ready rest))
  | forked {i : Nat} {job : Job} {rest : Program Service Request Reply Cell Job Result} :
      state.threads[i]? = some (.ready (.fork job rest)) →
      Transition host state (.perform i)
        ((state.setThread i (.ready rest)).addThread (host.code job))
  | resumed {i ticket : Nat} {request : Request} {reply : Reply}
      {expiry : Option (Expiry Service Request Reply Cell Job Result)}
      {resume : Reply → Program Service Request Reply Cell Job Result} :
      state.threads[i]? = some (.waiting ticket request expiry resume) →
      host.answer state.service ticket = some reply →
      Transition host state (.resume i) (state.setThread i (.ready (resume reply)))
  | lapsed {i ticket : Nat} {request : Request} {lapse : Lapse}
      {expiry : Expiry Service Request Reply Cell Job Result}
      {resume : Reply → Program Service Request Reply Cell Job Result} :
      state.threads[i]? = some (.waiting ticket request (some expiry) resume) →
      expiry.allows state.clock lapse = true →
      Transition host state (.lapse i lapse) (state.setThread i (.ready (expiry.lapsed lapse)))
  | abandoned {i : Nat} :
      Transition host state (.abandon i) (state.setThread i (.ended none))
  | served {label : ServiceLabel} {service : Service} : host.isCall label = false →
      host.serve state.service label = some service →
      Transition host state (.serve label) { state with service }
  | ticked {elapsed : Nat} :
      Transition host state (.tick elapsed) { state with clock := state.clock + elapsed }

variable {host : Host Service ServiceLabel Request Reply Cell Job Result}
  {state next : HostState Service Request Reply Cell Job Result}
  {label : HostLabel ServiceLabel Job}

theorem transition_of_step (stepped : host.step state label = some next) :
    host.Transition state label next := by
  cases label with
  | begin job =>
      simp only [step] at stepped
      split_ifs at stepped with offered
      cases stepped
      exact .begun offered
  | perform i =>
      simp only [step] at stepped
      split at stepped
      · next program isReady =>
          cases program with
          | finish result =>
              cases stepped
              exact .finished isReady
          | ask request resume =>
              obtain ⟨service, served, rfl⟩ := Option.map_eq_some_iff.mp stepped
              exact .asked isReady .patiently served
          | askWithin patience request lapsed resume =>
              obtain ⟨service, served, rfl⟩ := Option.map_eq_some_iff.mp stepped
              exact .asked isReady .within served
          | look resume =>
              cases stepped
              exact .looked isReady
          | time resume =>
              cases stepped
              exact .timed isReady
          | load resume =>
              cases stepped
              exact .loaded isReady
          | store value rest =>
              cases stepped
              exact .stored isReady
          | fork job rest =>
              cases stepped
              exact .forked isReady
      · cases stepped
  | resume i =>
      simp only [step] at stepped
      split at stepped
      · next ticket request expiry resume isWaiting =>
          obtain ⟨reply, answered, rfl⟩ := Option.map_eq_some_iff.mp stepped
          exact .resumed isWaiting answered
      · cases stepped
  | lapse i lapse =>
      simp only [step] at stepped
      split at stepped
      · next ticket request expiry resume isWaiting =>
          split_ifs at stepped with allowed
          cases stepped
          exact .lapsed isWaiting allowed
      · cases stepped
  | abandon i =>
      simp only [step] at stepped
      split at stepped
      · cases stepped
        exact .abandoned
      · cases stepped
        exact .abandoned
      · cases stepped
  | serve label =>
      simp only [step] at stepped
      split_ifs at stepped with isCall
      obtain ⟨service, served, rfl⟩ := Option.map_eq_some_iff.mp stepped
      exact .served (eq_false_of_ne_true isCall) served
  | tick elapsed =>
      cases stepped
      exact .ticked

theorem asks?_eq_some {i : Nat} {program : Program Service Request Reply Cell Job Result}
    {request : Request} {expiry : Option (Expiry Service Request Reply Cell Job Result)}
    {resume : Reply → Program Service Request Reply Cell Job Result}
    (isReady : state.threads[i]? = some (.ready program))
    (asks : program.Asks state.clock request expiry resume) :
    asks? state (.perform i : HostLabel ServiceLabel Job) = some request := by
  cases asks <;> simp only [asks?, isReady]

theorem noteThreads_of_asks {logs : List (ThreadLog Request Reply Job)} {i : Nat}
    {program : Program Service Request Reply Cell Job Result} {request : Request}
    {expiry : Option (Expiry Service Request Reply Cell Job Result)}
    {resume : Reply → Program Service Request Reply Cell Job Result}
    (isReady : state.threads[i]? = some (.ready program))
    (asks : program.Asks state.clock request expiry resume) :
    host.noteThreads logs state (.perform i) = logs := by
  cases asks <;> simp only [noteThreads, isReady]

theorem serve_of_step (stepped : host.step state label = some next) :
    match host.serviceLabel? state label with
    | some serviceLabel => host.serve state.service serviceLabel = some next.service
    | none => next.service = state.service := by
  cases transition_of_step stepped with
  | asked isReady asks served =>
      simp only [serviceLabel?, asks?_eq_some isReady asks, Option.map_some]
      exact served
  | finished isReady | looked isReady | timed isReady | loaded isReady | stored isReady
  | forked isReady =>
      simp only [serviceLabel?, asks?, isReady, Option.map_none]
      rfl
  | begun | resumed | lapsed | abandoned | ticked => rfl
  | served isCall served => exact served

end Host

/-- What is left of the thread keeps the discipline, given what is known. -/
def Thread.Confined (discipline : Discipline Request Reply Cell Job)
    (known : Knowledge Request Reply) : Thread Service Request Reply Cell Job Result → Prop
  | .ready program => program.Confined discipline (fun _ _ => True) known
  | .waiting _ request expiry resume =>
      (∀ limit ∈ expiry, ∀ lapse,
        (limit.lapsed lapse).Confined discipline (fun _ _ => True) known) ∧
        ∀ reply, (resume reply).Confined discipline (fun _ _ => True) (known.learn request reply)
  | .ended _ => True

/-- Only granted requests were asked, the cell is justified by what was answered,
every thread is confined, and the requests that are waited for were asked. -/
structure Disciplined (host : Host Service ServiceLabel Request Reply Cell Job Result)
    (discipline : Discipline Request Reply Cell Job) (asked : List (Nat × Request))
    (state : HostState Service Request Reply Cell Job Result) : Prop where
  granted : ∀ ticket request, (ticket, request) ∈ asked → discipline.grants request
  justified : discipline.justifies (host.knowledge asked state.service) state.cell
  confined : ∀ thread ∈ state.threads,
    thread.Confined discipline (host.knowledge asked state.service)
  waiting : ∀ ticket request expiry resume,
    .waiting ticket request expiry resume ∈ state.threads → (ticket, request) ∈ asked

section Discipline

variable {host : Host Service ServiceLabel Request Reply Cell Job Result}
  {discipline : Discipline Request Reply Cell Job}
  {state next : HostState Service Request Reply Cell Job Result}

theorem Thread.Confined.mono {thread : Thread Service Request Reply Cell Job Result}
    {known more : Knowledge Request Reply} (confined : thread.Confined discipline known)
    (le : known ≤ more) : thread.Confined discipline more := by
  cases thread with
  | ready program => exact Program.Confined.weaken confined le fun _ _ => trivial
  | waiting ticket request expiry resume =>
      constructor
      · intro limit isLimit lapse
        exact Program.Confined.weaken (confined.1 limit isLimit lapse) le fun _ _ => trivial
      · intro reply
        exact Program.Confined.weaken (confined.2 reply) (Knowledge.learn_mono le request reply)
          fun _ _ => trivial
  | ended result => exact trivial

/-- What was answered stays answered. -/
def Host.KeepsAnswers (host : Host Service ServiceLabel Request Reply Cell Job Result) : Prop :=
  ∀ {service next : Service} {label : ServiceLabel} {ticket : Nat} {reply : Reply},
    host.serve service label = some next → host.answer service ticket = some reply →
      host.answer next ticket = some reply

theorem Host.knowledge_mono (keeps : host.KeepsAnswers) {asked more : List (Nat × Request)}
    {label : HostLabel ServiceLabel Job} (stepped : host.step state label = some next)
    (subset : asked ⊆ more) :
    host.knowledge asked state.service ≤ host.knowledge more next.service := by
  rintro request reply ⟨ticket, isAsked, answered⟩
  refine ⟨ticket, subset isAsked, ?_⟩
  have served := host.serve_of_step stepped
  split at served
  · exact keeps served answered
  · rw [served]
    exact answered

/-- Every job that is offered is admitted, and every admitted job is confined. -/
structure Host.Obeys (host : Host Service ServiceLabel Request Reply Cell Job Result)
    (discipline : Discipline Request Reply Cell Job) : Prop where
  offered : ∀ job, host.offers job = true → discipline.admits job
  jobs : ∀ job, discipline.admits job →
    (host.code job).Confined discipline (fun _ _ => True) fun _ _ => False

namespace Disciplined

variable {asked more : List (Nat × Request)}

/-- A step of one thread, or the addition of one, leaves the others as they
were. -/
theorem replace (disciplined : Disciplined host discipline asked state)
    (le : host.knowledge asked state.service ≤ host.knowledge more next.service)
    (subset : asked ⊆ more)
    (granted : ∀ ticket request, (ticket, request) ∈ more → (ticket, request) ∉ asked →
      discipline.grants request)
    (justified : discipline.justifies (host.knowledge more next.service) next.cell)
    (threads : ∀ thread ∈ next.threads, thread ∈ state.threads ∨
      thread.Confined discipline (host.knowledge more next.service) ∧
        ∀ ticket request expiry resume, thread = .waiting ticket request expiry resume →
          (ticket, request) ∈ more) :
    Disciplined host discipline more next := by
  constructor
  · intro ticket request isAsked
    by_cases earlier : (ticket, request) ∈ asked
    · exact disciplined.granted ticket request earlier
    · exact granted ticket request isAsked earlier
  · exact justified
  · intro thread isThread
    rcases threads thread isThread with earlier | new
    · exact (disciplined.confined thread earlier).mono le
    · exact new.1
  · intro ticket request expiry resume isThread
    rcases threads _ isThread with earlier | new
    · exact subset (disciplined.waiting ticket request expiry resume earlier)
    · exact new.2 ticket request expiry resume rfl

theorem replaceThread (disciplined : Disciplined host discipline asked state)
    (le : host.knowledge asked state.service ≤ host.knowledge asked next.service)
    (justified : discipline.justifies (host.knowledge asked next.service) next.cell)
    (thread : Thread Service Request Reply Cell Job Result)
    (threads : ∀ other ∈ next.threads, other ∈ state.threads ∨ other = thread)
    (confined : thread.Confined discipline (host.knowledge asked next.service))
    (notWaiting : ∀ ticket request expiry resume,
      thread ≠ .waiting ticket request expiry resume) :
    Disciplined host discipline asked next := by
  refine disciplined.replace le (fun _ member => member) ?_ justified ?_
  · intro ticket request isAsked notAsked
    exact absurd isAsked notAsked
  · intro other isThread
    rcases threads other isThread with earlier | rfl
    · exact Or.inl earlier
    · exact Or.inr ⟨confined, fun ticket request expiry resume same =>
        absurd same (notWaiting ticket request expiry resume)⟩

theorem code_confined (obeys : host.Obeys discipline) {job : Job} (admitted : discipline.admits job)
    (known : Knowledge Request Reply) :
    (host.code job).Confined discipline (fun _ _ => True) known :=
  (obeys.jobs job admitted).weaken (fun _ _ impossible => impossible.elim) fun _ _ => trivial

theorem step (keeps : host.KeepsAnswers) (obeys : host.Obeys discipline)
    (disciplined : Disciplined host discipline asked state) {label : HostLabel ServiceLabel Job}
    (stepped : host.step state label = some next) :
    Disciplined host discipline
      (asked ++ (Host.asks? state label).toList.map fun request => (state.tickets, request))
      next := by
  have subset : asked ⊆ asked ++
      (Host.asks? state label).toList.map fun request => (state.tickets, request) :=
    List.subset_append_left asked _
  have le := host.knowledge_mono keeps stepped subset
  have kept := discipline.mono le disciplined.justified
  have ready : ∀ {i : Nat} {program : Program Service Request Reply Cell Job Result},
      state.threads[i]? = some (.ready program) →
        program.Confined discipline (fun _ _ => True) (host.knowledge asked state.service) :=
    fun isReady => disciplined.confined _ (List.mem_of_getElem? isReady)
  cases Host.transition_of_step stepped with
  | @begun job offered =>
      simp only [Host.asks?, Option.toList_none, List.map_nil, List.append_nil] at le kept ⊢
      refine disciplined.replaceThread le kept (.ready (host.code job)) ?_
        (code_confined obeys (obeys.offered job offered) _) nofun
      intro other isThread
      exact (List.mem_append.mp isThread).imp id List.mem_singleton.mp
  | @asked i program request expiry resume service isReady asks served =>
      simp only [Host.asks?_eq_some isReady asks, Option.toList_some, List.map_cons, List.map_nil]
        at subset le kept ⊢
      have whole := ready isReady
      have waits : discipline.grants request ∧
          (Thread.waiting state.tickets request expiry resume).Confined discipline
            (host.knowledge asked state.service) := by
        cases asks with
        | patiently =>
            refine ⟨whole.1, ?_, whole.2⟩
            rintro _ ⟨⟩
        | within =>
            refine ⟨whole.1, ?_, whole.2.2⟩
            rintro _ ⟨⟩
            exact whole.2.1
      refine disciplined.replace le subset ?_ kept ?_
      · intro ticket other isAsked notAsked
        obtain ⟨rfl, rfl⟩ := Prod.mk.inj
          (List.mem_singleton.mp ((List.mem_append.mp isAsked).resolve_left notAsked))
        exact waits.1
      · intro thread isThread
        rcases List.mem_or_eq_of_mem_set isThread with earlier | rfl
        · exact Or.inl earlier
        · refine Or.inr ⟨waits.2.mono le, ?_⟩
          rintro _ _ _ _ ⟨⟩
          exact List.mem_append_right asked (List.mem_singleton.mpr rfl)
  | @finished i result isReady =>
      simp only [Host.asks?, isReady, Option.toList_none, List.map_nil, List.append_nil]
        at le kept ⊢
      exact disciplined.replaceThread le kept _ (fun _ => List.mem_or_eq_of_mem_set) trivial nofun
  | @looked i resume isReady =>
      have whole := ready isReady
      simp only [Host.asks?, isReady, Option.toList_none, List.map_nil, List.append_nil]
        at le kept ⊢
      exact disciplined.replaceThread le kept _ (fun _ => List.mem_or_eq_of_mem_set)
        (whole state.service) nofun
  | @timed i resume isReady =>
      have whole := ready isReady
      simp only [Host.asks?, isReady, Option.toList_none, List.map_nil, List.append_nil]
        at le kept ⊢
      exact disciplined.replaceThread le kept _ (fun _ => List.mem_or_eq_of_mem_set)
        (whole state.clock) nofun
  | @loaded i resume isReady =>
      have whole := ready isReady
      simp only [Host.asks?, isReady, Option.toList_none, List.map_nil, List.append_nil]
        at le kept ⊢
      exact disciplined.replaceThread le kept _ (fun _ => List.mem_or_eq_of_mem_set)
        (whole _ state.cell le_rfl disciplined.justified) nofun
  | @stored i value rest isReady =>
      simp only [Host.asks?, isReady, Option.toList_none, List.map_nil, List.append_nil] at le ⊢
      have whole := ready isReady
      exact disciplined.replaceThread le whole.1 _ (fun _ => List.mem_or_eq_of_mem_set)
        whole.2 nofun
  | @forked i job rest isReady =>
      simp only [Host.asks?, isReady, Option.toList_none, List.map_nil, List.append_nil]
        at le kept ⊢
      have whole := ready isReady
      have continued : Disciplined host discipline asked (state.setThread i (.ready rest)) :=
        disciplined.replaceThread le kept _ (fun _ => List.mem_or_eq_of_mem_set) whole.2 nofun
      refine continued.replaceThread le kept (.ready (host.code job)) ?_
        (code_confined obeys whole.1 _) nofun
      intro other isThread
      exact (List.mem_append.mp isThread).imp id List.mem_singleton.mp
  | @resumed i ticket request reply expiry resume isWaiting answered =>
      simp only [Host.asks?, Option.toList_none, List.map_nil, List.append_nil] at le kept ⊢
      have isThread := List.mem_of_getElem? isWaiting
      refine disciplined.replaceThread le kept _ (fun _ => List.mem_or_eq_of_mem_set) ?_ nofun
      -- The answer was known since the service gave it.
      refine Program.Confined.weaken ((disciplined.confined _ isThread).2 reply) ?_
        fun _ _ => trivial
      rintro other answer (isKnown | ⟨rfl, rfl⟩)
      · exact isKnown
      · exact ⟨ticket, disciplined.waiting ticket _ expiry resume isThread, answered⟩
  | @lapsed i ticket request lapse expiry resume isWaiting allowed =>
      simp only [Host.asks?, Option.toList_none, List.map_nil, List.append_nil] at le kept ⊢
      have waits := disciplined.confined _ (List.mem_of_getElem? isWaiting)
      exact disciplined.replaceThread le kept _ (fun _ => List.mem_or_eq_of_mem_set)
        (waits.1 expiry rfl lapse) nofun
  | @abandoned i =>
      simp only [Host.asks?, Option.toList_none, List.map_nil, List.append_nil] at le kept ⊢
      exact disciplined.replaceThread le kept _ (fun _ => List.mem_or_eq_of_mem_set) trivial nofun
  | served isCall served =>
      simp only [Host.asks?, Option.toList_none, List.map_nil, List.append_nil] at le kept ⊢
      exact disciplined.replaceThread le kept (.ended none)
        (fun _ => Or.inl) trivial nofun
  | ticked =>
      simp only [Host.asks?, Option.toList_none, List.map_nil, List.append_nil] at le kept ⊢
      exact disciplined.replaceThread le kept (.ended none)
        (fun _ => Or.inl) trivial nofun

end Disciplined

section Runs

variable {Memory : Type} {noteService : Memory → Service → ServiceLabel → Service → Memory}

/-- Whatever offered jobs are begun and however they interleave, only granted
requests reach the service and the cell holds what is justified. -/
theorem disciplined_of_reaches (keeps : host.KeepsAnswers) (obeys : host.Obeys discipline)
    {service : Service} {cell : Cell} {memory : Memory}
    (justified : discipline.justifies (fun _ _ => False) cell)
    {allowed : Remembering (HostState Service Request Reply Cell Job Result)
      (HostLog Request Reply Job Memory) → HostLabel ServiceLabel Job → Prop}
    {current : Remembering (HostState Service Request Reply Cell Job Result)
      (HostLog Request Reply Job Memory)}
    (reaches : Reaches (remember host.step (host.note noteService)) allowed
      ⟨.start service cell, [], [], memory⟩ current) :
    Disciplined host discipline current.memory.asked current.state := by
  apply reaches.invariant
  · constructor
    · intro ticket request isAsked
      cases isAsked
    · exact discipline.mono (fun _ _ impossible => impossible.elim) justified
    · intro thread isThread
      cases isThread
    · intro ticket request expiry resume isThread
      cases isThread
  · intro current next label disciplined _ stepped
    obtain ⟨stepped, noted⟩ := remember_eq_some stepped
    rw [noted]
    exact disciplined.step keeps obeys stepped

theorem asked_numbered {service : Service} {cell : Cell} {memory : Memory}
    {allowed : Remembering (HostState Service Request Reply Cell Job Result)
      (HostLog Request Reply Job Memory) → HostLabel ServiceLabel Job → Prop}
    {current : Remembering (HostState Service Request Reply Cell Job Result)
      (HostLog Request Reply Job Memory)}
    (reaches : Reaches (remember host.step (host.note noteService)) allowed
      ⟨.start service cell, [], [], memory⟩ current) :
    current.memory.asked.map Prod.fst = List.range current.state.tickets := by
  apply reaches.invariant
  · rfl
  · intro current next label numbered _ stepped
    obtain ⟨stepped, noted⟩ := remember_eq_some stepped
    rw [noted, Host.note, List.map_append, numbered]
    rcases next with ⟨next, memory⟩
    cases Host.transition_of_step stepped with
    | asked isReady asks served =>
        simp only [Host.asks?_eq_some isReady asks, Option.toList_some, List.map_cons, List.map_nil]
        exact List.range_succ.symm
    | finished isReady | looked isReady | timed isReady | loaded isReady | stored isReady =>
        simp only [Host.asks?, isReady, Option.toList_none, List.map_nil, List.append_nil]
    | forked isReady =>
        simp only [Host.asks?, isReady, Option.toList_none, List.map_nil, List.append_nil]
        rfl
    | begun | resumed | lapsed | abandoned | served | ticked => exact List.append_nil _

theorem service_reaches {start current : Remembering
      (HostState Service Request Reply Cell Job Result) (HostLog Request Reply Job Memory)}
    {meets : Remembering (HostState Service Request Reply Cell Job Result)
      (HostLog Request Reply Job Memory) → HostLabel ServiceLabel Job → Prop}
    {allowed : Remembering Service Memory → ServiceLabel → Prop}
    (allows : ∀ {current label serviceLabel}, meets current label →
      host.serviceLabel? current.state label = some serviceLabel →
        allowed ⟨current.state.service, current.memory.service⟩ serviceLabel)
    (reaches : Reaches (remember host.step (host.note noteService)) meets start current) :
    Reaches (remember host.serve noteService) allowed
      ⟨start.state.service, start.memory.service⟩
      ⟨current.state.service, current.memory.service⟩ := by
  induction reaches with
  | refl => exact .refl
  | @tail current next label _ isAllowed stepped ih =>
      obtain ⟨stepped, noted⟩ := remember_eq_some stepped
      have served := host.serve_of_step stepped
      rw [noted, Host.note]
      cases isLabel : host.serviceLabel? current.state label with
      | none =>
          simp only [isLabel] at served ⊢
          rw [served]
          exact ih
      | some serviceLabel =>
          simp only [isLabel] at served ⊢
          refine .tail serviceLabel ih (allows isAllowed isLabel) ?_
          rw [remember, served]
          rfl

end Runs

end Discipline

end Hosts

end SharedPrograms
