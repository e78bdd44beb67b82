import Framewalk.ProgramAnswers

/-!
# What programs see after their answers

An answer may say something about the service that stays true.  A program that looks
at the service later sees only states in which that holds for all answers that it
has got.  If the programs of all jobs meet their postconditions under this promise,
so do all threads of every run.
-/

namespace SharedPrograms

open TransitionSystem

variable {Service ServiceLabel Request Reply Cell Job Other Result α β : Type}

/-- What the answers promise of the service. -/
def Promised (holds : Request → Reply → Service → Prop) (answers : List (Request × Reply))
    (service : Service) : Prop :=
  ∀ request reply, (request, reply) ∈ answers → holds request reply service

/-- As `Program.Returns`, where only promised services are seen. -/
def Program.Sees (holds : Request → Reply → Service → Prop)
    (post : List (Request × Reply) → α → Prop) :
    List (Request × Reply) → Program Service Request Reply Cell Job α → Prop
  | answers, .finish result => post answers result
  | answers, .ask request resume =>
      ∀ reply, (∃ service, Promised holds (answers ++ [(request, reply)]) service) →
        (resume reply).Sees holds post (answers ++ [(request, reply)])
  | answers, .askWithin _ request lapsed resume =>
      (∀ lapse, (lapsed lapse).Sees holds post answers) ∧
        ∀ reply, (∃ service, Promised holds (answers ++ [(request, reply)]) service) →
          (resume reply).Sees holds post (answers ++ [(request, reply)])
  | answers, .look resume =>
      ∀ service, Promised holds answers service → (resume service).Sees holds post answers
  | answers, .time resume => ∀ now, (resume now).Sees holds post answers
  | answers, .load resume => ∀ value, (resume value).Sees holds post answers
  | answers, .store _ rest | answers, .fork _ rest => rest.Sees holds post answers

section Rules

variable {holds : Request → Reply → Service → Prop} {post : List (Request × Reply) → α → Prop}
  {answers : List (Request × Reply)}

theorem Program.Sees.weaken {weaker : List (Request × Reply) → α → Prop}
    {program : Program Service Request Reply Cell Job α} (sees : program.Sees holds post answers)
    (implies : ∀ answers result, post answers result → weaker answers result) :
    program.Sees holds weaker answers := by
  induction program generalizing answers with
  | finish result => exact implies answers result sees
  | ask request resume ih => exact fun reply promised => ih reply (sees reply promised)
  | askWithin patience request lapsed resume ihLapsed ih =>
      exact ⟨fun lapse => ihLapsed lapse (sees.1 lapse),
        fun reply promised => ih reply (sees.2 reply promised)⟩
  | look resume ih => exact fun service promised => ih service (sees service promised)
  | time resume ih => exact fun now => ih now (sees now)
  | load resume ih => exact fun value => ih value (sees value)
  | store value rest ih => exact ih sees
  | fork job rest ih => exact ih sees

theorem Program.returns_true {program : Program Service Request Reply Cell Job α} :
    program.Returns (fun _ _ => True) answers := by
  induction program generalizing answers with
  | finish result => trivial
  | ask request resume ih => exact fun reply => ih reply
  | askWithin patience request lapsed resume ihLapsed ih =>
      exact ⟨fun lapse => ihLapsed lapse, fun reply => ih reply⟩
  | look resume ih => exact fun service => ih service
  | time resume ih => exact fun now => ih now
  | load resume ih => exact fun value => ih value
  | store value rest ih => exact ih
  | fork job rest ih => exact ih

/-- A program that returns something whatever it sees does so here. -/
theorem Program.Returns.sees {program : Program Service Request Reply Cell Job α}
    (returns : program.Returns post answers) : program.Sees holds post answers := by
  induction program generalizing answers with
  | finish result => exact returns
  | ask request resume ih => exact fun reply _ => ih reply (returns reply)
  | askWithin patience request lapsed resume ihLapsed ih =>
      exact ⟨fun lapse => ihLapsed lapse (returns.1 lapse),
        fun reply _ => ih reply (returns.2 reply)⟩
  | look resume ih => exact fun service _ => ih service (returns service)
  | time resume ih => exact fun now => ih now (returns now)
  | load resume ih => exact fun value => ih value (returns value)
  | store value rest ih => exact ih returns
  | fork job rest ih => exact ih returns

theorem Program.Quiet.sees {results : α → Prop}
    {program : Program Service Request Reply Cell Job α} (quiet : program.Quiet results)
    (implies : ∀ result, results result → post answers result) : program.Sees holds post answers :=
  (quiet.returns implies).sees

@[simp]
theorem Program.sees_timing_iff {post : List (Request × Reply) → Nat → Prop} :
    (timing : Program Service Request Reply Cell Job Nat).Sees holds post answers ↔
      ∀ now, post answers now :=
  Iff.rfl

end Rules

/-- What is left of a thread meets the postcondition of its job. -/
def Thread.Sees (holds : Request → Reply → Service → Prop)
    (post : Job → List (Request × Reply) → Result → Prop)
    (log : ThreadLog Request Reply Job) : Thread Service Request Reply Cell Job Result → Prop
  | .ready program => program.Sees holds (post log.job) log.heard
  | .waiting _ request expiry resume =>
      (∀ limit ∈ expiry, ∀ lapse, (limit.lapsed lapse).Sees holds (post log.job) log.heard) ∧
        ∀ reply, (∃ service, Promised holds (log.heard ++ [(request, reply)]) service) →
          (resume reply).Sees holds (post log.job) (log.heard ++ [(request, reply)])
  | .ended (some result) => post log.job log.heard result
  | .ended none => True

/-- The calls of a service behave as they were asked, in all states that it reaches,
and then their answers keep their promises. -/
structure Host.KeepsPromises (host : Host Service ServiceLabel Request Reply Cell Job Result)
    (sound : Service → Prop) (fits : Request → Service → Nat → Prop)
    (holds : Request → Reply → Service → Prop) : Prop where
  serves : ∀ {service next label}, sound service → host.serve service label = some next →
    sound next
  starts : ∀ {service next ticket request}, sound service →
    host.serve service (host.call ticket request) = some next → fits request next ticket
  keeps : ∀ {service next label ticket request}, sound service →
    host.serve service label = some next → fits request service ticket → fits request next ticket
  gains : ∀ {service ticket request reply}, sound service → fits request service ticket →
    host.answer service ticket = some reply → holds request reply service

section Runs

variable {host : Host Service ServiceLabel Request Reply Cell Job Result}
  {sound : Service → Prop} {fits : Request → Service → Nat → Prop}
  {holds : Request → Reply → Service → Prop}
  {post : Job → List (Request × Reply) → Result → Prop}

/-- Calls fit what was asked, and threads meet their postconditions. -/
structure SeesPromised (host : Host Service ServiceLabel Request Reply Cell Job Result)
    (sound : Service → Prop) (fits : Request → Service → Nat → Prop)
    (holds : Request → Reply → Service → Prop)
    (post : Job → List (Request × Reply) → Result → Prop) (asked : List (Nat × Request))
    (state : HostState Service Request Reply Cell Job Result)
    (logs : List (ThreadLog Request Reply Job)) : Prop where
  owns : OwnsAnswers host (fun _ _ _ => True) asked state logs
  sound : sound state.service
  fits : ∀ ticket request, (ticket, request) ∈ asked → fits request state.service ticket
  sees : ∀ (i : Nat) (thread : Thread Service Request Reply Cell Job Result)
    (log : ThreadLog Request Reply Job), state.threads[i]? = some thread → logs[i]? = some log →
      thread.Sees holds post log

namespace SeesPromised

variable {asked : List (Nat × Request)}
  {state next : HostState Service Request Reply Cell Job Result}
  {logs : List (ThreadLog Request Reply Job)}

/-- The answers of a thread hold what they promise. -/
theorem promised (promises : host.KeepsPromises sound fits holds)
    (sees : SeesPromised host sound fits holds post asked state logs) {i : Nat}
    {log : ThreadLog Request Reply Job} (isLog : logs[i]? = some log) :
    Promised holds log.heard state.service := by
  intro request reply member
  obtain ⟨⟨ticket, _⟩, logged, rfl⟩ := List.mem_map.mp member
  obtain ⟨isAsked, answered⟩ := sees.owns.answered i log ticket request reply isLog logged
  exact promises.gains sees.sound (sees.fits ticket request isAsked) answered

theorem set_thread (sees : SeesPromised host sound fits holds post asked state logs) {i : Nat}
    {before thread : Thread Service Request Reply Cell Job Result}
    (isBefore : state.threads[i]? = some before)
    (goesOn : ∀ log, logs[i]? = some log → before.Sees holds post log →
      thread.Sees holds post log) :
    ∀ (j : Nat) (other : Thread Service Request Reply Cell Job Result)
      (log : ThreadLog Request Reply Job), (state.threads.set i thread)[j]? = some other →
        logs[j]? = some log → other.Sees holds post log := by
  intro j other log isThread isLog
  rw [List.getElem?_set] at isThread
  split_ifs at isThread with same inBounds
  · cases isThread
    subst same
    exact goesOn log isLog (sees.sees i before log isBefore isLog)
  · exact sees.sees j other log isThread isLog

theorem append_thread {threads : List (Thread Service Request Reply Cell Job Result)} {job : Job}
    (sameLength : logs.length = threads.length)
    (each : ∀ (j : Nat) (other : Thread Service Request Reply Cell Job Result)
      (log : ThreadLog Request Reply Job), threads[j]? = some other → logs[j]? = some log →
        other.Sees holds post log)
    (begins : (host.code job).Sees holds (post job) []) :
    ∀ (j : Nat) (other : Thread Service Request Reply Cell Job Result)
      (log : ThreadLog Request Reply Job),
        (threads ++ [.ready (host.code job)])[j]? = some other →
          (logs ++ [⟨job, []⟩])[j]? = some log → other.Sees holds post log := by
  intro j other log isThread isLog
  rw [List.getElem?_append, ← sameLength] at isThread
  rw [List.getElem?_append] at isLog
  split_ifs at isThread isLog
  · exact each j other log isThread isLog
  · rw [List.mem_singleton.mp (List.mem_of_getElem? isThread),
      List.mem_singleton.mp (List.mem_of_getElem? isLog)]
    exact begins

theorem step (keeps : host.KeepsAnswers) (promises : host.KeepsPromises sound fits holds)
    (begins : ∀ job, (host.code job).Sees holds (post job) [])
    (sees : SeesPromised host sound fits holds post asked state logs)
    {label : HostLabel ServiceLabel Job} (stepped : host.step state label = some next) :
    SeesPromised host sound fits holds post
      (asked ++ (Host.asks? state label).toList.map fun request => (state.tickets, request)) next
      (host.noteThreads logs state label) := by
  have owns := sees.owns.step keeps (fun _ => Program.returns_true) stepped
  have served := host.serve_of_step stepped
  refine ⟨owns, ?_, ?_, ?_⟩
  · split at served
    · exact promises.serves sees.sound served
    · rw [served]
      exact sees.sound
  · intro ticket request member
    rcases List.mem_append.mp member with earlier | new
    · have fitting := sees.fits ticket request earlier
      split at served
      · exact promises.keeps sees.sound served fitting
      · rw [served]
        exact fitting
    · obtain ⟨_, isAsked, same⟩ := List.mem_map.mp new
      cases same
      have asks := Option.mem_toList.mp isAsked
      cases Host.transition_of_step stepped with
      | asked isReady isAsking isServed =>
          rw [Host.asks?_eq_some isReady isAsking] at asks
          cases asks
          exact promises.starts sees.sound isServed
      | finished isReady | looked isReady | timed isReady | loaded isReady | stored isReady
      | forked isReady =>
          simp [Host.asks?, isReady] at asks
      | begun | resumed | lapsed | abandoned | served | ticked => simp [Host.asks?] at asks
  · cases Host.transition_of_step stepped with
    | begun offered => exact append_thread sees.owns.length sees.sees (begins _)
    | finished isReady | stored isReady =>
        simp only [Host.noteThreads, isReady]
        exact sees.set_thread isReady fun _ _ whole => whole
    | asked isReady asks _ =>
        rw [Host.noteThreads_of_asks isReady asks]
        refine sees.set_thread isReady fun _ _ whole => ?_
        cases asks with
        | patiently =>
            refine ⟨?_, whole⟩
            rintro _ ⟨⟩
        | within =>
            refine ⟨?_, whole.2⟩
            rintro _ ⟨⟩
            exact whole.1
    | looked isReady =>
        simp only [Host.noteThreads, isReady]
        exact sees.set_thread isReady fun _ isLog whole =>
          whole _ (sees.promised promises isLog)
    | timed isReady | loaded isReady =>
        simp only [Host.noteThreads, isReady]
        exact sees.set_thread isReady fun _ _ whole => whole _
    | forked isReady =>
        simp only [Host.noteThreads, isReady]
        refine append_thread ?_ (sees.set_thread isReady fun _ _ whole => whole) (begins _)
        rw [HostState.setThread, List.length_set]
        exact sees.owns.length
    | @resumed i ticket request reply expiry resume isWaiting answered =>
        simp only [Host.noteThreads, isWaiting, answered]
        intro j thread log isThread isLog
        rcases getElem?_learn isLog with ⟨before, other⟩ | ⟨rfl, before, isBefore, rfl⟩
        · rw [HostState.setThread, List.getElem?_set, if_neg (Ne.symm other)] at isThread
          exact sees.sees j thread log isThread before
        · rw [HostState.setThread, List.getElem?_set, if_pos rfl] at isThread
          split_ifs at isThread
          cases isThread
          have whole := sees.sees j _ before isWaiting isBefore
          change Program.Sees _ _ _ _
          rw [ThreadLog.heard_learn]
          refine whole.2 reply ⟨state.service, ?_⟩
          -- The new answer is one of a call that fits.
          intro asked answer member
          rcases List.mem_append.mp member with earlier | new
          · exact sees.promised promises isBefore asked answer earlier
          · cases List.mem_singleton.mp new
            have isAsked := sees.owns.waiting j ticket request expiry resume isWaiting
            exact promises.gains sees.sound (sees.fits ticket request isAsked) answered
    | lapsed isWaiting allowed =>
        exact sees.set_thread isWaiting fun _ _ whole => whole.1 _ rfl _
    | @abandoned i =>
        simp only [Host.noteThreads]
        intro j thread log isThread isLog
        rw [HostState.setThread, List.getElem?_set] at isThread
        split_ifs at isThread
        · cases isThread
          trivial
        · exact sees.sees j thread log isThread isLog
    | served | ticked => exact sees.sees

end SeesPromised

end Runs

end SharedPrograms
