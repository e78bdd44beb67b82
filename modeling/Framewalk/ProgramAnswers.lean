import Framewalk.SharedPrograms

/-!
# What programs make of their own answers

A postcondition relates a program's result to the answers that it got, in order,
whatever it saw and loaded in between.  If the program of every job meets its
postcondition by itself, then every thread that has ended meets it with the
answers to its own requests, however the threads were interleaved, and no two
threads share an answer.
-/

namespace SharedPrograms

open TransitionSystem

variable {Service ServiceLabel Request Reply Cell Job Result α β : Type}

/-- After these answers, whatever comes, the program ends in the postcondition. -/
def Program.Returns (post : List (Request × Reply) → α → Prop) :
    List (Request × Reply) → Program Service Request Reply Cell Job α → Prop
  | answers, .finish result => post answers result
  | answers, .ask request resume =>
      ∀ reply, (resume reply).Returns post (answers ++ [(request, reply)])
  | answers, .askWithin _ request lapsed resume =>
      (∀ lapse, (lapsed lapse).Returns post answers) ∧
        ∀ reply, (resume reply).Returns post (answers ++ [(request, reply)])
  | answers, .look resume => ∀ service, (resume service).Returns post answers
  | answers, .time resume => ∀ now, (resume now).Returns post answers
  | answers, .load resume => ∀ value, (resume value).Returns post answers
  | answers, .store _ rest | answers, .fork _ rest => rest.Returns post answers

section Rules

variable {post : List (Request × Reply) → α → Prop} {answers : List (Request × Reply)}

theorem Program.Returns.weaken {weaker : List (Request × Reply) → α → Prop}
    {program : Program Service Request Reply Cell Job α} (returns : program.Returns post answers)
    (implies : ∀ answers result, post answers result → weaker answers result) :
    program.Returns weaker answers := by
  induction program generalizing answers with
  | finish result => exact implies answers result returns
  | ask request resume ih => exact fun reply => ih reply (returns reply)
  | askWithin patience request lapsed resume ihLapsed ih =>
      exact ⟨fun lapse => ihLapsed lapse (returns.1 lapse), fun reply => ih reply (returns.2 reply)⟩
  | look resume ih => exact fun service => ih service (returns service)
  | time resume ih => exact fun now => ih now (returns now)
  | load resume ih => exact fun value => ih value (returns value)
  | store value rest ih => exact ih returns
  | fork job rest ih => exact ih returns

/-- A program that only looks gets no answer. -/
theorem Program.Quiet.returns {results : α → Prop}
    {program : Program Service Request Reply Cell Job α} (quiet : program.Quiet results)
    (holds : ∀ result, results result → post answers result) : program.Returns post answers := by
  induction program with
  | finish result => exact holds result quiet
  | look resume ih => exact fun service => ih service (quiet service)
  | time resume ih => exact fun now => ih now (quiet now)
  | ask | askWithin | load | store | fork => exact quiet.elim

theorem Program.returns_bind_iff {post : List (Request × Reply) → β → Prop}
    {first : Program Service Request Reply Cell Job α}
    {second : α → Program Service Request Reply Cell Job β} :
    (first.bind second).Returns post answers ↔
      first.Returns (fun answers result => (second result).Returns post answers) answers := by
  induction first generalizing answers with
  | finish result => exact Iff.rfl
  | ask request resume ih => exact forall_congr' fun reply => ih reply
  | askWithin patience request lapsed resume ihLapsed ih =>
      exact and_congr (forall_congr' fun lapse => ihLapsed lapse)
        (forall_congr' fun reply => ih reply)
  | look resume ih => exact forall_congr' fun service => ih service
  | time resume ih => exact forall_congr' fun now => ih now
  | load resume ih => exact forall_congr' fun value => ih value
  | store value rest ih => exact ih
  | fork job rest ih => exact ih

@[simp]
theorem Program.returns_do_iff {post : List (Request × Reply) → β → Prop}
    {first : Program Service Request Reply Cell Job α}
    {second : α → Program Service Request Reply Cell Job β} :
    (first >>= second).Returns post answers ↔
      first.Returns (fun answers result => (second result).Returns post answers) answers :=
  returns_bind_iff

@[simp]
theorem Program.returns_pure_iff {result : α} :
    (pure result : Program Service Request Reply Cell Job α).Returns post answers ↔
      post answers result :=
  Iff.rfl

@[simp]
theorem Program.returns_asking_iff {request : Request}
    {post : List (Request × Reply) → Reply → Prop} :
    (asking request : Program Service Request Reply Cell Job Reply).Returns post answers ↔
      ∀ reply, post (answers ++ [(request, reply)]) reply :=
  Iff.rfl

@[simp]
theorem Program.returns_askingWithin_iff {patience : Patience} {request : Request}
    {post : List (Request × Reply) → Except Lapse Reply → Prop} :
    (askingWithin patience request :
        Program Service Request Reply Cell Job (Except Lapse Reply)).Returns post answers ↔
      (∀ lapse, post answers (.error lapse)) ∧
        ∀ reply, post (answers ++ [(request, reply)]) (.ok reply) :=
  Iff.rfl

@[simp]
theorem Program.returns_timing_iff {post : List (Request × Reply) → Nat → Prop} :
    (timing : Program Service Request Reply Cell Job Nat).Returns post answers ↔
      ∀ now, post answers now :=
  Iff.rfl

@[simp]
theorem Program.returns_storing_iff {value : Cell} {post : List (Request × Reply) → Unit → Prop} :
    (storing value : Program Service Request Reply Cell Job Unit).Returns post answers ↔
      post answers () :=
  Iff.rfl

@[simp]
theorem Program.returns_forking_iff {job : Job} {post : List (Request × Reply) → Unit → Prop} :
    (forking job : Program Service Request Reply Cell Job Unit).Returns post answers ↔
      post answers () :=
  Iff.rfl

end Rules

namespace ThreadLog

variable (log : ThreadLog Request Reply Job)

/-- The answers without their tickets. -/
def heard : List (Request × Reply) :=
  log.answers.map Prod.snd

@[simp]
theorem heard_learn (ticket : Nat) (request : Request) (reply : Reply) :
    (log.learn ticket request reply).heard = log.heard ++ [(request, reply)] := by
  simp [heard, learn]

end ThreadLog

/-- What is left of a thread meets the postcondition of its job. -/
def Thread.Returns (post : Job → List (Request × Reply) → Result → Prop)
    (log : ThreadLog Request Reply Job) : Thread Service Request Reply Cell Job Result → Prop
  | .ready program => program.Returns (post log.job) log.heard
  | .waiting _ request expiry resume =>
      (∀ limit ∈ expiry, ∀ lapse, (limit.lapsed lapse).Returns (post log.job) log.heard) ∧
        ∀ reply, (resume reply).Returns (post log.job) (log.heard ++ [(request, reply)])
  | .ended (some result) => post log.job log.heard result
  | .ended none => True

/-- The ticket that a thread waits with. -/
def Thread.ticket? : Thread Service Request Reply Cell Job Result → Option Nat
  | .waiting ticket _ _ _ => some ticket
  | .ready _ | .ended _ => none

section Runs

variable (host : Host Service ServiceLabel Request Reply Cell Job Result)
  (post : Job → List (Request × Reply) → Result → Prop)

/-- A thread waits with this ticket or has been answered under it. -/
def HoldsTicket (state : HostState Service Request Reply Cell Job Result)
    (logs : List (ThreadLog Request Reply Job)) (i ticket : Nat) : Prop :=
  (∃ request expiry resume, state.threads[i]? = some (.waiting ticket request expiry resume)) ∨
    ∃ log request reply, logs[i]? = some log ∧ (ticket, request, reply) ∈ log.answers

/-- Threads meet their postconditions with the answers in their logs, which the
service gave under these tickets, one after the other; no two threads hold one
ticket. -/
structure OwnsAnswers (asked : List (Nat × Request))
    (state : HostState Service Request Reply Cell Job Result)
    (logs : List (ThreadLog Request Reply Job)) : Prop where
  length : logs.length = state.threads.length
  returns : ∀ (i : Nat) (thread : Thread Service Request Reply Cell Job Result)
    (log : ThreadLog Request Reply Job), state.threads[i]? = some thread → logs[i]? = some log →
      thread.Returns post log
  answered : ∀ (i : Nat) (log : ThreadLog Request Reply Job) (ticket : Nat) (request : Request)
    (reply : Reply), logs[i]? = some log → (ticket, request, reply) ∈ log.answers →
      (ticket, request) ∈ asked ∧ host.answer state.service ticket = some reply
  waiting : ∀ (i ticket : Nat) (request : Request)
    (expiry : Option (Expiry Service Request Reply Cell Job Result))
    (resume : Reply → Program Service Request Reply Cell Job Result),
    state.threads[i]? = some (.waiting ticket request expiry resume) → (ticket, request) ∈ asked
  ordered : ∀ (i : Nat) (thread : Thread Service Request Reply Cell Job Result)
    (log : ThreadLog Request Reply Job), state.threads[i]? = some thread → logs[i]? = some log →
      (log.answers.map Prod.fst ++ thread.ticket?.toList).Pairwise (· < ·)
  apart : ∀ i j ticket, HoldsTicket state logs i ticket → HoldsTicket state logs j ticket → i = j
  below : ∀ i ticket, HoldsTicket state logs i ticket → ticket < state.tickets

end Runs

section Tickets

variable {state next : HostState Service Request Reply Cell Job Result}
  {logs later : List (ThreadLog Request Reply Job)}

theorem holdsTicket_of_setThread {i j ticket : Nat}
    {thread : Thread Service Request Reply Cell Job Result}
    (holds : HoldsTicket (state.setThread i thread) logs j ticket) :
    HoldsTicket state logs j ticket ∨
      j = i ∧ ∃ request expiry resume, thread = .waiting ticket request expiry resume := by
  rcases holds with ⟨request, expiry, resume, isThread⟩ | logged
  · rw [HostState.setThread, List.getElem?_set] at isThread
    split_ifs at isThread with same inBounds
    · exact Or.inr ⟨same.symm, request, expiry, resume, Option.some.inj isThread⟩
    · exact Or.inl (Or.inl ⟨request, expiry, resume, isThread⟩)
  · exact Or.inl (Or.inr logged)

theorem holdsTicket_of_addThread {program : Program Service Request Reply Cell Job Result}
    {job : Job} {j ticket : Nat}
    (holds : HoldsTicket (state.addThread program) (logs ++ [⟨job, []⟩]) j ticket) :
    HoldsTicket state logs j ticket := by
  rcases holds with ⟨request, expiry, resume, isThread⟩ | ⟨log, request, reply, isLog, member⟩
  · left
    refine ⟨request, expiry, resume, ?_⟩
    rw [HostState.addThread, List.getElem?_append] at isThread
    split_ifs at isThread with inBounds
    · exact isThread
    · cases List.mem_singleton.mp (List.mem_of_getElem? isThread)
  · right
    refine ⟨log, request, reply, ?_, member⟩
    rw [List.getElem?_append] at isLog
    split_ifs at isLog with inBounds
    · exact isLog
    · rw [List.mem_singleton.mp (List.mem_of_getElem? isLog)] at member
      cases member

theorem getElem?_learn {i j ticket : Nat} {request : Request} {reply : Reply}
    {log : ThreadLog Request Reply Job}
    (isLog : (logs.modify i fun log => log.learn ticket request reply)[j]? = some log) :
    logs[j]? = some log ∧ j ≠ i ∨
      j = i ∧ ∃ before, logs[i]? = some before ∧ log = before.learn ticket request reply := by
  rw [List.getElem?_modify] at isLog
  obtain ⟨before, isBefore, rfl⟩ := Option.map_eq_some_iff.mp isLog
  by_cases same : i = j
  · subst same
    exact Or.inr ⟨rfl, before, isBefore, if_pos rfl⟩
  · rw [if_neg same]
    exact Or.inl ⟨isBefore, Ne.symm same⟩

/-- The ticket of the answer was held by the thread that waited for it. -/
theorem holdsTicket_of_learn {i j ticket other : Nat} {request : Request} {reply : Reply}
    {expiry : Option (Expiry Service Request Reply Cell Job Result)}
    {resume : Reply → Program Service Request Reply Cell Job Result}
    {program : Program Service Request Reply Cell Job Result}
    (isWaiting : state.threads[i]? = some (.waiting ticket request expiry resume))
    (holds : HoldsTicket (state.setThread i (.ready program))
      (logs.modify i fun log => log.learn ticket request reply) j other) :
    HoldsTicket state logs j other := by
  rcases holds with waits | ⟨log, otherRequest, otherReply, isLog, member⟩
  · rcases holdsTicket_of_setThread (Or.inl waits) with before | ⟨_, _, _, _, impossible⟩
    · exact before
    · cases impossible
  · rcases getElem?_learn isLog with ⟨before, _⟩ | ⟨rfl, before, isBefore, rfl⟩
    · exact Or.inr ⟨log, otherRequest, otherReply, before, member⟩
    · rcases List.mem_append.mp member with earlier | new
      · exact Or.inr ⟨before, otherRequest, otherReply, isBefore, earlier⟩
      · obtain ⟨rfl, _⟩ := Prod.mk.inj (List.mem_singleton.mp new)
        exact Or.inl ⟨request, expiry, resume, isWaiting⟩

end Tickets

namespace OwnsAnswers

variable {host : Host Service ServiceLabel Request Reply Cell Job Result}
  {post : Job → List (Request × Reply) → Result → Prop}
  {asked more : List (Nat × Request)}
  {state next : HostState Service Request Reply Cell Job Result}
  {logs later : List (ThreadLog Request Reply Job)}

theorem answered_mono (owns : OwnsAnswers host post asked state logs) (keeps : host.KeepsAnswers)
    {label : HostLabel ServiceLabel Job} (stepped : host.step state label = some next)
    (subset : asked ⊆ more) (i : Nat) (log : ThreadLog Request Reply Job) (ticket : Nat)
    (request : Request) (reply : Reply) (isLog : logs[i]? = some log)
    (member : (ticket, request, reply) ∈ log.answers) :
    (ticket, request) ∈ more ∧ host.answer next.service ticket = some reply := by
  obtain ⟨isAsked, answered⟩ := owns.answered i log ticket request reply isLog member
  refine ⟨subset isAsked, ?_⟩
  have served := host.serve_of_step stepped
  split at served
  · exact keeps served answered
  · rw [served]
    exact answered

/-- One thread goes on without an answer, with a new ticket or none. -/
theorem setThread (owns : OwnsAnswers host post asked state logs)
    {i : Nat} {before thread : Thread Service Request Reply Cell Job Result}
    (isBefore : state.threads[i]? = some before)
    (threads : next.threads = state.threads.set i thread)
    (answered : ∀ (j : Nat) (log : ThreadLog Request Reply Job) (ticket : Nat) (request : Request)
      (reply : Reply), logs[j]? = some log → (ticket, request, reply) ∈ log.answers →
        (ticket, request) ∈ more ∧ host.answer next.service ticket = some reply)
    (subset : asked ⊆ more) (tickets : state.tickets ≤ next.tickets)
    (returns : ∀ log, before.Returns post log → thread.Returns post log)
    (waits : ∀ ticket request expiry resume, thread = .waiting ticket request expiry resume →
      (ticket, request) ∈ more ∧ ticket = state.tickets ∧ ticket < next.tickets) :
    OwnsAnswers host post more next logs := by
  have holds : ∀ {j ticket : Nat}, HoldsTicket next logs j ticket →
      HoldsTicket state logs j ticket ∨
        j = i ∧ ticket = state.tickets ∧ ticket < next.tickets := by
    intro j ticket held
    have sameThreads : HoldsTicket (state.setThread i thread) logs j ticket := by
      rw [HoldsTicket, threads] at held
      exact held
    refine (holdsTicket_of_setThread sameThreads).imp_right ?_
    rintro ⟨rfl, request, expiry, resume, isThread⟩
    exact ⟨rfl, (waits ticket request expiry resume isThread).2⟩
  constructor
  · rw [threads, List.length_set]
    exact owns.length
  · intro j other log isThread isLog
    rw [threads, List.getElem?_set] at isThread
    split_ifs at isThread with same inBounds
    · cases isThread
      exact returns log (owns.returns i before log isBefore (same ▸ isLog))
    · exact owns.returns j other log isThread isLog
  · exact answered
  · intro j ticket request expiry resume isThread
    rw [threads, List.getElem?_set] at isThread
    split_ifs at isThread with same inBounds
    · cases isThread
      exact (waits ticket request expiry resume rfl).1
    · exact subset (owns.waiting j ticket request expiry resume isThread)
  · intro j other log isThread isLog
    rw [threads, List.getElem?_set] at isThread
    split_ifs at isThread with same inBounds
    · cases isThread
      subst same
      have earlier := (List.pairwise_append.mp (owns.ordered i before log isBefore isLog)).1
      cases thread with
      | waiting ticket request expiry resume =>
          obtain ⟨_, rfl, _⟩ := waits ticket request expiry resume rfl
          refine List.pairwise_append.mpr ⟨earlier, List.pairwise_singleton _ _, ?_⟩
          intro answeredTicket isAnswered latest isLatest
          obtain ⟨⟨_, request, reply⟩, member, rfl⟩ := List.mem_map.mp isAnswered
          rw [List.mem_singleton.mp isLatest]
          exact owns.below i _ (Or.inr ⟨log, request, reply, isLog, member⟩)
      | ready | ended => exact (List.append_nil _).symm ▸ earlier
    · exact owns.ordered j other log isThread isLog
  · intro first second ticket holdsFirst holdsSecond
    rcases holds holdsFirst with earlier | ⟨rfl, isNew, _⟩
    · rcases holds holdsSecond with other | ⟨_, isNew, _⟩
      · exact owns.apart first second ticket earlier other
      · exact absurd (isNew ▸ owns.below first ticket earlier) (Nat.lt_irrefl _)
    · rcases holds holdsSecond with other | ⟨rfl, _, _⟩
      · exact absurd (isNew ▸ owns.below second ticket other) (Nat.lt_irrefl _)
      · rfl
  · intro j ticket held
    rcases holds held with earlier | ⟨_, _, isBelow⟩
    · exact Nat.lt_of_lt_of_le (owns.below j ticket earlier) tickets
    · exact isBelow

theorem abandon (owns : OwnsAnswers host post asked state logs) {i : Nat}
    (answered : ∀ (j : Nat) (log : ThreadLog Request Reply Job) (ticket : Nat) (request : Request)
      (reply : Reply), logs[j]? = some log → (ticket, request, reply) ∈ log.answers →
        (ticket, request) ∈ asked ∧ host.answer state.service ticket = some reply) :
    OwnsAnswers host post asked (state.setThread i (.ended none)) logs := by
  cases isThread : state.threads[i]? with
  | some thread =>
      refine owns.setThread isThread rfl answered (fun _ member => member) le_rfl
        (fun _ _ => trivial) ?_
      rintro _ _ _ _ ⟨⟩
  | none =>
      have same : state.threads.set i (.ended none) = state.threads :=
        List.set_eq_of_length_le (List.getElem?_eq_none_iff.mp isThread)
      rw [HostState.setThread, same]
      exact owns

theorem addThread (owns : OwnsAnswers host post asked state logs) {job : Job}
    (returns : (host.code job).Returns (post job) []) :
    OwnsAnswers host post asked (state.addThread (host.code job)) (logs ++ [⟨job, []⟩]) := by
  have sameLength := owns.length
  constructor
  · rw [HostState.addThread, List.length_append, List.length_append, owns.length]
    rfl
  · intro j thread log isThread isLog
    rw [HostState.addThread, List.getElem?_append, ← sameLength] at isThread
    rw [List.getElem?_append] at isLog
    split_ifs at isThread isLog
    · exact owns.returns j thread log isThread isLog
    · rw [List.mem_singleton.mp (List.mem_of_getElem? isThread),
        List.mem_singleton.mp (List.mem_of_getElem? isLog)]
      exact returns
  · intro j log ticket request reply isLog member
    rw [List.getElem?_append] at isLog
    split_ifs at isLog
    · exact owns.answered j log ticket request reply isLog member
    · rw [List.mem_singleton.mp (List.mem_of_getElem? isLog)] at member
      cases member
  · intro j ticket request expiry resume isThread
    rw [HostState.addThread, List.getElem?_append] at isThread
    split_ifs at isThread
    · exact owns.waiting j ticket request expiry resume isThread
    · cases List.mem_singleton.mp (List.mem_of_getElem? isThread)
  · intro j thread log isThread isLog
    rw [HostState.addThread, List.getElem?_append, ← sameLength] at isThread
    rw [List.getElem?_append] at isLog
    split_ifs at isThread isLog
    · exact owns.ordered j thread log isThread isLog
    · rw [List.mem_singleton.mp (List.mem_of_getElem? isThread),
        List.mem_singleton.mp (List.mem_of_getElem? isLog)]
      exact .nil
  · intro first second ticket holdsFirst holdsSecond
    exact owns.apart first second ticket (holdsTicket_of_addThread holdsFirst)
      (holdsTicket_of_addThread holdsSecond)
  · intro j ticket held
    exact owns.below j ticket (holdsTicket_of_addThread held)

/-- A thread is answered, and its log notes the answer. -/
theorem learn (owns : OwnsAnswers host post asked state logs) {i ticket : Nat} {request : Request}
    {expiry : Option (Expiry Service Request Reply Cell Job Result)}
    {resume : Reply → Program Service Request Reply Cell Job Result} {reply : Reply}
    (isWaiting : state.threads[i]? = some (.waiting ticket request expiry resume))
    (answered : host.answer state.service ticket = some reply) :
    OwnsAnswers host post asked (state.setThread i (.ready (resume reply)))
      (logs.modify i fun log => log.learn ticket request reply) := by
  constructor
  · rw [HostState.setThread, List.length_set, List.length_modify]
    exact owns.length
  · intro j thread log isThread isLog
    rw [HostState.setThread, List.getElem?_set] at isThread
    rcases getElem?_learn isLog with ⟨isLog, other⟩ | ⟨rfl, before, isBefore, rfl⟩
    · rw [if_neg (Ne.symm other)] at isThread
      exact owns.returns j thread log isThread isLog
    · rw [if_pos rfl] at isThread
      split_ifs at isThread
      cases isThread
      change Program.Returns _ _ _
      rw [ThreadLog.heard_learn]
      exact (owns.returns j _ before isWaiting isBefore).2 reply
  · intro j log other otherRequest otherReply isLog member
    rcases getElem?_learn isLog with ⟨isLog, _⟩ | ⟨rfl, before, isBefore, rfl⟩
    · exact owns.answered j log other otherRequest otherReply isLog member
    · rcases List.mem_append.mp member with earlier | new
      · exact owns.answered j before other otherRequest otherReply isBefore earlier
      · cases List.mem_singleton.mp new
        exact ⟨owns.waiting j ticket request expiry resume isWaiting, answered⟩
  · intro j other otherRequest otherExpiry otherResume isThread
    rw [HostState.setThread, List.getElem?_set] at isThread
    split_ifs at isThread with same inBounds
    · cases isThread
    · exact owns.waiting j other otherRequest otherExpiry otherResume isThread
  · intro j thread log isThread isLog
    rw [HostState.setThread, List.getElem?_set] at isThread
    rcases getElem?_learn isLog with ⟨isLog, other⟩ | ⟨rfl, before, isBefore, rfl⟩
    · rw [if_neg (Ne.symm other)] at isThread
      exact owns.ordered j thread log isThread isLog
    · rw [if_pos rfl] at isThread
      split_ifs at isThread
      cases isThread
      have ordered := owns.ordered j _ before isWaiting isBefore
      simpa [ThreadLog.learn, Thread.ticket?] using ordered
  · intro first second other holdsFirst holdsSecond
    exact owns.apart first second other (holdsTicket_of_learn isWaiting holdsFirst)
      (holdsTicket_of_learn isWaiting holdsSecond)
  · intro j other held
    exact owns.below j other (holdsTicket_of_learn isWaiting held)

/-- Every step keeps the answers with the threads that own them. -/
theorem step (keeps : host.KeepsAnswers) (returns : ∀ job, (host.code job).Returns (post job) [])
    (owns : OwnsAnswers host post asked state logs) {label : HostLabel ServiceLabel Job}
    (stepped : host.step state label = some next) :
    OwnsAnswers host post
      (asked ++ (Host.asks? state label).toList.map fun request => (state.tickets, request)) next
      (host.noteThreads logs state label) := by
  have subset : asked ⊆ asked ++
      (Host.asks? state label).toList.map fun request => (state.tickets, request) :=
    List.subset_append_left asked _
  have answered := owns.answered_mono keeps stepped subset
  cases Host.transition_of_step stepped with
  | @begun job offered =>
      simp only [Host.asks?, Option.toList_none, List.map_nil, List.append_nil]
      exact owns.addThread (returns job)
  | @asked i program request expiry resume service isReady asks served =>
      simp only [Host.asks?_eq_some isReady asks, Host.noteThreads_of_asks isReady asks,
        Option.toList_some, List.map_cons, List.map_nil] at subset answered ⊢
      refine owns.setThread isReady rfl answered subset (Nat.le_succ _) ?_ ?_
      · intro log whole
        cases asks with
        | patiently =>
            refine ⟨?_, whole⟩
            rintro _ ⟨⟩
        | within =>
            refine ⟨?_, whole.2⟩
            rintro _ ⟨⟩
            exact whole.1
      · rintro _ _ _ _ ⟨⟩
        exact ⟨List.mem_append_right asked (List.mem_singleton.mpr rfl), rfl, Nat.lt_succ_self _⟩
  | @finished i result isReady =>
      simp only [Host.asks?, Host.noteThreads, isReady, Option.toList_none, List.map_nil,
        List.append_nil] at subset answered ⊢
      refine owns.setThread isReady rfl answered subset le_rfl (fun _ whole => whole) ?_
      rintro _ _ _ _ ⟨⟩
  | @looked i resume isReady =>
      simp only [Host.asks?, Host.noteThreads, isReady, Option.toList_none, List.map_nil,
        List.append_nil] at subset answered ⊢
      refine owns.setThread isReady rfl answered subset le_rfl (fun _ whole => whole _) ?_
      rintro _ _ _ _ ⟨⟩
  | @timed i resume isReady =>
      simp only [Host.asks?, Host.noteThreads, isReady, Option.toList_none, List.map_nil,
        List.append_nil] at subset answered ⊢
      refine owns.setThread isReady rfl answered subset le_rfl (fun _ whole => whole _) ?_
      rintro _ _ _ _ ⟨⟩
  | @loaded i resume isReady =>
      simp only [Host.asks?, Host.noteThreads, isReady, Option.toList_none, List.map_nil,
        List.append_nil] at subset answered ⊢
      refine owns.setThread isReady rfl answered subset le_rfl (fun _ whole => whole _) ?_
      rintro _ _ _ _ ⟨⟩
  | @stored i value rest isReady =>
      simp only [Host.asks?, Host.noteThreads, isReady, Option.toList_none, List.map_nil,
        List.append_nil] at subset answered ⊢
      refine owns.setThread isReady rfl answered subset le_rfl (fun _ whole => whole) ?_
      rintro _ _ _ _ ⟨⟩
  | @forked i job rest isReady =>
      simp only [Host.asks?, Host.noteThreads, isReady, Option.toList_none, List.map_nil,
        List.append_nil] at subset answered ⊢
      have continued : OwnsAnswers host post asked (state.setThread i (.ready rest)) logs := by
        refine owns.setThread isReady rfl answered subset le_rfl (fun _ whole => whole) ?_
        rintro _ _ _ _ ⟨⟩
      exact continued.addThread (returns job)
  | @resumed i ticket request reply expiry resume isWaiting isReply =>
      simp only [Host.asks?, Host.noteThreads, isWaiting, isReply, Option.toList_none,
        List.map_nil, List.append_nil]
      exact owns.learn isWaiting isReply
  | @lapsed i ticket request lapse expiry resume isWaiting allowed =>
      simp only [Host.asks?, Host.noteThreads, Option.toList_none, List.map_nil,
        List.append_nil] at subset answered ⊢
      refine owns.setThread isWaiting rfl answered subset le_rfl
        (fun _ whole => whole.1 expiry rfl lapse) ?_
      rintro _ _ _ _ ⟨⟩
  | @abandoned i =>
      simp only [Host.asks?, Host.noteThreads, Option.toList_none, List.map_nil,
        List.append_nil] at subset answered ⊢
      exact owns.abandon answered
  | served isCall served =>
      simp only [Host.asks?, Host.noteThreads, Option.toList_none, List.map_nil,
        List.append_nil] at answered ⊢
      exact { owns with answered }
  | ticked =>
      simp only [Host.asks?, Host.noteThreads, Option.toList_none, List.map_nil,
        List.append_nil]
      exact { owns with }

end OwnsAnswers

section Runs

variable {host : Host Service ServiceLabel Request Reply Cell Job Result}
  {post : Job → List (Request × Reply) → Result → Prop} {Memory : Type}
  {noteService : Memory → Service → ServiceLabel → Service → Memory}

end Runs

end SharedPrograms
