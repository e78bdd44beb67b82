import Framewalk.IssuedTokens
import Framewalk.AnsweredCommands

/-!
# Tokens in a window

The allocator counts from one to the last 64-bit number and around again, so
its tokens repeat with period `2 ^ 64 - 1`.  Beside a run stands here what was
submitted and not yet answered, in order.  As long as fewer commands than a
period were submitted after the oldest of them, no submit meets an entry of the
pending table, and the table holds exactly them.
-/

namespace Framewalk

open TransitionSystem

namespace TokenAllocator

/-- The allocator after a number of allocations. -/
def after (allocator : TokenAllocator) : Nat → TokenAllocator
  | 0 => allocator
  | n + 1 => (allocator.after n).allocate.2

theorem allocate_next (allocator : TokenAllocator) :
    allocator.allocate.2.next.toNat =
      if allocator.next.toNat + 1 < 2 ^ 64 then allocator.next.toNat + 1 else 1 := by
  unfold allocate
  split_ifs with fits
  · rw [UInt64.toNat_add]
    exact Nat.mod_eq_of_lt fits
  · rfl

theorem next_after {allocator : TokenAllocator} (positive : 1 ≤ allocator.next.toNat) (n : Nat) :
    (allocator.after n).next.toNat =
      (allocator.next.toNat - 1 + n) % (2 ^ 64 - 1) + 1 := by
  have bounded : allocator.next.toNat < 2 ^ 64 := allocator.next.toNat_lt
  induction n with
  | zero =>
      change allocator.next.toNat = _
      omega
  | succ n ih =>
      rw [after, allocate_next, ih]
      split_ifs with fits <;> omega

theorem token_ne_zero {allocator : TokenAllocator} (positive : 1 ≤ allocator.next.toNat)
    (n : Nat) : (allocator.after n).allocate.1 ≠ 0 := by
  intro isZero
  have number : (allocator.after n).next.toNat = 0 := congrArg UInt64.toNat isZero
  rw [next_after positive] at number
  omega

theorem token_ne_of_lt {allocator : TokenAllocator} (positive : 1 ≤ allocator.next.toNat)
    {first second : Nat} (earlier : first < second) (near : second < first + (2 ^ 64 - 1)) :
    (allocator.after first).allocate.1 ≠ (allocator.after second).allocate.1 := by
  intro same
  have numbers : (allocator.after first).next.toNat = (allocator.after second).next.toNat :=
    congrArg UInt64.toNat same
  rw [next_after positive, next_after positive] at numbers
  omega

end TokenAllocator

/-- A request that waits for its result: how many were submitted before it, and
the token it was given. -/
structure Unanswered where
  serial : Nat
  token : Token
  request : SubmitRequest

/-- How many requests were submitted, and the unanswered ones in order. -/
structure TokenLog where
  submitted : Nat
  unanswered : List Unanswered

namespace TokenLog

def empty : TokenLog :=
  ⟨0, []⟩

def submit (log : TokenLog) (token : Token) (request : SubmitRequest) : TokenLog :=
  ⟨log.submitted + 1, log.unanswered ++ [⟨log.submitted, token, request⟩]⟩

/-- A result answers what waits under its token. -/
def answer (log : TokenLog) (record : ResultRecord) : TokenLog :=
  ⟨log.submitted, log.unanswered.filter fun entry => record.token ≠ some entry.token⟩

def line (log : TokenLog) (streamLine : List UInt8) : TokenLog :=
  match lineRecord streamLine with
  | some (.result record) => log.answer record
  | _ => log

def note (log : TokenLog) (connection : Connection) (label : ConnectionLabel) (_ : Connection) :
    TokenLog :=
  match label with
  | .receive chunk => (connection.linesOf chunk).foldl line log
  | .submit request => log.submit connection.tokens.allocate.1 request
  | .poll | .consume _ => log

/-- How many requests were submitted after this one. -/
def submittedAfter (log : TokenLog) (entry : Unanswered) : Nat :=
  log.submitted - (entry.serial + 1)

/-- Fewer requests than there are tokens were submitted after the oldest
unanswered one. -/
def WithinWindow (log : TokenLog) : Prop :=
  ∀ oldest, log.unanswered.head? = some oldest → log.submittedAfter oldest < 2 ^ 64 - 1

/-- The table holds what is unanswered, each under a token of its own. -/
structure Holds (log : TokenLog) (pending : PendingCommands) : Prop where
  distinct : (log.unanswered.map Unanswered.token).Nodup
  exact : ∀ (token : Token) (info : PendingInfo), pending.byToken[token]? = some info ↔
    ∃ entry ∈ log.unanswered, entry.token = token ∧ entry.request.info = info

/-- The unanswered requests are numbered in order of their submission, and each
has the token of its number. -/
structure Numbers (log : TokenLog) (allocator current : TokenAllocator) : Prop where
  current : current = allocator.after log.submitted
  ordered : log.unanswered.Pairwise (·.serial < ·.serial)
  earlier : ∀ entry ∈ log.unanswered, entry.serial < log.submitted
  token : ∀ entry ∈ log.unanswered, entry.token = (allocator.after entry.serial).allocate.1

variable {log : TokenLog} {allocator current : TokenAllocator}

theorem Numbers.submit (numbers : log.Numbers allocator current) (request : SubmitRequest) :
    (log.submit current.allocate.1 request).Numbers allocator current.allocate.2 where
  current := congrArg (·.allocate.2) numbers.current
  ordered := by
    rw [TokenLog.submit, List.pairwise_append]
    refine ⟨numbers.ordered, List.pairwise_singleton _ _, ?_⟩
    intro entry member last isLast
    rw [List.mem_singleton] at isLast
    rw [isLast]
    exact numbers.earlier entry member
  earlier := by
    intro entry member
    rw [TokenLog.submit, List.mem_append, List.mem_singleton] at member
    change entry.serial < log.submitted + 1
    rcases member with old | rfl
    · exact Nat.lt_succ_of_lt (numbers.earlier entry old)
    · exact Nat.lt_succ_self _
  token := by
    intro entry member
    rw [TokenLog.submit, List.mem_append, List.mem_singleton] at member
    rcases member with old | rfl
    · exact numbers.token entry old
    · exact congrArg (·.allocate.1) numbers.current

theorem Numbers.answer (numbers : log.Numbers allocator current) (record : ResultRecord) :
    (log.answer record).Numbers allocator current where
  current := numbers.current
  ordered := numbers.ordered.filter _
  earlier entry member := numbers.earlier entry (List.mem_of_mem_filter member)
  token entry member := numbers.token entry (List.mem_of_mem_filter member)

theorem Numbers.line (numbers : log.Numbers allocator current) (streamLine : List UInt8) :
    (log.line streamLine).Numbers allocator current := by
  unfold TokenLog.line
  split
  · exact numbers.answer _
  · exact numbers

theorem Numbers.near (numbers : log.Numbers allocator current) (window : log.WithinWindow)
    {entry : Unanswered} (member : entry ∈ log.unanswered) :
    log.submitted < entry.serial + 2 ^ 64 := by
  have ordered := numbers.ordered
  have earlier := numbers.earlier
  unfold WithinWindow submittedAfter at window
  cases waiting : log.unanswered with
  | nil =>
      rw [waiting] at member
      cases member
  | cons oldest later =>
      rw [waiting] at window ordered earlier member
      have few := window oldest rfl
      have before := earlier oldest List.mem_cons_self
      rcases List.mem_cons.mp member with rfl | isLater
      · omega
      · have after := (List.pairwise_cons.mp ordered).1 entry isLater
        omega

theorem Numbers.distinct (positive : 1 ≤ allocator.next.toNat)
    (numbers : log.Numbers allocator current) (window : log.WithinWindow) :
    (log.unanswered.map Unanswered.token).Nodup := by
  rw [List.nodup_iff_pairwise_ne, List.pairwise_map]
  apply numbers.ordered.imp_of_mem
  intro first second isFirst isSecond ordered
  rw [numbers.token first isFirst, numbers.token second isSecond]
  have near := numbers.near window isFirst
  have earlier := numbers.earlier second isSecond
  exact TokenAllocator.token_ne_of_lt positive ordered (by omega)

/-- The token of a submit that stays in the window is not waited for. -/
theorem Numbers.fresh (positive : 1 ≤ allocator.next.toNat)
    (numbers : log.Numbers allocator current) {request : SubmitRequest}
    (window : (log.submit current.allocate.1 request).WithinWindow) {entry : Unanswered}
    (member : entry ∈ log.unanswered) : entry.token ≠ current.allocate.1 := by
  have near := (numbers.submit request).near window (List.mem_append_left _ member)
  have submitted : (log.submit current.allocate.1 request).submitted = log.submitted + 1 := rfl
  rw [numbers.token entry member, numbers.current]
  exact TokenAllocator.token_ne_of_lt positive (numbers.earlier entry member) (by omega)

/-- The first unanswered request under each token. -/
def outstanding (log : TokenLog) : Outstanding :=
  fun token => (log.unanswered.find? (·.token = token)).map Unanswered.request

theorem outstanding_submit {token : Token} (request : SubmitRequest)
    (fresh : ∀ entry ∈ log.unanswered, entry.token ≠ token) :
    (log.submit token request).outstanding =
      Function.update log.outstanding token (some request) := by
  ext1 other
  simp only [outstanding, TokenLog.submit, List.find?_append]
  by_cases same : other = token
  · subst same
    have notFound : log.unanswered.find? (·.token = other) = none := by
      rw [List.find?_eq_none]
      intro entry member
      simpa using fresh entry member
    rw [notFound, Function.update_self]
    simp
  · have notLast : ([⟨log.submitted, token, request⟩] : List Unanswered).find?
        (·.token = other) = none := by
      simpa using Ne.symm same
    rw [notLast, Option.or_none, Function.update_of_ne same]
    rfl

theorem outstanding_answer (record : ResultRecord) :
    (log.answer record).outstanding = log.outstanding.settle record := by
  ext1 other
  simp only [outstanding, TokenLog.answer, List.find?_filter, Outstanding.settle]
  cases answered : record.token with
  | none => simp [outstanding]
  | some token =>
      change _ = Function.update log.outstanding token none other
      by_cases same : other = token
      · subst same
        rw [Function.update_self, Option.map_eq_none_iff, List.find?_eq_none]
        intro entry _
        simpa using fun differs isOther => differs isOther.symm
      · rw [Function.update_of_ne same, outstanding]
        congr 2
        ext1 entry
        by_cases isOther : entry.token = other
        · subst isOther
          simpa using Ne.symm same
        · simp [isOther]

theorem outstanding_line (session : Session) (streamLine : List UInt8) :
    (log.line streamLine).outstanding = log.outstanding.note session (.line streamLine) := by
  change _ = match lineRecord streamLine with
    | some (.result record) => log.outstanding.settle record
    | _ => log.outstanding
  unfold TokenLog.line
  split
  · exact outstanding_answer _
  · rfl

theorem outstanding_eq_some (distinct : (log.unanswered.map Unanswered.token).Nodup)
    (token : Token) (request : SubmitRequest) :
    log.outstanding token = some request ↔
      ∃ entry ∈ log.unanswered, entry.token = token ∧ entry.request = request := by
  rw [outstanding, Option.map_eq_some_iff]
  constructor
  · rintro ⟨entry, found, isRequest⟩
    exact ⟨entry, List.mem_of_find?_eq_some found, by simpa using List.find?_some found,
      isRequest⟩
  · rintro ⟨entry, member, isToken, isRequest⟩
    cases found : log.unanswered.find? (·.token = token) with
    | none =>
        have notToken := List.find?_eq_none.mp found entry member
        exact absurd isToken (by simpa using notToken)
    | some first =>
        have firstToken : first.token = token := by simpa using List.find?_some found
        have sameEntry : first = entry :=
          List.inj_on_of_nodup_map distinct (List.mem_of_find?_eq_some found) member
            (firstToken.trans isToken.symm)
        exact ⟨first, rfl, sameEntry ▸ isRequest⟩

theorem holds_of_tracks {pending : PendingCommands}
    (distinct : (log.unanswered.map Unanswered.token).Nodup)
    (tracks : log.outstanding.Tracks pending) : log.Holds pending where
  distinct := distinct
  exact := by
    intro token info
    rw [tracks token, Option.map_eq_some_iff]
    simp only [outstanding_eq_some distinct]
    constructor
    · rintro ⟨request, ⟨entry, member, isToken, rfl⟩, isInfo⟩
      exact ⟨entry, member, isToken, isInfo⟩
    · rintro ⟨entry, member, isToken, isInfo⟩
      exact ⟨entry.request, ⟨entry, member, isToken, rfl⟩, isInfo⟩

/-- The log numbers the requests of a session, whose table is what the log says
is unanswered. -/
structure Follows (log : TokenLog) (allocator : TokenAllocator) (session : Session) : Prop where
  numbers : log.Numbers allocator session.tokens
  tracks : log.outstanding.Tracks session.pending

variable {session : Session}

theorem follows_empty (miVersion : MiVersion) (allocator : TokenAllocator) :
    empty.Follows allocator
      { Session.withVersionHint miVersion with tokens := allocator } where
  numbers :=
    ⟨rfl, List.Pairwise.nil, fun _ member => (List.not_mem_nil member).elim,
      fun _ member => (List.not_mem_nil member).elim⟩
  tracks := Outstanding.tracks_empty

theorem Follows.line (follows : log.Follows allocator session) (streamLine : List UInt8) :
    (log.line streamLine).Follows allocator (session.receiveLine streamLine) where
  numbers := by
    rw [session.receiveLine_tokens]
    exact follows.numbers.line streamLine
  tracks := by
    rw [outstanding_line session]
    exact @Outstanding.Tracks.step _ _ _ (.line streamLine) follows.tracks rfl

theorem Follows.lines (lines : List (List UInt8)) (follows : log.Follows allocator session) :
    (lines.foldl TokenLog.line log).Follows allocator
      (lines.foldl Session.receiveLine session) := by
  induction lines generalizing log session with
  | nil => exact follows
  | cons first lines ih => exact ih (follows.line first)

theorem Follows.submit (positive : 1 ≤ allocator.next.toNat)
    (follows : log.Follows allocator session) (request : SubmitRequest)
    (window : (log.submit session.tokens.allocate.1 request).WithinWindow) :
    (log.submit session.tokens.allocate.1 request).Follows allocator (session.submit request) where
  numbers := follows.numbers.submit request
  tracks := by
    rw [outstanding_submit request fun _ => follows.numbers.fresh positive window]
    exact follows.tracks.submit request

/-- No result is awaited under the token of a submit that stays in the window. -/
theorem Follows.fresh (positive : 1 ≤ allocator.next.toNat)
    (follows : log.Follows allocator session) {request : SubmitRequest}
    (window : (log.submit session.tokens.allocate.1 request).WithinWindow) :
    session.pending.byToken[session.tokens.allocate.1]? = none := by
  rw [follows.tracks, Option.map_eq_none_iff, outstanding, Option.map_eq_none_iff,
    List.find?_eq_none]
  intro entry member
  simpa using follows.numbers.fresh positive window member

theorem Follows.holds (positive : 1 ≤ allocator.next.toNat)
    (follows : log.Follows allocator session) (window : log.WithinWindow) :
    log.Holds session.pending :=
  holds_of_tracks (follows.numbers.distinct positive window) follows.tracks

theorem Follows.step (positive : 1 ≤ allocator.next.toNat) {connection next : Connection}
    {label : ConnectionLabel} (follows : log.Follows allocator connection.toSession)
    (stepped : connection.step label = some next)
    (window : (log.note connection label next).WithinWindow) :
    (log.note connection label next).Follows allocator next.toSession := by
  cases label with
  | receive chunk =>
      obtain rfl := Option.some.inj stepped
      rw [connection.receiveBytes_toSession]
      exact follows.lines (connection.linesOf chunk)
  | submit request =>
      rw [Connection.step_submit stepped]
      exact follows.submit positive request window
  | poll =>
      obtain rfl := Option.some.inj stepped
      exact ⟨follows.numbers, follows.tracks⟩
  | consume n =>
      rcases Connection.step_consume stepped with ⟨outbound, _, rfl⟩
      exact ⟨follows.numbers, follows.tracks⟩

/-- A run begins with an empty table and any allocator. -/
def start (miVersion : MiVersion) (allocator : TokenAllocator) : Remembering Connection TokenLog :=
  ⟨{ Connection.withVersionHint miVersion with tokens := allocator }, empty⟩

/-- No submit overwrites an entry of the pending table. -/
def SubmitsFresh (current : Remembering Connection TokenLog) (label : ConnectionLabel) : Prop :=
  ∀ request, label = .submit request →
    current.state.pending.byToken[current.state.tokens.allocate.1]? = none

/-- The log is within the window after the step. -/
def StaysWithin (current : Remembering Connection TokenLog) (label : ConnectionLabel) : Prop :=
  ∀ next, remember Connection.step note current label = some next → next.memory.WithinWindow

theorem follows_of_reaches (miVersion : MiVersion) (positive : 1 ≤ allocator.next.toNat)
    {current : Remembering Connection TokenLog}
    (reaches : Reaches (remember Connection.step note) StaysWithin (start miVersion allocator)
      current) : current.memory.Follows allocator current.state.toSession := by
  apply reaches.invariant
  · exact follows_empty miVersion allocator
  · intro current next label follows stays stepped
    have within := stays next stepped
    rcases remember_eq_some stepped with ⟨stepped, noted⟩
    rw [noted] at within ⊢
    exact follows.step positive stepped within

theorem follows_of_run (miVersion : MiVersion) (positive : 1 ≤ allocator.next.toNat)
    {labels before : List ConnectionLabel} {current : Remembering Connection TokenLog}
    (within : Always (remember Connection.step note) (start miVersion allocator)
      (fun current => current.memory.WithinWindow) labels)
    (isPrefix : before <+: labels)
    (ran : run (remember Connection.step note) (start miVersion allocator) before = some current) :
    current.memory.Follows allocator current.state.toSession := by
  have stays : EachStep (remember Connection.step note) (start miVersion allocator) StaysWithin
      before := by
    intro first label firstPrefix state _ ranFirst _ next stepped
    exact within (first ++ [label]) (firstPrefix.trans isPrefix) next (run_snoc ranFirst stepped)
  exact follows_of_reaches miVersion positive (reaches_of_run stays ran)

/-- Tokens are never zero, and distinct within a period; so in a run that stays in
the window no submit overwrites a pending entry, and the pending table is
always what is submitted and not answered. -/
theorem tokens_unique_in_window (allocator : TokenAllocator)
    (positive : 1 ≤ allocator.next.toNat) :
    (∀ n, (allocator.after n).allocate.1 ≠ 0) ∧
      (∀ first i j, i < 2 ^ 64 - 1 → j < 2 ^ 64 - 1 →
        (allocator.after (first + i)).allocate.1 = (allocator.after (first + j)).allocate.1 →
          i = j) ∧
      ∀ (miVersion : MiVersion) (labels : List ConnectionLabel),
        Always (remember Connection.step note) (start miVersion allocator)
            (fun current => current.memory.WithinWindow) labels →
          Always (remember Connection.step note) (start miVersion allocator)
              (fun current => current.memory.Holds current.state.pending) labels ∧
            EachStep (remember Connection.step note) (start miVersion allocator) SubmitsFresh
              labels := by
  refine ⟨TokenAllocator.token_ne_zero positive, ?_, ?_⟩
  · intro first i j iBound jBound same
    rcases Nat.lt_trichotomy i j with before | rfl | behind
    · exact absurd same (TokenAllocator.token_ne_of_lt positive (by omega) (by omega))
    · rfl
    · exact absurd same.symm (TokenAllocator.token_ne_of_lt positive (by omega) (by omega))
  · intro miVersion labels within
    constructor
    · intro before isPrefix current ran
      exact (follows_of_run miVersion positive within isPrefix ran).holds positive
        (within before isPrefix current ran)
    · intro before label isPrefix current next ran stepped request isSubmit
      subst isSubmit
      have follows := follows_of_run miVersion positive within
        ((List.prefix_append before _).trans isPrefix) ran
      have window : next.memory.WithinWindow := within _ isPrefix next (run_snoc ran stepped)
      rw [(remember_eq_some stepped).2] at window
      exact follows.fresh positive window

/-- The last token before the wrap. -/
def lastToken : TokenAllocator :=
  ⟨18446744073709551615⟩

theorem withinWindow_of_few (few : log.submitted < 2 ^ 64 - 1) : log.WithinWindow := by
  intro oldest _
  unfold submittedAfter
  omega

/-- Two commands across the wrap are both pending, under two tokens. -/
theorem tokens_unique_across_wrap :
    lastToken.after 1 = .new ∧
      Always (remember Connection.step note) (start .unknown lastToken)
        (fun current => current.memory.Holds current.state.pending)
        [.submit (.raw "-exec-run"), .submit (.raw "-gdb-exit")] := by
  refine ⟨rfl, ((tokens_unique_in_window lastToken (by decide)).2.2 .unknown _ ?_).1⟩
  intro before isPrefix current ran
  rw [← List.mem_inits] at isPrefix
  simp only [List.inits, List.map_cons, List.map_nil, List.mem_cons, List.not_mem_nil,
    or_false] at isPrefix
  apply withinWindow_of_few
  rcases isPrefix with rfl | rfl | rfl <;> cases ran <;> decide

end TokenLog

end Framewalk
