import Framewalk.JournaledRuns
import Framewalk.OwnOutcomes
import Framewalk.RawGuard
import Framewalk.SteelValues

/-!
# Console output between a command and its result

GDB answers `-gdb-version` on its console stream and not in its result, so the
server notes the cursor, submits the command, and afterwards collects the
console text above the cursor.  The reader journals a result only behind
everything that GDB printed before it, so the text is complete when the submit
returns.
-/

namespace Framewalk

open TransitionSystem Transport

/-- The text behind which nothing but whitespace is cut off on both sides; a
blank text is none. -/
def trimmedText (text : String) : Option String :=
  match RawGuard.trim text.toList with
  | [] => none
  | characters => some (String.ofList characters)

def collectConsoleTextSince (journal : EventJournal) (fromCursor : Nat) : Option String :=
  trimmedText <| (journal.eventsAfter fromCursor).foldl
    (fun buf entry =>
      match entry.event with
      | .console text => buf ++ text
      | _ => buf) ""

def outcomeToJson : CommandOutcome → Json
  | .done results => .object [("class", .string "done"), ("results", resultsToJson results)]
  | .running => .object [("class", .string "running")]
  | .connected results =>
      .object [("class", .string "connected"), ("results", resultsToJson results)]
  | .error msg code =>
      .object [("class", .string "error"), ("code", (code.map Json.string).getD .null),
        ("msg", .string msg)]
  | .exit => .object [("class", .string "exit")]

/-- A reply with the version as a member, if one was printed. -/
def withVersion (outcome : CommandOutcome) : Option String → Json
  | some version =>
      match outcomeToJson outcome with
      | .object members => .object (insertMember "version" (.string version) members)
      | payload => payload
  | none => outcomeToJson outcome

/-- The payload of the `gdb_version` tool: the cursor was read before the
command was submitted, the journal is read after it has returned. -/
def gdbVersion (cursor : Nat) (outcome : CommandOutcome) (journal : EventJournal) : Json :=
  withVersion outcome (collectConsoleTextSince journal cursor)

/-- The console text among some events. -/
def consoleText : List Event → String
  | [] => ""
  | .console text :: rest => text ++ consoleText rest
  | _ :: rest => consoleText rest

theorem foldl_consoleText (entries : List SequencedEvent) (buf : String) :
    entries.foldl
        (fun buf entry =>
          match entry.event with
          | .console text => buf ++ text
          | _ => buf) buf =
      buf ++ consoleText (entries.map SequencedEvent.event) := by
  induction entries generalizing buf with
  | nil => exact String.append_empty.symm
  | cons entry entries ih =>
      rw [List.foldl_cons, ih, List.map_cons]
      cases entry.event with
      | console text => exact String.append_assoc
      | _ => rfl

theorem consoleText_wireEvents {entries : List SequencedEvent}
    (logged : ∀ entry ∈ entries, entry.source = .synthetic →
      ∃ text, entry.event = .log text) :
    consoleText (entries.map SequencedEvent.event) =
      consoleText (entries.filterMap SequencedEvent.wireEvent?) := by
  induction entries with
  | nil => rfl
  | cons entry entries ih =>
      have rest := ih fun other member => logged other (List.mem_cons_of_mem entry member)
      rw [List.map_cons]
      cases source : entry.source with
      | synthetic =>
          obtain ⟨text, isLog⟩ := logged entry List.mem_cons_self source
          have noEvent : entry.wireEvent? = none := by rw [SequencedEvent.wireEvent?, source]
          rw [List.filterMap_cons_none noEvent, isLog]
          exact rest
      | wire index =>
          have isEvent : entry.wireEvent? = some entry.event := by
            rw [SequencedEvent.wireEvent?, source]
          rw [List.filterMap_cons_some isEvent]
          cases entry.event with
          | console text => exact congrArg (text ++ ·) rest
          | _ => exact rest

variable {before after : Remembering Transport CommandPipe}

/-- GDB answers only what it may have received, in every step. -/
abbrev ReachesAnswering (before after : Remembering Transport CommandPipe) : Prop :=
  Reaches (remember step CommandPipe.note)
    (fun current label => answersReceived current label = true) before after

theorem keepsOutcomes_of_reaches (reaches : ReachesAnswering ⟨new, .empty⟩ before) :
    KeepsOutcomes before := by
  apply reaches.invariant
  · exact keepsOutcomes_start
  · intro current next label keeps answers stepped
    exact keepsOutcomes_step keeps answers stepped

theorem keepsOutcomes_later (keeps : KeepsOutcomes before)
    (later : ReachesAnswering before after) : KeepsOutcomes after := by
  apply later.invariant
  · exact keeps
  · intro current next label keeps answers stepped
    exact keepsOutcomes_step keeps answers stepped

theorem extends_of_reaches (later : ReachesAnswering before after) :
    before.state.Extends after.state := by
  apply later.invariant
  · exact .refl _
  · intro current next label extended _ stepped
    exact extended.trans (extends_of_step (remember_eq_some stepped).1)

theorem issued_of_reaches (later : ReachesAnswering before after) :
    before.memory.issued ⊆ after.memory.issued := by
  apply later.invariant
  · exact fun _ member => member
  · intro current next label subset _ stepped entry member
    rw [(remember_eq_some stepped).2]
    exact CommandPipe.mem_issued_note (subset member)

/-- The result of a call that had no token yet comes later on the wire than all
that had been received then. -/
theorem length_le_of_ownOutcome (keeps : KeepsOutcomes before)
    (later : ReachesAnswering before after)
    {i : CallId} {outcome : CommandOutcome} {token : Token} {index : Nat}
    (fresh : (before.state.calls i).isFresh = true)
    (own : OwnOutcome after i outcome token index) : before.state.wire.length ≤ index := by
  by_contra notBeyond
  have inWire : index < before.state.wire.length := Nat.lt_of_not_le notBeyond
  have completed := own.completed
  rw [getElem?_of_isPrefix (extends_of_reaches later).wire inWire] at completed
  obtain ⟨line, isSent, tokenEq⟩ := keeps.matching.wire index token outcome completed
  have issued := (keeps.matching.sent line isSent).1
  rw [tokenEq] at issued
  have keepsAfter := keepsOutcomes_later keeps later
  have sameCall := keepsAfter.matching.issues.unique (issued_of_reaches later issued) own.issued
  rw [sameCall] at issued
  exact keeps.matching.issues.fresh i fresh token issued

/-- The events of the wire recorded between two states. -/
def recordedBetween (before after : Transport) : List Event :=
  (after.wire.take after.recorded).drop before.recorded

theorem collectConsoleTextSince_eq {earlier later : Transport} (isEarlier : earlier.IsJournaled)
    (isLater : later.IsJournaled) (extended : earlier.Extends later)
    (inRange : later.history.length < maxEventSeq) :
    collectConsoleTextSince later.journal earlier.journal.cursor =
      trimmedText (consoleText ((later.history.drop
        (max (lost later) earlier.history.length)).map SequencedEvent.event)) := by
  rw [collectConsoleTextSince, foldl_consoleText, String.empty_append,
    eventsAfter_eq isEarlier isLater extended inRange]

/-- Where the window holds all that was recorded since, this is the console text of
the wire. -/
theorem consoleText_since (isBefore : before.state.IsJournaled)
    (isAfter : after.state.IsJournaled) (extended : before.state.Extends after.state)
    (recordedLe : before.state.recorded ≤ before.state.wire.length)
    (retained : after.state.history.length ≤
      before.state.history.length + eventJournalCapacity) :
    consoleText ((after.state.history.drop
        (max (lost after.state) before.state.history.length)).map SequencedEvent.event) =
      consoleText (recordedBetween before.state after.state) := by
  have notLost : lost after.state ≤ before.state.history.length := by
    unfold lost
    omega
  have wire := wire_between isBefore isAfter extended
  rw [List.length_take, Nat.min_eq_left recordedLe] at wire
  rw [Nat.max_eq_right notLost, recordedBetween, ← wire, consoleText_wireEvents]
  intro entry member
  exact isAfter.synthetic entry (List.mem_of_mem_drop member)

/-- What had not been recorded at a moment and was by a later one is an entry that was
added in between. -/
theorem exists_entry_between {before after : Transport} (isBefore : before.IsJournaled)
    (isAfter : after.IsJournaled) (extended : before.Extends after)
    (records : before.RecordsWire) {count : Nat} (journaled : after.HasJournaled count)
    {index : Nat} (isLater : before.recorded ≤ index) (isEarlier : index < count) :
    ∃ entry ∈ after.history.drop before.history.length,
      entry.source = .wire index ∧ after.wire[index]? = some entry.event := by
  obtain ⟨entry, member, source, onWire⟩ := journaled index isEarlier
  refine ⟨entry, ?_, source, onWire⟩
  rw [← List.take_append_drop before.history.length after.history,
    history_take isBefore isAfter extended] at member
  rcases List.mem_append.mp member with isOld | isNew
  · have recorded := records.2.2.isRecorded entry isOld
    rw [SequencedEvent.IsRecorded, source] at recorded
    omega
  · exact isNew

/-- The version that the tool reports is the console text that was recorded since the
cursor was read, as far as the window still holds it.  By then everything has been
recorded that GDB printed before the command's own result, which comes behind all
that had been received when the cursor was read. -/
structure ReportsOwnConsole (before after : Remembering Transport CommandPipe) (i : CallId)
    (outcome : CommandOutcome) : Prop where
  payload : gdbVersion before.state.journal.cursor outcome after.state.journal =
    withVersion outcome (trimmedText (consoleText ((after.state.history.drop
      (max (lost after.state) before.state.history.length)).map SequencedEvent.event)))
  whole : after.state.history.length ≤ before.state.history.length + eventJournalCapacity →
    gdbVersion before.state.journal.cursor outcome after.state.journal =
      withVersion outcome
        (trimmedText (consoleText (recordedBetween before.state after.state)))
  complete : ∃ token index, (i, token) ∈ after.memory.issued ∧
    after.state.wire[index]? = some (.commandCompleted token outcome) ∧
      before.state.wire.length ≤ index ∧
      ∀ printed, before.state.recorded ≤ printed → printed < index →
        ∃ entry ∈ after.state.history.drop before.state.history.length,
          entry.source = .wire printed ∧ after.state.wire[printed]? = some entry.event

/-- For every interleaving with the reader and other calls, the console text is
complete when the submit returns, but for what the journal has let go meanwhile. -/
theorem gdbVersion_reports_own_console (earlier : ReachesAnswering ⟨new, .empty⟩ before)
    (later : ReachesAnswering before after) {i : CallId} {outcome : CommandOutcome}
    (fresh : (before.state.calls i).isFresh = true)
    (returned : after.state.calls i = .done (.outcome outcome))
    (inRange : after.state.history.length < maxEventSeq) :
    ReportsOwnConsole before after i outcome := by
  have keeps := keepsOutcomes_of_reaches earlier
  have keepsAfter := keepsOutcomes_later keeps later
  have isBefore := isJournaled_of_reachable keeps.reachable
  have isAfter := isJournaled_of_reachable keepsAfter.reachable
  have extended := extends_of_reaches later
  have records := recordsWire_of_reachable keeps.reachable
  have text := collectConsoleTextSince_eq isBefore isAfter extended inRange
  obtain ⟨token, index, own⟩ := keepsAfter.returned i outcome returned
  refine ⟨by rw [gdbVersion, text], ?_, token, index, own.issued, own.completed,
    length_le_of_ownOutcome keeps later fresh own, ?_⟩
  · intro retained
    rw [gdbVersion, text, consoleText_since isBefore isAfter extended records.2.2.inBounds retained]
  · intro printed isLater isEarlier
    exact exists_entry_between isBefore isAfter extended records own.journaled isLater isEarlier

/-- A submit of `-gdb-version` that was begun. -/
def versionAsked : Remembering Transport CommandPipe :=
  ⟨new.setCall 0 (.submitting (.structured ⟨"gdb-version", [], []⟩) none), .empty⟩

/-- GDB prints its banner in two pieces around a notification. -/
def bannerPrinted : List Label :=
  [.call 0, .call 0, .call 0, .call 0, .writerTake, .writerFinish,
    .receive (Utf8Text.asBytes "~\" GNU gdb\"\n=library-loaded\n~\" 15\\n\"\n1^done\n")] ++
    List.replicate 14 .reader ++ [.call 0]

theorem gdbVersion_reports_banner :
    ∃ after, ReportsOwnConsole versionAsked after 0 (.done []) ∧
      collectConsoleTextSince after.state.journal versionAsked.state.journal.cursor =
        some "GNU gdb 15" := by
  have returns :
      ((run (restrict (remember step CommandPipe.note) answersReceived) versionAsked
        bannerPrinted).any fun after =>
          (match after.state.calls 0 with
            | .done (.outcome (.done results)) => results.isEmpty
            | _ => false) &&
          after.state.history.length == 4 &&
          collectConsoleTextSince after.state.journal versionAsked.state.journal.cursor ==
            some "GNU gdb 15") = true := by
    decide +kernel
  rcases (Option.any_eq_true _ _).mp returns with ⟨after, ran, checks⟩
  rw [Bool.and_eq_true, Bool.and_eq_true, beq_iff_eq, beq_iff_eq] at checks
  obtain ⟨⟨outcome, length⟩, text⟩ := checks
  have asked : ReachesAnswering ⟨new, .empty⟩ versionAsked :=
    .tail (.start 0 (.submit (.structured ⟨"gdb-version", [], []⟩))) .refl rfl rfl
  have answered : ReachesAnswering versionAsked after :=
    reaches_of_run (eachStep_of_run_restrict ran) (run_of_run_restrict ran)
  split at outcome
  · next results returned =>
      obtain rfl := List.isEmpty_iff.mp outcome
      have inRange : after.state.history.length < maxEventSeq := by
        rw [length]
        decide
      exact ⟨after, gdbVersion_reports_own_console asked answered rfl returned inRange, text⟩
  · cases outcome

end Framewalk
