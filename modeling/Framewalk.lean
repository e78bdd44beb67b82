import Framewalk.Cursor
import Framewalk.CStringParser
import Framewalk.RecordParser
import Framewalk.CStringGrammar
import Framewalk.ValueGrammar
import Framewalk.RecordGrammar
import Framewalk.CommandEncoder
import Framewalk.CommandFields
import Framewalk.Framer
import Framewalk.ExecutionState
import Framewalk.ObjectRegistries
import Framewalk.PendingCommands
import Framewalk.Connection
import Framewalk.ConnectionChunking
import Framewalk.RawGuard
import Framewalk.RawCommandLines
import Framewalk.EventJournal
import Framewalk.TransitionSystem
import Framewalk.Transport
import Framewalk.ReaderExit
import Framewalk.RecordedWire
import Framewalk.CurrentStop
import Framewalk.TriggerAndWait
import Framewalk.StopWaiters
import Framewalk.SessionRuns
import Framewalk.ExecutionReports
import Framewalk.FrameValidity
import Framewalk.ThreadHistory
import Framewalk.ResultRouting
import Framewalk.TargetAgreement
import Framewalk.JournalHistory
import Framewalk.ObservedEvents
import Framewalk.JournalPaging
import Framewalk.CommandPipe
import Framewalk.FailedWrites
import Framewalk.IssuedTokens
import Framewalk.OwnOutcomes
import Framewalk.SnapshotFold
import Framewalk.FramerRuns
import Framewalk.JournalWindow
import Framewalk.SchemeCommands
import Framewalk.DisplayTruncation
import Framewalk.SchemeWorker
import Framewalk.AnsweredCommands
import Framewalk.TargetFeatures
import Framewalk.BreakpointMirror
import Framewalk.VarObjSubtrees
import Framewalk.AbandonedSubmits
import Framewalk.LineLimit
import Framewalk.OutboundQueue
import Framewalk.BreakCommands
import Framewalk.CStringEncoding
import Framewalk.ResultJson
import Framewalk.ResultRenderings
import Framewalk.CompactCollisions
import Framewalk.CommandTexts
import Framewalk.TargetSelection
import Framewalk.ExitCodes
import Framewalk.FramerMemory
import Framewalk.MapMembers
import Framewalk.TokenSpelling
import Framewalk.TokenWindows
import Framewalk.Disassembly
import Framewalk.FallibleOutcomes
import Framewalk.ErrorPositions
import Framewalk.ViablePrefixes
import Framewalk.CorrectPrefixes
import Framewalk.StdinStream
import Framewalk.JournaledRuns
import Framewalk.ConsoleText
import Framewalk.InlinedStreams
import Framewalk.SerialHistory
import Framewalk.EvalCalls
import Framewalk.Settling
import Framewalk.CaughtUp
import Framewalk.SharedPrograms
import Framewalk.ToolArguments
import Framewalk.ToolCommands
import Framewalk.ToolLines
import Framewalk.TargetReports
import Framewalk.ServerHandlers
import Framewalk.GuardedLines
import Framewalk.PermittedCommands
import Framewalk.ConfinedHandlers
import Framewalk.ServerRuns
import Framewalk.ProgramAnswers
import Framewalk.OwnReplies
import Framewalk.KeyedReports
import Framewalk.RegistryHistories
import Framewalk.PreludeCommands
import Framewalk.ResultAccessors
import Framewalk.ProgramSightings
import Framewalk.ScriptLoops
import Framewalk.ScriptedHandlers
import Framewalk.SplitTriggers
