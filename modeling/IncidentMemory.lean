import IncidentMemory.LogWriter
import IncidentMemory.Main
import IncidentMemory.Proofs.AtMostOnce
import IncidentMemory.Proofs.Authentication
import IncidentMemory.Proofs.ClockEnd
import IncidentMemory.Proofs.ContextBlock
import IncidentMemory.Proofs.Cutting
import IncidentMemory.Proofs.DuplicateCheck
import IncidentMemory.Proofs.Durations
import IncidentMemory.Proofs.Enrichment
import IncidentMemory.Proofs.Holdings
import IncidentMemory.Proofs.Isolation
import IncidentMemory.Proofs.Layouts
import IncidentMemory.Proofs.Ledger
import IncidentMemory.Proofs.Lifecycle
import IncidentMemory.Proofs.LogWriter
import IncidentMemory.Proofs.Lossless
import IncidentMemory.Proofs.Masking
import IncidentMemory.Proofs.Overlay
import IncidentMemory.Proofs.Persistence
import IncidentMemory.Proofs.Preparation
import IncidentMemory.Proofs.Redacted
import IncidentMemory.Proofs.Relevance
import IncidentMemory.Proofs.Repetition
import IncidentMemory.Proofs.Requests
import IncidentMemory.Proofs.Rounds
import IncidentMemory.Proofs.Search
import IncidentMemory.Proofs.Separation
import IncidentMemory.Proofs.Settings
import IncidentMemory.Proofs.Shift
import IncidentMemory.Proofs.Size
import IncidentMemory.Proofs.Slots
import IncidentMemory.Proofs.Startup
import IncidentMemory.Proofs.Storage
import IncidentMemory.Proofs.Timestamps
import IncidentMemory.Proofs.Turns
import IncidentMemory.Proofs.Views
import IncidentMemory.Proofs.WellFormed
import IncidentMemory.Proofs.Window
import IncidentMemory.Proofs.WorkerTurns
import IncidentMemory.Simulation.Session
