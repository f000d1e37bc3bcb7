import ObzenflowFsm.Data.Future
import ObzenflowFsm.Data.Prospect
import ObzenflowFsm.Data.Registry
import ObzenflowFsm.Data.Defaults
import ObzenflowFsm.Data.Trajectory
import ObzenflowFsm.Data.Spacing
import ObzenflowFsm.Data.Parsing
import ObzenflowFsm.Theory.TimedMealy
import ObzenflowFsm.Theory.DefaultDelay
import ObzenflowFsm.Theory.Oblivious
import ObzenflowFsm.Theory.Bracketing
import ObzenflowFsm.Theory.Pipeline
import ObzenflowFsm.Theory.Redelivery
import ObzenflowFsm.Theory.Contract
import ObzenflowFsm.Theory.Lockstep
import ObzenflowFsm.Theory.Agenda
import ObzenflowFsm.Theory.Interleaving
import ObzenflowFsm.Types
import ObzenflowFsm.Transitions
import ObzenflowFsm.Machine
import ObzenflowFsm.Machine.Course
import ObzenflowFsm.Builder
import ObzenflowFsm.Machine.Checked
import ObzenflowFsm.Builder.Registration
import ObzenflowFsm.Builder.Validation
import ObzenflowFsm.Builder.Wildcard
import ObzenflowFsm.Machine.Run
import ObzenflowFsm.Machine.Overflow
import ObzenflowFsm.Machine.Dispatch
import ObzenflowFsm.Machine.Refinement
import ObzenflowFsm.Machine.Atomicity
import ObzenflowFsm.Machine.Live
import ObzenflowFsm.Machine.Cancellation
import ObzenflowFsm.Machine.Timer
import ObzenflowFsm.Machine.Completion
import ObzenflowFsm.Machine.Expiry
import ObzenflowFsm.Machine.Restoration
import ObzenflowFsm.Machine.Replay
import ObzenflowFsm.Machine.Deduplication
import ObzenflowFsm.Machine.Hooks
import ObzenflowFsm.Machine.Errors
import ObzenflowFsm.Machine.Wildcard
import ObzenflowFsm.Machine.Contracts
import ObzenflowFsm.Machine.Deadline
import ObzenflowFsm.Machine.Interleaving
import ObzenflowFsm.Machine.Convergence
import ObzenflowFsm.Machine.Abstraction
import ObzenflowFsm.Supervisor
import ObzenflowFsm.Supervisor.Obligations
import ObzenflowFsm.Supervisor.Recovery
import ObzenflowFsm.Supervisor.Safety
import ObzenflowFsm.Supervisor.Punctuality
import ObzenflowFsm.Supervisor.Abstraction
import ObzenflowFsm.Macro.Syntax
import ObzenflowFsm.Macro.Derive
import ObzenflowFsm.Macro.Parse
import ObzenflowFsm.Macro.Grammar
import ObzenflowFsm.Macro.Expand
import ObzenflowFsm.Macro.Clauses
import ObzenflowFsm.Macro.Preservation
import ObzenflowFsm.Macro.Arrangement
import ObzenflowFsm.Macro.Rendering
import ObzenflowFsm.Macro.Rejection
import ObzenflowFsm.Macro.Outcome
import ObzenflowFsm.Macro.Matching
import ObzenflowFsm.Macro.Hygiene
