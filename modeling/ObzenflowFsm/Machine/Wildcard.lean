import ObzenflowFsm.Theory.DefaultDelay
import ObzenflowFsm.Builder.Wildcard
import ObzenflowFsm.Machine.Refinement

namespace ObzenflowFsm

open Polling Registry TimedMealy

variable {S E C A : Type}

section Reference

variable [StateVariant S] [EventVariant E] {states : StateNames}
  {registrations : Registrations S E C A}

/-! ### The reference machine of the expansion -/

section Built

variable {chain : Chain S E C A .fsm} {now : Instant}
  {machine expanded : StateMachine S E C A}

end Built

end Reference

/-! ### A door that closes by itself in any state -/

namespace Door

def states : StateNames := ⟨["Closed", "Open"], by decide, by decide⟩

end Door

end ObzenflowFsm
