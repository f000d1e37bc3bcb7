import ObzenflowFsm.Data.Trajectory
import ObzenflowFsm.Theory.TimedMealy

namespace TimedMealy

/-! Timed Mealy machines whose states without a delay of their own are given a
default one. -/

variable {State Event Context Action Error : Type}

def Input.context : Input Event Context → Context
  | .event _ context _ => context
  | .poll context _ _ => context

namespace Machine

variable {machine : Machine State Event Context Action Error} {delay : Nat}
  {fallback : State → Effect Context Error (State × List Action)}
  {here : Position State} {armed : Nat}

end Machine

end TimedMealy
