import ObzenflowFsm.Types

namespace ObzenflowFsm

variable {S A : Type}

/-! Constructors of the transitions that handlers return. -/

def goto (state : S) : Transition S A := ⟨state, []⟩

def gotoWithActions (state : S) (actions : List A) : Transition S A :=
  ⟨state, actions⟩

def stayWithActions (currentState : S) (actions : List A) : Transition S A :=
  ⟨currentState, actions⟩

structure TransitionBuilder (S A : Type) where
  nextState : S
  actions : List A

/-- The state to stay in is supplied when the transition is built. -/
structure StayBuilder (S A : Type) where
  actions : List A

namespace Transition

/-- `Transition::to`. -/
def toState (nextState : S) : TransitionBuilder S A := ⟨nextState, []⟩

def stay : StayBuilder S A := ⟨[]⟩

end Transition

namespace TransitionBuilder

def withActions (builder : TransitionBuilder S A) (actions : List A) :
    TransitionBuilder S A :=
  { builder with actions }

def withAction (builder : TransitionBuilder S A) (action : A) :
    TransitionBuilder S A :=
  { builder with actions := builder.actions ++ [action] }

def build (builder : TransitionBuilder S A) : Transition S A :=
  { nextState := builder.nextState, actions := builder.actions }

end TransitionBuilder

namespace StayBuilder

def withActions (_ : StayBuilder S A) (actions : List A) : StayBuilder S A :=
  { actions }

def withAction (builder : StayBuilder S A) (action : A) : StayBuilder S A :=
  { actions := builder.actions ++ [action] }

def inState (builder : StayBuilder S A) (currentState : S) :
    Transition S A :=
  { nextState := currentState, actions := builder.actions }

end StayBuilder

end ObzenflowFsm
