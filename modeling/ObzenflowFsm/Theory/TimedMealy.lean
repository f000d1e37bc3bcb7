namespace TimedMealy

/-! Timed Mealy machines whose reactions read and change a context owned by
their host, and which pass through a leaving and an entering effect on every
move. -/

abbrev Effect (Context Error Value : Type) : Type :=
  Context → Except Error Value × Context

inductive Reaction (State Context Action Error : Type) where
  | move (run : Effect Context Error (State × List Action))
  | absorb (run : Effect Context Error Unit)
  | refuse (error : Error)

@[ext] structure Machine (State Event Context Action Error : Type) where
  react : State → Event → Reaction State Context Action Error
  expire : State → Option (Effect Context Error (State × List Action))
  leave : State → Effect Context Error (List Action)
  enter : State → Effect Context Error (List Action)
  delay : State → Option Nat

/-- Where a machine stands: its state and the deadline of that state. -/
@[ext] structure Position (State : Type) where
  state : State
  deadline : Option Nat

/-- One input with the context it is given and the clock readings it may take:
when it is polled, and when it re-arms the deadline. -/
inductive Input (Event Context : Type) where
  | event (event : Event) (context : Context) (armed : Nat)
  | poll (context : Context) (polled armed : Nat)

structure Response (State Context Action Error : Type) where
  result : Except Error (List Action)
  context : Context
  position : Position State

def Response.mapError {State Context Action Error Failure : Type}
    (wrap : Error → Failure) (response : Response State Context Action Error) :
    Response State Context Action Failure where
  result := response.result.mapError wrap
  context := response.context
  position := response.position

/-- The deadline, if there is one, is below the limit. -/
def Position.Fits {State : Type} (limit : Nat) (here : Position State) :
    Prop :=
  ∀ deadline ∈ here.deadline, deadline < limit

instance {State : Type} (limit : Nat) (here : Position State) :
    Decidable (here.Fits limit) :=
  inferInstanceAs (Decidable (∀ deadline ∈ here.deadline, deadline < limit))

/-- A response where deadlines cannot be armed from the limit on: the new state
is entered, and the failure leaves it the deadline from before. -/
def Response.guard {State Context Action Error Failure : Type} (limit : Nat)
    (wrap : Error → Failure) (overflow : Failure) (before : Position State)
    (response : Response State Context Action Error) :
    Response State Context Action Failure :=
  if response.position.Fits limit then response.mapError wrap
  else
    { result := .error overflow
      context := response.context
      position := ⟨response.position.state, before.deadline⟩ }

theorem Response.fits_guard {State Context Action Error Failure : Type}
    {limit : Nat} {wrap : Error → Failure} {overflow : Failure}
    {before : Position State}
    {response : Response State Context Action Error}
    (fits : before.Fits limit) :
    (response.guard limit wrap overflow before).position.Fits limit := by
  unfold guard
  split
  · assumption
  · exact fits

namespace Machine

variable {State Event Context Action Error : Type}

/-- Finish a move: leave the old state, enter the new one, and arm its deadline
or clear it. Nothing moves unless the old state is left; a new state that fails
to be entered is kept, with the deadline as it was. -/
def move (machine : Machine State Event Context Action Error) (armed : Nat)
    (here : Position State) :
    Except Error (State × List Action) × Context →
      Response State Context Action Error
  | (.error error, context) => ⟨.error error, context, here⟩
  | (.ok (next, actions), context) =>
      match machine.leave here.state context with
      | (.error error, context) => ⟨.error error, context, here⟩
      | (.ok left, context) =>
          match machine.enter next context with
          | (.error error, context) =>
              ⟨.error error, context, ⟨next, here.deadline⟩⟩
          | (.ok entered, context) =>
              ⟨.ok (left ++ entered ++ actions), context,
                ⟨next, (machine.delay next).map (armed + ·)⟩⟩

def absorb (here : Position State) :
    Except Error Unit × Context → Response State Context Action Error
  | (.ok (), context) => ⟨.ok [], context, here⟩
  | (.error error, context) => ⟨.error error, context, here⟩

def onEvent (machine : Machine State Event Context Action Error)
    (here : Position State) (event : Event) (context : Context)
    (armed : Nat) : Response State Context Action Error :=
  match machine.react here.state event with
  | .move run => machine.move armed here (run context)
  | .absorb run => absorb here (run context)
  | .refuse error => ⟨.error error, context, here⟩

/-- A poll moves only when a deadline is set, has been reached, and belongs to
a state that can expire. -/
def onPoll (machine : Machine State Event Context Action Error)
    (here : Position State) (context : Context) (polled armed : Nat) :
    Response State Context Action Error :=
  match here.deadline, machine.expire here.state with
  | some deadline, some run =>
      if deadline ≤ polled then machine.move armed here (run context)
      else ⟨.ok [], context, here⟩
  | _, _ => ⟨.ok [], context, here⟩

def respond (machine : Machine State Event Context Action Error)
    (here : Position State) :
    Input Event Context → Response State Context Action Error
  | .event event context armed => machine.onEvent here event context armed
  | .poll context polled armed => machine.onPoll here context polled armed

def step (machine : Machine State Event Context Action Error)
    (here : Position State) (input : Input Event Context) :
    Response State Context Action Error × Position State :=
  (machine.respond here input, (machine.respond here input).position)

/-- The machine with deadlines that cannot be armed from the limit on. -/
def guardedStep {Failure : Type}
    (machine : Machine State Event Context Action Error) (limit : Nat)
    (wrap : Error → Failure) (overflow : Failure) (here : Position State)
    (input : Input Event Context) :
    Response State Context Action Failure × Position State :=
  let response := (machine.respond here input).guard limit wrap overflow here
  (response, response.position)

/-- A machine starts in its initial state, with that state's deadline armed. -/
def start (machine : Machine State Event Context Action Error)
    (initial : State) (now : Nat) : Position State :=
  ⟨initial, (machine.delay initial).map (now + ·)⟩

variable {machine : Machine State Event Context Action Error} {armed : Nat}
  {here : Position State} {next : State} {actions left entered : List Action}
  {given between after : Context} {error : Error}

theorem move_of_leave_error
    (leaves : machine.leave here.state given = (.error error, after)) :
    machine.move armed here (.ok (next, actions), given) =
      ⟨.error error, after, here⟩ := by
  simp only [move, leaves]

theorem move_of_enter_error
    (leaves : machine.leave here.state given = (.ok left, between))
    (enters : machine.enter next between = (.error error, after)) :
    machine.move armed here (.ok (next, actions), given) =
      ⟨.error error, after, ⟨next, here.deadline⟩⟩ := by
  simp only [move, leaves, enters]

theorem move_of_enter
    (leaves : machine.leave here.state given = (.ok left, between))
    (enters : machine.enter next between = (.ok entered, after)) :
    machine.move armed here (.ok (next, actions), given) =
      ⟨.ok (left ++ entered ++ actions), after,
        ⟨next, (machine.delay next).map (armed + ·)⟩⟩ := by
  simp only [move, leaves, enters]

/-! ### Positions that differ in their deadline -/

/-- The responses differ in the deadline at most. -/
structure Alike (first second : Response State Context Action Error) :
    Prop where
  result : first.result = second.result
  context : first.context = second.context
  state : first.position.state = second.position.state

theorem move_alike (machine : Machine State Event Context Action Error)
    (armed : Nat) {here there : Position State}
    (same : here.state = there.state)
    (reply : Except Error (State × List Action) × Context) :
    Alike (machine.move armed here reply) (machine.move armed there reply) := by
  obtain ⟨answer, given⟩ := reply
  cases answer with
  | error error => exact ⟨rfl, rfl, same⟩
  | ok answer =>
      simp only [move, ← same]
      generalize machine.leave here.state given = leaving
      obtain ⟨left, between⟩ := leaving
      cases left with
      | error error => exact ⟨rfl, rfl, same⟩
      | ok left =>
          simp only
          generalize machine.enter answer.1 between = entering
          obtain ⟨entered, after⟩ := entering
          cases entered with
          | error error => exact ⟨rfl, rfl, rfl⟩
          | ok entered => exact ⟨rfl, rfl, rfl⟩

/-- Reactions to events do not look at the deadline. -/
theorem onEvent_alike (machine : Machine State Event Context Action Error)
    {here there : Position State} (same : here.state = there.state)
    (event : Event) (context : Context) (armed : Nat) :
    Alike (machine.onEvent here event context armed)
      (machine.onEvent there event context armed) := by
  simp only [onEvent, ← same]
  cases machine.react here.state event with
  | move run => exact machine.move_alike armed same (run context)
  | absorb run =>
      simp only
      generalize run context = answered
      obtain ⟨answer, after⟩ := answered
      cases answer with
      | ok value => exact ⟨rfl, rfl, same⟩
      | error error => exact ⟨rfl, rfl, same⟩
  | refuse error => exact ⟨rfl, rfl, same⟩

/-- Nor do polls, once it has been reached. -/
theorem onPoll_alike (machine : Machine State Event Context Action Error)
    {here there : Position State} (same : here.state = there.state)
    {deadline other polled : Nat} (held : here.deadline = some deadline)
    (otherHeld : there.deadline = some other) (reached : deadline ≤ polled)
    (otherReached : other ≤ polled) (context : Context) (armed : Nat) :
    Alike (machine.onPoll here context polled armed)
      (machine.onPoll there context polled armed) := by
  simp only [onPoll, held, otherHeld, ← same]
  cases machine.expire here.state with
  | none => exact ⟨rfl, rfl, same⟩
  | some run =>
      simp only [if_pos reached, if_pos otherReached]
      exact machine.move_alike armed same (run context)

/-! ### Readings of the clock show in the deadline at most -/

end Machine

end TimedMealy
