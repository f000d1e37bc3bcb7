import ObzenflowFsm.Data.Defaults
import ObzenflowFsm.Builder.Validation

namespace ObzenflowFsm

open Registry

variable {S E C A : Type}

/-- Names of state variants, none of them the wildcard's. -/
structure StateNames where
  names : List String
  nodup : names.Nodup
  proper : "_" ∉ names

namespace StateNames

/-- The wildcard's row for an event is the default of every state's. -/
def rowDefaults (states : StateNames) : Defaults (String × String) where
  isDefault := fun key => key.1 == "_"
  covers := fun key =>
    if key.1 = "_" then states.names.map fun name => (name, key.2) else []
  nodup := by
    intro key
    split
    · exact states.nodup.map fun first second same => (Prod.mk.inj same).1
    · exact List.nodup_nil
  isDefault_of_covers := by
    intro key covered member
    split at member
    · rename_i wildcard
      obtain ⟨name, named, rfl⟩ := List.mem_map.mp member
      refine ⟨beq_iff_eq.mpr wildcard, beq_eq_false_iff_ne.mpr ?_⟩
      intro same
      exact states.proper (same ▸ named)
    · cases member
  unique := by
    intro first second covered inFirst inSecond
    split at inFirst
    · rename_i firstWild
      split at inSecond
      · rename_i secondWild
        obtain ⟨name, _, rfl⟩ := List.mem_map.mp inFirst
        obtain ⟨other, _, same⟩ := List.mem_map.mp inSecond
        exact Prod.ext (firstWild.trans secondWild.symm)
          (Prod.mk.inj same).2.symm
      · cases inSecond
    · cases inFirst

/-- The wildcard's timeout is the default of every state's. -/
def timeoutDefaults (states : StateNames) : Defaults String where
  isDefault := fun name => name == "_"
  covers := fun name => if name = "_" then states.names else []
  nodup := by
    intro name
    split
    · exact states.nodup
    · exact List.nodup_nil
  isDefault_of_covers := by
    intro name covered member
    split at member
    · rename_i wildcard
      refine ⟨beq_iff_eq.mpr wildcard, beq_eq_false_iff_ne.mpr ?_⟩
      intro same
      exact states.proper (same ▸ member)
    · cases member
  unique := by
    intro first second covered inFirst inSecond
    split at inFirst
    · rename_i firstWild
      split at inSecond
      · rename_i secondWild
        exact firstWild.trans secondWild.symm
      · cases inSecond
    · cases inFirst

variable {states : StateNames}

theorem mem_covers_timeout {name : String} (member : name ∈ states.names) :
    name ∈ states.timeoutDefaults.covers "_" := by
  simp only [timeoutDefaults, if_true]
  exact member

end StateNames

/-! ### Writing wildcard clauses out -/

/-- Every clause of the wildcard is registered under each state that has none
of its own instead. -/
def Registrations.expand (states : StateNames)
    (registrations : Registrations S E C A) : Registrations S E C A :=
  { registrations with
    rows :=
      (states.rowDefaults.writtenOut (registrations.rows.map Row.entry)).map
        fun entry => ⟨.when, entry.1, entry.2⟩
    timeouts := states.timeoutDefaults.writtenOut registrations.timeouts }

section Expand

variable (states : StateNames) (registrations : Registrations S E C A)

omit registrations in
theorem Registrations.serves_iff {registrations : Registrations S E C A}
    {name : String} :
    registrations.Serves name ↔
      (∃ eventName, (name, eventName) ∈ registrations.rows.map Row.key) ∨
        name ∈ registrations.timeouts.map Prod.fst := by
  refine or_congr ?_ Iff.rfl
  constructor
  · intro member
    obtain ⟨row, rowMember, rfl⟩ := List.mem_map.mp member
    exact ⟨row.key.2, List.mem_map_of_mem rowMember⟩
  · intro found
    obtain ⟨eventName, member⟩ := found
    obtain ⟨row, rowMember, same⟩ := List.mem_map.mp member
    exact List.mem_map.mpr ⟨row, rowMember, congrArg Prod.fst same⟩

theorem Registrations.latest_timeouts_expand
    (distinct : (registrations.timeouts.map Prod.fst).Nodup) {name : String}
    (member : name ∈ states.names) :
    latest (registrations.expand states).timeouts name =
      (latest registrations.timeouts name).or
        (latest registrations.timeouts "_") :=
  states.timeoutDefaults.latest_writtenOut distinct
    (StateNames.mem_covers_timeout member)

end Expand

/-! ### The expansion as a chain of builder calls -/

namespace Chain

/-- Every row in a block of its own. -/
def row (chain : Chain S E C A .fsm) (row : Row S E C A) :
    Chain S E C A .fsm :=
  chain
    |>.call (.when row.key.1)
    |>.call (.whenOn row.key.2 row.handler)
    |>.call .whenDone

def timeout (chain : Chain S E C A .fsm)
    (timeout : String × Duration × TimeoutHandler S C A) :
    Chain S E C A .fsm :=
  chain
    |>.call (.when timeout.1)
    |>.call (.timeout timeout.2.1 timeout.2.2)
    |>.call .timeoutDone

def entry (chain : Chain S E C A .fsm) (hook : String × StateHandler S C A) :
    Chain S E C A .fsm :=
  chain.call (.onEntry hook.1 hook.2)

def exit (chain : Chain S E C A .fsm) (hook : String × StateHandler S C A) :
    Chain S E C A .fsm :=
  chain.call (.onExit hook.1 hook.2)

def unhandled (chain : Chain S E C A .fsm) :
    Option (UnhandledHandler S E C) → Chain S E C A .fsm
  | none => chain
  | some handler => chain.call (.whenUnhandled handler)

def registering (initialState : S) (registrations : Registrations S E C A) :
    Chain S E C A .fsm :=
  let rows := registrations.rows.foldl row (.new initialState)
  let timeouts := registrations.timeouts.foldl timeout rows
  let entries := registrations.entries.foldl entry timeouts
  (registrations.exits.foldl exit entries).unhandled registrations.unhandled

section Folds

variable {Item : Type}
  (add : Chain S E C A .fsm → Item → Chain S E C A .fsm)
  (items : List Item) (chain : Chain S E C A .fsm)

end Folds

/-- A chain with its wildcard clauses written out. -/
def expand (states : StateNames) (chain : Chain S E C A .fsm) :
    Chain S E C A .fsm :=
  registering chain.initialState (chain.registrations.expand states)

end Chain

/-! ### Validation -/

section Validation

variable [StateVariant S]

/-- No key is registered twice, and every state has one of the names. -/
structure Chain.Over (chain : Chain S E C A .fsm) (states : StateNames) :
    Prop where
  named : ∀ state : S, StateVariant.variantName state ∈ states.names
  rows : (chain.registrations.rows.map Row.key).Nodup
  timeouts : (chain.registrations.timeouts.map Prod.fst).Nodup

variable {chain : Chain S E C A .fsm} {states : StateNames}

theorem Chain.Over.latest_timeouts (covered : chain.Over states) (state : S) :
    latest (chain.registrations.expand states).timeouts
        (StateVariant.variantName state) =
      (latest chain.registrations.timeouts
        (StateVariant.variantName state)).or
          (latest chain.registrations.timeouts "_") :=
  Registrations.latest_timeouts_expand states chain.registrations
    covered.timeouts (covered.named state)

end Validation

end ObzenflowFsm
