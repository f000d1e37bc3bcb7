import ObzenflowFsm.Macro.Syntax
import ObzenflowFsm.Types

namespace ObzenflowFsm

/-- What a derive macro is put on. It reads no payload. -/
inductive Data where
  | struct
  | union
  | enumeration (variants : List Ident)

/-- One arm `Self::X { .. } => stringify!(X)` of the derived method. -/
structure Arm where
  pattern : Ident
  text : String

def Arm.ofVariant (variantIdent : Ident) : Arm :=
  ⟨variantIdent, variantIdent.toString⟩

def deriveVariant (data : Data) (traitName : String) :
    Except String (List Arm) :=
  match data with
  | .enumeration variants => .ok (variants.map Arm.ofVariant)
  | .struct | .union => .error (traitName ++ " can only be derived for enums")

def deriveStateVariant (data : Data) : Except String (List Arm) :=
  deriveVariant data "StateVariant"

def deriveEventVariant (data : Data) : Except String (List Arm) :=
  deriveVariant data "EventVariant"

/-- An enum as the compiler accepts it: `X` and `r#X` are one identifier, and
no identifier is declared twice. -/
structure DataEnum where
  variants : List Ident
  distinct : (variants.map Ident.name).Nodup

namespace DataEnum

/-- A value up to its payload, which no pattern here reads. -/
abbrev Value (derived : DataEnum) : Type :=
  { variant : Ident // variant ∈ derived.variants }

variable {derived : DataEnum}

def takes (arms : List Arm) (value : derived.Value) : Option Arm :=
  arms.find? fun arm => arm.pattern.name = value.val.name

theorem takes_arms (value : derived.Value) :
    takes (derived.variants.map Arm.ofVariant) value =
      some (Arm.ofVariant value.val) := by
  unfold takes
  rw [List.find?_map]
  have found : derived.variants.find?
      ((fun arm : Arm => decide (arm.pattern.name = value.val.name)) ∘
        Arm.ofVariant) = some value.val := by
    cases search : derived.variants.find?
        ((fun arm : Arm => decide (arm.pattern.name = value.val.name)) ∘
          Arm.ofVariant) with
    | none =>
        have refused := List.find?_eq_none.mp search value.val value.property
        exact absurd (decide_eq_true rfl) refused
    | some other =>
        have named := List.find?_some search
        have same := List.inj_on_of_nodup_map derived.distinct
          (List.mem_of_find?_eq_some search) value.property
          (of_decide_eq_true named)
        rw [same]
  rw [found]
  rfl

/-- The derived `variant_name`: its match is exhaustive. -/
def variantName (value : derived.Value) : String :=
  ((takes (derived.variants.map Arm.ofVariant) value).get
    (by rw [takes_arms]; rfl)).text

theorem variantName_eq (value : derived.Value) :
    variantName value = value.val.toString := by
  simp only [variantName, takes_arms]
  rfl

instance : StateVariant derived.Value := ⟨variantName⟩

instance : EventVariant derived.Value := ⟨variantName⟩

end DataEnum

/-! ### Paths in the scope that invokes the macro -/

/-- What a name can stand for, as far as the paths of variants go. -/
inductive ScopeItem (derived : DataEnum) where
  | enumeration
  | variant (value : derived.Value)
  | module (items : List (String × ScopeItem derived))

/-- The names in scope, renamed imports among them, and the crates that a
leading `::` starts from. -/
structure Scope (derived : DataEnum) where
  items : List (String × ScopeItem derived)
  externs : List (String × ScopeItem derived)

variable {derived : DataEnum}

def ScopeItem.descend : ScopeItem derived → Ident → Option (ScopeItem derived)
  | .enumeration, segment =>
      (derived.variants.attach.find? fun value =>
        value.val.name = segment.name).map .variant
  | .variant _, _ => none
  | .module items, segment => items.lookup segment.name

namespace Scope

/-- Resolution walks the segments; the `r#` prefix makes no difference to it. -/
def resolve (scope : Scope derived) (path : ExprPath) :
    Option (ScopeItem derived) :=
  let root := if path.leadingColon then scope.externs else scope.items
  match path.init with
  | [] => root.lookup path.last.name
  | first :: rest =>
      (root.lookup first.name).bind fun item =>
        (rest ++ [path.last]).foldlM ScopeItem.descend item

/-- `use target as rename;` -/
def useAs (scope : Scope derived) (target : ExprPath) (rename : Ident) :
    Scope derived :=
  match scope.resolve target with
  | some item => { scope with items := (rename.name, item) :: scope.items }
  | none => scope

/-- `matches!(value, path { .. })`. -/
def Matches (scope : Scope derived) (path : ExprPath) (value : derived.Value) :
    Prop :=
  scope.resolve path = some (.variant value)

/-- The name a clause is registered under is the name of the variant its path
resolves to, so that its key is hit by exactly the values it matches. -/
structure NamesAgree (scope : Scope derived) (path : ExprPath)
    (variant : derived.Value) : Prop where
  name : DataEnum.variantName variant = path.dispatchName
  hit : ∀ value : derived.Value,
    DataEnum.variantName value = path.dispatchName ↔ scope.Matches path value
  reachable : ∃ value : derived.Value,
    DataEnum.variantName value = path.dispatchName

/-- Names agree exactly on the paths that end in the variant's identifier as
its declaration spells it. -/
theorem namesAgree_iff {scope : Scope derived} {path : ExprPath}
    {variant : derived.Value}
    (resolves : scope.resolve path = some (.variant variant)) :
    scope.NamesAgree path variant ↔ path.last = variant.val := by
  constructor
  · intro agree
    have same := agree.name
    rw [DataEnum.variantName_eq] at same
    exact (Ident.toString_injective same).symm
  · intro spelled
    have name : DataEnum.variantName variant = path.dispatchName := by
      rw [DataEnum.variantName_eq, ← spelled]
      rfl
    refine ⟨name, ?_, ⟨variant, name⟩⟩
    intro value
    rw [← name, DataEnum.variantName_eq, DataEnum.variantName_eq, Matches,
      resolves, Option.some.injEq, ScopeItem.variant.injEq]
    constructor
    · intro same
      exact (Subtype.ext (Ident.toString_injective same)).symm
    · intro same
      rw [same]

end Scope

/-! ### A type over a derived enum -/

/-- The enum a type derives its variants' names from, the variant of each value,
and what the paths of the invoking scope resolve to. -/
structure Patterns (Value : Type) where
  derived : DataEnum
  variantOf : Value → derived.Value
  scope : Scope derived

namespace Patterns

variable {Value : Type} (patterns : Patterns Value)

/-- `matches!(value, path { .. })`. -/
def takes (path : ExprPath) (value : Value) : Bool :=
  match patterns.scope.resolve path with
  | some (.variant variant) => decide (variant = patterns.variantOf value)
  | _ => false

def Derives (name : Value → String) : Prop :=
  ∀ value, name value = DataEnum.variantName (patterns.variantOf value)

/-- The path compiles as a pattern, and ends in its variant's identifier as it
is declared. -/
def Declared (path : ExprPath) : Prop :=
  ∃ variant, patterns.scope.resolve path = some (.variant variant) ∧
    path.last = variant.val

variable {patterns}

theorem dispatchName_eq_iff {name : Value → String}
    (derives : patterns.Derives name) {path : ExprPath}
    (declared : patterns.Declared path) (value : Value) :
    path.dispatchName = name value ↔ patterns.takes path value := by
  obtain ⟨variant, resolves, spelled⟩ := declared
  have agree := (Scope.namesAgree_iff resolves).mpr spelled
  have hit := agree.hit (patterns.variantOf value)
  rw [derives value, eq_comm, hit, Scope.Matches, takes, resolves]
  simp

end Patterns

namespace Simple

/-- `enum State { Idle, Running }` -/
def state : DataEnum where
  variants := [⟨"Idle", false, by decide⟩, ⟨"Running", false, by decide⟩]
  distinct := by decide

def idle : state.Value := ⟨⟨"Idle", false, by decide⟩, by decide⟩

def idlePath : ExprPath :=
  ⟨false, [⟨"State", false, by decide⟩], ⟨"Idle", false, by decide⟩, []⟩

def startPath : ExprPath := ⟨false, [], ⟨"Start", false, by decide⟩, []⟩

/-- The enum itself, and `use State::Idle as Start;`. -/
def scope : Scope state :=
  Scope.useAs ⟨[("State", .enumeration)], []⟩ idlePath startPath.last

theorem idlePath_namesAgree : scope.NamesAgree idlePath idle :=
  (Scope.namesAgree_iff (by rfl)).mpr rfl

/-- A variant imported under another name compiles as a state block, and its
clauses are registered under a name no state has. -/
theorem startPath_not_namesAgree :
    ¬ ∀ path variant, scope.resolve path = some (.variant variant) →
      scope.NamesAgree path variant := by
  intro agree
  have name := (agree startPath idle rfl).name
  exact absurd name (by decide)

end Simple

end ObzenflowFsm
