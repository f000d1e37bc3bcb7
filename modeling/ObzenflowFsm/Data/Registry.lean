import Mathlib.Data.List.AList
import Mathlib.Data.List.Induction

namespace Registry

/-! Logs of keyed registrations, the finite maps that a sequence of inserts
leaves, and the registrations that repeat an earlier key. -/

variable {Key Value Entry : Type}

section Maps

variable [DecidableEq Key]

def latest : List (Key × Value) → Key → Option Value
  | [], _ => none
  | (held, value) :: rest, key =>
      match latest rest key with
      | some later => some later
      | none => if held = key then some value else none

@[simp] theorem latest_nil (key : Key) :
    latest ([] : List (Key × Value)) key = none := rfl

theorem latest_concat (log : List (Key × Value)) (held : Key) (value : Value)
    (key : Key) :
    latest (log ++ [(held, value)]) key =
      if held = key then some value else latest log key := by
  induction log with
  | nil => rfl
  | cons head tail induction =>
      simp only [List.cons_append, latest, induction]
      by_cases equal : held = key
      · simp only [if_pos equal]
      · simp only [if_neg equal]

theorem latest_append (first second : List (Key × Value)) (key : Key) :
    latest (first ++ second) key =
      (latest second key).or (latest first key) := by
  induction first with
  | nil => simp
  | cons head tail induction =>
      simp only [List.cons_append, latest, induction]
      cases latest second key with
      | none => rfl
      | some later => rfl

theorem latest_map_values (log : List (Key × Value)) (value : Value → Entry)
    (key : Key) :
    latest (log.map fun entry => (entry.1, value entry.2)) key =
      (latest log key).map value := by
  induction log with
  | nil => rfl
  | cons head tail induction =>
      simp only [List.map_cons, latest, induction]
      cases latest tail key with
      | some later => rfl
      | none =>
          by_cases equal : head.1 = key
          · simp [equal]
          · simp [equal]

theorem latest_toList (held : Option Value) (name key : Key) :
    latest (held.toList.map (name, ·)) key =
      if name = key then held else none := by
  cases held with
  | none => simp
  | some value => rfl

theorem mem_of_latest {log : List (Key × Value)} {key : Key} {value : Value}
    (found : latest log key = some value) : (key, value) ∈ log := by
  induction log with
  | nil => cases found
  | cons head tail induction =>
      simp only [latest] at found
      split at found
      · rename_i later tailFound
        cases found
        exact List.mem_cons_of_mem head (induction tailFound)
      · split at found
        · rename_i equal
          cases found
          subst equal
          exact List.mem_cons_self
        · cases found

theorem latest_eq_none_iff {log : List (Key × Value)} {key : Key} :
    latest log key = none ↔ key ∉ log.map Prod.fst := by
  induction log with
  | nil => simp
  | cons head tail induction =>
      simp only [latest, List.map_cons, List.mem_cons, not_or]
      cases tailFound : latest tail key with
      | some later =>
          have member : key ∈ tail.map Prod.fst :=
            List.mem_map_of_mem (f := Prod.fst) (mem_of_latest tailFound)
          simp [member]
      | none =>
          have absent := induction.mp tailFound
          by_cases equal : head.1 = key
          · simp [equal]
          · simp [equal, absent, Ne.symm equal]

/-- In logs written one after the other, the last that has the key decides. -/
theorem latest_flatMap_eq_some_iff {Item : Type} {items : List Item}
    {entries : Item → List (Key × Value)} {key : Key} {value : Value} :
    latest (items.flatMap entries) key = some value ↔
      ∃ (index : Nat) (item : Item), items[index]? = some item ∧
        latest (entries item) key = some value ∧
        ∀ (later : Nat) (other : Item), index < later →
          items[later]? = some other → latest (entries other) key = none := by
  induction items with
  | nil => simp
  | cons head tail induction =>
      rw [List.flatMap_cons, latest_append, Option.or_eq_some_iff, induction]
      constructor
      · rintro (⟨index, item, held, found, last⟩ | ⟨absent, found⟩)
        · refine ⟨index + 1, item, held, found, fun later other after => ?_⟩
          obtain ⟨before, rfl⟩ := Nat.exists_eq_add_of_lt after
          exact last _ other (by omega)
        · refine ⟨0, head, rfl, found, fun later other after held => ?_⟩
          obtain ⟨before, rfl⟩ := Nat.exists_eq_add_of_lt after
          rw [latest_eq_none_iff] at absent ⊢
          intro member
          refine absent ?_
          rw [List.map_flatMap]
          exact List.mem_flatMap.mpr
            ⟨other, List.mem_of_getElem? (i := 0 + before) held, member⟩
      · rintro ⟨index, item, held, found, last⟩
        cases index with
        | zero =>
            cases held
            refine .inr ⟨?_, found⟩
            rw [latest_eq_none_iff, List.map_flatMap, List.mem_flatMap]
            rintro ⟨other, member, named⟩
            obtain ⟨later, held⟩ := List.mem_iff_getElem?.mp member
            exact latest_eq_none_iff.mp
              (last (later + 1) other (Nat.succ_pos later) held) named
        | succ index =>
            refine .inl ⟨index, item, held, found, fun later other after => ?_⟩
            exact last (later + 1) other (Nat.succ_lt_succ after)

theorem mem_keys_iff_of_rel {Other : Type} {related : Value → Other → Prop}
    {log : List (Key × Value)} {others : List (Key × Other)} {key : Key}
    (found : Option.Rel related (latest log key) (latest others key)) :
    key ∈ log.map Prod.fst ↔ key ∈ others.map Prod.fst := by
  rw [← not_iff_not, ← latest_eq_none_iff, ← latest_eq_none_iff]
  generalize latest log key = first at found ⊢
  generalize latest others key = second at found ⊢
  cases found with
  | none => exact iff_of_true rfl rfl
  | some related => exact iff_of_false nofun nofun

theorem rel_latest_cons {Other : Type} {related : Value → Other → Prop}
    {log : List (Key × Value)} {others : List (Key × Other)} {key : Key}
    (found : Option.Rel related (latest log key) (latest others key))
    {value : Value} {other : Other} (holds : related value other)
    (held : Key) :
    Option.Rel related (latest ((held, value) :: log) key)
      (latest ((held, other) :: others) key) := by
  simp only [latest]
  generalize latest log key = first at found ⊢
  generalize latest others key = second at found ⊢
  cases found with
  | some related => exact .some related
  | none =>
      by_cases equal : held = key
      · simp only [if_pos equal]
        exact .some holds
      · simp only [if_neg equal]
        exact .none

theorem latest_eq_some_of_unique {log : List (Key × Value)} {key : Key}
    {value : Value} (member : (key, value) ∈ log)
    (unique : ∀ other, (key, other) ∈ log → other = value) :
    latest log key = some value := by
  cases found : latest log key with
  | none =>
      exact absurd (List.mem_map_of_mem (f := Prod.fst) member)
        (latest_eq_none_iff.mp found)
  | some other => rw [unique other (mem_of_latest found)]

/-- With distinct keys the order of the registrations does not matter. -/
theorem latest_eq_some_iff {log : List (Key × Value)} {key : Key}
    {value : Value} (distinct : (log.map Prod.fst).Nodup) :
    latest log key = some value ↔ (key, value) ∈ log := by
  refine ⟨mem_of_latest, fun member => latest_eq_some_of_unique member ?_⟩
  intro other otherMember
  have same := List.inj_on_of_nodup_map distinct otherMember member rfl
  exact (Prod.mk.inj same).2

theorem latest_eq_of_perm {first second : List (Key × Value)}
    (permuted : first.Perm second) (distinct : (first.map Prod.fst).Nodup)
    (key : Key) : latest first key = latest second key := by
  have distinctSecond := (permuted.map Prod.fst).nodup_iff.mp distinct
  apply Option.ext
  intro value
  rw [latest_eq_some_iff distinct, latest_eq_some_iff distinctSecond]
  exact permuted.mem_iff

/-- With distinct keys the first registration under a key is the last one. -/
theorem latest_eq_lookup [BEq Key] [LawfulBEq Key]
    {log : List (Key × Value)} (distinct : (log.map Prod.fst).Nodup)
    (key : Key) : latest log key = log.lookup key := by
  apply Option.ext
  intro value
  rw [latest_eq_some_iff distinct, List.lookup_eq_some_iff]
  constructor
  · intro member
    obtain ⟨before, after, rfl⟩ := List.append_of_mem member
    refine ⟨before, after, rfl, fun entry earlier => ?_⟩
    rw [bne_iff_ne]
    intro same
    rw [List.map_append] at distinct
    exact (List.nodup_append.mp distinct).2.2 entry.1
      (List.mem_map_of_mem earlier) key List.mem_cons_self same.symm
  · intro found
    obtain ⟨before, after, rfl, _⟩ := found
    exact List.mem_append_right _ List.mem_cons_self

theorem lookup_eq_of_perm [BEq Key] [LawfulBEq Key]
    {first second : List (Key × Value)} (permuted : first.Perm second)
    (distinct : (first.map Prod.fst).Nodup) (key : Key) :
    first.lookup key = second.lookup key := by
  rw [← latest_eq_lookup distinct,
    ← latest_eq_lookup ((permuted.map Prod.fst).nodup_iff.mp distinct)]
  exact latest_eq_of_perm permuted distinct key

omit [DecidableEq Key] in
theorem lookup_map [BEq Key] (log : List (Key × Value))
    (value : Value → Entry) (key : Key) :
    (log.map fun entry => (entry.1, value entry.2)).lookup key =
      (log.lookup key).map value := by
  induction log with
  | nil => rfl
  | cons head tail induction =>
      obtain ⟨held, given⟩ := head
      simp only [List.map_cons, List.lookup_cons]
      cases key == held with
      | true => rfl
      | false => exact induction

theorem latest_map {log : List (Key × Value)} [BEq Key] [LawfulBEq Key]
    (distinct : (log.map Prod.fst).Nodup) (value : Value → Entry)
    (key : Key) :
    latest (log.map fun entry => (entry.1, value entry.2)) key =
      (log.lookup key).map value := by
  rw [← lookup_map]
  apply latest_eq_lookup
  rw [List.map_map]
  exact distinct

def mapValues (value : Value → Entry) (map : AList fun _ : Key => Value) :
    AList fun _ : Key => Entry where
  entries := map.entries.map (.map id fun _ => value)
  nodupKeys := map.nodupKeys.map₂ _

@[simp] theorem lookup_mapValues (value : Value → Entry)
    (map : AList fun _ : Key => Value) (key : Key) :
    (mapValues value map).lookup key = (map.lookup key).map value :=
  List.dlookup_map₂ key

def Tracks (map : AList fun _ : Key => Value) (log : List (Key × Value)) :
    Prop :=
  ∀ key, map.lookup key = latest log key

theorem Tracks.empty :
    Tracks (∅ : AList fun _ : Key => Value) [] :=
  fun key => AList.lookup_empty key

theorem Tracks.insert {map : AList fun _ : Key => Value}
    {log : List (Key × Value)} (tracks : Tracks map log)
    (held : Key) (value : Value) :
    Tracks (map.insert held value) (log ++ [(held, value)]) := by
  intro key
  rw [latest_concat]
  by_cases equal : held = key
  · subst equal
    rw [if_pos rfl, AList.lookup_insert]
  · rw [if_neg equal, AList.lookup_insert_ne (Ne.symm equal), tracks]

theorem Tracks.mem_iff {map : AList fun _ : Key => Value}
    {log : List (Key × Value)} (tracks : Tracks map log) {key : Key} :
    key ∈ map ↔ key ∈ log.map Prod.fst := by
  rw [← not_iff_not, ← latest_eq_none_iff, ← tracks key, AList.lookup_eq_none]

end Maps

/-- The first element of the list that an earlier one equals is `key`. -/
def FirstRepeat (keys : List Key) (key : Key) : Prop :=
  ∃ earlier later,
    keys = earlier ++ key :: later ∧ earlier.Nodup ∧ key ∈ earlier

private theorem firstRepeat_concat (keys : List Key) (last key : Key) :
    FirstRepeat (keys ++ [last]) key ↔
      FirstRepeat keys key ∨ (keys.Nodup ∧ last ∈ keys ∧ last = key) := by
  constructor
  · rintro ⟨earlier, later, split, distinct, member⟩
    rcases List.eq_nil_or_concat later with rfl | ⟨init, final, rfl⟩
    · obtain ⟨same, lastSame⟩ := List.append_inj' split rfl
      subst same
      cases lastSame
      exact .inr ⟨distinct, member, rfl⟩
    · have inner : keys = earlier ++ key :: init := by
        have shifted : keys ++ [last] = (earlier ++ key :: init) ++ [final] := by
          simpa using split
        exact (List.append_inj' shifted rfl).1
      exact .inl ⟨earlier, init, inner, distinct, member⟩
  · rintro (⟨earlier, later, rfl, distinct, member⟩ | ⟨distinct, member, rfl⟩)
    · exact ⟨earlier, later ++ [last], by simp, distinct, member⟩
    · exact ⟨keys, [], rfl, distinct, member⟩

section Repeats

variable [DecidableEq Key]

def repeatsAfter (key : Entry → Key) : List Key → List Entry → List Entry
  | _, [] => []
  | seen, entry :: rest =>
      if key entry ∈ seen then
        entry :: repeatsAfter key (key entry :: seen) rest
      else
        repeatsAfter key (key entry :: seen) rest

def repeats (key : Entry → Key) (log : List Entry) : List Entry :=
  repeatsAfter key [] log

private theorem repeatsAfter_concat (key : Entry → Key) (seen : List Key)
    (log : List Entry) (entry : Entry) :
    repeatsAfter key seen (log ++ [entry]) =
      repeatsAfter key seen log ++
        if key entry ∈ seen ∨ key entry ∈ log.map key then [entry]
        else [] := by
  induction log generalizing seen with
  | nil => simp [repeatsAfter]
  | cons head tail induction =>
      simp only [List.cons_append, repeatsAfter, induction, List.mem_cons,
        List.map_cons]
      have regroup :
          ((key entry = key head ∨ key entry ∈ seen) ∨
              key entry ∈ tail.map key) ↔
            (key entry ∈ seen ∨
              key entry = key head ∨ key entry ∈ tail.map key) := by
        tauto
      by_cases member : key head ∈ seen
      · simp only [if_pos member, List.cons_append, if_congr regroup rfl rfl]
      · simp only [if_neg member, if_congr regroup rfl rfl]

theorem repeats_concat (key : Entry → Key) (log : List Entry)
    (entry : Entry) :
    repeats key (log ++ [entry]) =
      repeats key log ++ if key entry ∈ log.map key then [entry] else [] := by
  simpa [repeats] using repeatsAfter_concat key [] log entry

theorem repeats_eq_nil_iff (key : Entry → Key) (log : List Entry) :
    repeats key log = [] ↔ (log.map key).Nodup := by
  induction log using List.reverseRecOn with
  | nil => simp [repeats, repeatsAfter]
  | append_singleton log entry induction =>
      rw [repeats_concat, List.append_eq_nil_iff, induction, List.map_append,
        List.map_singleton, ← List.concat_eq_append, List.nodup_concat]
      by_cases member : key entry ∈ log.map key
      · simp [member]
      · simp [member]

theorem firstRepeat_iff_head?_repeats (key : Entry → Key)
    (log : List Entry) (repeated : Key) :
    FirstRepeat (log.map key) repeated ↔
      (repeats key log).head?.map key = some repeated := by
  induction log using List.reverseRecOn with
  | nil =>
      constructor
      · rintro ⟨earlier, later, split, _⟩
        simp at split
      · intro found
        cases found
  | append_singleton log entry induction =>
      rw [List.map_append, List.map_singleton, firstRepeat_concat, induction,
        repeats_concat, ← repeats_eq_nil_iff]
      cases found : repeats key log with
      | nil =>
          by_cases member : key entry ∈ log.map key
          · simp [member]
          · simp [member]
      | cons first rest => simp

end Repeats

end Registry
