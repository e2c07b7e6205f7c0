import Mathlib.Data.List.Forall2
import ProtoSchema.Derivation.Basic

/-!
Reasoning about computations of a derivation. `Meets` says that a computation keeps an invariant of
the session and how it may end; there is one rule for each way of putting computations together.
-/
namespace ProtoSchema

theorem exists_of_map_ok {α β ε : Type} {change : α → β} {result : Except ε α} {value : β}
    (mapped : result.map change = .ok value) : ∃ before, result = .ok before ∧ change before = value := by
  cases result with
  | error failure => cases mapped
  | ok before => cases mapped; exact ⟨before, rfl, rfl⟩

theorem exists_of_bind_ok {α β ε : Type} {next : α → Except ε β} {result : Except ε α} {value : β}
    (bound : result.bind next = .ok value) : ∃ before, result = .ok before ∧ next before = .ok value := by
  cases result with
  | error failure => cases bound
  | ok before => exact ⟨before, rfl, bound⟩

theorem error_of_map {α β ε : Type} {change : α → β} {result : Except ε α} {failure : ε}
    (mapped : result.map change = .error failure) : result = .error failure := by
  cases result with
  | error other => cases mapped; rfl
  | ok value => cases mapped

theorem error_of_bind {α β ε : Type} {next : α → Except ε β} {result : Except ε α} {failure : ε}
    (bound : result.bind next = .error failure) :
    result = .error failure ∨ ∃ value, result = .ok value ∧ next value = .error failure := by
  cases result with
  | error other => cases bound; exact .inl rfl
  | ok value => exact .inr ⟨value, rfl, bound⟩

theorem exists_of_isOk {α ε : Type} {result : Except ε α} (succeeds : result.isOk = true) :
    ∃ value, result = .ok value := by
  cases result with
  | error failure => cases succeeds
  | ok value => exact ⟨value, rfl⟩

theorem exists_of_isSome {α ε : Type} {result : Except ε (Option α)}
    (answered : result.toOption.join.isSome = true) : ∃ value, result = .ok (some value) := by
  cases result with
  | error failure => cases answered
  | ok answer =>
      cases answer with
      | none => cases answered
      | some value => exact ⟨value, rfl⟩

section Related

open List (Forall₂)

/-- Steps in a row succeed where each of them does. -/
theorem mapM_ok_iff {α β ε : Type} {perform : α → Except ε β} {steps : List α} {values : List β} :
    steps.mapM perform = .ok values ↔
      Forall₂ (fun step value => perform step = .ok value) steps values := by
  induction steps generalizing values with
  | nil =>
      rw [List.forall₂_nil_left_iff]
      exact ⟨fun ended => (Except.ok.inj ended).symm, fun none => none ▸ rfl⟩
  | cons step rest ih =>
      rw [List.mapM_cons]
      constructor
      · intro ended
        obtain ⟨value, first, others⟩ := exists_of_bind_ok ended
        obtain ⟨tail, later, same⟩ := exists_of_bind_ok others
        cases same
        exact .cons first (ih.1 later)
      · intro all
        cases all with
        | cons first others =>
            rw [first, ih.2 others]
            rfl

variable {α β : Type} {related : α → β → Prop} {left : List α} {right : List β}

theorem exists_left_of_mem (all : Forall₂ related left right) {value : β} (member : value ∈ right) :
    ∃ given ∈ left, related given value := by
  induction all with
  | nil => cases member
  | cons first _ ih =>
      rcases List.mem_cons.1 member with rfl | later
      · exact ⟨_, List.mem_cons_self, first⟩
      · obtain ⟨given, listed, holds⟩ := ih later
        exact ⟨given, List.mem_cons_of_mem _ listed, holds⟩

theorem exists_right_of_mem (all : Forall₂ related left right) {given : α} (member : given ∈ left) :
    ∃ value ∈ right, related given value :=
  exists_left_of_mem all.flip member

end Related

/-- In sequence, the second of two computations starts where the first one ends. -/
theorem run_bind {ε σ α β : Type} (first : ExceptT ε (StateM σ) α)
    (next : α → ExceptT ε (StateM σ) β) (state : σ) :
    ((first >>= next).run.run state).run =
      match (first.run.run state).run with
      | (.ok value, after) => ((next value).run.run after).run
      | (.error failure, after) => (.error failure, after) := by
  change ((ExceptT.bind first next).run.run state).run = _
  unfold ExceptT.run StateT.run Id.run
  simp only [bind, ExceptT.bind, ExceptT.mk, StateT.bind, ExceptT.bindCont]
  cases first state with
  | mk result after => cases result <;> rfl

namespace Deriving

variable {α β : Type}

/-- How a computation ends when it starts from a session, and the session it leaves. -/
def runFrom (derived : Deriving α) (session : Session) : Except Failure α × Session :=
  (derived.run.run session).run

@[simp] theorem runFrom_pure (value : α) (session : Session) :
    runFrom (pure value) session = (.ok value, session) := rfl

theorem liftM_ok (value : α) : (liftM (Except.ok value : Except Failure α) : Deriving α) = pure value :=
  rfl

theorem liftM_map (change : α → β) (result : Except Failure α) :
    (liftM (result.map change) : Deriving β) = change <$> (liftM result : Deriving α) := by
  cases result <;> rfl

theorem runFrom_bind (derived : Deriving α) (next : α → Deriving β) (session : Session) :
    runFrom (derived >>= next) session =
      match derived.runFrom session with
      | (.ok value, after) => (next value).runFrom after
      | (.error failure, after) => (.error failure, after) := by
  rw [runFrom, run_bind, ← runFrom]
  rcases derived.runFrom session with ⟨_ | _, _⟩ <;> rfl

theorem runFrom_map (change : α → β) (derived : Deriving α) (session : Session) :
    runFrom (change <$> derived) session =
      ((derived.runFrom session).1.map change, (derived.runFrom session).2) := by
  rw [map_eq_pure_bind, runFrom_bind]
  rcases derived.runFrom session with ⟨_ | _, _⟩ <;> rfl

theorem runFrom_once (id : Nat) (derive : Deriving Schema) (session : Session) :
    (once id derive).runFrom session =
      match session.finished.lookup id with
      | some schema => (.ok schema, session)
      | none =>
        match derive.runFrom session with
        | (.ok schema, after) => (.ok schema, { after with finished := (id, schema) :: after.finished })
        | (.error failure, after) => (.error failure, after) := by
  have opened : (get : Deriving Session).runFrom session = (.ok session, session) := rfl
  rw [once, runFrom_bind, opened]
  cases kept : session.finished.lookup id with
  | some schema => simp [kept]
  | none =>
      simp only [kept]
      rw [runFrom_bind]
      rcases derive.runFrom session with ⟨_ | _, _⟩ <;> rfl

/-! ## Steps in a row -/

variable {perform : α → Deriving β} {session now : Session}

theorem runFrom_mapM_append (perform : α → Deriving β) (earlier later : List α) (session : Session) :
    ((earlier ++ later).mapM perform).runFrom session =
      match (earlier.mapM perform).runFrom session with
      | (.error failure, after) => (.error failure, after)
      | (.ok values, after) =>
        (((later.mapM perform).runFrom after).1.map (values ++ ·),
          ((later.mapM perform).runFrom after).2) := by
  rw [List.mapM_append, runFrom_bind]
  rcases (earlier.mapM perform).runFrom session with ⟨_ | values, after⟩
  · rfl
  · simp only
    rw [← map_eq_pure_bind, runFrom_map]

theorem runFrom_mapM_cons (perform : α → Deriving β) (step : α) (later : List α) (session : Session) :
    ((step :: later).mapM perform).runFrom session =
      match (perform step).runFrom session with
      | (.error failure, after) => (.error failure, after)
      | (.ok value, after) =>
        (((later.mapM perform).runFrom after).1.map (value :: ·),
          ((later.mapM perform).runFrom after).2) := by
  rw [List.mapM_cons, runFrom_bind]
  rcases (perform step).runFrom session with ⟨_ | value, after⟩
  · rfl
  · simp only
    rw [← map_eq_pure_bind, runFrom_map]

/-- In a row of steps that succeeds, so do the steps before one of them and the step itself, from the
session that they leave. -/
theorem exists_step_of_mapM {earlier later : List α} {step : α} {values : List β} {last : Session}
    (ended : ((earlier ++ step :: later).mapM perform).runFrom session = (.ok values, last)) :
    ∃ front now value next, (earlier.mapM perform).runFrom session = (.ok front, now) ∧
      (perform step).runFrom now = (.ok value, next) ∧ value ∈ values := by
  cases first : (earlier.mapM perform).runFrom session with
  | mk before now =>
      rw [runFrom_mapM_append, first] at ended
      cases before with
      | error failure => cases ended
      | ok front =>
          simp only [runFrom_mapM_cons] at ended
          cases turn : (perform step).runFrom now with
          | mk here next =>
              rw [turn] at ended
              cases here with
              | error failure => cases ended
              | ok value =>
                  obtain ⟨rest, others, rfl⟩ := exists_of_map_ok (congrArg Prod.fst ended)
                  obtain ⟨_, -, rfl⟩ := exists_of_map_ok others
                  exact ⟨front, now, value, next, rfl, turn, by simp⟩

/-- A row of steps that fails does so at a step that has its turn. -/
theorem exists_stop_of_mapM {steps : List α} {failure : Failure}
    (failed : ((steps.mapM perform).runFrom session).1 = .error failure) :
    ∃ earlier step later values now, steps = earlier ++ step :: later ∧
      (earlier.mapM perform).runFrom session = (.ok values, now) ∧
      ((perform step).runFrom now).1 = .error failure := by
  induction steps generalizing session with
  | nil => cases failed
  | cons step rest ih =>
      rw [runFrom_mapM_cons] at failed
      cases turn : (perform step).runFrom session with
      | mk result after =>
          rw [turn] at failed
          cases result with
          | error other =>
              cases failed
              exact ⟨[], step, rest, [], session, rfl, rfl, by rw [turn]⟩
          | ok value =>
              obtain ⟨earlier, stop, later, values, now, rfl, before, stops⟩ := ih (error_of_map failed)
              refine ⟨step :: earlier, stop, later, value :: values, now, rfl, ?_, stops⟩
              rw [runFrom_mapM_cons, turn]
              simp only [before]
              rfl

/-- What holds at the start and is kept by every step that has its turn holds at the end. -/
theorem mapM_keeps {steps : List α} {holds : Session → Prop} (begins : holds session)
    (keeps : ∀ earlier step later values now, steps = earlier ++ step :: later →
      (earlier.mapM perform).runFrom session = (.ok values, now) → holds now →
      holds ((perform step).runFrom now).2) :
    holds ((steps.mapM perform).runFrom session).2 := by
  have onward : ∀ later earlier values now, steps = earlier ++ later →
      (earlier.mapM perform).runFrom session = (.ok values, now) → holds now →
      holds ((later.mapM perform).runFrom now).2 := by
    intro later
    induction later with
    | nil => exact fun _ _ _ _ _ here => here
    | cons step later ih =>
        intro earlier values now split before here
        have next := keeps earlier step later values now split before here
        rw [runFrom_mapM_cons]
        cases turn : (perform step).runFrom now with
        | mk result after =>
            rw [turn] at next
            cases result with
            | error failure => exact next
            | ok value =>
                refine ih (earlier ++ [step]) (values ++ [value]) after (by simp [split]) ?_ next
                rw [runFrom_mapM_append, before]
                simp only [runFrom_mapM_cons, turn]
                rfl
  exact onward steps [] [] session rfl rfl begins

/-! ## Invariants -/

/-- From a session with the invariant, the computation ends as `post` says and leaves a session with
the invariant. -/
def Meets (invariant : Session → Prop) (derived : Deriving α) (post : Except Failure α → Prop) :
    Prop :=
  ∀ session, invariant session →
    post (derived.runFrom session).1 ∧ invariant (derived.runFrom session).2

variable {invariant : Session → Prop} {derived : Deriving α} {post : Except Failure α → Prop}

theorem Meets.mono {weaker : Except Failure α → Prop} (meets : derived.Meets invariant post)
    (weaken : ∀ result, post result → weaker result) : derived.Meets invariant weaker :=
  fun session holds => ⟨weaken _ (meets session holds).1, (meets session holds).2⟩

theorem meets_lift {result : Except Failure α} (ends : post result) :
    Meets invariant (liftM result : Deriving α) post :=
  fun _ holds => ⟨ends, holds⟩

theorem meets_pure {value : α} (ends : post (.ok value)) :
    Meets invariant (pure value : Deriving α) post :=
  fun _ holds => ⟨ends, holds⟩

theorem meets_throw {failure : Failure} (ends : post (.error failure)) :
    Meets invariant (throw failure : Deriving α) post :=
  fun _ holds => ⟨ends, holds⟩

theorem Meets.bind {next : α → Deriving β} {last : Except Failure β → Prop}
    (first : derived.Meets invariant post)
    (second : ∀ value, post (.ok value) → (next value).Meets invariant last)
    (stops : ∀ failure, post (.error failure) → last (.error failure)) :
    (derived >>= next).Meets invariant last := by
  intro session holds
  obtain ⟨ends, kept⟩ := first session holds
  rw [runFrom_bind]
  cases ended : derived.runFrom session with
  | mk result after =>
      simp only [ended] at ends kept
      cases result with
      | error failure => exact ⟨stops failure ends, kept⟩
      | ok value => exact second value ends after kept

theorem Meets.map {change : α → β} {mapped : Except Failure β → Prop}
    (meets : derived.Meets invariant post)
    (maps : ∀ result, post result → mapped (result.map change)) :
    (change <$> derived).Meets invariant mapped := by
  intro session holds
  rw [runFrom_map]
  exact ⟨maps _ (meets session holds).1, (meets session holds).2⟩

/-- How a list of steps ends whose steps end as `each` says; the first failure ends it. -/
inductive Sequenced (each : α → Except Failure β → Prop) : List α → Except Failure (List β) → Prop
  | nil : Sequenced each [] (.ok [])
  | stop {step : α} {rest : List α} {failure : Failure} :
      each step (.error failure) → Sequenced each (step :: rest) (.error failure)
  | cons {step : α} {rest : List α} {value : β} {result : Except Failure (List β)} :
      each step (.ok value) → Sequenced each rest result →
      Sequenced each (step :: rest) (result.map (value :: ·))

theorem meets_mapM {perform : α → Deriving β} {each : α → Except Failure β → Prop} {steps : List α}
    (meets : ∀ step ∈ steps, (perform step).Meets invariant (each step)) :
    (steps.mapM perform).Meets invariant (Sequenced each steps) := by
  induction steps with
  | nil => exact meets_pure .nil
  | cons step rest ih =>
      have tail := ih fun other member => meets other (List.mem_cons_of_mem step member)
      rw [List.mapM_cons]
      refine (meets step List.mem_cons_self).bind (fun value first => ?_) fun _ => .stop
      exact tail.bind (fun values others => meets_pure (.cons first others))
        fun _ others => .cons first others

namespace Sequenced

variable {each : α → Except Failure β → Prop} {steps : List α} {result : Except Failure (List β)}

theorem imp {weaker : α → Except Failure β → Prop} (sequenced : Sequenced each steps result)
    (weaken : ∀ step ended, each step ended → weaker step ended) : Sequenced weaker steps result := by
  induction sequenced with
  | nil => exact .nil
  | stop first => exact .stop (weaken _ _ first)
  | cons first _ ih => exact .cons (weaken _ _ first) ih

theorem forall₂ {values : List β} (sequenced : Sequenced each steps (.ok values)) :
    List.Forall₂ (fun step value => each step (.ok value)) steps values := by
  generalize ended : (Except.ok values : Except Failure (List β)) = result at sequenced
  induction sequenced generalizing values with
  | nil => cases ended; exact .nil
  | stop => cases ended
  | @cons step rest value result first others ih =>
      cases result with
      | error failure => cases ended
      | ok tail => cases ended; exact .cons first (ih rfl)

theorem exists_error {failure : Failure} (sequenced : Sequenced each steps (.error failure)) :
    ∃ step ∈ steps, each step (.error failure) := by
  generalize ended : (Except.error failure : Except Failure (List β)) = result at sequenced
  induction sequenced with
  | nil => cases ended
  | stop first =>
      cases ended
      exact ⟨_, List.mem_cons_self, first⟩
  | @cons step rest value result first others ih =>
      cases result with
      | ok values => cases ended
      | error failure =>
          cases ended
          obtain ⟨other, member, stops⟩ := ih rfl
          exact ⟨other, List.mem_cons_of_mem step member, stops⟩

theorem unique {other : Except Failure (List β)} (one : Sequenced each steps result)
    (two : Sequenced each steps other)
    (determined : ∀ step ∈ steps, ∀ left right, each step left → each step right → left = right) :
    result = other := by
  induction one generalizing other with
  | nil => cases two; rfl
  | stop first =>
      cases two with
      | stop second => exact congrArg _ (Except.error.inj (determined _ List.mem_cons_self _ _ first second))
      | cons second _ => cases determined _ List.mem_cons_self _ _ first second
  | cons first others ih =>
      cases two with
      | stop second => cases determined _ List.mem_cons_self _ _ first second
      | cons second rest =>
          cases determined _ List.mem_cons_self _ _ first second
          rw [ih rest fun step member => determined step (List.mem_cons_of_mem _ member)]

theorem exists_ok (sequenced : Sequenced each steps result)
    (succeeds : ∀ step ∈ steps, ∀ ended, each step ended → ∃ value, ended = .ok value) :
    ∃ values, result = .ok values := by
  induction sequenced with
  | nil => exact ⟨[], rfl⟩
  | stop first =>
      obtain ⟨value, impossible⟩ := succeeds _ List.mem_cons_self _ first
      cases impossible
  | @cons step rest value result first others ih =>
      obtain ⟨values, rfl⟩ := ih fun other member => succeeds other (List.mem_cons_of_mem _ member)
      exact ⟨value :: values, rfl⟩

end Sequenced

end Deriving

/-! ## Finished schemas -/

/-- Every finished schema is good for its message. -/
def Session.Holds (good : Nat → Schema → Prop) (session : Session) : Prop :=
  ∀ id schema, (id, schema) ∈ session.finished → good id schema

variable {good : Nat → Schema → Prop}

theorem Session.holds_start : Session.Holds good {} := by
  intro id schema member
  cases member

theorem mem_of_lookup {α β : Type} [BEq α] [LawfulBEq α] {key : α} {value : β}
    {entries : List (α × β)} (found : entries.lookup key = some value) : (key, value) ∈ entries := by
  obtain ⟨before, after, rfl, -⟩ := List.lookup_eq_some_iff.1 found
  simp

namespace Deriving

theorem meets_report {event : Event} {post : Except Failure Unit → Prop} (ends : post (.ok ())) :
    (report event).Meets (Session.Holds good) post :=
  fun _ holds => ⟨ends, holds⟩

theorem holds_once {id : Nat} {derive : Deriving Schema} {session : Session}
    (holds : session.Holds good)
    (keeps : session.finished.lookup id = none → (derive.runFrom session).2.Holds good)
    (derives : ∀ schema next, session.finished.lookup id = none →
      derive.runFrom session = (.ok schema, next) → good id schema) :
    ((once id derive).runFrom session).2.Holds good := by
  rw [runFrom_once]
  cases kept : session.finished.lookup id with
  | some schema => exact holds
  | none =>
      have after := keeps kept
      cases ended : derive.runFrom session with
      | mk result next =>
          rw [ended] at after
          cases result with
          | error failure => exact after
          | ok schema =>
              intro other earlier member
              rcases List.mem_cons.1 member with same | older
              · cases same
                exact derives schema next kept ended
              · exact after other earlier older

/-- A schema is derived once: an outcome that is good for a finished schema is the outcome of the
new one. -/
theorem meets_once {id : Nat} {derive : Deriving Schema} {post : Except Failure Schema → Prop}
    (derives : derive.Meets (Session.Holds good) post)
    (agrees : ∀ schema, post (.ok schema) ↔ good id schema) :
    (once id derive).Meets (Session.Holds good) post := by
  intro session holds
  obtain ⟨ends, after⟩ := derives session holds
  refine ⟨?_, holds_once holds (fun _ => after) fun schema next _ ended => ?_⟩
  · rw [runFrom_once]
    cases kept : session.finished.lookup id with
    | some schema => exact (agrees schema).2 (holds id schema (mem_of_lookup kept))
    | none =>
        cases ended : derive.runFrom session with
        | mk result next =>
            rw [ended] at ends
            cases result <;> exact ends
  · -- The new schema is good for its message by what is known of its outcome.
    rw [ended] at ends
    exact (agrees schema).1 ends

end Deriving

end ProtoSchema
