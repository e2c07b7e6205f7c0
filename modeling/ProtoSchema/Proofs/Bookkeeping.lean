import ProtoSchema.Proofs.Finished
import ProtoSchema.Proofs.Pass

/-!
The books of a pass: which messages are in progress and which have their schema kept. Every step keeps
them in order, also where a body fails, so they are in order at every moment of every pass.
-/
namespace ProtoSchema

/-- The messages that are in progress, and those whose schemas are kept. -/
def Workshop.taken (workshop : Workshop) : List Nat :=
  workshop.inProgress ++ workshop.session.finished.map (·.1)

theorem not_mem_of_lookup {α : Type} {id : Nat} {finished : List (Nat × α)}
    (absent : finished.lookup id = none) : id ∉ finished.map (·.1) := by
  intro member
  obtain ⟨entry, listed, rfl⟩ := List.mem_map.1 member
  have differs := List.lookup_eq_none_iff.1 absent entry listed
  simp at differs

theorem lookup_eq_none_of_not_mem {id : Nat} {finished : List (Nat × Schema)}
    (absent : id ∉ finished.map (·.1)) : finished.lookup id = none := by
  refine List.lookup_eq_none_iff.2 fun entry listed => ?_
  have apart : id ≠ entry.1 := fun same => absent (same ▸ List.mem_map_of_mem listed)
  exact bne_iff_ne.2 apart

namespace Derivation

variable {derivation : Derivation}

/-- The message of the body that is worked on, where one is. -/
def Task.current : Task → List Nat
  | .fields work => [work.id]
  | _ => []

structure Books (derivation : Derivation) (current : List Nat) (waiting : List Waiting)
    (workshop : Workshop) : Prop where
  progress : workshop.inProgress = current ++ waiting.map (·.work.id)
  apart : workshop.taken.Nodup
  inlinable : ∀ id ∈ workshop.taken, derivation.Inlinable id

namespace Books

variable {id : Nat} {current : List Nat} {waiting : List Waiting} {workshop : Workshop}

theorem regroup {other : List Nat} {others : List Waiting}
    (books : Books derivation current waiting workshop)
    (same : current ++ waiting.map (·.work.id) = other ++ others.map (·.work.id)) :
    Books derivation other others workshop :=
  ⟨books.progress.trans same, books.apart, books.inlinable⟩

theorem report (books : Books derivation current waiting workshop) (event : Event) :
    Books derivation current waiting (workshop.report event) :=
  ⟨books.progress, books.apart, books.inlinable⟩

theorem enter (books : Books derivation [] waiting workshop) (fresh : id ∉ workshop.taken)
    (inlinable : derivation.Inlinable id) :
    Books derivation [id] waiting (workshop.enter id) where
  progress := congrArg (id :: ·) books.progress
  apart := List.nodup_cons.2 ⟨fresh, books.apart⟩
  inlinable := List.forall_mem_cons.2 ⟨inlinable, books.inlinable⟩

theorem left (books : Books derivation [id] waiting workshop) :
    (workshop.leave id).inProgress = waiting.map (·.work.id) ∧
      workshop.taken = id :: (workshop.leave id).taken := by
  have entered : workshop.inProgress = id :: waiting.map (·.work.id) := books.progress
  have apart : (id :: waiting.map (·.work.id)).Nodup :=
    entered ▸ (List.nodup_append.1 books.apart).1
  have left : (workshop.leave id).inProgress = waiting.map (·.work.id) := by
    rw [Workshop.leave, entered]
    exact filter_ne_cons (List.nodup_cons.1 apart).1
  refine ⟨left, ?_⟩
  rw [Workshop.taken, Workshop.taken, left, entered]
  rfl

theorem leave (books : Books derivation [id] waiting workshop) :
    Books derivation [] waiting (workshop.leave id) := by
  obtain ⟨progress, taken⟩ := books.left
  have apart := books.apart
  have inlinable := books.inlinable
  rw [taken] at apart inlinable
  exact ⟨progress, (List.nodup_cons.1 apart).2, (List.forall_mem_cons.1 inlinable).2⟩

/-- A message that is left with a schema is taken as before. -/
theorem keep (books : Books derivation [id] waiting workshop) (schema : Schema) :
    Books derivation [] waiting ((workshop.leave id).keep id schema) := by
  obtain ⟨progress, taken⟩ := books.left
  have moved : ((workshop.leave id).keep id schema).taken.Perm workshop.taken := by
    rw [taken]
    exact List.perm_middle
  exact ⟨progress, moved.nodup_iff.2 books.apart, fun other member =>
    books.inlinable other (moved.mem_iff.1 member)⟩

end Books

/-- What a task takes for granted. -/
def Task.Granted (derivation : Derivation) (workshop : Workshop) : Task → Prop
  | .schema id message =>
    derivation.model.message? id = some message ∧ message.mapEntry = false ∧
      id ∉ workshop.inProgress
  | .asked id _ => derivation.Inlinable id
  | _ => True

structure Pass.Sound (derivation : Derivation) (pass : Pass) : Prop where
  granted : pass.task.Granted derivation pass.workshop
  rests : pass.task = .idle → pass.waiting = []
  books : Books derivation pass.task.current pass.waiting pass.workshop

variable {pass before after : Pass} {id : Nat}

theorem sound_start (calls : List Nat) : (Pass.start calls).Sound derivation where
  granted := trivial
  rests _ := rfl
  books := ⟨rfl, List.nodup_nil, fun _ member => absurd member List.not_mem_nil⟩

/-! ## Steps -/

theorem sound_stepCall (books : Books derivation [] pass.waiting pass.workshop)
    (rests : pass.waiting = []) (idle : pass.task = .idle) :
    (derivation.stepCall id pass).Sound derivation := by
  have progress : pass.workshop.inProgress = [] := by
    rw [books.progress, rests]
    rfl
  unfold stepCall
  split
  · exact ⟨idle ▸ trivial, fun _ => rests, idle ▸ books⟩
  · rename_i message found
    split
    · exact ⟨idle ▸ trivial, fun _ => rests, idle ▸ books⟩
    · rename_i plain
      refine ⟨⟨found, by simpa using plain, ?_⟩, nofun, books⟩
      rw [progress]
      exact List.not_mem_nil

theorem sound_stepSchema {message : Message} (found : derivation.model.message? id = some message)
    (plain : message.mapEntry = false) (fresh : id ∉ pass.workshop.inProgress)
    (books : Books derivation [] pass.waiting pass.workshop) :
    (derivation.stepSchema id message pass).Sound derivation := by
  unfold stepSchema
  split
  · exact ⟨trivial, by simp, books⟩
  · rename_i unkept
    split
    · exact ⟨trivial, by simp, books⟩
    · have untaken : id ∉ pass.workshop.taken := by
        intro member
        rcases List.mem_append.1 member with entered | kept
        · exact fresh entered
        · exact not_mem_of_lookup unkept kept
      exact ⟨trivial, by simp, books.enter untaken ⟨message, found, plain⟩⟩

theorem sound_stepFailure {failure : Failure}
    (books : Books derivation [id] pass.waiting pass.workshop) :
    (stepFailure id failure pass).Sound derivation :=
  ⟨trivial, nofun, books.leave⟩

theorem sound_stepFields {work : Work}
    (books : Books derivation [work.id] pass.waiting pass.workshop) :
    (derivation.stepFields work pass).Sound derivation := by
  unfold stepFields
  split
  · exact ⟨trivial, nofun, (books.keep _).report _⟩
  · split
    · exact sound_stepFailure books
    · rename_i outline outlined
      cases asked : outline.content with
      | written schema => exact ⟨trivial, nofun, books.regroup rfl⟩
      | message target referenceAllowed =>
          have inlinable : derivation.Inlinable target := by
            obtain ⟨_, -, -, known⟩ := typeOutline_asks (fieldOutline_asks outlined asked)
            exact known
          exact ⟨inlinable, nofun, books.regroup rfl⟩

theorem sound_stepAsked {referenceAllowed : Bool} (inlinable : derivation.Inlinable id)
    (books : Books derivation [] pass.waiting pass.workshop) :
    (derivation.stepAsked id referenceAllowed pass).Sound derivation := by
  obtain ⟨message, found, plain⟩ := inlinable
  simp only [stepAsked, found]
  split
  · exact ⟨trivial, by simp, books⟩
  · split
    · exact ⟨trivial, by simp, books.report _⟩
    · rename_i fresh
      exact ⟨⟨found, plain, fresh⟩, by simp, books⟩

theorem sound_stepFilled {slot : Slot Schema}
    (books : Books derivation [] pass.waiting pass.workshop)
    (next : derivation.stepFilled slot pass = some after) : after.Sound derivation := by
  unfold stepFilled at next
  split at next
  · cases next
  · rename_i first rest waiting
    have resumed : Books derivation [first.work.id] rest pass.workshop :=
      books.regroup (by rw [waiting]; rfl)
    split at next
    · cases next
      exact sound_stepFailure resumed
    · cases next
      exact ⟨trivial, nofun, resumed⟩

theorem sound_stepEnded {result : Except Failure Schema}
    (books : Books derivation [] pass.waiting pass.workshop) :
    (stepEnded result pass).Sound derivation := by
  unfold stepEnded
  split
  · rename_i waiting
    exact ⟨trivial, fun _ => waiting, books⟩
  · exact ⟨trivial, nofun, books⟩
  · rename_i first rest failure waiting
    have resumed : Books derivation [first.work.id] rest pass.workshop :=
      books.regroup (by rw [waiting]; rfl)
    exact sound_stepFailure resumed

/-- A step keeps the books in order. -/
theorem Pass.Sound.step (sound : before.Sound derivation)
    (next : derivation.step before = some after) : after.Sound derivation := by
  obtain ⟨granted, rests, books⟩ := sound
  obtain ⟨task, waiting, workshop, calls, answers⟩ := before
  cases task with
  | idle =>
      cases calls with
      | nil => cases next
      | cons id calls =>
          cases next
          exact sound_stepCall books (rests rfl) rfl
  | schema id message =>
      cases next
      exact sound_stepSchema granted.1 granted.2.1 granted.2.2 books
  | fields work =>
      cases next
      exact sound_stepFields books
  | asked id referenceAllowed =>
      cases next
      exact sound_stepAsked granted books
  | filled slot => exact sound_stepFilled books next
  | ended result =>
      cases next
      exact sound_stepEnded books

theorem Pass.Sound.leads (sound : before.Sound derivation) (leads : derivation.Leads before after) :
    after.Sound derivation := by
  induction leads with
  | refl => exact sound
  | tail _ next ih => exact ih.step next

/-! ## What is kept -/

/-- The body of the message is complete: its last field is done. -/
def Pass.Completes (id : Nat) (pass : Pass) : Prop :=
  ∃ work, pass.task = .fields work ∧ work.left = [] ∧ work.id = id

abbrev Pass.kept (pass : Pass) : List (Nat × Schema) := pass.workshop.session.finished

theorem kept_stepCall : (derivation.stepCall id pass).kept = pass.kept := by
  unfold stepCall
  split
  · rfl
  · split <;> rfl

theorem kept_stepSchema {message : Message} :
    (derivation.stepSchema id message pass).kept = pass.kept := by
  unfold stepSchema
  split
  · rfl
  · split <;> rfl

theorem kept_stepFields {work : Work} (more : work.left ≠ []) :
    (derivation.stepFields work pass).kept = pass.kept := by
  unfold stepFields
  split
  · contradiction
  · split <;> rfl

theorem kept_stepAsked {referenceAllowed : Bool} :
    (derivation.stepAsked id referenceAllowed pass).kept = pass.kept := by
  unfold stepAsked
  split
  · rfl
  · split
    · rfl
    · split <;> rfl

theorem kept_stepFilled {slot : Slot Schema} (next : derivation.stepFilled slot pass = some after) :
    after.kept = pass.kept := by
  unfold stepFilled at next
  split at next
  · cases next
  · split at next <;> cases next <;> rfl

theorem kept_stepEnded {result : Except Failure Schema} : (stepEnded result pass).kept = pass.kept := by
  unfold stepEnded
  split <;> rfl

/-- A step keeps one more schema where a body is complete, and else what was kept before. -/
theorem kept_step (next : derivation.step before = some after) :
    after.kept = before.kept ∨
      ∃ id schema, before.Completes id ∧ after.kept = (id, schema) :: before.kept := by
  obtain ⟨task, waiting, workshop, calls, answers⟩ := before
  cases task with
  | idle =>
      cases calls with
      | nil => cases next
      | cons id calls =>
          cases next
          exact .inl kept_stepCall
  | schema id message =>
      cases next
      exact .inl kept_stepSchema
  | fields work =>
      cases next
      by_cases complete : work.left = []
      · refine .inr ⟨work.id, derivation.assemble work.message work.own work.done,
          ⟨work, rfl, complete, rfl⟩, ?_⟩
        simp only [Pass.kept, stepFields, complete]
        rfl
      · exact .inl (kept_stepFields complete)
  | asked id referenceAllowed =>
      cases next
      exact .inl kept_stepAsked
  | filled slot => exact .inl (kept_stepFilled next)
  | ended result =>
      cases next
      exact .inl kept_stepEnded

/-- What is kept stays, and what comes later stands before it. -/
theorem kept_leads (leads : derivation.Leads before after) : before.kept <:+ after.kept := by
  induction leads with
  | refl => exact List.suffix_rfl
  | tail _ next ih =>
      rcases kept_step next with same | ⟨id, schema, -, more⟩
      · exact same ▸ ih
      · rw [more]
        exact ih.trans (List.suffix_cons (id, schema) _)

namespace Pass.Sound

theorem nodup_kept (sound : pass.Sound derivation) : (pass.kept.map (·.1)).Nodup :=
  (List.nodup_append.1 sound.books.apart).2.1

theorem lookup_of_inProgress (sound : pass.Sound derivation) (entered : id ∈ pass.workshop.inProgress) :
    pass.kept.lookup id = none :=
  lookup_eq_none_of_not_mem fun kept => (List.nodup_append.1 sound.books.apart).2.2 id entered id kept rfl

/-- Nothing that is kept is replaced. -/
theorem lookup_leads {schema : Schema} (sound : before.Sound derivation)
    (leads : derivation.Leads before after) (kept : before.kept.lookup id = some schema) :
    after.kept.lookup id = some schema := by
  obtain ⟨new, split⟩ := kept_leads leads
  have distinct := (sound.leads leads).nodup_kept
  rw [← split, List.map_append] at distinct
  have old : id ∈ before.kept.map (·.1) := List.mem_map_of_mem (mem_of_lookup kept)
  have absent : id ∉ new.map (·.1) := fun member => (List.nodup_append.1 distinct).2.2 id member id old rfl
  rw [← split, List.lookup_append, lookup_eq_none_of_not_mem absent, Option.none_or, kept]

/-- The schema of a body that is complete is kept at once, so the message is never begun again. -/
theorem completes_once {next : Pass} (sound : before.Sound derivation) (complete : before.Completes id)
    (stepped : derivation.step before = some next) (leads : derivation.Leads next after) :
    ¬ after.Completes id := by
  rintro ⟨again, task, -, rfl⟩
  obtain ⟨work, first, done, same⟩ := complete
  -- Were the body complete once more, its message would be in progress and its schema be kept.
  have entered : again.id ∈ after.workshop.inProgress := by
    rw [((sound.step stepped).leads leads).books.progress, task]
    exact List.mem_cons_self
  have kept : next.kept.lookup again.id =
      some (derivation.assemble work.message work.own work.done) := by
    simp only [Derivation.step, first, Option.some.injEq] at stepped
    rw [← stepped, ← same]
    simp only [Pass.kept, stepFields, done]
    exact List.lookup_cons_self
  have found := (sound.step stepped).lookup_leads leads kept
  rw [((sound.step stepped).leads leads).lookup_of_inProgress entered] at found
  cases found

end Pass.Sound

/-! ## Whole passes -/

/-- There is one way through a pass, so every moment of it leads to its end. -/
theorem Leads.done {calls : List Nat} {moment : Pass}
    (leads : derivation.Leads (.start calls) moment) :
    derivation.Leads moment (.done derivation calls) := by
  have unique : Relator.RightUnique fun before after => derivation.step before = some after := by
    intro one two three first second
    exact Option.some.inj (first.symm.trans second)
  rcases Relation.ReflTransGen.total_of_right_unique unique leads (leads_done calls) with
    onward | beyond
  · exact onward
  · rcases Relation.ReflTransGen.cases_head beyond with same | ⟨next, stepped, -⟩
    · exact same ▸ .refl
    · cases stepped

theorem answers_of_settled {calls : List Nat} {session : Session} {answer : Option Schema}
    {result : Except Failure (Option Schema)} {position : Nat}
    (settled : derivation.Settled session id answer) (called : calls[position]? = some id)
    (answered : (derivation.answers calls session).1[position]? = some result) :
    result = .ok answer := by
  induction calls generalizing session position with
  | nil => cases called
  | cons first calls ih =>
      cases position with
      | zero =>
          cases called
          cases answered
          exact congrArg Prod.fst settled
      | succ position => exact ih (settled.keep first) called answered

/-- Of two calls for a message, the later one returns what the earlier one has settled. -/
theorem answers_agree {calls : List Nat} {session : Session} {one two : Option Schema}
    {early late : Nat} (order : early ≤ late)
    (first : calls[early]? = some id) (second : calls[late]? = some id)
    (answered : (derivation.answers calls session).1[early]? = some (.ok one))
    (repeated : (derivation.answers calls session).1[late]? = some (.ok two)) : one = two := by
  -- The earlier call is brought to the front, where it settles what the later one finds.
  induction calls generalizing session early late with
  | nil => cases first
  | cons call calls ih =>
      cases early with
      | succ early =>
          obtain ⟨between, rfl⟩ := Nat.exists_eq_add_of_lt order
          exact ih (by omega) first second answered repeated
      | zero =>
          cases first
          have ended : ((derivation.messageSchema id).runFrom session).1 = .ok one :=
            Option.some.inj answered
          cases late with
          | zero =>
              rw [answered] at repeated
              cases repeated
              rfl
          | succ late =>
              have later : (derivation.answers calls
                  ((derivation.messageSchema id).runFrom session).2).1[late]? = some (.ok two) :=
                repeated
              have settled := (settled_of_messageSchema (Prod.ext ended rfl)).1
              have called : calls[late]? = some id := second
              cases answers_of_settled settled called later
              rfl

/-- What the books say at one moment. -/
structure Pass.Orderly (derivation : Derivation) (pass : Pass) : Prop where
  cleared : pass.task = .idle → pass.workshop.inProgress = []
  disjoint : ∀ id ∈ pass.workshop.inProgress, pass.kept.lookup id = none
  distinct : (pass.kept.map (·.1)).Nodup
  noEntries : ∀ id schema, pass.kept.lookup id = some schema →
    ∃ message, derivation.model.message? id = some message ∧ message.mapEntry = false

theorem Pass.Sound.orderly (sound : pass.Sound derivation) : pass.Orderly derivation where
  cleared := by
    intro idle
    rw [sound.books.progress, sound.rests idle, idle]
    rfl
  disjoint _ := sound.lookup_of_inProgress
  distinct := sound.nodup_kept
  noEntries := by
    intro id schema kept
    have listed : id ∈ pass.kept.map (·.1) := List.mem_map_of_mem (mem_of_lookup kept)
    exact sound.books.inlinable id (List.mem_append_right _ listed)

/-- The books of a whole pass. It goes through its moments step by step, from call to call. -/
structure KeepsBooks (derivation : Derivation) (calls : List Nat) : Prop where
  ends : ∀ moment, derivation.Leads (.start calls) moment →
    derivation.Leads moment (.done derivation calls)
  final : derivation.step (.done derivation calls) = none
  orderly : ∀ moment, derivation.Leads (.start calls) moment → moment.Orderly derivation
  stays : ∀ moment later, derivation.Leads (.start calls) moment → derivation.Leads moment later →
    ∀ id schema, moment.kept.lookup id = some schema → later.kept.lookup id = some schema
  completesOnce : ∀ moment next later id, derivation.Leads (.start calls) moment →
    moment.Completes id → derivation.step moment = some next → derivation.Leads next later →
    ¬ later.Completes id
  agrees : ∀ (early late id : Nat) (one two : Option Schema), calls[early]? = some id →
    calls[late]? = some id → (derivation.answers calls {}).1[early]? = some (.ok one) →
    (derivation.answers calls {}).1[late]? = some (.ok two) → one = two

/-- Every sequence of calls from a fresh session keeps the books, whatever the calls come to. -/
theorem keepsBooks (derivation : Derivation) (calls : List Nat) : derivation.KeepsBooks calls where
  ends _ leads := leads.done
  final := rfl
  orderly _ leads := ((sound_start calls).leads leads).orderly
  stays _ _ leads onward _ _ kept := ((sound_start calls).leads leads).lookup_leads onward kept
  completesOnce _ _ _ _ leads complete stepped onward :=
    ((sound_start calls).leads leads).completes_once complete stepped onward
  agrees := by
    intro early late id one two first second answered repeated
    rcases Nat.le_total early late with order | order
    · exact answers_agree order first second answered repeated
    · exact (answers_agree order second first repeated answered).symm

end Derivation

end ProtoSchema
