import ProtoSchema.Proofs.Rendering

/-!
Finished schemas stay. A message whose schema was derived once has that schema in every later session,
and asking for it again changes nothing.
-/
namespace ProtoSchema

variable {id other : Nat} {schema : Schema} {session after : Session}

/-- The message has this schema from now on. -/
def Session.Finished (id : Nat) (schema : Schema) (session : Session) : Prop :=
  session.finished.lookup id = some schema

namespace Deriving

theorem finished_report {event : Event} :
    (report event).Meets (Session.Finished id schema) (· = .ok ()) :=
  fun _ finished => ⟨rfl, finished⟩

theorem finished_once {derive : Deriving Schema} {post : Except Failure Schema → Prop}
    (derives : derive.Meets (Session.Finished id schema) post) :
    (once other derive).Meets (Session.Finished id schema) fun _ => True := by
  intro session finished
  refine ⟨trivial, ?_⟩
  rw [runFrom_once]
  cases kept : session.finished.lookup other with
  | some earlier => exact finished
  | none =>
      have next := (derives session finished).2
      cases ended : derive.runFrom session with
      | mk result after =>
          rw [ended] at next
          cases result with
          | error failure => exact next
          | ok new =>
              -- Nothing is put in front of a finished schema of the same message.
              have apart : id ≠ other := by
                rintro rfl
                rw [Session.Finished, kept] at finished
                cases finished
              rw [Session.Finished, List.lookup_cons, beq_eq_false_iff_ne.2 apart]
              exact next

end Deriving

namespace Derivation

variable {derivation : Derivation}

theorem messageBody_keeps {resolve : Resolver} {message : Message}
    (keeps : ∀ target referenceAllowed,
      (resolve target referenceAllowed).Meets (Session.Finished id schema) fun _ => True) :
    (derivation.messageBody resolve message).Meets (Session.Finished id schema) fun _ => True :=
  (messageBody_meets (fun _ => Deriving.finished_report) fun target referenceAllowed _ =>
    keeps target referenceAllowed).mono fun _ _ => trivial

theorem messageSlot_keeps (active : List Nat) (other : Nat) (referenceAllowed : Bool) :
    (derivation.messageSlot active other referenceAllowed).Meets (Session.Finished id schema)
      fun _ => True := by
  fun_induction messageSlot derivation active other referenceAllowed with
  | case1 => exact Deriving.meets_pure trivial
  | case2 => exact Deriving.meets_pure trivial
  | case3 =>
      exact (recursionSlot_meets fun _ => Deriving.finished_report).mono fun _ _ => trivial
  | case4 active other referenceAllowed message found _ entered _ ih =>
      exact (Deriving.finished_once (messageBody_keeps ih)).map fun _ _ => trivial

theorem messageSchema_keeps (other : Nat) :
    (derivation.messageSchema other).Meets (Session.Finished id schema) fun _ => True := by
  unfold messageSchema
  split
  · exact Deriving.meets_pure trivial
  · split
    · exact Deriving.meets_pure trivial
    · exact (Deriving.finished_once (messageBody_keeps (messageSlot_keeps [other]))).map
        fun _ _ => trivial

/-- What the session has for a message: asking for it gives this answer and leaves the session as it
is. -/
def Settled (derivation : Derivation) (session : Session) (id : Nat) (answer : Option Schema) : Prop :=
  (derivation.messageSchema id).runFrom session = (.ok answer, session)

theorem settled_of_not_inlinable (outside : ¬ derivation.Inlinable id) :
    derivation.Settled session id none := by
  rw [Settled, messageSchema_eq_none outside, Deriving.runFrom_pure]

theorem settled_of_finished (inlinable : derivation.Inlinable id)
    (finished : session.Finished id schema) : derivation.Settled session id (some schema) := by
  obtain ⟨message, found, plain⟩ := inlinable
  rw [Settled, messageSchema_eq_once found plain, Deriving.runFrom_map, Deriving.runFrom_once, finished]
  rfl

/-- A call that succeeds settles its message. -/
theorem settled_of_messageSchema {answer : Option Schema}
    (ended : (derivation.messageSchema id).runFrom session = (.ok answer, after)) :
    derivation.Settled after id answer ∧
      ∀ schema, answer = some schema → derivation.Inlinable id ∧ after.Finished id schema := by
  by_cases inlinable : derivation.Inlinable id
  · have finished : ∃ schema, answer = some schema ∧ after.Finished id schema := by
      obtain ⟨message, found, plain⟩ := inlinable
      rw [messageSchema_eq_once found plain, Deriving.runFrom_map, Deriving.runFrom_once] at ended
      split at ended
      · rename_i schema kept
        cases ended
        exact ⟨schema, rfl, kept⟩
      · split at ended
        · rename_i schema next _
          cases ended
          exact ⟨schema, rfl, by simp [Session.Finished]⟩
        · cases ended
    obtain ⟨schema, rfl, finished⟩ := finished
    refine ⟨settled_of_finished inlinable finished, fun other same => ?_⟩
    cases same
    exact ⟨inlinable, finished⟩
  · rw [messageSchema_eq_none inlinable] at ended
    cases ended
    refine ⟨settled_of_not_inlinable inlinable, fun schema same => ?_⟩
    cases same

theorem Settled.exists_schema {answer : Option Schema} (settled : derivation.Settled session id answer)
    (inlinable : derivation.Inlinable id) : ∃ schema, answer = some schema := by
  obtain ⟨message, found, plain⟩ := inlinable
  rw [Settled, messageSchema_eq_once found plain, Deriving.runFrom_map] at settled
  obtain ⟨schema, -, same⟩ := exists_of_map_ok (congrArg Prod.fst settled)
  exact ⟨schema, same.symm⟩

/-- What is settled stays settled. -/
theorem Settled.keep {answer : Option Schema} (settled : derivation.Settled session id answer)
    (other : Nat) :
    derivation.Settled ((derivation.messageSchema other).runFrom session).2 id answer := by
  cases answer with
  | none =>
      by_cases inlinable : derivation.Inlinable id
      · obtain ⟨schema, same⟩ := settled.exists_schema inlinable
        cases same
      · exact settled_of_not_inlinable inlinable
  | some schema =>
      obtain ⟨inlinable, finished⟩ := (settled_of_messageSchema settled).2 schema rfl
      exact settled_of_finished inlinable (messageSchema_keeps other session finished).2

end Derivation

end ProtoSchema
