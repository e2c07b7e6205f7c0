import ProtoSchema.Proofs.MessageGraph

/-!
Accounts of a derivation. An account says how the schema of a message ends and what stands for it
where a field asks for it, and has a proof for each way in which a derivation gets there. By one
induction over the messages in progress it then holds of every call, whatever was finished before.
-/
namespace ProtoSchema.Derivation

open Relation

variable {derivation : Derivation}

/-- What stands for a message inside its own schema. -/
def returnSlot (derivation : Derivation) (id : Nat) (name : String) (referenceAllowed : Bool) :
    Slot Schema :=
  if id ∈ derivation.components then
    if referenceAllowed then .component name
    else .inline { Schema.object with allOf := [.component name] }
  else .inline .openObject

theorem recursionSlot_runFrom (id : Nat) (name : String) (referenceAllowed : Bool)
    (session : Session) :
    ((derivation.recursionSlot id name referenceAllowed).runFrom session).1 =
      .ok (derivation.returnSlot id name referenceAllowed) := by
  unfold recursionSlot returnSlot
  split
  · cases referenceAllowed <;> rfl
  · rfl

theorem recursionSlot_meets {invariant : Session → Prop} {id : Nat} {name : String}
    {referenceAllowed : Bool}
    (reports : ∀ event, (Deriving.report event).Meets invariant (· = .ok ())) :
    (derivation.recursionSlot id name referenceAllowed).Meets invariant
      (· = .ok (derivation.returnSlot id name referenceAllowed)) := by
  unfold recursionSlot returnSlot
  split
  · refine (reports _).bind (fun _ _ => ?_) fun _ same => nomatch same
    split <;> exact Deriving.meets_pure rfl
  · exact (reports _).bind (fun _ _ => Deriving.meets_pure rfl) fun _ same => nomatch same

theorem messageSchema_eq_once {id : Nat} {message : Message}
    (found : derivation.model.message? id = some message) (plain : message.mapEntry = false) :
    derivation.messageSchema id =
      some <$> Deriving.once id (derivation.messageBody (derivation.messageSlot [id]) message) := by
  unfold messageSchema
  simp only [found, plain, Bool.false_eq_true, if_false]

theorem messageSlot_eq {active : List Nat} {id : Nat} {message : Message} {referenceAllowed : Bool}
    (found : derivation.model.message? id = some message) :
    derivation.messageSlot active id referenceAllowed =
      if referenceAllowed ∧ id ∈ derivation.components ∧ derivation.settings.useRef then
        pure (Slot.component message.absoluteName)
      else if id ∈ active then derivation.recursionSlot id message.absoluteName referenceAllowed
      else
        Slot.inline <$>
          Deriving.once id (derivation.messageBody (derivation.messageSlot (id :: active)) message) := by
  rw [messageSlot]
  split
  · rename_i missing
    cases missing.symm.trans found
  · rename_i other same
    cases same.symm.trans found
    rfl

/-- The message `id` is one that a field can ask for. -/
def Inlinable (derivation : Derivation) (id : Nat) : Prop :=
  ∃ message, derivation.model.message? id = some message ∧ message.mapEntry = false

/-- A message that is not there and the entry type of a map have no schema. -/
theorem messageSchema_eq_none {id : Nat} (outside : ¬ derivation.Inlinable id) :
    derivation.messageSchema id = pure none := by
  unfold messageSchema
  cases found : derivation.model.message? id with
  | none => rfl
  | some message =>
      cases entry : message.mapEntry with
      | true => simp [entry]
      | false => exact absurd ⟨message, found, entry⟩ outside

/-- What is known of the messages of a derivation. -/
structure Account (derivation : Derivation) where
  scope : Nat → Prop
  body : Nat → Except Failure Schema → Prop
  /-- What stands for a message that a field of `owner` asks for. -/
  answer : (owner : Nat) → Answer
  closed {id target : Nat} {message : Message} {referenceAllowed : Bool} :
    scope id → derivation.model.message? id = some message → message.mapEntry = false →
      derivation.Asks message target referenceAllowed → scope target
  derives {id : Nat} {message : Message} {result : Except Failure Schema} :
    scope id → derivation.model.message? id = some message → message.mapEntry = false →
      derivation.BodyFrom (answer id) message result → body id result
  inlines {owner id : Nat} {referenceAllowed : Bool} {result : Except Failure Schema} :
    scope id → body id result → answer owner id referenceAllowed (result.map .inline)
  points {owner id : Nat} {message : Message} :
    scope id → derivation.model.message? id = some message → message.mapEntry = false →
      id ∈ derivation.components → derivation.settings.useRef = true →
      answer owner id true (.ok (.component message.absoluteName))
  returns {owner id : Nat} {message : Message} {referenceAllowed : Bool} :
    scope id → derivation.model.message? id = some message → message.mapEntry = false →
      TransGen derivation.Names owner id → ReflTransGen derivation.Names id owner →
      answer owner id referenceAllowed
        (.ok (derivation.returnSlot id message.absoluteName referenceAllowed))

namespace Account

variable (account : Account derivation)

/-- Every finished schema is one that the account tells of. -/
abbrev Kept : Session → Prop := Session.Holds fun id schema => account.body id (.ok schema)

/-- The schema of a message that is entered now, given what stands for the messages that it asks
for. -/
theorem messageBody_meets {resolve : Resolver} {id : Nat} {message : Message}
    (known : account.scope id) (found : derivation.model.message? id = some message)
    (plain : message.mapEntry = false)
    (resolves : ∀ target referenceAllowed, account.scope target → derivation.Inlinable target →
      TransGen derivation.Names id target →
      (resolve target referenceAllowed).Meets account.Kept (account.answer id target referenceAllowed)) :
    (derivation.messageBody resolve message).Meets account.Kept (account.body id) := by
  have answers : ∀ target referenceAllowed, derivation.Asks message target referenceAllowed →
      (resolve target referenceAllowed).Meets account.Kept
        (account.answer id target referenceAllowed) := by
    intro target referenceAllowed asks
    obtain ⟨leads, inlinable⟩ := asks.leads found plain
    exact resolves target referenceAllowed (account.closed known found plain asks) inlinable leads
  exact (Derivation.messageBody_meets (fun _ => Deriving.meets_report rfl) answers).mono
    fun result ends => account.derives known found plain ends

theorem messageSlot_meets {active : List Nat} {owner id : Nat} {referenceAllowed : Bool}
    (known : account.scope id) (inlinable : derivation.Inlinable id)
    (asked : TransGen derivation.Names owner id)
    (around : ∀ other ∈ active, ReflTransGen derivation.Names other owner) :
    (derivation.messageSlot active id referenceAllowed).Meets account.Kept
      (account.answer owner id referenceAllowed) := by
  obtain ⟨message, found, plain⟩ := inlinable
  -- Every active message leads to the owner, and the owner to the message asked for: one that is asked
  -- for while it is active has come back to itself.
  fun_induction messageSlot derivation active id referenceAllowed generalizing owner message with
  | case1 active id referenceAllowed missing => rw [missing] at found; cases found
  | case2 active id referenceAllowed other same pointed =>
      cases same.symm.trans found
      rw [pointed.1]
      exact Deriving.meets_pure (account.points known found plain pointed.2.1 pointed.2.2)
  | case3 active id referenceAllowed other same _ entered =>
      cases same.symm.trans found
      refine (recursionSlot_meets fun _ => Deriving.meets_report rfl).mono fun result ends => ?_
      rw [ends]
      exact account.returns known found plain asked (around id entered)
  | case4 active id referenceAllowed other same _ entered _ ih =>
      cases same.symm.trans found
      have body : (derivation.messageBody (derivation.messageSlot (id :: active)) other).Meets
          account.Kept (account.body id) := by
        refine account.messageBody_meets known found plain fun target allowed scope inlinable leads => ?_
        obtain ⟨message, found, plain⟩ := inlinable
        refine ih target allowed scope leads (fun entry member => ?_) message found plain
        rcases List.mem_cons.1 member with rfl | earlier
        · exact .refl
        · exact (around entry earlier).trans asked.to_reflTransGen
      exact (Deriving.meets_once body fun _ => Iff.rfl).map
        fun result ends => account.inlines known ends

/-- How a call for a message ends. -/
inductive Tells (account : Account derivation) (id : Nat) : Except Failure (Option Schema) → Prop
  | schema {result : Except Failure Schema} :
      derivation.Inlinable id → account.body id result → Tells account id (result.map some)
  | nothing : ¬ derivation.Inlinable id → Tells account id (.ok none)

theorem messageSchema_meets {id : Nat} (known : derivation.Inlinable id → account.scope id) :
    (derivation.messageSchema id).Meets account.Kept (account.Tells id) := by
  by_cases inlinable : derivation.Inlinable id
  · have scope := known inlinable
    obtain ⟨message, found, plain⟩ := inlinable
    rw [messageSchema_eq_once found plain]
    have body : (derivation.messageBody (derivation.messageSlot [id]) message).Meets account.Kept
        (account.body id) := by
      refine account.messageBody_meets scope found plain fun target allowed scope inlinable leads => ?_
      refine account.messageSlot_meets scope inlinable leads fun other member => ?_
      rw [List.mem_singleton.1 member]
    exact (Deriving.meets_once body fun _ => Iff.rfl).map
      fun result ends => .schema ⟨message, found, plain⟩ ends
  · rw [messageSchema_eq_none inlinable]
    exact Deriving.meets_pure (.nothing inlinable)

end Account

/-! ## Calls -/

/-- One call after the other in one session; a call that fails does not end them. -/
def answers (derivation : Derivation) :
    List Nat → Session → List (Except Failure (Option Schema)) × Session
  | [], session => ([], session)
  | id :: calls, session =>
    let (answer, next) := (derivation.messageSchema id).runFrom session
    let (others, last) := derivation.answers calls next
    (answer :: others, last)

theorem answers_append_singleton (calls : List Nat) (id : Nat) (session : Session) :
    (derivation.answers (calls ++ [id]) session).2 =
      ((derivation.messageSchema id).runFrom (derivation.answers calls session).2).2 := by
  induction calls generalizing session with
  | nil => rfl
  | cons first calls ih => exact ih _

/-- Every call ends as the account tells, whatever the calls before it came to. -/
theorem Account.answers_meet (account : Account derivation) (all : ∀ id, account.scope id)
    (calls : List Nat) {session : Session} (kept : account.Kept session) :
    List.Forall₂ account.Tells calls (derivation.answers calls session).1 ∧
      account.Kept (derivation.answers calls session).2 := by
  induction calls generalizing session with
  | nil => exact ⟨.nil, kept⟩
  | cons id calls ih =>
      have called : (derivation.messageSchema id).Meets account.Kept (account.Tells id) :=
        account.messageSchema_meets fun _ => all id
      obtain ⟨tells, next⟩ := called session kept
      obtain ⟨others, last⟩ := ih next
      exact ⟨.cons tells others, last⟩

end ProtoSchema.Derivation
