import Mathlib.Data.Fintype.EquivFin
import ProtoSchema.Proofs.Mentions
import ProtoSchema.Proofs.Repointing

/-!
Plain recursion. Where no message leads back to itself, a schema can be derived without keeping
anything: no finished schemas, no messages in progress, every message anew wherever a field asks for
it. `plainStep` is one step of this recursion, `plainSchema` the recursion itself, and a derivation
that writes out what its fields ask for comes to the same end.
-/
namespace ProtoSchema.Derivation

open Relation

variable {derivation : Derivation} {schemaOf one two : Nat → Except Failure (Option Schema)}
  {id : Nat} {message : Message}

/-- No message leads back to itself. -/
def Acyclic (derivation : Derivation) : Prop := ∀ id, ¬ TransGen derivation.Names id id

/-- What stands for a message where a field asks for it: always the schema, written out. -/
def plainAnswer (schemaOf : Nat → Except Failure (Option Schema)) (target : Nat) :
    Except Failure (Slot Schema) :=
  (schemaOf target).map fun schema => .inline (schema.getD Schema.object)

def plainBody (derivation : Derivation) (schemaOf : Nat → Except Failure (Option Schema))
    (message : Message) : Except Failure Schema :=
  ((derivation.messageBody (fun target _ => liftM (plainAnswer schemaOf target)) message).runFrom {}).1

/-- The schema of a message out of the schemas of the messages that its fields ask for. -/
def plainStep (derivation : Derivation) (schemaOf : Nat → Except Failure (Option Schema)) (id : Nat) :
    Except Failure (Option Schema) :=
  match derivation.model.message? id with
  | none => .ok none
  | some message =>
    if message.mapEntry then .ok none else (derivation.plainBody schemaOf message).map some

theorem plainStep_of_inlinable (found : derivation.model.message? id = some message)
    (plain : message.mapEntry = false) :
    derivation.plainStep schemaOf id = (derivation.plainBody schemaOf message).map some := by
  unfold plainStep
  simp only [found, plain, Bool.false_eq_true, if_false]

theorem plainStep_of_not_inlinable (outside : ¬ derivation.Inlinable id) :
    derivation.plainStep schemaOf id = .ok none := by
  unfold plainStep
  cases found : derivation.model.message? id with
  | none => rfl
  | some message =>
      cases entry : message.mapEntry with
      | true => simp only [entry, if_true]
      | false => exact absurd ⟨message, found, entry⟩ outside

theorem plainBody_from {answer : Answer}
    (answers : ∀ target referenceAllowed, derivation.Asks message target referenceAllowed →
      answer target referenceAllowed (plainAnswer schemaOf target)) :
    derivation.BodyFrom answer message (derivation.plainBody schemaOf message) := by
  have meets : (derivation.messageBody (fun target _ => liftM (plainAnswer schemaOf target)) message).Meets
      (fun _ => True) (derivation.BodyFrom answer message) :=
    messageBody_meets (fun _ _ _ => ⟨rfl, trivial⟩) fun target referenceAllowed asks =>
      Deriving.meets_lift (answers target referenceAllowed asks)
  exact (meets {} trivial).1

/-- Whatever comes out of the answers of the plain recursion is its next step. -/
theorem eq_plainBody {result : Except Failure Schema}
    (body : derivation.BodyFrom (fun target _ ended => ended = plainAnswer schemaOf target) message
      result) : result = derivation.plainBody schemaOf message :=
  bodyFrom_unique (fun _ _ _ _ _ first second => first.trans second.symm) body
    (plainBody_from fun _ _ _ => rfl)

/-- A step looks only at what the message leads to. -/
theorem plainStep_congr
    (same : ∀ target, TransGen derivation.Names id target → one target = two target) :
    derivation.plainStep one id = derivation.plainStep two id := by
  by_cases inlinable : derivation.Inlinable id
  · obtain ⟨message, found, plain⟩ := inlinable
    rw [plainStep_of_inlinable found plain, plainStep_of_inlinable found plain]
    refine congrArg (Except.map some) (eq_plainBody (plainBody_from fun target _ asks => ?_))
    rw [plainAnswer, same target (asks.leads found plain).1, ← plainAnswer]
  · rw [plainStep_of_not_inlinable inlinable, plainStep_of_not_inlinable inlinable]

/-! ## The recursion -/

theorem lt_of_leads {target : Nat} (leads : TransGen derivation.Names id target) :
    target < derivation.model.messages.length := by
  obtain ⟨_, _, _, _, _, _, _, message, found, -⟩ := TransGen.tail'_iff.1 leads
  exact Model.lt_of_message? found

theorem Acyclic.wellFounded (acyclic : derivation.Acyclic) :
    WellFounded fun target id => TransGen derivation.Names id target := by
  have among : WellFounded fun target id : Fin derivation.model.messages.length =>
      TransGen derivation.Names id target := by
    have irrefl : Std.Irrefl fun target id : Fin derivation.model.messages.length =>
        TransGen derivation.Names id target := ⟨fun id => acyclic id⟩
    have trans : IsTrans _ fun target id : Fin derivation.model.messages.length =>
        TransGen derivation.Names id target := ⟨fun _ _ _ first second => second.trans first⟩
    exact Finite.wellFounded_of_trans_of_irrefl _
  -- Messages are numbers, but whatever is led to is the number of one of finitely many.
  have known (id : Fin derivation.model.messages.length) :
      Acc (fun target id => TransGen derivation.Names id target) id.val := by
    induction id using among.induction with
    | _ id ih => exact .intro _ fun target leads => ih ⟨target, lt_of_leads leads⟩ leads
  exact ⟨fun id => .intro _ fun target leads => known ⟨target, lt_of_leads leads⟩⟩

open Classical in
/-- The schemas of messages by plain recursion. -/
noncomputable def plainSchema (acyclic : derivation.Acyclic) : Nat → Except Failure (Option Schema) :=
  acyclic.wellFounded.fix fun id schemaOf =>
    derivation.plainStep
      (fun target =>
        if leads : TransGen derivation.Names id target then schemaOf target leads else .ok none)
      id

theorem plainSchema_eq (acyclic : derivation.Acyclic) (id : Nat) :
    derivation.plainSchema acyclic id = derivation.plainStep (derivation.plainSchema acyclic) id := by
  rw [plainSchema, WellFounded.fix_eq]
  exact plainStep_congr fun target leads => dif_pos leads

theorem eq_plainSchema (acyclic : derivation.Acyclic)
    (step : ∀ id, schemaOf id = derivation.plainStep schemaOf id) :
    schemaOf = derivation.plainSchema acyclic := by
  funext id
  induction id using acyclic.wellFounded.induction with
  | _ id ih => rw [step, plainSchema_eq, plainStep_congr ih]

/-! ## Derivations that write out what is asked for -/

theorem Acyclic.not_back (acyclic : derivation.Acyclic) {target : Nat}
    (leads : TransGen derivation.Names id target) : ¬ ReflTransGen derivation.Names target id :=
  fun back => acyclic id (leads.trans_left back)

/-- The plain recursion tells how every schema of such a derivation ends. -/
def plainAccount (useRef : derivation.settings.useRef = false) (acyclic : derivation.Acyclic)
    (step : ∀ id, schemaOf id = derivation.plainStep schemaOf id) : Account derivation where
  scope _ := True
  body id result := result.map some = schemaOf id
  answer _ target _ ended := ended = plainAnswer schemaOf target
  closed _ _ _ _ := trivial
  derives _ found plain body := by
    rw [step, plainStep_of_inlinable found plain, eq_plainBody body]
  inlines {_ _ _ result} _ ends := by
    rw [plainAnswer, ← ends]
    cases result <;> rfl
  points _ _ _ _ wanted := by
    rw [useRef] at wanted
    cases wanted
  returns _ _ _ leads back := absurd back (acyclic.not_back leads)

mutual

theorem Renders.targets_nil {id : Nat} {schema : Schema} {targets : List Nat}
    (useRef : derivation.settings.useRef = false) (acyclic : derivation.Acyclic) :
    derivation.Renders id schema targets → derivation.Inlinable id → targets = []
  | .body found _ fields => fun ⟨message, same, plain⟩ => by
      cases same.symm.trans found
      exact fields.targets_nil useRef acyclic fun field member outline target allowed outlined asked =>
        Asks.leads ⟨field, member, outline, outlined, asked⟩ found plain

theorem RendersFields.targets_nil {id : Nat} {owner : String} {fields : List Field}
    {properties : List Property} {targets : List Nat}
    (useRef : derivation.settings.useRef = false) (acyclic : derivation.Acyclic) :
    derivation.RendersFields id owner fields properties targets →
      (∀ field ∈ fields, ∀ outline target allowed, derivation.fieldOutline owner field = .ok outline →
        outline.content = .message target allowed →
        TransGen derivation.Names id target ∧ derivation.Inlinable target) → targets = []
  | .nil => fun _ => rfl
  | .cons outlined stands _ rest => fun asks => by
      rw [stands.targets_nil useRef acyclic fun target allowed asked =>
          asks _ List.mem_cons_self _ target allowed outlined asked,
        rest.targets_nil useRef acyclic fun field member =>
          asks field (List.mem_cons_of_mem _ member)]
      rfl

theorem Stands.targets_nil {id : Nat} {content : Content} {slot : Slot Schema} {targets : List Nat}
    (useRef : derivation.settings.useRef = false) (acyclic : derivation.Acyclic) :
    derivation.Stands id content slot targets →
      (∀ target allowed, content = .message target allowed →
        TransGen derivation.Names id target ∧ derivation.Inlinable target) → targets = []
  | .written | .opened _ _ => fun _ => rfl
  | .pointed _ _ _ reason => fun asks => by
      rcases reason with wanted | back
      · rw [useRef] at wanted
        cases wanted
      · exact absurd back (acyclic.not_back (asks _ _ rfl).1)
  | .wrapped _ _ _ back => fun asks => absurd back (acyclic.not_back (asks _ _ rfl).1)
  | .inlined renders => fun asks => renders.targets_nil useRef acyclic (asks _ _ rfl).2

end

theorem Renders.mentions_nothing {schema : Schema} {targets : List Nat}
    (useRef : derivation.settings.useRef = false) (acyclic : derivation.Acyclic)
    (bare : derivation.CatalogBare) (renders : derivation.Renders id schema targets)
    (inlinable : derivation.Inlinable id) (path : String) : ¬ schema.Mentions path := by
  intro mentions
  obtain ⟨target, member, -⟩ := Slot.within_inline.2 (renders.within bare) path mentions
  rw [renders.targets_nil useRef acyclic inlinable] at member
  cases member

theorem Acyclic.repointed {components : List Nat} {grouping : Grouping} {wanted : Bool}
    (acyclic : derivation.Acyclic) : (derivation.repointed components grouping wanted).Acyclic :=
  acyclic

theorem plainStep_repointed {components : List Nat} {grouping : Grouping} {wanted : Bool} :
    (derivation.repointed components grouping wanted).plainStep schemaOf id =
      derivation.plainStep schemaOf id := by
  have body (message : Message) :
      (derivation.repointed components grouping wanted).plainBody schemaOf message =
        derivation.plainBody schemaOf message := by
    unfold plainBody
    rw [messageBody_repointed]
  unfold plainStep
  simp only [body]
  rfl

theorem messageSchema_eq_of_step (useRef : derivation.settings.useRef = false)
    (acyclic : derivation.Acyclic) (step : ∀ id, schemaOf id = derivation.plainStep schemaOf id)
    (calls : List Nat) :
    ((derivation.messageSchema id).runFrom (derivation.answers calls {}).2).1 = schemaOf id := by
  have kept := ((plainAccount useRef acyclic step).answers_meet (fun _ => trivial) calls
    Session.holds_start).2
  have called : (derivation.messageSchema id).Meets (plainAccount useRef acyclic step).Kept
      ((plainAccount useRef acyclic step).Tells id) :=
    (plainAccount useRef acyclic step).messageSchema_meets fun _ => trivial
  have tells := (called _ kept).1
  generalize ((derivation.messageSchema id).runFrom (derivation.answers calls {}).2).1 = answer at tells
  cases tells with
  | schema _ ends => exact ends
  | nothing outside => rw [step, plainStep_of_not_inlinable outside]

/-- Where no message leads back to itself and references are not wanted, every call ends as the plain
recursion does, whatever the document, the grouping and the calls before it, and no schema has a
reference in it. -/
theorem messageSchema_eq_plainSchema {model : Model} {settings : Settings}
    (useRef : settings.useRef = false) (acyclic : (ofUnit model settings []).Acyclic) :
    (∀ id, (ofUnit model settings []).plainSchema acyclic id =
        (ofUnit model settings []).plainStep ((ofUnit model settings []).plainSchema acyclic) id) ∧
      (∀ (grouping : Grouping) (unit calls : List Nat) (id : Nat),
        let derivation := ofUnit model { settings with grouping } unit
        ((derivation.messageSchema id).runFrom (derivation.answers calls {}).2).1 =
          (ofUnit model settings []).plainSchema acyclic id) ∧
      ∀ id schema, (ofUnit model settings []).plainSchema acyclic id = .ok (some schema) →
        ∀ path, ¬ schema.Mentions path := by
  have equal : ∀ (grouping : Grouping) (unit calls : List Nat) (id : Nat),
      (((ofUnit model { settings with grouping } unit).messageSchema id).runFrom
          ((ofUnit model { settings with grouping } unit).answers calls {}).2).1 =
        (ofUnit model settings []).plainSchema acyclic id := by
    intro grouping unit calls id
    have same : ofUnit model { settings with grouping } unit =
        (ofUnit model settings []).repointed (ofUnit model settings unit).components grouping
          settings.useRef := rfl
    rw [same]
    refine messageSchema_eq_of_step useRef acyclic.repointed (fun other => ?_) calls
    rw [plainStep_repointed, ← plainSchema_eq]
  refine ⟨plainSchema_eq acyclic, equal, fun id schema ended path => ?_⟩
  have called := (equal settings.grouping [] [] id).trans ended
  obtain ⟨inlinable, targets, renders⟩ := renders_of_messageSchema Session.holds_start called
  exact renders.mentions_nothing useRef acyclic catalogBare_ofUnit inlinable path

/-- Links that only ever go to later messages do not come back. -/
theorem acyclic_of_ascends
    (ascends : ∀ entry ∈ derivation.model.messages.zipIdx, ∀ field ∈ entry.1.followed,
      ∀ target ∈ field.messageLink?, entry.2 < target) : derivation.Acyclic := by
  have later : ∀ {id target}, TransGen derivation.Names id target → id < target := by
    intro id target leads
    have step : ∀ {id target}, derivation.Names id target → id < target := by
      rintro id target ⟨message, found, field, member, link, -⟩
      exact ascends (message, id) (List.mk_mem_zipIdx_iff_getElem?.2 found) field member target link
    induction leads with
    | single names => exact step names
    | tail _ names ih => exact ih.trans (step names)
  exact fun id leads => lt_irrefl id (later leads)

theorem messageSchema_eq_plainSchema_orchard :
    ∃ plain : Nat → Except Failure (Option Schema),
      (∀ id, plain id = (ofUnit Model.orchard {} []).plainStep plain id) ∧
      (((ofUnit Model.orchard {} [0, 1, 2]).messageSchema 0).runFrom
        ((ofUnit Model.orchard {} [0, 1, 2]).answers [2, 0, 1] {}).2).1 = plain 0 := by
  have acyclic : (ofUnit Model.orchard {} []).Acyclic := acyclic_of_ascends (by decide)
  obtain ⟨step, equal, -⟩ := messageSchema_eq_plainSchema rfl acyclic
  exact ⟨_, step, equal .perPackage [0, 1, 2] [2, 0, 1] 0⟩

end ProtoSchema.Derivation
