import ProtoSchema.Proofs.CallStates
import ProtoSchema.Proofs.Mentions

/-!
The directives of fields. A field with directives never ends up as a bare reference, so there is always
a schema for its directives to be applied to; a directive that cannot be read or applied fails the
message.
-/
namespace ProtoSchema

namespace Registry

variable {registry : Registry} {target : Target} {raw : String} {raws : List String}
  {schema changed : Schema}

/-- The type override that a directive line asks for on the field itself. -/
def override? (registry : Registry) (raw : String) : Option TypeOverride :=
  match registry.parse raw .field with
  | .ok ⟨.type override, .node⟩ => some override
  | _ => none

theorem findSome?_of_typeOverride? {override : Option TypeOverride}
    (ended : registry.typeOverride? .field raws = .ok override) :
    raws.findSome? registry.override? = override := by
  induction raws with
  | nil => cases ended; rfl
  | cons raw raws ih =>
      unfold typeOverride? at ended
      obtain ⟨directive, read, rest⟩ := exists_of_bind_ok ended
      rw [List.findSome?_cons, override?, read]
      split at rest
      · cases rest
        rfl
      · rename_i other
        obtain ⟨rule, scope⟩ := directive
        cases rule with
        | type asked =>
            cases scope with
            | node => exact absurd rfl (other asked)
            | items => exact ih rest
        | _ => exact ih rest

theorem parse_of_applyAll (applied : registry.applyAll target raws schema = .ok changed) :
    ∀ raw ∈ raws, ∃ directive, registry.parse raw target = .ok directive := by
  induction raws generalizing schema with
  | nil => exact fun _ member => nomatch member
  | cons first raws ih =>
      obtain ⟨directive, next, read, -, others⟩ := applyAll_cons_ok.1 applied
      intro raw member
      rcases List.mem_cons.1 member with rfl | later
      · exact ⟨directive, read⟩
      · exact ih others raw later

end Registry

namespace Derivation

variable {derivation : Derivation} {resolve : Resolver} {owner : String} {field : Field}
  {message : Message} {id : Nat} {active : List Nat} {start now next stop session : Session}
  {schema : Schema} {slot : Slot Schema} {property : Property}

def directivesOf (derivation : Derivation) (field : Field) : List String :=
  (derivation.settings.commentPolicy.read field.comment).directives

/-- What the directives of a field are applied to: the schema of the first type override among them,
or else that of the type of the field, where no reference is allowed. -/
def baseSlot (derivation : Derivation) (resolve : Resolver) (owner : String) (field : Field) :
    Deriving (Slot Schema) :=
  let reading := derivation.settings.commentPolicy.read field.comment
  match (derivation.directivesOf field).findSome? derivation.registry.override? with
  | some override => pure (fieldSlot field.repeated reading.description (overriding override))
  | none =>
    derivation.typeSlot resolve [] (owner ++ "." ++ field.name) reading.description false field

/-! ## Inline schemas -/

theorem fieldSlot_inline (repeated : Bool) (description : String) (schema : Schema) :
    ∃ shown, fieldSlot repeated description (.inline schema) = .inline shown := by
  cases repeated <;> exact ⟨_, rfl⟩

theorem Frame.around_inline (frame : Frame) (schema : Schema) :
    ∃ shown, frame.around (.inline schema) = .inline shown := by
  cases frame with
  | field repeated description => exact fieldSlot_inline repeated description schema
  | map description values => exact fieldSlot_inline false description _

theorem messageSlot_inline
    (ended : ((derivation.messageSlot active id false).runFrom session).1 = .ok slot) :
    ∃ shown, slot = .inline shown := by
  cases found : derivation.model.message? id with
  | none =>
      unfold messageSlot at ended
      split at ended
      · cases ended
        exact ⟨_, rfl⟩
      · rename_i other same
        cases same.symm.trans found
  | some message =>
      rw [messageSlot_eq found, if_neg (by simp)] at ended
      split at ended
      · rw [recursionSlot_runFrom] at ended
        cases ended
        unfold returnSlot
        split <;> exact ⟨_, rfl⟩
      · rw [Deriving.runFrom_map] at ended
        obtain ⟨shown, -, same⟩ := exists_of_map_ok ended
        exact ⟨shown, same.symm⟩

theorem baseSlot_inline
    (ended : ((derivation.baseSlot (derivation.messageSlot active) owner field).runFrom now).1 =
      .ok slot) : ∃ base, slot = .inline base := by
  unfold baseSlot at ended
  simp only at ended
  split at ended
  · cases ended
    exact fieldSlot_inline _ _ _
  · rw [typeSlot_eq] at ended
    split at ended
    · cases ended
    · rename_i frame content outlined
      rw [Deriving.runFrom_map] at ended
      obtain ⟨inner, answered, rfl⟩ := exists_of_map_ok ended
      cases content with
      | written schema =>
          cases answered
          exact frame.around_inline schema
      | message target allowed =>
          rcases typeOutline_allows outlined with ⟨_, -, rfl⟩ | ⟨⟨values, rfl⟩, -⟩
          · obtain ⟨shown, rfl⟩ := messageSlot_inline answered
            exact frame.around_inline shown
          · exact fieldSlot_inline false _ _

/-! ## One field -/

/-- What directives are applied to is derived before they are, and they leave the session as it is. -/
theorem exists_slot_of_applied {derived : Deriving (Slot Schema)} {declaration : String}
    {directives : List String} {made : Slot Schema → Property}
    (keeps : ∀ slot, (made slot).slot = slot)
    (ended : (derived >>= fun slot => do
      let slot ← guilty declaration (derivation.applyToSlot directives slot)
      pure (made slot)).runFrom now = (.ok property, next)) :
    ∃ slot, derived.runFrom now = (.ok slot, next) ∧
      derivation.applyToSlot directives slot = .ok property.slot := by
  rw [Deriving.runFrom_bind] at ended
  cases ran : derived.runFrom now with
  | mk result after =>
      rw [ran] at ended
      cases result with
      | error failure => cases ended
      | ok slot =>
          cases applied : derivation.applyToSlot directives slot with
          | error error =>
              simp only [applied] at ended
              cases ended
          | ok changed =>
              simp only [applied] at ended
              cases ended
              exact ⟨slot, rfl, by rw [applied, keeps]⟩

theorem base_of_property (heeded : derivation.settings.ignoreDirectives = false)
    (directed : derivation.directivesOf field ≠ [])
    (ended : (derivation.property resolve owner field).runFrom now = (.ok property, next)) :
    ∃ slot, (derivation.baseSlot resolve owner field).runFrom now = (.ok slot, next) ∧
      derivation.applyToSlot (derivation.directivesOf field) slot = .ok property.slot := by
  have read : derivation.settings.readComment field.comment =
      derivation.settings.commentPolicy.read field.comment := by
    simp [Settings.readComment, heeded]
  have given : (derivation.directivesOf field).isEmpty = false :=
    List.isEmpty_eq_false_iff.2 directed
  rw [Derivation.property, read] at ended
  unfold baseSlot
  unfold directivesOf at given ⊢
  cases required : guilty (owner ++ "." ++ field.name) (derivation.registry.isRequired
      (derivation.settings.commentPolicy.read field.comment).directives) with
  | error failure =>
      simp only [required] at ended
      cases ended
  | ok needed =>
      cases settled : guilty (owner ++ "." ++ field.name) (derivation.registry.typeOverride? .field
          (derivation.settings.commentPolicy.read field.comment).directives) with
      | error failure =>
          simp only [required, settled] at ended
          cases ended
      | ok override =>
          -- The scan that settled the override found the first one there is.
          have first := Registry.findSome?_of_typeOverride? (ok_of_guilty settled)
          simp only [required, settled, given, Deriving.liftM_ok, pure_bind] at ended
          simp only [first]
          cases override with
          | some override => exact exists_slot_of_applied (fun _ => rfl) ended
          | none => exact exists_slot_of_applied (fun _ => rfl) ended

/-! ## One message -/

theorem name_of_property
    (ended : ((derivation.property resolve owner field).runFrom now).1 = .ok property) :
    property.name = field.wireName := by
  rw [property_eq] at ended
  cases outlined : derivation.fieldOutline owner field with
  | error failure =>
      rw [outlined] at ended
      cases ended
  | ok outline =>
      simp only [outlined, Deriving.runFrom_bind] at ended
      split at ended
      · exact name_of_completed ended
      · cases ended

theorem names_of_fieldsWithin {fields : List Field} {properties : List Property}
    (ended : (derivation.fieldsWithin active id message fields).runFrom start = (.ok properties, stop)) :
    properties.map (·.name) = fields.map (·.wireName) := by
  have named : ∀ field ∈ fields, (derivation.property (derivation.messageSlot (id :: active))
      message.absoluteName field).Meets (fun _ => True)
        fun result => ∀ property, result = .ok property → property.name = field.wireName :=
    fun _ _ _ _ => ⟨fun _ => name_of_property, trivial⟩
  have all := (Deriving.meets_mapM named start trivial).1
  unfold fieldsWithin at ended
  rw [ended] at all
  rw [← List.forall₂_eq_eq_eq, List.forall₂_map_left_iff, List.forall₂_map_right_iff]
  exact all.forall₂.flip.imp fun _ _ same => same _ rfl

/-- In a new schema of a message, a field that had its turn shows its directives applied to what the
turn came to. -/
theorem applied_of_turn (heeded : derivation.settings.ignoreDirectives = false)
    (distinct : (message.fields.map (·.wireName)).Nodup)
    (ended : (derivation.messageBody (derivation.messageSlot (id :: active)) message).runFrom start =
      (.ok schema, stop))
    (turn : derivation.Turn active start id message field now)
    (directed : derivation.directivesOf field ≠ []) :
    ∃ base shown, ((derivation.baseSlot (derivation.messageSlot (id :: active)) message.absoluteName
        field).runFrom now).1 = .ok (.inline base) ∧
      derivation.registry.applyAll .field (derivation.directivesOf field) base = .ok shown ∧
      schema.properties.lookup field.wireName = some (.inline shown) := by
  obtain ⟨earlier, later, front, split, before⟩ := turn
  obtain ⟨own, properties, after, -, ran, rfl⟩ := exists_fields_of_messageBody ended
  have names := names_of_fieldsWithin ran
  unfold fieldsWithin at ran before
  rw [split] at ran
  obtain ⟨_, here, property, next, again, turned, member⟩ := Deriving.exists_step_of_mapM ran
  -- The fields before it run as they did, so this is the turn that was given.
  cases again.symm.trans before
  obtain ⟨slot, based, applied⟩ := base_of_property heeded directed turned
  have based := congrArg Prod.fst based
  obtain ⟨base, rfl⟩ := baseSlot_inline based
  obtain ⟨shown, ruled, same⟩ := exists_of_map_ok applied
  have name := name_of_property (congrArg Prod.fst turned)
  refine ⟨base, shown, based, ruled, ?_⟩
  rw [← name, same]
  exact lookup_assemble (names ▸ distinct) member

theorem exists_turn
    (ended : (derivation.messageBody (derivation.messageSlot (id :: active)) message).runFrom start =
      (.ok schema, stop))
    (member : field ∈ message.fields) : ∃ now, derivation.Turn active start id message field now := by
  obtain ⟨earlier, later, split⟩ := List.append_of_mem member
  obtain ⟨own, properties, after, -, ran, -⟩ := exists_fields_of_messageBody ended
  unfold fieldsWithin at ran
  rw [split] at ran
  obtain ⟨front, now, _, _, before, -, -⟩ := Deriving.exists_step_of_mapM ran
  exact ⟨now, earlier, later, front, split, before⟩

/-! ## Calls -/

/-- In the schema, which is new in the state, every field with directives is an inline schema: what its
turn came to, under all of its directives in order. -/
def ShowsDirectives (derivation : Derivation) (active : List Nat) (start : Session) (id : Nat)
    (message : Message) (schema : Schema) : Prop :=
  ∀ field ∈ message.fields, derivation.directivesOf field ≠ [] → ∃ now base shown,
    derivation.Turn active start id message field now ∧
    ((derivation.baseSlot (derivation.messageSlot (id :: active)) message.absoluteName
      field).runFrom now).1 = .ok (.inline base) ∧
    derivation.registry.applyAll .field (derivation.directivesOf field) base = .ok shown ∧
    schema.properties.lookup field.wireName = some (.inline shown)

theorem Derives.showsDirectives (derives : derivation.Derives active start id message schema)
    (heeded : derivation.settings.ignoreDirectives = false)
    (distinct : (message.fields.map (·.wireName)).Nodup) :
    derivation.ShowsDirectives active start id message schema := by
  obtain ⟨stop, ended⟩ := derives.ended
  intro field member directed
  obtain ⟨now, turn⟩ := exists_turn ended member
  obtain ⟨base, shown, shows⟩ := applied_of_turn heeded distinct ended turn directed
  exact ⟨now, base, shown, turn, shows⟩

/-- How a call for a message heeds the directives of its fields. -/
structure HeedsDirectives (derivation : Derivation) (active : List Nat) (session : Session) (id : Nat)
    (message : Message) : Prop where
  /-- The schema is new here or was new in an earlier state, and shows the directives of the fields. -/
  applied : ∀ schema, ((derivation.schemaWithin active id message).runFrom session).1 = .ok schema →
    ∃ around start, derivation.Derives around start id message schema ∧
      (session.finished.lookup id = none → around = active ∧ start = session) ∧
      derivation.ShowsDirectives around start id message schema
  /-- A directive that cannot be read fails the call. -/
  unreadable : ∀ field ∈ message.fields, ∀ raw ∈ derivation.directivesOf field, ∀ error,
    derivation.registry.parse raw .field = .error error →
    ∃ failure, ((derivation.schemaWithin active id message).runFrom session).1 = .error failure
  /-- Directives that cannot be applied when their field has its turn fail the call. -/
  inapplicable : session.finished.lookup id = none → ∀ field now base error,
    derivation.Turn active session id message field now →
    ((derivation.baseSlot (derivation.messageSlot (id :: active)) message.absoluteName
      field).runFrom now).1 = .ok (.inline base) →
    derivation.registry.applyAll .field (derivation.directivesOf field) base = .error error →
    ∃ failure, ((derivation.schemaWithin active id message).runFrom session).1 = .error failure

/-- While directives are heeded, no directive of a field is lost, in whatever state the message is
called for. -/
theorem heedsDirectives_of_called {model : Model} {settings : Settings} {unit : List Nat}
    (heeded : settings.ignoreDirectives = false)
    (called : (ofUnit model settings unit).Called active session id)
    (found : model.message? id = some message)
    (distinct : (message.fields.map (·.wireName)).Nodup) :
    (ofUnit model settings unit).HeedsDirectives active session id message where
  applied schema ended := by
    obtain ⟨around, start, derives, here⟩ := called.derives found ended
    exact ⟨around, start, derives, here, derives.showsDirectives heeded distinct⟩
  unreadable field member raw listed error unread := by
    cases ended : (((ofUnit model settings unit).schemaWithin active id message).runFrom session).1 with
    | error failure => exact ⟨failure, rfl⟩
    | ok schema =>
        obtain ⟨around, start, derives, -⟩ := called.derives found ended
        obtain ⟨now, base, shown, -, -, ruled, -⟩ := derives.showsDirectives heeded distinct field member
          (List.ne_nil_of_mem listed)
        obtain ⟨directive, read⟩ := Registry.parse_of_applyAll ruled raw listed
        cases read.symm.trans unread
  inapplicable fresh field now base error turn based refused := by
    cases ended : (((ofUnit model settings unit).schemaWithin active id message).runFrom session).1 with
    | error failure => exact ⟨failure, rfl⟩
    | ok schema =>
        obtain ⟨around, start, derives, here⟩ := called.derives found ended
        obtain ⟨rfl, rfl⟩ := here fresh
        obtain ⟨stop, ran⟩ := derives.ended
        have directed : (ofUnit model settings unit).directivesOf field ≠ [] := by
          intro none
          rw [none] at refused
          cases refused
        obtain ⟨other, shown, likewise, ruled, -⟩ := applied_of_turn heeded distinct ran turn directed
        cases likewise.symm.trans based
        cases ruled.symm.trans refused

end Derivation

/-- A link of a chain holds the next one, under a directive. -/
def Message.link : Message :=
  .holding "Link"
    [{ Field.holding "next" 0 with comment := " +kubebuilder:validation:MaxProperties=1\n" }]

/-- The next link is in progress when its directive is applied, and could be pointed at. -/
theorem Derivation.heedsDirectives_of_called_link :
    (((ofUnit (.ofMessages [.link]) { useRef := true } [0]).schemaWithin [] 0 .link).runFrom
        {}).1.isOk = true ∧
      (ofUnit (.ofMessages [.link]) { useRef := true } [0]).HeedsDirectives [] {} 0 .link :=
  ⟨by decide +kernel, heedsDirectives_of_called rfl (.outside [] 0) rfl (by decide)⟩

end ProtoSchema
