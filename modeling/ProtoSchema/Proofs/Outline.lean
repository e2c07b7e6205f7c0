import ProtoSchema.Derivation.Message
import ProtoSchema.Proofs.Deriving

/-!
Fields in outline. A field asks for at most one message, behind the maps of its declared type; what it
puts around the answer is known before. `fieldOutline` settles all of this without a session, and
`property_eq` says that deriving a field is nothing else. `BodyFrom` then says how the schema of a
message comes out of the answers that its fields get.
-/
namespace ProtoSchema.Derivation

variable (derivation : Derivation)

/-- What a field holds inside the arrays and maps around it. -/
inductive Content where
  | written (schema : Schema)
  | message (id : Nat) (referenceAllowed : Bool)

/-- What a field puts around its content. -/
inductive Frame where
  | field (repeated : Bool) (description : String)
  | map (description : String) (values : Frame)

def Frame.around : Frame → Slot Schema → Slot Schema
  | .field repeated description, slot => fieldSlot repeated description slot
  | .map description values, slot =>
    fieldSlot false description (Schema.mapOf (values.around slot))

/-- The declared type of a field in outline. `maps` are the entry types of the maps around it. -/
def typeOutline (maps : List Nat) (declaration description : String) (referenceAllowed : Bool)
    (field : Field) : Except Failure (Frame × Content) :=
  match derivation.declaredType declaration field with
  | .error failure => .error failure
  | .ok (.scalar schema) => .ok (.field field.repeated description, .written schema)
  | .ok (.enum enum) =>
    .ok (.field field.repeated description, .written (derivation.enumSchema enum))
  | .ok (.message id message found) =>
    match derivation.catalog.find? message.absoluteName with
    | some schema => .ok (.field field.repeated description, .written schema)
    | none =>
      if message.mapEntry then
        match message.fields[1]? with
        | none => .error (.mapWithoutValue declaration)
        | some value =>
          if visited : id ∈ maps then .error (.endlessMap declaration)
          else
            have := unvisited_cons_lt (Model.lt_of_message? found) visited
            let reading := derivation.settings.readComment value.comment
            (typeOutline (id :: maps) (declaration ++ "." ++ value.name) reading.description true
              value).map fun (frame, content) => (.map description frame, content)
      else .ok (.field field.repeated description, .message id referenceAllowed)
termination_by unvisited derivation.model.messages.length maps

def Content.resolvedBy (resolve : Resolver) : Content → Deriving (Slot Schema)
  | .written schema => pure schema
  | .message id referenceAllowed => resolve id referenceAllowed

theorem typeSlot_eq (resolve : Resolver) (maps : List Nat) (declaration description : String)
    (referenceAllowed : Bool) (field : Field) :
    derivation.typeSlot resolve maps declaration description referenceAllowed field =
      match derivation.typeOutline maps declaration description referenceAllowed field with
      | .error failure => throw failure
      | .ok (frame, content) => frame.around <$> content.resolvedBy resolve := by
  fun_induction typeOutline derivation maps declaration description referenceAllowed field with
  | case1 maps declaration description referenceAllowed field failure unresolved =>
      rw [typeSlot, unresolved]
  | case2 maps declaration description referenceAllowed field schema scalar =>
      rw [typeSlot, scalar]
      rfl
  | case3 maps declaration description referenceAllowed field enum named =>
      rw [typeSlot, named]
      rfl
  | case4 maps declaration description referenceAllowed field id message found named schema listed =>
      rw [typeSlot, named]
      simp only [listed]
      rfl
  | case5 maps declaration description referenceAllowed field id message found named unlisted entry
      missing =>
      rw [typeSlot, named]
      simp only [unlisted, entry, missing, if_true]
  | case6 maps declaration description referenceAllowed field id message found named unlisted entry
      value second visited =>
      rw [typeSlot, named]
      simp only [unlisted, entry, second, visited, if_true, dif_pos]
  | case7 maps declaration description referenceAllowed field id message found named unlisted entry
      value second fresh _ reading ih =>
      rw [typeSlot, named]
      simp only [unlisted, entry, second, fresh, if_true, dif_neg, not_false_eq_true]
      rw [ih]
      cases derivation.typeOutline (id :: maps) (declaration ++ "." ++ value.name)
        reading.description true value with
      | error failure => rfl
      | ok outline =>
          simp only [Except.map, Frame.around, map_eq_pure_bind, bind_assoc, pure_bind]
  | case8 maps declaration description referenceAllowed field id message found named unlisted plain =>
      rw [typeSlot, named]
      simp only [unlisted, plain, Bool.false_eq_true, if_false]
      rfl

structure Outline where
  required : Bool
  frame : Frame
  content : Content

def fieldOutline (owner : String) (field : Field) : Except Failure Outline := do
  let declaration := owner ++ "." ++ field.name
  let ⟨description, directives⟩ := derivation.settings.readComment field.comment
  let required ← guilty declaration (derivation.registry.isRequired directives)
  match ← guilty declaration (derivation.registry.typeOverride? .field directives) with
  | some override =>
    pure { required, frame := .field field.repeated description, content := .written (overriding override) }
  | none =>
    let (frame, content) ←
      derivation.typeOutline [] declaration description directives.isEmpty field
    pure { required, frame, content }

/-- The property of a field from what stands for its content. -/
def completed (owner : String) (field : Field) (outline : Outline) (slot : Slot Schema) :
    Except Failure Property :=
  let directives := (derivation.settings.readComment field.comment).directives
  (guilty (owner ++ "." ++ field.name)
    (derivation.applyToSlot directives (outline.frame.around slot))).map fun slot =>
      { name := field.wireName, required := outline.required, slot }

/-- What stands in a field without being asked for. -/
inductive Written : Schema → Prop
  | scalar {kind : FieldKind} {native : Bool} {schema : Schema} :
      kind.scalar? native = some schema → Written schema
  | enum (enum : Enum) : Written (derivation.enumSchema enum)
  | listed {name : String} {schema : Schema} :
      derivation.catalog.find? name = some schema → Written schema
  | override (override : TypeOverride) : Written (overriding override)

theorem property_eq (resolve : Resolver) (owner : String) (field : Field) :
    derivation.property resolve owner field =
      match derivation.fieldOutline owner field with
      | .error failure => throw failure
      | .ok outline =>
        outline.content.resolvedBy resolve >>= fun slot =>
          liftM (derivation.completed owner field outline slot) := by
  unfold property fieldOutline completed
  cases derivation.settings.readComment field.comment with
  | mk description directives =>
      simp only
      cases guilty (owner ++ "." ++ field.name) (derivation.registry.isRequired directives) with
      | error failure => rfl
      | ok required =>
          cases guilty (owner ++ "." ++ field.name)
              (derivation.registry.typeOverride? .field directives) with
          | error failure => rfl
          | ok override =>
              simp only [Deriving.liftM_ok, Deriving.liftM_map, pure_bind]
              cases override with
              | some override =>
                  change _ = (pure (.inline (overriding override)) : Deriving (Slot Schema)) >>= _
                  simp only [pure_bind, map_eq_pure_bind]
                  rfl
              | none =>
                  rw [typeSlot_eq]
                  cases derivation.typeOutline [] (owner ++ "." ++ field.name) description
                    directives.isEmpty field with
                  | error failure => rfl
                  | ok outline =>
                      change _ = outline.2.resolvedBy resolve >>= _
                      simp only [map_eq_pure_bind, bind_assoc, pure_bind]

/-! ## Schemas from answers -/

/-- What may stand for a message that a field asks for. -/
abbrev Answer := (id : Nat) → (referenceAllowed : Bool) → Except Failure (Slot Schema) → Prop

def Content.AnsweredBy (answer : Answer) : Content → Except Failure (Slot Schema) → Prop
  | .written schema, result => result = .ok (.inline schema)
  | .message id referenceAllowed, result => answer id referenceAllowed result

/-- How a field ends under the answers. -/
def PropertyFrom (answer : Answer) (owner : String) (field : Field)
    (result : Except Failure Property) : Prop :=
  match derivation.fieldOutline owner field with
  | .error failure => result = .error failure
  | .ok outline =>
    ∃ slot, outline.content.AnsweredBy answer slot ∧
      result = slot.bind (derivation.completed owner field outline)

/-- How the schema of a message ends under the answers. -/
def BodyFrom (answer : Answer) (message : Message) (result : Except Failure Schema) : Prop :=
  match derivation.objectOf message with
  | .error failure => result = .error failure
  | .ok own =>
    ∃ properties, Deriving.Sequenced (derivation.PropertyFrom answer message.absoluteName)
        message.fields properties ∧
      result = properties.map (derivation.assemble message own)

def Asks (message : Message) (id : Nat) (referenceAllowed : Bool) : Prop :=
  ∃ field ∈ message.fields, ∃ outline,
    derivation.fieldOutline message.absoluteName field = .ok outline ∧
      outline.content = .message id referenceAllowed

variable {derivation} {resolve : Resolver} {answer : Answer} {message : Message}

theorem name_of_completed {owner : String} {field : Field} {outline : Outline} {slot : Slot Schema}
    {property : Property} (ended : derivation.completed owner field outline slot = .ok property) :
    property.name = field.wireName := by
  obtain ⟨result, -, rfl⟩ := exists_of_map_ok ended
  rfl

theorem ok_of_guilty {α : Type} {declaration : String} {result : Except DirectiveError α} {value : α}
    (ended : guilty declaration result = .ok value) : result = .ok value := by
  cases result with
  | error failure => cases ended
  | ok other => cases ended; rfl

theorem scalar?_of_declaredType {declaration : String} {field : Field} {schema : Schema}
    (declared : derivation.declaredType declaration field = .ok (.scalar schema)) :
    field.kind.scalar? derivation.settings.nativeIntegers = some schema := by
  unfold declaredType at declared
  split at declared
  · cases declared
    assumption
  · split at declared
    · split at declared <;> cases declared
    · cases declared
    · split at declared <;> cases declared
    · cases declared

theorem written_of_typeOutline {maps : List Nat} {declaration description : String}
    {referenceAllowed : Bool} {field : Field} {frame : Frame} {schema : Schema}
    (outlined : derivation.typeOutline maps declaration description referenceAllowed field =
      .ok (frame, .written schema)) : derivation.Written schema := by
  fun_induction typeOutline derivation maps declaration description referenceAllowed field
      generalizing frame with
  | case1 | case5 | case6 => cases outlined
  | case2 maps declaration description referenceAllowed field other scalar =>
      cases outlined
      exact .scalar (scalar?_of_declaredType scalar)
  | case3 => cases outlined; exact .enum _
  | case4 maps declaration description referenceAllowed field id message found named other listed =>
      cases outlined
      exact .listed listed
  | case7 =>
      rename_i ih
      obtain ⟨⟨inner, content⟩, inside, same⟩ := exists_of_map_ok outlined
      cases same
      exact ih inside
  | case8 => cases outlined

/-- A field in outline has either a type override or the outline of its declared type. -/
theorem fieldOutline_cases {owner : String} {field : Field} {outline : Outline}
    (outlined : derivation.fieldOutline owner field = .ok outline) :
    (∃ override, derivation.registry.typeOverride? .field
          (derivation.settings.readComment field.comment).directives = .ok (some override) ∧
        outline.frame = .field field.repeated
          (derivation.settings.readComment field.comment).description ∧
        outline.content = .written (overriding override)) ∨
      derivation.registry.typeOverride? .field
          (derivation.settings.readComment field.comment).directives = .ok none ∧
        derivation.typeOutline [] (owner ++ "." ++ field.name)
          (derivation.settings.readComment field.comment).description
          (derivation.settings.readComment field.comment).directives.isEmpty field =
            .ok (outline.frame, outline.content) := by
  unfold fieldOutline at outlined
  obtain ⟨required, -, settled⟩ := exists_of_bind_ok outlined
  obtain ⟨override, ended, last⟩ := exists_of_bind_ok settled
  cases override with
  | some override =>
      cases last
      exact .inl ⟨override, ok_of_guilty ended, rfl, rfl⟩
  | none =>
      obtain ⟨⟨frame, content⟩, typed, same⟩ := exists_of_bind_ok last
      cases same
      exact .inr ⟨ok_of_guilty ended, typed⟩

theorem written_of_fieldOutline {owner : String} {field : Field} {outline : Outline} {schema : Schema}
    (outlined : derivation.fieldOutline owner field = .ok outline)
    (written : outline.content = .written schema) : derivation.Written schema := by
  rcases fieldOutline_cases outlined with ⟨override, -, -, content⟩ | ⟨-, typed⟩
  · cases content.symm.trans written
    exact .override override
  · rw [written] at typed
    exact written_of_typeOutline typed

theorem Content.AnsweredBy.imp {weaker : Answer} {content : Content} {slot : Except Failure (Slot Schema)}
    (weaken : ∀ id referenceAllowed, content = .message id referenceAllowed →
      answer id referenceAllowed slot → weaker id referenceAllowed slot)
    (answered : content.AnsweredBy answer slot) : content.AnsweredBy weaker slot := by
  cases content with
  | written schema => exact answered
  | message id referenceAllowed => exact weaken id referenceAllowed rfl answered

/-- A field fails before it asks for anything, or ends with what stands for its content. -/
theorem propertyFrom_iff {owner : String} {field : Field} {result : Except Failure Property} :
    derivation.PropertyFrom answer owner field result ↔
      (∃ failure, derivation.fieldOutline owner field = .error failure ∧ result = .error failure) ∨
      ∃ outline slot, derivation.fieldOutline owner field = .ok outline ∧
        outline.content.AnsweredBy answer slot ∧
        result = slot.bind (derivation.completed owner field outline) := by
  rw [PropertyFrom]
  cases derivation.fieldOutline owner field <;> simp

theorem bodyFrom_iff {result : Except Failure Schema} :
    derivation.BodyFrom answer message result ↔
      (∃ failure, derivation.objectOf message = .error failure ∧ result = .error failure) ∨
      ∃ own properties, derivation.objectOf message = .ok own ∧
        Deriving.Sequenced (derivation.PropertyFrom answer message.absoluteName) message.fields
          properties ∧
        result = properties.map (derivation.assemble message own) := by
  rw [BodyFrom]
  cases derivation.objectOf message <;> simp

theorem property_meets {invariant : Session → Prop} {field : Field} (member : field ∈ message.fields)
    (answers : ∀ id referenceAllowed, derivation.Asks message id referenceAllowed →
      (resolve id referenceAllowed).Meets invariant (answer id referenceAllowed)) :
    (derivation.property resolve message.absoluteName field).Meets invariant
      (derivation.PropertyFrom answer message.absoluteName field) := by
  rw [property_eq]
  cases outlined : derivation.fieldOutline message.absoluteName field with
  | error failure =>
      exact Deriving.meets_throw (propertyFrom_iff.2 (.inl ⟨failure, outlined, rfl⟩))
  | ok outline =>
      have content : (outline.content.resolvedBy resolve).Meets invariant
          (outline.content.AnsweredBy answer) := by
        cases asked : outline.content with
        | written schema => exact Deriving.meets_pure rfl
        | message id referenceAllowed =>
            exact answers id referenceAllowed ⟨field, member, outline, outlined, asked⟩
      have ends {slot : Except Failure (Slot Schema)} (answered : outline.content.AnsweredBy answer slot) :
          derivation.PropertyFrom answer message.absoluteName field
            (slot.bind (derivation.completed message.absoluteName field outline)) :=
        propertyFrom_iff.2 (.inr ⟨outline, slot, outlined, answered, rfl⟩)
      exact content.bind (fun _ answered => Deriving.meets_lift (ends answered)) fun _ => ends

/-- The schema of a message comes out of the answers of its resolver. -/
theorem messageBody_meets {invariant : Session → Prop}
    (reports : ∀ event, (Deriving.report event).Meets invariant (· = .ok ()))
    (answers : ∀ id referenceAllowed, derivation.Asks message id referenceAllowed →
      (resolve id referenceAllowed).Meets invariant (answer id referenceAllowed)) :
    (derivation.messageBody resolve message).Meets invariant (derivation.BodyFrom answer message) := by
  rw [messageBody]
  cases owned : derivation.objectOf message with
  | error failure =>
      exact Deriving.meets_throw (bodyFrom_iff.2 (.inl ⟨failure, owned, rfl⟩))
  | ok own =>
      have fields := Deriving.meets_mapM fun field (member : field ∈ message.fields) =>
        property_meets member answers
      have ends {properties : Except Failure (List Property)}
          (sequenced : Deriving.Sequenced (derivation.PropertyFrom answer message.absoluteName)
            message.fields properties) :
          derivation.BodyFrom answer message (properties.map (derivation.assemble message own)) :=
        bodyFrom_iff.2 (.inr ⟨own, properties, owned, sequenced, rfl⟩)
      refine (Deriving.meets_lift rfl).bind (fun value same => ?_) fun failure same => ?_
      · cases same
        refine fields.bind (fun properties sequenced => ?_) fun failure => ends
        exact (reports _).bind (fun _ _ => Deriving.meets_pure (ends sequenced)) fun _ same => nomatch same
      · cases same

theorem PropertyFrom.imp {weaker : Answer} {owner : String} {field : Field}
    {result : Except Failure Property}
    (weaken : ∀ id referenceAllowed ended, answer id referenceAllowed ended →
      weaker id referenceAllowed ended)
    (ends : derivation.PropertyFrom answer owner field result) :
    derivation.PropertyFrom weaker owner field result := by
  rw [propertyFrom_iff] at ends ⊢
  refine ends.imp_right ?_
  rintro ⟨outline, slot, outlined, answered, same⟩
  exact ⟨outline, slot, outlined, answered.imp fun id allowed _ => weaken id allowed slot, same⟩

theorem BodyFrom.imp {weaker : Answer} {result : Except Failure Schema}
    (weaken : ∀ id referenceAllowed ended, answer id referenceAllowed ended →
      weaker id referenceAllowed ended)
    (body : derivation.BodyFrom answer message result) : derivation.BodyFrom weaker message result := by
  rw [bodyFrom_iff] at body ⊢
  refine body.imp_right ?_
  rintro ⟨own, properties, owned, sequenced, same⟩
  exact ⟨own, properties, owned, sequenced.imp fun _ _ => PropertyFrom.imp weaken, same⟩

theorem propertyFrom_unique {field : Field} {left right : Except Failure Property}
    (member : field ∈ message.fields)
    (determined : ∀ id referenceAllowed, derivation.Asks message id referenceAllowed →
      ∀ left right, answer id referenceAllowed left → answer id referenceAllowed right → left = right)
    (one : derivation.PropertyFrom answer message.absoluteName field left)
    (two : derivation.PropertyFrom answer message.absoluteName field right) : left = right := by
  rcases propertyFrom_iff.1 one with
    ⟨failure, outlined, rfl⟩ | ⟨outline, slot, outlined, answered, rfl⟩ <;>
  rcases propertyFrom_iff.1 two with
    ⟨other, same, rfl⟩ | ⟨other, likewise, same, alsoAnswered, rfl⟩ <;>
  cases outlined.symm.trans same
  · rfl
  · cases asked : outline.content with
    | written schema =>
        rw [asked] at answered alsoAnswered
        cases answered
        cases alsoAnswered
        rfl
    | message id referenceAllowed =>
        rw [asked] at answered alsoAnswered
        rw [determined id referenceAllowed ⟨field, member, outline, outlined, asked⟩ slot likewise
          answered alsoAnswered]

/-- Where every answer is the only one, so is the schema. -/
theorem bodyFrom_unique {left right : Except Failure Schema}
    (determined : ∀ id referenceAllowed, derivation.Asks message id referenceAllowed →
      ∀ left right, answer id referenceAllowed left → answer id referenceAllowed right → left = right)
    (one : derivation.BodyFrom answer message left) (two : derivation.BodyFrom answer message right) :
    left = right := by
  rcases bodyFrom_iff.1 one with ⟨failure, owned, rfl⟩ | ⟨own, first, owned, sequenced, rfl⟩ <;>
  rcases bodyFrom_iff.1 two with ⟨other, same, rfl⟩ | ⟨other, second, same, likewise, rfl⟩ <;>
  cases owned.symm.trans same
  · rfl
  · rw [sequenced.unique likewise fun field member _ _ => propertyFrom_unique member determined]

/-! ## Failures -/

theorem directive_of_guilty {α : Type} {declaration : String} {result : Except DirectiveError α}
    {failure : Failure} (ended : guilty declaration result = .error failure) :
    ∃ error, failure = .directive declaration error := by
  cases result with
  | error error => cases ended; exact ⟨error, rfl⟩
  | ok value => cases ended

theorem failure_of_fieldOutline {owner : String} {field : Field} {failure : Failure}
    (ended : derivation.fieldOutline owner field = .error failure) :
    (∃ declaration error, failure = .directive declaration error) ∨
      ∃ declaration description referenceAllowed,
        derivation.typeOutline [] declaration description referenceAllowed field = .error failure := by
  unfold fieldOutline at ended
  rcases error_of_bind ended with ruled | ⟨required, -, rest⟩
  · exact .inl ⟨_, directive_of_guilty ruled⟩
  · rcases error_of_bind rest with ruled | ⟨override, -, last⟩
    · exact .inl ⟨_, directive_of_guilty ruled⟩
    · cases override with
      | some override => cases last
      | none =>
          rcases error_of_bind last with typed | ⟨outline, -, impossible⟩
          · exact .inr ⟨_, _, _, typed⟩
          · cases impossible

/-- A message fails over a directive, over the declared type of a field, or with a message that it
asks for. -/
theorem failure_of_bodyFrom {failure : Failure}
    (body : derivation.BodyFrom answer message (.error failure)) :
    (∃ declaration error, failure = .directive declaration error) ∨
      (∃ field ∈ message.fields, ∃ declaration description referenceAllowed,
        derivation.typeOutline [] declaration description referenceAllowed field = .error failure) ∨
      ∃ target referenceAllowed, derivation.Asks message target referenceAllowed ∧
        answer target referenceAllowed (.error failure) := by
  rcases bodyFrom_iff.1 body with ⟨other, owned, same⟩ | ⟨own, properties, -, sequenced, same⟩
  · cases same
    exact .inl ⟨_, directive_of_guilty owned⟩
  · rw [error_of_map same.symm] at sequenced
    obtain ⟨field, member, property⟩ := sequenced.exists_error
    rcases propertyFrom_iff.1 property with
      ⟨other, outlined, same⟩ | ⟨outline, slot, outlined, answered, same⟩
    · cases same
      exact (failure_of_fieldOutline outlined).imp_right fun typed => .inl ⟨field, member, typed⟩
    · rcases error_of_bind same.symm with rfl | ⟨filled, rfl, completed⟩
      · cases asked : outline.content with
        | written schema =>
            rw [asked] at answered
            cases answered
        | message id referenceAllowed =>
            rw [asked] at answered
            have asks : derivation.Asks message id referenceAllowed :=
              ⟨field, member, outline, outlined, asked⟩
            exact .inr (.inr ⟨id, referenceAllowed, asks, answered⟩)
      · exact .inl ⟨_, directive_of_guilty (error_of_map completed)⟩

end ProtoSchema.Derivation
