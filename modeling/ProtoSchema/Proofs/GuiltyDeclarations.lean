import ProtoSchema.Proofs.DirectiveFailure
import ProtoSchema.Proofs.DirectiveReading

/-!
The declarations that directive errors name. An error that ends a call is one of the directives of the
declaration that it names, on a message that was being derived or on a field that had its turn there,
through however many messages and maps it came up.
-/
namespace ProtoSchema

open Relation

namespace Registry

variable {registry : Registry} {target : Target} {raw : String} {raws : List String}
  {start : Schema} {directive : Directive} {error : DirectiveError}

/-- The first of the directive lines that cannot be read is refused with the error. -/
def FirstUnread (registry : Registry) (target : Target) (raws : List String) (error : DirectiveError) :
    Prop :=
  ∃ before raw behind, raws = before ++ raw :: behind ∧ registry.Reads target before ∧
    registry.parse raw target = .error error

/-- One of the directive lines fails on what those before it make of the schema. -/
def FirstFails (registry : Registry) (target : Target) (raws : List String) (start : Schema)
    (error : DirectiveError) : Prop :=
  ∃ before raw behind reached, raws = before ++ raw :: behind ∧
    registry.applyAll target before start = .ok reached ∧ registry.FailsOn target raw reached error

theorem FirstUnread.here (unread : registry.parse raw target = .error error) :
    registry.FirstUnread target (raw :: raws) error :=
  ⟨[], raw, raws, rfl, reads_nil, unread⟩

theorem FirstUnread.behind (read : registry.parse raw target = .ok directive)
    (later : registry.FirstUnread target raws error) :
    registry.FirstUnread target (raw :: raws) error := by
  obtain ⟨before, other, behind, rfl, readable, unread⟩ := later
  exact ⟨raw :: before, other, behind, rfl, List.forall_mem_cons.2 ⟨⟨directive, read⟩, readable⟩, unread⟩

theorem FirstUnread.ne_nil (unread : registry.FirstUnread target raws error) : raws ≠ [] := by
  obtain ⟨before, raw, behind, rfl, -⟩ := unread
  simp

theorem FirstFails.ne_nil (fails : registry.FirstFails target raws start error) : raws ≠ [] := by
  obtain ⟨before, raw, behind, reached, rfl, -⟩ := fails
  simp

theorem firstUnread_of_isRequired (failed : registry.isRequired raws = .error error) :
    registry.FirstUnread .field raws error := by
  induction raws with
  | nil => cases failed
  | cons raw raws ih =>
      unfold isRequired at failed
      rcases error_of_bind failed with unread | ⟨directive, read, rest⟩
      · exact .here unread
      · split at rest
        · cases rest
        · exact .behind read (ih rest)

theorem firstUnread_of_typeOverride? (failed : registry.typeOverride? target raws = .error error) :
    registry.FirstUnread target raws error := by
  induction raws with
  | nil => cases failed
  | cons raw raws ih =>
      unfold typeOverride? at failed
      rcases error_of_bind failed with unread | ⟨directive, read, rest⟩
      · exact .here unread
      · split at rest
        · cases rest
        · exact .behind read (ih rest)

theorem firstFails_of_applyAll (failed : registry.applyAll target raws start = .error error) :
    registry.FirstFails target raws start error := by
  rw [applyAll_eq_amend] at failed
  obtain ⟨before, raw, behind, split, done, fails⟩ :=
    amend_error_iff.1 (Prod.ext (error_of_map failed) rfl)
  refine ⟨before, raw, behind, _, split, ?_, fails⟩
  rw [applyAll_eq_amend, done]
  rfl

end Registry

/-- Where a comment holds directives, they are not ignored. -/
theorem Settings.heeded_of_directives {settings : Settings} {comment : String}
    (some : (settings.readComment comment).directives ≠ []) : settings.ignoreDirectives = false := by
  unfold readComment at some
  cases ignored : settings.ignoreDirectives with
  | true => simp [ignored] at some
  | false => rfl

theorem Settings.readComment_of_directives {settings : Settings} {comment : String}
    (some : (settings.readComment comment).directives ≠ []) :
    settings.readComment comment = settings.commentPolicy.read comment := by
  unfold readComment
  simp only [heeded_of_directives some, Bool.false_eq_true, if_false]

namespace Derivation

variable {derivation : Derivation} {resolve : Resolver} {owner declaration : String} {field : Field}
  {message : Message} {id target : Nat} {active : List Nat} {start now session : Session}
  {error : DirectiveError} {outline : Outline}

/-- The error is of the directives of the message, which is called for in this state, or of those of one
of its fields when the field has its turn; the text is the name of that declaration. -/
inductive Blames (derivation : Derivation) (active : List Nat) (start : Session) (id : Nat)
    (message : Message) : String → DirectiveError → Prop
  | message {error : DirectiveError} :
      derivation.registry.FirstFails .type (derivation.settings.readComment message.comment).directives
        (Schema.object.describedAs (derivation.settings.readComment message.comment).description) error →
      Blames derivation active start id message message.absoluteName error
  | unread {field : Field} {now : Session} {error : DirectiveError} :
      derivation.Turn active start id message field now →
      derivation.registry.FirstUnread .field (derivation.settings.readComment field.comment).directives
        error →
      Blames derivation active start id message (message.absoluteName ++ "." ++ field.name) error
  | unfit {field : Field} {now : Session} {base : Schema} {error : DirectiveError} :
      derivation.Turn active start id message field now →
      ((derivation.baseSlot (derivation.messageSlot (id :: active)) message.absoluteName
        field).runFrom now).1 = .ok (.inline base) →
      derivation.registry.FirstFails .field (derivation.settings.readComment field.comment).directives
        base error →
      Blames derivation active start id message (message.absoluteName ++ "." ++ field.name) error

/-- The message leads to one that is to blame for the error, in a state in which it is called for. -/
def Incurs (derivation : Derivation) (id : Nat) (declaration : String) (error : DirectiveError) : Prop :=
  ∃ other message active start, ReflTransGen derivation.Names id other ∧
    derivation.model.message? other = some message ∧ message.mapEntry = false ∧
    derivation.Called active start other ∧
    derivation.Blames active start other message declaration error

theorem Incurs.before (leads : ReflTransGen derivation.Names id target)
    (incurs : derivation.Incurs target declaration error) : derivation.Incurs id declaration error := by
  obtain ⟨other, message, active, start, onward, known⟩ := incurs
  exact ⟨other, message, active, start, leads.trans onward, known⟩

theorem error_of_guilty {α : Type} {result : Except DirectiveError α}
    (failed : guilty owner result = .error (.directive declaration error)) :
    declaration = owner ∧ result = .error error := by
  cases result with
  | error other => cases failed; exact ⟨rfl, rfl⟩
  | ok value => cases failed

/-! ## One field -/

theorem declaredType_ne_directive :
    derivation.declaredType owner field ≠ .error (.directive declaration error) := by
  intro failed
  unfold declaredType at failed
  split at failed
  · cases failed
  · split at failed <;> try cases failed
    all_goals split at failed <;> cases failed

/-- The type of a field has no directives: those of the values of a map are not looked at. -/
theorem typeOutline_ne_directive {maps : List Nat} {description : String} {referenceAllowed : Bool} :
    derivation.typeOutline maps owner description referenceAllowed field ≠
      .error (.directive declaration error) := by
  intro failed
  fun_induction typeOutline derivation maps owner description referenceAllowed field with
  | case1 maps owner description referenceAllowed field failure unresolved =>
      cases failed
      exact declaredType_ne_directive unresolved
  | case7 =>
      rename_i ih
      exact ih (error_of_map failed)
  | _ => cases failed

theorem blame_of_fieldOutline
    (failed : derivation.fieldOutline owner field = .error (.directive declaration error)) :
    declaration = owner ++ "." ++ field.name ∧ derivation.registry.FirstUnread .field
      (derivation.settings.readComment field.comment).directives error := by
  unfold fieldOutline at failed
  rcases error_of_bind failed with scanned | ⟨required, -, rest⟩
  · obtain ⟨same, unread⟩ := error_of_guilty scanned
    exact ⟨same, Registry.firstUnread_of_isRequired unread⟩
  · rcases error_of_bind rest with scanned | ⟨override, -, last⟩
    · obtain ⟨same, unread⟩ := error_of_guilty scanned
      exact ⟨same, Registry.firstUnread_of_typeOverride? unread⟩
    · cases override with
      | some override => cases last
      | none =>
          rcases error_of_bind last with typed | ⟨outline, -, impossible⟩
          · exact absurd typed typeOutline_ne_directive
          · cases impossible

theorem blame_of_completed {slot : Slot Schema}
    (failed : derivation.completed owner field outline slot = .error (.directive declaration error)) :
    declaration = owner ++ "." ++ field.name ∧ ∃ base, outline.frame.around slot = .inline base ∧
      derivation.registry.FirstFails .field (derivation.settings.readComment field.comment).directives
        base error := by
  obtain ⟨same, refused⟩ := error_of_guilty (error_of_map failed)
  cases framed : outline.frame.around slot with
  | reference path =>
      rw [framed] at refused
      cases refused
  | inline base =>
      rw [framed] at refused
      exact ⟨same, base, rfl, Registry.firstFails_of_applyAll (error_of_map refused)⟩

/-- What the directives of a field are applied to is what the field in outline puts around its content. -/
theorem baseSlot_eq (directed : (derivation.settings.readComment field.comment).directives ≠ [])
    (outlined : derivation.fieldOutline owner field = .ok outline) :
    derivation.baseSlot resolve owner field =
      outline.frame.around <$> outline.content.resolvedBy resolve := by
  have read := Settings.readComment_of_directives directed
  have given : (derivation.settings.readComment field.comment).directives.isEmpty = false :=
    List.isEmpty_eq_false_iff.2 directed
  unfold baseSlot directivesOf
  rw [← read]
  rcases fieldOutline_cases outlined with ⟨override, settled, frame, content⟩ | ⟨settled, typed⟩
  · simp only [Registry.findSome?_of_typeOverride? settled, frame, content]
    rfl
  · rw [given] at typed
    simp only [Registry.findSome?_of_typeOverride? settled, typeSlot_eq, typed]

/-- A field fails over its own directives, or with the message that it asks for. -/
theorem blame_of_property
    (failed : ((derivation.property resolve owner field).runFrom now).1 =
      .error (.directive declaration error)) :
    (declaration = owner ++ "." ++ field.name ∧
      (derivation.registry.FirstUnread .field (derivation.settings.readComment field.comment).directives
          error ∨
        ∃ base, ((derivation.baseSlot resolve owner field).runFrom now).1 = .ok (.inline base) ∧
          derivation.registry.FirstFails .field
            (derivation.settings.readComment field.comment).directives base error)) ∨
      ∃ outline asked referenceAllowed, derivation.fieldOutline owner field = .ok outline ∧
        outline.content = .message asked referenceAllowed ∧
        ((resolve asked referenceAllowed).runFrom now).1 = .error (.directive declaration error) := by
  rw [property_eq] at failed
  cases outlined : derivation.fieldOutline owner field with
  | error failure =>
      rw [outlined] at failed
      cases failed
      exact .inl ((blame_of_fieldOutline outlined).imp_right .inl)
  | ok outline =>
      simp only [outlined, Deriving.runFrom_bind] at failed
      cases ran : (outline.content.resolvedBy resolve).runFrom now with
      | mk result after =>
          rw [ran] at failed
          cases result with
          | ok slot =>
              obtain ⟨same, base, framed, fails⟩ := blame_of_completed failed
              refine .inl ⟨same, .inr ⟨base, ?_, fails⟩⟩
              rw [baseSlot_eq fails.ne_nil outlined, Deriving.runFrom_map, ran]
              exact congrArg Except.ok framed
          | error failure =>
              cases failed
              cases content : outline.content with
              | written schema =>
                  rw [content] at ran
                  cases ran
              | message asked referenceAllowed =>
                  rw [content] at ran
                  exact .inr ⟨outline, asked, referenceAllowed, rfl, content, congrArg Prod.fst ran⟩

/-! ## Messages -/

section

variable (called : derivation.Called active start id) (fresh : start.finished.lookup id = none)
  (found : derivation.model.message? id = some message) (plain : message.mapEntry = false)
  (slots : ∀ asked (referenceAllowed : Bool) now, derivation.Inlinable asked →
    (¬ (referenceAllowed ∧ asked ∈ derivation.components ∧ derivation.settings.useRef) →
      asked ∉ id :: active → derivation.Called (id :: active) now asked) →
    ((derivation.messageSlot (id :: active) asked referenceAllowed).runFrom now).1 =
      .error (.directive declaration error) → derivation.Incurs asked declaration error)

include called found plain slots

include fresh in
theorem incurs_of_messageBody
    (failed : ((derivation.messageBody (derivation.messageSlot (id :: active)) message).runFrom start).1 =
      .error (.directive declaration error)) : derivation.Incurs id declaration error := by
  have blamed (blames : derivation.Blames active start id message declaration error) :
      derivation.Incurs id declaration error :=
    ⟨id, message, active, start, .refl, found, plain, called, blames⟩
  rw [messageBody_runFrom] at failed
  cases owned : derivation.objectOf message with
  | error failure =>
      rw [owned] at failed
      cases failed
      obtain ⟨rfl, refused⟩ := error_of_guilty owned
      exact blamed (.message (Registry.firstFails_of_applyAll refused))
  | ok own =>
      have stopped : ((derivation.fieldsWithin active id message message.fields).runFrom start).1 =
          .error (.directive declaration error) := by
        cases ran : (derivation.fieldsWithin active id message message.fields).runFrom start with
        | mk result after =>
            simp only [owned, ran] at failed
            cases result with
            | error failure => cases failed; rfl
            | ok properties => cases failed
      obtain ⟨earlier, field, later, properties, now, split, before, stops⟩ :=
        Deriving.exists_stop_of_mapM stopped
      have turn : derivation.Turn active start id message field now :=
        ⟨earlier, later, properties, split, before⟩
      rcases blame_of_property stops with
        ⟨rfl, unread | ⟨base, based, fails⟩⟩ | ⟨outline, asked, referenceAllowed, outlined, content, stops⟩
      · exact blamed (.unread turn unread)
      · exact blamed (.unfit turn based fails)
      · have asks : derivation.Asks message asked referenceAllowed :=
          ⟨field, by simp [split], outline, outlined, content⟩
        obtain ⟨leads, inlinable⟩ := asks.leads found plain
        refine (slots asked referenceAllowed now inlinable (fun apart new => ?_) stops).before
          leads.to_reflTransGen
        exact .field called fresh found plain owned turn outlined content apart new

theorem incurs_of_schemaWithin
    (failed : ((derivation.schemaWithin active id message).runFrom start).1 =
      .error (.directive declaration error)) : derivation.Incurs id declaration error := by
  rw [schemaWithin, Deriving.runFrom_once] at failed
  cases fresh : start.finished.lookup id with
  | some schema =>
      rw [fresh] at failed
      cases failed
  | none =>
      refine incurs_of_messageBody called fresh found plain slots ?_
      cases ran : (derivation.messageBody (derivation.messageSlot (id :: active)) message).runFrom start
        with
      | mk result after =>
          simp only [fresh, ran] at failed
          cases result with
          | error failure => exact failed
          | ok schema => cases failed

end

theorem incurs_of_messageSlot {referenceAllowed : Bool} (inlinable : derivation.Inlinable id)
    (called : ¬ (referenceAllowed ∧ id ∈ derivation.components ∧ derivation.settings.useRef) →
      id ∉ active → derivation.Called active session id)
    (failed : ((derivation.messageSlot active id referenceAllowed).runFrom session).1 =
      .error (.directive declaration error)) : derivation.Incurs id declaration error := by
  obtain ⟨message, found, plain⟩ := inlinable
  fun_induction messageSlot derivation active id referenceAllowed generalizing session message with
  | case1 => cases failed
  | case2 => cases failed
  | case3 =>
      rw [recursionSlot_runFrom] at failed
      cases failed
  | case4 active id referenceAllowed other same apart entered _ ih =>
      cases same.symm.trans found
      rw [Deriving.runFrom_map] at failed
      refine incurs_of_schemaWithin (called apart entered) found plain ?_ (error_of_map failed)
      intro asked allowed now inlinable calls stops
      obtain ⟨message, found, plain⟩ := inlinable
      exact ih asked allowed calls stops message found plain

/-- A call that fails over a directive, whatever state it is made in, fails over one of the declaration
that it names. -/
theorem Called.incurs (called : derivation.Called active session id)
    (found : derivation.model.message? id = some message) (plain : message.mapEntry = false)
    (failed : ((derivation.schemaWithin active id message).runFrom session).1 =
      .error (.directive declaration error)) : derivation.Incurs id declaration error :=
  incurs_of_schemaWithin called found plain (fun _ _ _ => incurs_of_messageSlot) failed

theorem incurs_of_call {calls : List Nat}
    (failed : ((derivation.messageSchema id).runFrom (derivation.answers calls {}).2).1 =
      .error (.directive declaration error)) : derivation.Incurs id declaration error := by
  by_cases inlinable : derivation.Inlinable id
  · obtain ⟨message, found, plain⟩ := inlinable
    rw [messageSchema_eq_schemaWithin found plain, Deriving.runFrom_map] at failed
    exact Called.incurs (.outside calls id) found plain (error_of_map failed)
  · rw [messageSchema_eq_none inlinable] at failed
    cases failed

theorem Incurs.heeded (incurs : derivation.Incurs id declaration error) :
    derivation.settings.ignoreDirectives = false := by
  obtain ⟨other, message, active, start, -, -, -, -, blames⟩ := incurs
  cases blames with
  | message fails => exact Settings.heeded_of_directives fails.ne_nil
  | unread _ unread => exact Settings.heeded_of_directives unread.ne_nil
  | unfit _ _ fails => exact Settings.heeded_of_directives fails.ne_nil

/-! ## Calls -/

/-- What is known of a call for a message that ends with a directive error. -/
structure NamesGuilty (derivation : Derivation) : Prop where
  /-- Of a call from outside, after any other calls. -/
  outside : ∀ calls id declaration error,
    ((derivation.messageSchema id).runFrom (derivation.answers calls {}).2).1 =
      .error (.directive declaration error) → derivation.Incurs id declaration error
  /-- Of a call from a field, inside the schemas of other messages. -/
  inside : ∀ active session id message declaration error, derivation.Called active session id →
    derivation.model.message? id = some message → message.mapEntry = false →
    ((derivation.schemaWithin active id message).runFrom session).1 =
      .error (.directive declaration error) → derivation.Incurs id declaration error
  ignored : derivation.settings.ignoreDirectives = true → ∀ calls id declaration error,
    ((derivation.messageSchema id).runFrom (derivation.answers calls {}).2).1 ≠
      .error (.directive declaration error)

/-- A directive error names the declaration whose directives it is about, in whatever state the call is
made, and there is none where directives are ignored. -/
theorem namesGuilty (model : Model) (settings : Settings) (unit : List Nat) :
    (ofUnit model settings unit).NamesGuilty where
  outside _ _ _ _ := incurs_of_call
  inside _ _ _ _ _ _ called found plain := called.incurs found plain
  ignored ignores _ _ _ _ failed := by
    have heeded := (incurs_of_call failed).heeded
    cases ignores.symm.trans heeded

end Derivation

/-- The declaration that a directive error names. -/
def guiltyDeclaration? {α : Type} : Except Failure α → Option String
  | .error (.directive declaration _) => some declaration
  | _ => none

theorem exists_of_guiltyDeclaration? {α : Type} {result : Except Failure α} {declaration : String}
    (named : guiltyDeclaration? result = some declaration) :
    ∃ error, result = .error (.directive declaration error) := by
  unfold guiltyDeclaration? at named
  split at named
  · cases named
    exact ⟨_, rfl⟩
  · cases named

/-- An orchard of trees under names, whose heights are numbers and are to be short texts. -/
def Model.tallOrchard : Model :=
  .ofMessages
    [.holding "Orchard" [.holding "trees" 1], .mapTo 0 2,
      .holding "Tree" [{ Field.ofKind "height" .int32 none with
        comment := " +kubebuilder:validation:MaxLength=3\n" }]]

/-- The error comes up through a map, and names the field of the tree; it does so again in a second call. -/
theorem Derivation.namesGuilty_tallOrchard :
    (∃ error, (((ofUnit .tallOrchard {} [0]).messageSchema 0).runFrom
        ((ofUnit .tallOrchard {} [0]).answers [0] {}).2).1 =
          .error (.directive "forest.Tree.height" error) ∧
      (ofUnit .tallOrchard {} [0]).Incurs 0 "forest.Tree.height" error) ∧
    ∀ error, (((ofUnit .tallOrchard { ignoreDirectives := true } [0]).messageSchema 0).runFrom
        ((ofUnit .tallOrchard { ignoreDirectives := true } [0]).answers [0] {}).2).1 ≠
      .error (.directive "forest.Tree.height" error) := by
  constructor
  · have fails : ∃ error, (((ofUnit .tallOrchard {} [0]).messageSchema 0).runFrom
        ((ofUnit .tallOrchard {} [0]).answers [0] {}).2).1 =
          .error (.directive "forest.Tree.height" error) := exists_of_guiltyDeclaration? (by decide +kernel)
    obtain ⟨error, failed⟩ := fails
    exact ⟨error, failed, (namesGuilty .tallOrchard {} [0]).outside [0] 0 _ error failed⟩
  · exact (namesGuilty .tallOrchard { ignoreDirectives := true } [0]).ignored rfl [0] 0 _

end ProtoSchema
