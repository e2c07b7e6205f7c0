import ProtoSchema.Proofs.Descriptions
import ProtoSchema.Proofs.DirectiveReading

/-!
Comments that read alike. Two models that differ in comments alone, and in comments of which the same is
read, lead to the same computations; so, where directives are ignored, none of them has any influence.
-/
namespace ProtoSchema

/-! ## Models with other comments -/

def Field.rewritten (tell : String → String) (field : Field) : Field :=
  { field with comment := tell field.comment }

def Message.rewritten (tell : String → String) (message : Message) : Message :=
  { message with
    comment := tell message.comment
    fields := message.fields.map (Field.rewritten tell) }

def Enum.rewritten (tell : String → String) (enum : Enum) : Enum :=
  { enum with comment := tell enum.comment }

/-- The model with every comment rewritten. Two models are the same when rewritten if they are equal
except in comments, and corresponding comments are rewritten to the same. -/
def Model.rewritten (tell : String → String) (model : Model) : Model where
  files := model.files.map fun file => { file with packageComment := tell file.packageComment }
  messages := model.messages.map (Message.rewritten tell)
  enums := model.enums.map (Enum.rewritten tell)

/-- What is described of a comment. -/
def Settings.described (settings : Settings) (comment : String) : String :=
  (settings.readComment comment).description

theorem Settings.readComment_of_ignored {settings : Settings} {left right : String}
    (ignored : settings.ignoreDirectives = true)
    (same : settings.described left = settings.described right) :
    settings.readComment left = settings.readComment right := by
  have silent (comment : String) :
      settings.readComment comment = { description := settings.described comment, directives := [] } := by
    unfold described readComment
    rw [if_pos ignored]
  rw [silent left, silent right, same]

section

variable {tell : String → String}

theorem Field.exists_comment {field other : Field} (same : field.rewritten tell = other.rewritten tell) :
    ∃ comment, other = { field with comment } ∧ tell field.comment = tell comment := by
  cases field
  cases other
  simp only [rewritten, Field.mk.injEq] at same
  obtain ⟨rfl, rfl, rfl, rfl, rfl, rfl, rfl, rfl, told⟩ := same
  exact ⟨_, rfl, told⟩

theorem Field.repeated_of_rewritten {field other : Field}
    (same : field.rewritten tell = other.rewritten tell) : other.repeated = field.repeated :=
  congrArg (·.repeated) same.symm

theorem Enum.exists_comment {enum other : Enum} (same : enum.rewritten tell = other.rewritten tell) :
    ∃ comment, other = { enum with comment } ∧ tell enum.comment = tell comment := by
  obtain ⟨declaration, values⟩ := enum
  obtain ⟨likewise, others⟩ := other
  cases declaration
  cases likewise
  simp only [rewritten, Enum.mk.injEq, Declaration.mk.injEq] at same
  obtain ⟨⟨rfl, rfl, rfl, rfl, rfl, told⟩, rfl⟩ := same
  exact ⟨_, rfl, told⟩

theorem Message.exists_comments {message other : Message}
    (same : message.rewritten tell = other.rewritten tell) :
    ∃ comment fields, other = { message with comment, fields } ∧ tell message.comment = tell comment ∧
      message.fields.map (Field.rewritten tell) = fields.map (Field.rewritten tell) := by
  obtain ⟨declaration, entry, fields⟩ := message
  obtain ⟨likewise, other, others⟩ := other
  cases declaration
  cases likewise
  simp only [rewritten, Message.mk.injEq, Declaration.mk.injEq] at same
  obtain ⟨⟨rfl, rfl, rfl, rfl, rfl, told⟩, rfl, alike⟩ := same
  exact ⟨_, _, rfl, told, alike⟩

end

variable {tell : String → String} {one two : Model} {message counterpart : Message} {id : Nat}

theorem Message.absoluteName_of_rewritten (same : message.rewritten tell = counterpart.rewritten tell) :
    counterpart.absoluteName = message.absoluteName := congrArg (·.absoluteName) same.symm

theorem Message.mapEntry_of_rewritten (same : message.rewritten tell = counterpart.rewritten tell) :
    counterpart.mapEntry = message.mapEntry := congrArg (·.mapEntry) same.symm

theorem Message.fields_of_rewritten (same : message.rewritten tell = counterpart.rewritten tell) :
    message.fields.map (Field.rewritten tell) = counterpart.fields.map (Field.rewritten tell) :=
  congrArg (·.fields) same

theorem Message.getElem?_of_rewritten (same : message.rewritten tell = counterpart.rewritten tell)
    (place : Nat) :
    message.fields[place]?.map (Field.rewritten tell) =
      counterpart.fields[place]?.map (Field.rewritten tell) := by
  rw [← List.getElem?_map, ← List.getElem?_map, fields_of_rewritten same]

theorem Message.exclusiveGroups_rewritten (message : Message) :
    (message.rewritten tell).exclusiveGroups = message.exclusiveGroups := by
  unfold exclusiveGroups rewritten
  rw [List.filterMap_map]
  rfl

namespace Model

variable (same : one.rewritten tell = two.rewritten tell)

include same

theorem message?_rewritten (id : Nat) :
    (one.message? id).map (Message.rewritten tell) = (two.message? id).map (Message.rewritten tell) := by
  have messages := congrArg (·.messages[id]?) same
  simpa only [rewritten, message?, List.getElem?_map] using messages

theorem enum?_rewritten (id : Nat) :
    (one.enum? id).map (Enum.rewritten tell) = (two.enum? id).map (Enum.rewritten tell) := by
  have enums := congrArg (·.enums[id]?) same
  simpa only [rewritten, enum?, List.getElem?_map] using enums

end Model

theorem exists_of_map_eq {α β : Type} {forget : α → β} {left right : Option α} {value : α}
    (same : left.map forget = right.map forget) (found : left = some value) :
    ∃ other, right = some other ∧ forget value = forget other := by
  subst found
  obtain ⟨other, present, alike⟩ := Option.map_eq_some_iff.1 same.symm
  exact ⟨other, present, alike.symm⟩

theorem eq_none_of_map_eq {α β : Type} {forget : α → β} {left right : Option α}
    (same : left.map forget = right.map forget) (missing : left = none) : right = none := by
  subst missing
  exact Option.map_eq_none_iff.1 same.symm

/-- Steps in a row, for entries that are the same but for what `forget` drops. -/
theorem mapM_eq_of_map_eq {α β γ : Type} {forget : α → γ} {perform act : α → Deriving β}
    {steps others : List α} (same : steps.map forget = others.map forget)
    (each : ∀ step other, forget step = forget other → act other = perform step) :
    others.mapM act = steps.mapM perform := by
  induction steps generalizing others with
  | nil => rw [List.map_eq_nil_iff.1 same.symm]; rfl
  | cons step rest ih =>
      obtain ⟨other, remaining, rfl, first, later⟩ := List.map_eq_cons_iff.1 same.symm
      rw [List.mapM_cons, List.mapM_cons, each step other first.symm, ih later.symm]

namespace Derivation

/-- The derivation, working with another model. -/
def withModel (derivation : Derivation) (model : Model) : Derivation := { derivation with model }

/-- The same declared types, but for the comments on what they name. -/
inductive DeclaredType.Alike (tell : String → String) {one two : Model} :
    Except Failure (DeclaredType one) → Except Failure (DeclaredType two) → Prop
  | failure (failure : Failure) : Alike tell (.error failure) (.error failure)
  | scalar (schema : Schema) : Alike tell (.ok (.scalar schema)) (.ok (.scalar schema))
  | enum {left right : Enum} : left.rewritten tell = right.rewritten tell →
      Alike tell (.ok (.enum left)) (.ok (.enum right))
  | message {id : Nat} {left right : Message} (found : one.message? id = some left)
      (present : two.message? id = some right) : left.rewritten tell = right.rewritten tell →
      Alike tell (.ok (.message id left found)) (.ok (.message id right present))

/-- The model `two` is that of the derivation but for comments, of which the same is read. -/
structure ReadsAlike (derivation : Derivation) (tell : String → String) (two : Model) : Prop where
  comments {left right : String} : tell left = tell right →
    derivation.settings.readComment left = derivation.settings.readComment right
  model : derivation.model.rewritten tell = two.rewritten tell

section

variable {derivation : Derivation} {field other : Field} (reads : derivation.ReadsAlike tell two)

include reads

theorem enumSchema_withModel {enum other : Enum} (same : enum.rewritten tell = other.rewritten tell) :
    (derivation.withModel two).enumSchema other = derivation.enumSchema enum := by
  obtain ⟨comment, rfl, told⟩ := enum.exists_comment same
  exact enumSchema_congr (congrArg (·.description) (reads.comments told).symm)

theorem objectOf_withModel (same : message.rewritten tell = counterpart.rewritten tell) :
    (derivation.withModel two).objectOf counterpart = derivation.objectOf message := by
  obtain ⟨comment, fields, rfl, told, -⟩ := message.exists_comments same
  unfold objectOf
  rw [reads.comments told]
  rfl

/-! ## Fields -/

theorem declaredType_withModel (same : field.rewritten tell = other.rewritten tell) (declaration : String) :
    DeclaredType.Alike tell (derivation.declaredType declaration field)
      ((derivation.withModel two).declaredType declaration other) := by
  obtain ⟨comment, rfl, -⟩ := field.exists_comment same
  unfold declaredType withModel
  dsimp only
  cases scalar : field.kind.scalar? derivation.settings.nativeIntegers with
  | some schema => exact .scalar schema
  | none =>
      -- What is left names a type: an enum, or a message in one of two ways.
      rcases FieldKind.namesType_of_scalar?_none scalar with named | named | named
      all_goals
        rw [named]
        rcases field.link with _ | target | target
        all_goals try exact .failure _
      · have enums := Model.enum?_rewritten reads.model target
        dsimp only
        cases found : derivation.model.enum? target with
        | none => rw [eq_none_of_map_eq enums found]; exact .failure _
        | some enum =>
            obtain ⟨other, present, alike⟩ := exists_of_map_eq enums found
            rw [present]
            exact .enum alike
      all_goals
        have messages := Model.message?_rewritten reads.model target
        dsimp only
        split
        · rename_i message found
          obtain ⟨other, present, alike⟩ := exists_of_map_eq messages found
          split
          · rename_i counterpart shown
            cases shown.symm.trans present
            exact .message found shown alike
          · rename_i missing
            cases missing.symm.trans present
        · rename_i missing
          split
          · rename_i counterpart shown
            cases (eq_none_of_map_eq messages missing).symm.trans shown
          · exact .failure _

theorem exists_declaredType_withModel {declaration : String}
    {found : derivation.model.message? id = some message}
    (same : field.rewritten tell = other.rewritten tell)
    (named : derivation.declaredType declaration field = .ok (.message id message found)) :
    ∃ counterpart present,
      (derivation.withModel two).declaredType declaration other = .ok (.message id counterpart present) ∧
        message.rewritten tell = counterpart.rewritten tell := by
  have alike := declaredType_withModel reads same declaration
  rw [named] at alike
  generalize (derivation.withModel two).declaredType declaration other = declared at alike ⊢
  cases alike with
  | message found present alike => exact ⟨_, present, rfl, alike⟩

theorem typeOutline_withModel (same : field.rewritten tell = other.rewritten tell) (maps : List Nat)
    (declaration description : String) (referenceAllowed : Bool) :
    (derivation.withModel two).typeOutline maps declaration description referenceAllowed other =
      derivation.typeOutline maps declaration description referenceAllowed field := by
  have catalog : (derivation.withModel two).catalog = derivation.catalog := rfl
  fun_induction typeOutline derivation maps declaration description referenceAllowed field
      generalizing other with
  | case1 maps declaration description referenceAllowed field failure unresolved =>
      have declared := declaredType_withModel reads same declaration
      rw [unresolved] at declared
      generalize shown : (derivation.withModel two).declaredType declaration other = result at declared
      cases declared
      rw [typeOutline, shown]
  | case2 maps declaration description referenceAllowed field schema scalar =>
      have declared := declaredType_withModel reads same declaration
      rw [scalar] at declared
      generalize shown : (derivation.withModel two).declaredType declaration other = result at declared
      cases declared
      rw [typeOutline, shown, Field.repeated_of_rewritten same]
  | case3 maps declaration description referenceAllowed field enum named =>
      have declared := declaredType_withModel reads same declaration
      rw [named] at declared
      generalize shown : (derivation.withModel two).declaredType declaration other = result at declared
      cases declared with
      | enum alike =>
          rw [typeOutline, shown, Field.repeated_of_rewritten same]
          simp only [enumSchema_withModel reads alike]
  | case4 maps declaration description referenceAllowed field id message found named schema listed =>
      obtain ⟨counterpart, present, shown, alike⟩ := exists_declaredType_withModel reads same named
      rw [typeOutline, shown, Field.repeated_of_rewritten same]
      simp only [catalog, Message.absoluteName_of_rewritten alike, listed]
  | case5 maps declaration description referenceAllowed field id message found named unlisted entry
      missing =>
      obtain ⟨counterpart, present, shown, alike⟩ := exists_declaredType_withModel reads same named
      have none := eq_none_of_map_eq (Message.getElem?_of_rewritten alike 1) missing
      rw [typeOutline, shown]
      simp only [catalog, Message.absoluteName_of_rewritten alike, Message.mapEntry_of_rewritten alike,
        unlisted, entry, none, if_true]
  | case6 maps declaration description referenceAllowed field id message found named unlisted entry
      value second visited =>
      obtain ⟨counterpart, present, shown, alike⟩ := exists_declaredType_withModel reads same named
      obtain ⟨value, likewise, -⟩ := exists_of_map_eq (Message.getElem?_of_rewritten alike 1) second
      rw [typeOutline, shown]
      simp only [catalog, Message.absoluteName_of_rewritten alike, Message.mapEntry_of_rewritten alike,
        unlisted, entry, likewise, visited, if_true, dif_pos]
  | case7 maps declaration description referenceAllowed field id message found named unlisted entry
      value second fresh _ reading =>
      rename_i ih
      obtain ⟨counterpart, present, shown, alike⟩ := exists_declaredType_withModel reads same named
      obtain ⟨likewise, held, values⟩ := exists_of_map_eq (Message.getElem?_of_rewritten alike 1) second
      obtain ⟨comment, rfl, told⟩ := value.exists_comment values
      have read : (derivation.withModel two).settings.readComment comment =
          derivation.settings.readComment value.comment := (reads.comments told).symm
      rw [typeOutline.eq_def (derivation.withModel two), shown]
      simp only [catalog, Message.absoluteName_of_rewritten alike, Message.mapEntry_of_rewritten alike,
        unlisted, entry, held, fresh, if_true, dif_neg, not_false_eq_true, read]
      exact congrArg _ (ih values)
  | case8 maps declaration description referenceAllowed field id message found named unlisted plain =>
      obtain ⟨counterpart, present, shown, alike⟩ := exists_declaredType_withModel reads same named
      rw [typeOutline, shown, Field.repeated_of_rewritten same]
      simp only [catalog, Message.absoluteName_of_rewritten alike, Message.mapEntry_of_rewritten alike,
        unlisted, plain, Bool.false_eq_true, if_false]

theorem fieldOutline_withModel (same : field.rewritten tell = other.rewritten tell) (owner : String) :
    (derivation.withModel two).fieldOutline owner other = derivation.fieldOutline owner field := by
  have typed := typeOutline_withModel reads same []
  obtain ⟨comment, rfl, told⟩ := field.exists_comment same
  have read : (derivation.withModel two).settings.readComment comment =
      derivation.settings.readComment field.comment := (reads.comments told).symm
  unfold fieldOutline
  dsimp only
  rw [read]
  simp only [typed]
  rfl

theorem completed_withModel (same : field.rewritten tell = other.rewritten tell) (owner : String)
    (outline : Outline) (slot : Slot Schema) :
    (derivation.withModel two).completed owner other outline slot =
      derivation.completed owner field outline slot := by
  obtain ⟨comment, rfl, told⟩ := field.exists_comment same
  have read : (derivation.withModel two).settings.readComment comment =
      derivation.settings.readComment field.comment := (reads.comments told).symm
  unfold completed
  rw [read]
  rfl

/-! ## Messages -/

variable {resolve : Resolver}

theorem property_withModel (same : field.rewritten tell = other.rewritten tell) (owner : String) :
    (derivation.withModel two).property resolve owner other = derivation.property resolve owner field := by
  rw [property_eq, property_eq, fieldOutline_withModel reads same]
  simp only [completed_withModel reads same]

theorem messageBody_withModel (same : message.rewritten tell = counterpart.rewritten tell) :
    (derivation.withModel two).messageBody resolve counterpart = derivation.messageBody resolve message := by
  have name := Message.absoluteName_of_rewritten same
  have fields : counterpart.fields.mapM ((derivation.withModel two).property resolve message.absoluteName) =
      message.fields.mapM (derivation.property resolve message.absoluteName) :=
    mapM_eq_of_map_eq (Message.fields_of_rewritten same)
      fun field other alike => property_withModel reads alike message.absoluteName
  have assembled : (derivation.withModel two).assemble counterpart = derivation.assemble message := by
    funext own properties
    rw [assemble_eq, assemble_eq, ← counterpart.exclusiveGroups_rewritten, ← same,
      message.exclusiveGroups_rewritten]
    rfl
  unfold messageBody
  simp only [name, objectOf_withModel reads same, fields, assembled]

theorem messageSlot_withModel (active : List Nat) (id : Nat) (referenceAllowed : Bool) :
    (derivation.withModel two).messageSlot active id referenceAllowed =
      derivation.messageSlot active id referenceAllowed := by
  have messages := Model.message?_rewritten reads.model
  fun_induction messageSlot derivation active id referenceAllowed with
  | case1 active id referenceAllowed missing =>
      rw [messageSlot]
      split
      · rfl
      · rename_i counterpart present
        cases (eq_none_of_map_eq (messages id) missing).symm.trans present
  | case2 active id referenceAllowed message found pointed =>
      obtain ⟨counterpart, present, alike⟩ := exists_of_map_eq (messages id) found
      rw [messageSlot_eq present, Message.absoluteName_of_rewritten alike]
      exact if_pos pointed
  | case3 active id referenceAllowed message found apart entered =>
      obtain ⟨counterpart, present, alike⟩ := exists_of_map_eq (messages id) found
      rw [messageSlot_eq present, Message.absoluteName_of_rewritten alike]
      exact (if_neg apart).trans (if_pos entered)
  | case4 active id referenceAllowed message found apart entered _ ih =>
      obtain ⟨counterpart, present, alike⟩ := exists_of_map_eq (messages id) found
      have slots : (derivation.withModel two).messageSlot (id :: active) =
          derivation.messageSlot (id :: active) :=
        funext fun target => funext fun allowed => ih target allowed
      rw [messageSlot_eq present]
      refine ((if_neg apart).trans (if_neg entered)).trans ?_
      rw [messageBody_withModel reads alike, slots]

theorem messageSchema_withModel (id : Nat) :
    (derivation.withModel two).messageSchema id = derivation.messageSchema id := by
  have messages := Model.message?_rewritten reads.model id
  have slots : (derivation.withModel two).messageSlot [id] = derivation.messageSlot [id] :=
    funext fun target => funext fun allowed => messageSlot_withModel reads [id] target allowed
  unfold messageSchema
  cases found : derivation.model.message? id with
  | none =>
      have missing : (derivation.withModel two).model.message? id = none := eq_none_of_map_eq messages found
      rw [missing]
  | some message =>
      obtain ⟨counterpart, present, alike⟩ := exists_of_map_eq messages found
      have shown : (derivation.withModel two).model.message? id = some counterpart := present
      rw [shown, slots]
      simp only [Message.mapEntry_of_rewritten alike, messageBody_withModel reads alike]

theorem called_withModel (call : Call) : (derivation.withModel two).called call = derivation.called call := by
  cases call with
  | message id => exact messageSchema_withModel reads id
  | enum id =>
      have enums := Model.enum?_rewritten reads.model id
      have schema : (two.enum? id).map (derivation.withModel two).enumSchema =
          (derivation.model.enum? id).map derivation.enumSchema := by
        cases found : derivation.model.enum? id with
        | none => rw [eq_none_of_map_eq enums found]; rfl
        | some enum =>
            obtain ⟨other, present, alike⟩ := exists_of_map_eq enums found
            rw [present, Option.map_some, enumSchema_withModel reads alike, Option.map_some]
      exact congrArg pure schema

theorem replies_withModel (calls : List Call) (session : Session) :
    (derivation.withModel two).replies calls session = derivation.replies calls session := by
  induction calls generalizing session with
  | nil => rfl
  | cons call calls ih => rw [replies_cons, replies_cons, called_withModel reads, ih]

end

/-- The document has the same components, whatever its declarations say in comments. -/
theorem ofUnit_withModel (settings : Settings) (unit : List Nat)
    (same : one.rewritten tell = two.rewritten tell) :
    (ofUnit one settings unit).withModel two = ofUnit two settings unit := by
  have components : (ofUnit one settings unit).components = (ofUnit two settings unit).components := by
    refine List.filter_congr fun id _ => ?_
    have outermost (model : Model) : (model.message? id).any (·.parent.isNone) =
        ((model.message? id).map (Message.rewritten tell)).any (·.parent.isNone) := by
      cases model.message? id <;> rfl
    rw [outermost one, outermost two, Model.message?_rewritten same id]
  unfold withModel
  rw [components]
  rfl

/-- Where directives are ignored, models that are equal but for comments, and of whose comments the same
is described, lead to the same replies, whatever directives the comments hold. -/
theorem replies_of_ignored {settings : Settings} (ignored : settings.ignoreDirectives = true)
    (alike : one.rewritten settings.described = two.rewritten settings.described) (unit : List Nat)
    (calls : List Call) (session : Session) :
    (ofUnit one settings unit).replies calls session = (ofUnit two settings unit).replies calls session := by
  have reads : (ofUnit one settings unit).ReadsAlike settings.described two :=
    { comments := settings.readComment_of_ignored ignored, model := alike }
  rw [← ofUnit_withModel settings unit alike]
  exact (replies_withModel reads calls session).symm

end Derivation

/-- The orchard under directives: one is no number, one does not fit what it is written on, and one keeps
a field from pointing at a tree where it is heeded. -/
def Model.directedOrchard : Model :=
  .ofMessages
    [{ Message.holding "Orchard"
        [{ Field.holding "oldest" 2 with
            comment := " +kubebuilder:validation:Required\n" }, .holding "trees" 1] with
        comment := " +kubebuilder:validation:MaxProperties=many\n" },
      .mapTo 0 2,
      .holding "Tree" [{ Field.ofKind "name" .string none with
        comment := " +kubebuilder:validation:Maximum=3\n" }]]

theorem Derivation.replies_of_ignored_orchard :
    Model.orchard ≠ Model.directedOrchard ∧
      (ofUnit .orchard { useRef := true, ignoreDirectives := true } [0, 2]).replies
          [.message 0, .message 2, .message 0] {} =
        (ofUnit .directedOrchard { useRef := true, ignoreDirectives := true } [0, 2]).replies
          [.message 0, .message 2, .message 0] {} ∧
      ∃ schema, .ok (some schema) ∈
        (ofUnit .directedOrchard { useRef := true, ignoreDirectives := true } [0, 2]).replies
          [.message 0, .message 2, .message 0] {} := by
  obtain ⟨schema, ended⟩ := exists_of_isSome
    (show (((ofUnit .directedOrchard { useRef := true, ignoreDirectives := true } [0, 2]).called
      (.message 0)).runFrom {}).1.toOption.join.isSome = true by decide +kernel)
  refine ⟨by decide +kernel, replies_of_ignored rfl (by decide +kernel) _ _ {}, schema, ?_⟩
  rw [replies_cons, ended]
  exact List.mem_cons_self

end ProtoSchema
