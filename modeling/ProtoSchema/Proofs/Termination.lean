import ProtoSchema.Proofs.Unguarded

/-!
Termination. Where no chain of entry types comes back to itself, the recursion without a guard stays
within a limit that the model alone sets: as many bodies inside each other as there are messages, and
in each of them as many links as there are entry types. Entering a message takes it from those that can
still be entered, and following an entry type takes it from those that can still follow, so what the
recursion has left grows smaller in this order.
-/
namespace ProtoSchema

theorem remaining_le (candidates visited : List Nat) : remaining candidates visited ≤ candidates.length :=
  List.length_filter_le _ _

def Model.mapEntries (model : Model) : List Nat :=
  (List.range model.messages.length).filter fun id => (model.message? id).any (·.mapEntry)

def Model.plainMessages (model : Model) : List Nat :=
  (List.range model.messages.length).filter fun id => (model.message? id).any (!·.mapEntry)

theorem Model.mem_mapEntries {model : Model} {id : Nat} {message : Message}
    (found : model.message? id = some message) (entry : message.mapEntry = true) :
    id ∈ model.mapEntries :=
  List.mem_filter.2 ⟨List.mem_range.2 (Model.lt_of_message? found), by simp [found, entry]⟩

theorem Model.mem_plainMessages {model : Model} {id : Nat} {message : Message}
    (found : model.message? id = some message) (plain : message.mapEntry = false) :
    id ∈ model.plainMessages :=
  List.mem_filter.2 ⟨List.mem_range.2 (Model.lt_of_message? found), by simp [found, plain]⟩

namespace Derivation

open Relation Limited

variable {derivation : Derivation} {active : List Nat} {links bodies : Nat}
  {within : (id : Nat) → (referenceAllowed : Bool) → Limited (Slot Schema)} {resolve : Resolver}

/-- The resolver stays within its limit for every message that a field can ask for. -/
def Resolves (derivation : Derivation) (active : List Nat)
    (within : (id : Nat) → (referenceAllowed : Bool) → Limited (Slot Schema)) (resolve : Resolver) :
    Prop :=
  ∀ id referenceAllowed, derivation.Inlinable id →
    Simulates active (within id referenceAllowed) (resolve id referenceAllowed)

/-- The chain of entry types goes on: each of those behind leads to the one that comes next. -/
def Chained (model : Model) (maps : List Nat) (field : Field) : Prop :=
  ∀ entry ∈ maps, ∀ next following, field.messageLink? = some next →
    model.message? next = some following → following.mapEntry = true →
    TransGen model.MapLink entry next

theorem Chained.next {model : Model} {maps : List Nat} {field value : Field} {id : Nat}
    {message : Message} (chained : Chained model maps field) (link : field.messageLink? = some id)
    (found : model.message? id = some message) (entry : message.mapEntry = true)
    (second : message.fields[1]? = some value) : Chained model (id :: maps) value := by
  intro other member next following nextLink nextFound nextEntry
  have step : model.MapLink id next :=
    ⟨message, value, following, found, entry, second, nextLink, nextFound, nextEntry⟩
  rcases List.mem_cons.1 member with rfl | earlier
  · exact .single step
  · exact (chained other earlier id message link found entry).tail step

theorem typeSlotWithin_simulates (mapsEnd : derivation.model.MapsEnd)
    (resolves : derivation.Resolves active within resolve) (maps : List Nat)
    (declaration description : String) (referenceAllowed : Bool) (field : Field)
    (chained : Chained derivation.model maps field)
    (enough : remaining derivation.model.mapEntries maps ≤ links) :
    Simulates active
      (derivation.typeSlotWithin within links declaration description referenceAllowed field)
      (derivation.typeSlot resolve maps declaration description referenceAllowed field) := by
  -- The guard keeps the entry types behind; here they only bound how many may still follow.
  fun_induction typeSlot derivation resolve maps declaration description referenceAllowed field
      generalizing links with
  | case1 maps declaration description referenceAllowed field failure unresolved =>
      rw [typeSlotWithin, unresolved]
      exact simulates_throw
  | case2 maps declaration description referenceAllowed field schema scalar =>
      rw [typeSlotWithin, scalar]
      exact simulates_pure
  | case3 maps declaration description referenceAllowed field enum named =>
      rw [typeSlotWithin, named]
      exact simulates_pure
  | case4 maps declaration description referenceAllowed field id message found named schema listed =>
      rw [typeSlotWithin, named]
      simp only [listed]
      exact simulates_pure
  | case5 maps declaration description referenceAllowed field id message found named unlisted entry
      missing =>
      rw [typeSlotWithin, named]
      simp only [unlisted, entry, missing, if_true]
      exact simulates_throw
  | case6 maps declaration description referenceAllowed field id message found named unlisted entry
      value second visited =>
      have link := messageLink?_of_declaredType named
      exact absurd (chained id visited id message link found entry) (mapsEnd id)
  | case7 maps declaration description referenceAllowed field id message found named unlisted entry
      value second fresh _ reading =>
      rename_i ih
      have link := messageLink?_of_declaredType named
      have fewer := remaining_cons_lt (Model.mem_mapEntries found entry) fresh
      obtain ⟨fuel, rfl⟩ : ∃ fuel, links = fuel + 1 := ⟨links - 1, by omega⟩
      rw [typeSlotWithin, named]
      simp only [unlisted, entry, second, if_true]
      exact (ih (chained.next link found entry second) (by omega)).bind fun _ => simulates_pure
  | case8 maps declaration description referenceAllowed field id message found named unlisted plain =>
      rw [typeSlotWithin, named]
      simp only [unlisted, plain, Bool.false_eq_true, if_false]
      exact (resolves id referenceAllowed ⟨message, found, by simpa using plain⟩).map

theorem propertyWithin_simulates (mapsEnd : derivation.model.MapsEnd)
    (enough : derivation.model.mapEntries.length ≤ links)
    (resolves : derivation.Resolves active within resolve) (owner : String) (field : Field) :
    Simulates active (derivation.propertyWithin within links owner field)
      (derivation.property resolve owner field) := by
  have typed (declaration description : String) (referenceAllowed : Bool) :
      Simulates active
        (derivation.typeSlotWithin within links declaration description referenceAllowed field)
        (derivation.typeSlot resolve [] declaration description referenceAllowed field) :=
    typeSlotWithin_simulates mapsEnd resolves [] declaration description referenceAllowed field
      (fun _ member => absurd member List.not_mem_nil) (Nat.le_trans (remaining_le _ _) enough)
  unfold propertyWithin property
  cases derivation.settings.readComment field.comment with
  | mk description directives =>
      refine simulates_lift.bind fun required => ?_
      refine simulates_lift.bind fun override => ?_
      cases override with
      | some override =>
          exact simulates_pure.bind fun _ => simulates_lift.bind fun _ => simulates_pure
      | none =>
          exact (typed _ _ _).bind fun _ => simulates_lift.bind fun _ => simulates_pure

theorem messageBodyWithin_simulates (mapsEnd : derivation.model.MapsEnd)
    (enough : derivation.model.mapEntries.length ≤ links) {id : Nat} {message : Message}
    (fresh : id ∉ active) (resolves : derivation.Resolves (id :: active) within resolve) :
    Simulates active (derivation.messageBodyWithin within links id message)
      (derivation.messageBody resolve message) := by
  have properties : Simulates (id :: active)
      (message.fields.mapM (derivation.propertyWithin within links message.absoluteName))
      (message.fields.mapM (derivation.property resolve message.absoluteName)) :=
    simulates_mapM fun field _ =>
      propertyWithin_simulates mapsEnd enough resolves message.absoluteName field
  unfold messageBodyWithin messageBody
  refine simulates_lift.bind fun own => ?_
  refine (properties.inside fresh).bind fun filled => ?_
  exact simulates_ofDeriving.bind fun _ => simulates_pure

theorem messageSlotWithin_resolves {schemaOf : Nat → Limited (Option Schema)}
    (calls : ∀ id message, derivation.model.message? id = some message → message.mapEntry = false →
      id ∉ active → Simulates active (schemaOf id)
        (some <$> Deriving.once id
          (derivation.messageBody (derivation.messageSlot (id :: active)) message))) :
    derivation.Resolves active (derivation.messageSlotWithin schemaOf) (derivation.messageSlot active) := by
  rintro id referenceAllowed ⟨message, found, plain⟩
  have opened (session : Session) : (get : Limited Workshop).runFrom { session, inProgress := active } =
      some (.ok { session, inProgress := active }, { session, inProgress := active }) := rfl
  unfold messageSlotWithin
  rw [messageSlot_eq found]
  simp only [found]
  split
  · exact simulates_pure
  · intro session
    rw [runFrom_bind, opened]
    by_cases entered : id ∈ active
    · simp only [entered, if_true]
      exact simulates_ofDeriving session
    · simp only [entered, if_false]
      have called := (calls id message found plain entered).bind fun schema =>
        (simulates_pure : Simulates active (pure (Slot.inline (schema.getD Schema.object))) _)
      simp only [map_eq_pure_bind, bind_assoc, pure_bind, Option.getD_some] at called ⊢
      exact called session

/-- Every message that is not in progress can be entered: one body less is left for the messages inside
it, and one message less is not in progress there. -/
theorem messageSchemaWithin_simulates (mapsEnd : derivation.model.MapsEnd)
    (enoughLinks : derivation.model.mapEntries.length ≤ links) {id : Nat} {message : Message}
    (found : derivation.model.message? id = some message) (plain : message.mapEntry = false)
    (fresh : id ∉ active) (enoughBodies : remaining derivation.model.plainMessages active ≤ bodies) :
    Simulates active (derivation.messageSchemaWithin links bodies id)
      (some <$> Deriving.once id
        (derivation.messageBody (derivation.messageSlot (id :: active)) message)) := by
  have opened (session : Session) : (get : Limited Workshop).runFrom { session, inProgress := active } =
      some (.ok { session, inProgress := active }, { session, inProgress := active }) := rfl
  -- On the limit: the message that is entered is one less to enter, and the fields of its body run
  -- within a limit of one less.
  induction bodies generalizing active id message with
  | zero =>
      have entered := remaining_cons_lt (Model.mem_plainMessages found plain) fresh
      omega
  | succ bodies ih =>
      have fewer := remaining_cons_lt (Model.mem_plainMessages found plain) fresh
      have resolves : derivation.Resolves (id :: active)
          (derivation.messageSlotWithin (derivation.messageSchemaWithin links bodies))
          (derivation.messageSlot (id :: active)) :=
        messageSlotWithin_resolves fun target message found plain fresh =>
          ih found plain fresh (by omega) fun _ => rfl
      have body : Simulates active
          (derivation.messageBodyWithin
            (derivation.messageSlotWithin (derivation.messageSchemaWithin links bodies)) links id message)
          (derivation.messageBody (derivation.messageSlot (id :: active)) message) :=
        messageBodyWithin_simulates mapsEnd enoughLinks fresh resolves
      intro session
      rw [messageSchemaWithin]
      simp only [found, plain, Bool.false_eq_true, if_false]
      rw [runFrom_bind, opened, Deriving.runFrom_map, Deriving.runFrom_once]
      cases kept : session.finished.lookup id with
      | some schema => simp only [kept]; rfl
      | none =>
          simp only [kept]
          rw [runFrom_bind, body session]
          rcases (derivation.messageBody (derivation.messageSlot (id :: active)) message).runFrom session
            with ⟨failure | schema, after⟩ <;> rfl

theorem messageSchemaWithin_eq (mapsEnd : derivation.model.MapsEnd)
    (enoughLinks : derivation.model.mapEntries.length ≤ links)
    (enoughBodies : derivation.model.plainMessages.length ≤ bodies) (id : Nat) :
    Simulates [] (derivation.messageSchemaWithin links bodies id) (derivation.messageSchema id) := by
  by_cases inlinable : derivation.Inlinable id
  · obtain ⟨message, found, plain⟩ := inlinable
    rw [messageSchema_eq_once found plain]
    exact messageSchemaWithin_simulates mapsEnd enoughLinks found plain List.not_mem_nil
      (Nat.le_trans (remaining_le _ _) enoughBodies)
  · rw [messageSchema_eq_none inlinable, messageSchemaWithin]
    cases found : derivation.model.message? id with
    | none => exact simulates_pure
    | some message =>
        cases entry : message.mapEntry with
        | true =>
            simp only [entry, if_true]
            exact simulates_pure
        | false => exact absurd ⟨message, found, entry⟩ inlinable

/-! ## The guard -/

theorem declaredType_ne_endlessMap {declaration other : String} {field : Field} :
    derivation.declaredType declaration field ≠ .error (.endlessMap other) := by
  intro ended
  unfold declaredType at ended
  split at ended
  · cases ended
  · split at ended
    · split at ended <;> cases ended
    · cases ended
    · split at ended <;> cases ended
    · cases ended

theorem typeOutline_ne_endlessMap (mapsEnd : derivation.model.MapsEnd) (maps : List Nat)
    (declaration description other : String) (referenceAllowed : Bool) (field : Field)
    (chained : Chained derivation.model maps field) :
    derivation.typeOutline maps declaration description referenceAllowed field ≠
      .error (.endlessMap other) := by
  intro ended
  fun_induction typeOutline derivation maps declaration description referenceAllowed field with
  | case1 maps declaration description referenceAllowed field failure unresolved =>
      cases ended
      exact declaredType_ne_endlessMap unresolved
  | case2 | case3 | case4 | case5 | case8 => cases ended
  | case6 maps declaration description referenceAllowed field id message found named unlisted entry
      value second visited =>
      have link := messageLink?_of_declaredType named
      exact mapsEnd id (chained id visited id message link found entry)
  | case7 maps declaration description referenceAllowed field id message found named unlisted entry
      value second fresh _ reading =>
      rename_i ih
      exact ih (chained.next (messageLink?_of_declaredType named) found entry second)
        (error_of_map ended)

/-- No message fails over a map that goes on forever. -/
def guardless (mapsEnd : derivation.model.MapsEnd) : Account derivation where
  scope _ := True
  body _ result := ∀ declaration, result ≠ .error (.endlessMap declaration)
  answer _ _ _ result := ∀ declaration, result ≠ .error (.endlessMap declaration)
  closed _ _ _ _ := trivial
  derives _ _ _ body declaration same := by
    rcases failure_of_bodyFrom (same ▸ body) with
      ⟨_, _, impossible⟩ | ⟨field, -, _, _, _, typed⟩ | ⟨target, allowed, -, answered⟩
    · cases impossible
    · exact typeOutline_ne_endlessMap mapsEnd [] _ _ _ _ field
        (fun _ member => absurd member List.not_mem_nil) typed
    · exact answered declaration rfl
  inlines _ ends declaration same := ends declaration (error_of_map same)
  points _ _ _ _ _ _ same := by cases same
  returns _ _ _ _ _ _ same := by cases same

theorem answers_ne_endlessMap (mapsEnd : derivation.model.MapsEnd) (calls : List Nat) :
    ∀ answer ∈ (derivation.answers calls {}).1, ∀ declaration,
      answer ≠ .error (.endlessMap declaration) := by
  intro answer member declaration ended
  obtain ⟨all, -⟩ := (guardless mapsEnd).answers_meet (fun _ => trivial) calls Session.holds_start
  obtain ⟨id, -, tells⟩ := exists_left_of_mem all member
  cases tells with
  | schema _ ends => exact ends declaration (error_of_map ended)
  | nothing _ => cases ended

/-- Where no chain of entry types comes back to itself, calls without a guard end within limits that
the model alone sets, with nothing in progress, and do what the calls with a guard do, whose guard
never has to step in. -/
theorem answersWithin_eq_answers {model : Model} {settings : Settings} {unit : List Nat}
    (mapsEnd : model.MapsEnd) (enoughLinks : model.mapEntries.length ≤ links)
    (enoughBodies : model.plainMessages.length ≤ bodies) (calls : List Nat) :
    (ofUnit model settings unit).answersWithin links bodies calls { session := {}, inProgress := [] } =
      some (((ofUnit model settings unit).answers calls {}).1,
        { session := ((ofUnit model settings unit).answers calls {}).2, inProgress := [] }) ∧
    ∀ answer ∈ ((ofUnit model settings unit).answers calls {}).1, ∀ declaration,
      answer ≠ .error (.endlessMap declaration) := by
  constructor
  · generalize ({} : Session) = session
    induction calls generalizing session with
    | nil => rfl
    | cons id calls ih =>
        have called : Simulates [] ((ofUnit model settings unit).messageSchemaWithin links bodies id)
            ((ofUnit model settings unit).messageSchema id) :=
          messageSchemaWithin_eq mapsEnd enoughLinks enoughBodies id
        rw [answersWithin, called session]
        simp only [Option.bind_eq_bind, Option.bind_some, ih, answers]
  · exact answers_ne_endlessMap mapsEnd calls

/-- Values of maps that are no maps themselves start no chain. -/
theorem mapsEnd_of_values {model : Model}
    (values : ∀ entry ∈ model.messages, entry.mapEntry = true → ∀ value ∈ entry.fields[1]?,
      ∀ next ∈ value.messageLink?, ∀ following ∈ model.message? next, following.mapEntry = false) :
    model.MapsEnd := by
  intro id chain
  obtain ⟨_, ⟨entry, value, following, found, isEntry, second, link, next, nextEntry⟩, -⟩ :=
    TransGen.head'_iff.1 chain
  have plain := values entry (List.mem_of_getElem? found) isEntry value second _ link following next
  rw [nextEntry] at plain
  cases plain

theorem answersWithin_eq_answers_tree :
    ∃ answers last,
      (ofUnit Model.tree {} [0, 1]).answersWithin 1 1 [0, 1, 0] { session := {}, inProgress := [] } =
        some (answers, { session := last, inProgress := [] }) := by
  have mapsEnd : Model.tree.MapsEnd := mapsEnd_of_values (by decide)
  exact ⟨_, _, (answersWithin_eq_answers mapsEnd (by decide) (by decide) [0, 1, 0]).1⟩

end Derivation

end ProtoSchema
