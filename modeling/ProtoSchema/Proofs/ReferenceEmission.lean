import ProtoSchema.Proofs.DirectiveSuccess
import ProtoSchema.Proofs.DocumentReferences
import ProtoSchema.Proofs.Repointing
import ProtoSchema.Proofs.Unfolding

/-!
Derivations with and without references. Two derivations for one document that differ in nothing but the
wish for references put different slots in the same places. Where every message that leads back to
itself has a component, each of these slots shows the schema of its message, so the documents unfold
alike, and one is found exactly if the other is.
-/
namespace ProtoSchema.Derivation

open Relation

/-- The derivation for the same document with another wish for references. -/
def wanting (derivation : Derivation) (useRef : Bool) : Derivation :=
  derivation.repointed derivation.components derivation.settings.grouping useRef

/-- Every message that leads back to itself has a component, and the fields that lead back carry no
directives. -/
structure CyclesShown (derivation : Derivation) : Prop where
  component : ∀ id, derivation.Inlinable id → TransGen derivation.Names id id →
    id ∈ derivation.components
  bare : ∀ id message, derivation.model.message? id = some message → message.mapEntry = false →
    ∀ field ∈ message.fields, ∀ first, derivation.FieldNames field first →
      ReflTransGen derivation.Names first id →
      (derivation.settings.readComment field.comment).directives = []

/-- Where every message has a component and no field carries directives, there is nothing to look for. -/
theorem cyclesShown_of_all {derivation : Derivation}
    (components : ∀ entry ∈ derivation.model.messages.zipIdx, entry.1.mapEntry = false →
      entry.2 ∈ derivation.components)
    (bare : ∀ message ∈ derivation.model.messages, ∀ field ∈ message.fields,
      (derivation.settings.readComment field.comment).directives = []) : derivation.CyclesShown where
  component id inlinable _ := by
    obtain ⟨message, found, plain⟩ := inlinable
    exact components (message, id) (List.mk_mem_zipIdx_iff_getElem?.2 found) plain
  bare _ message found _ field member _ _ _ := bare message (List.mem_of_getElem? found) field member

/-- The document has the schema of every message that may be pointed at. -/
def Fills (derivation : Derivation) (document : Document) : Prop :=
  ∀ target message, target ∈ derivation.components →
    derivation.model.message? target = some message → message.mapEntry = false →
    ∃ shown targets, document.schemas.lookup message.absoluteName = some shown ∧
      derivation.Renders target shown targets

variable {derivation : Derivation} {a b useRef : Bool} {one two document : Document} {depth : Nat}
  {id target : Nat} {message : Message} {field : Field} {outline : Outline} {allowed : Bool}
  {left right slot : Slot Schema} {lefts rights targets : List Nat}

/-! ## What stands for a message -/

theorem allowed_of_bare (outlined : derivation.fieldOutline message.absoluteName field = .ok outline)
    (asked : outline.content = .message target allowed)
    (bare : (derivation.settings.readComment field.comment).directives = []) : allowed = true := by
  have typed := fieldOutline_asks outlined asked
  rw [bare] at typed
  rcases typeOutline_allows typed with ⟨_, -, always⟩ | ⟨-, always⟩ <;> exact always

/-- A field that leads back to its message has room for a reference to a component. -/
theorem CyclesShown.of_back (cycles : derivation.CyclesShown)
    (found : derivation.model.message? id = some message) (plain : message.mapEntry = false)
    (member : field ∈ message.fields)
    (outlined : derivation.fieldOutline message.absoluteName field = .ok outline)
    (asked : outline.content = .message target allowed)
    (back : ReflTransGen derivation.Names target id) :
    target ∈ derivation.components ∧ allowed = true := by
  have asks : derivation.Asks message target allowed := ⟨field, member, outline, outlined, asked⟩
  obtain ⟨leads, inlinable⟩ := asks.leads found plain
  obtain ⟨first, names, onward, -⟩ := typeOutline_asks (fieldOutline_asks outlined asked)
  have bare := cycles.bare id message found plain field member first names (onward.trans back)
  exact ⟨cycles.component target inlinable (TransGen.trans_right back leads),
    allowed_of_bare outlined asked bare⟩

/-- Where no reference is allowed the schema of the message stands in its place. -/
theorem Stands.in_place (cycles : derivation.CyclesShown)
    (found : derivation.model.message? id = some message) (plain : message.mapEntry = false)
    (member : field ∈ message.fields)
    (outlined : derivation.fieldOutline message.absoluteName field = .ok outline)
    (asked : outline.content = .message target false)
    (stands : (derivation.wanting useRef).Stands id (.message target false) slot targets) :
    ∃ body inner, slot = .inline body ∧ (derivation.wanting useRef).Renders target body inner := by
  cases stands with
  | wrapped _ _ _ back => cases (cycles.of_back found plain member outlined asked back).2
  | opened _ back => cases (cycles.of_back found plain member outlined asked back).2
  | @inlined _ _ _ body _ renders => exact ⟨body, _, rfl, renders⟩

/-- Whatever stands for a message shows its schema in the document. -/
theorem Stands.shows (cycles : derivation.CyclesShown)
    (fills : (derivation.wanting useRef).Fills document)
    (found : derivation.model.message? id = some message) (plain : message.mapEntry = false)
    (member : field ∈ message.fields)
    (outlined : derivation.fieldOutline message.absoluteName field = .ok outline)
    (asked : outline.content = .message target allowed)
    (stands : (derivation.wanting useRef).Stands id (.message target allowed) slot targets) :
    ∃ body inner, document.shown? slot = some body ∧
      (derivation.wanting useRef).Renders target body inner := by
  cases stands with
  | @pointed _ _ other component known named _ =>
      obtain ⟨shown, inner, stored, renders⟩ := fills target other component known named
      refine ⟨shown, inner, ?_, renders⟩
      exact (Document.component?_componentPath other.absoluteName).trans stored
  | wrapped _ _ _ back => cases (cycles.of_back found plain member outlined asked back).2
  | opened absent back =>
      exact absurd (cycles.of_back found plain member outlined asked back).1 absent
  | @inlined _ _ _ body _ renders => exact ⟨body, _, rfl, renders⟩

/-- The messages and the fields of a derivation do not depend on the wish for references. -/
theorem renders_cases {schema : Schema}
    (renders : (derivation.wanting useRef).Renders id schema targets) :
    ∃ message own properties, derivation.model.message? id = some message ∧
      derivation.objectOf message = .ok own ∧
      (derivation.wanting useRef).RendersFields id message.absoluteName message.fields properties
        targets ∧
      schema = derivation.assemble message own properties :=
  renders.exists_fields

theorem Renders.sameKind {one two : Schema} (first : (derivation.wanting a).Renders id one lefts)
    (second : (derivation.wanting b).Renders id two rights) : one.SameKind two := by
  obtain ⟨message, own, properties, found, owned, -, rfl⟩ := renders_cases first
  obtain ⟨other, same, others, known, likewise, -, rfl⟩ := renders_cases second
  cases found.symm.trans known
  cases owned.symm.trans likewise
  have parts (properties : List Property) :
      (derivation.assemble message own properties).kind = own.kind ∧
        (derivation.assemble message own properties).items = own.items := by
    rw [assemble_eq]
    split
    · unfold Schema.withExclusive
      split <;> exact ⟨rfl, rfl⟩
    · exact ⟨rfl, rfl⟩
  refine Schema.sameKind_of_items ?_ ?_
  · rw [(parts properties).1, (parts others).1]
  · rw [(parts properties).2, (parts others).2]

/-! ## Fields -/

theorem Frame.sameKind_around (frame : Frame) {one two : Schema} (same : one.SameKind two) :
    ∃ first second, frame.around (.inline one) = .inline first ∧
      frame.around (.inline two) = .inline second ∧ first.SameKind second := by
  cases frame with
  | field repeated description =>
      cases repeated with
      | false => exact ⟨_, _, rfl, rfl, same.describedAs description⟩
      | true => exact ⟨_, _, rfl, rfl, (Schema.sameKind_arrayOf same.kind).describedAs description⟩
  | map description values => exact ⟨_, _, rfl, rfl, Schema.sameKind_mapOf.describedAs description⟩

/-- Where a field has directives, both derivations give it a schema to apply them to. -/
theorem around_sameKind (cycles : derivation.CyclesShown)
    (found : derivation.model.message? id = some message) (plain : message.mapEntry = false)
    (member : field ∈ message.fields)
    (outlined : derivation.fieldOutline message.absoluteName field = .ok outline)
    (first : (derivation.wanting a).Stands id outline.content left lefts)
    (second : (derivation.wanting b).Stands id outline.content right rights)
    (directed : (derivation.settings.readComment field.comment).directives ≠ []) :
    ∃ one two, outline.frame.around left = .inline one ∧ outline.frame.around right = .inline two ∧
      one.SameKind two := by
  cases asked : outline.content with
  | written schema =>
      rw [asked] at first second
      cases first
      cases second
      exact outline.frame.sameKind_around (.refl schema)
  | message target allowed =>
      rw [asked] at first second
      rcases typeOutline_allows (fieldOutline_asks outlined asked) with
        ⟨repeated, -, same⟩ | ⟨⟨values, framed⟩, -⟩
      · obtain rfl : allowed = false := by simpa [same] using directed
        obtain ⟨body, _, rfl, renders⟩ := first.in_place cycles found plain member outlined asked
        obtain ⟨other, _, rfl, likewise⟩ := second.in_place cycles found plain member outlined asked
        exact outline.frame.sameKind_around (renders.sameKind likewise)
      · rw [framed]
        exact ⟨_, _, rfl, rfl, Schema.sameKind_mapOf.describedAs _⟩

theorem applyToSlot_nil (slot : Slot Schema) : derivation.applyToSlot [] slot = .ok slot := by
  cases slot <;> rfl

/-- A field that has a property in one derivation has one in the other. -/
theorem completed_succeeds (cycles : derivation.CyclesShown)
    (found : derivation.model.message? id = some message) (plain : message.mapEntry = false)
    (member : field ∈ message.fields)
    (outlined : derivation.fieldOutline message.absoluteName field = .ok outline)
    (first : (derivation.wanting a).Stands id outline.content left lefts)
    (second : (derivation.wanting b).Stands id outline.content right rights) {property : Property}
    (ended : derivation.completed message.absoluteName field outline left = .ok property) :
    ∃ other, derivation.completed message.absoluteName field outline right = .ok other := by
  obtain ⟨applied, directed, rfl⟩ := exists_of_map_ok ended
  have ruled := ok_of_guilty directed
  have result : ∃ result, derivation.applyToSlot
      (derivation.settings.readComment field.comment).directives (outline.frame.around right) =
        .ok result := by
    by_cases bare : (derivation.settings.readComment field.comment).directives = []
    · rw [bare, applyToSlot_nil]
      exact ⟨_, rfl⟩
    · obtain ⟨one, two, here, there, same⟩ := around_sameKind cycles found plain member
        outlined first second bare
      rw [here] at ruled
      obtain ⟨changed, succeeds, rfl⟩ := exists_of_map_ok ruled
      obtain ⟨altered, likewise⟩ := Registry.applyAll_of_sameKind same succeeds
      rw [there, applyToSlot, likewise]
      exact ⟨_, rfl⟩
  obtain ⟨result, succeeds⟩ := result
  unfold completed
  simp only [succeeds]
  exact ⟨_, rfl⟩

/-- In both documents the schemas of a message look the same down to the depth. -/
def Alike (derivation : Derivation) (a b : Bool) (one two : Document) (depth : Nat) : Prop :=
  ∀ id left right lefts rights, derivation.Inlinable id →
    (derivation.wanting a).Renders id left lefts → (derivation.wanting b).Renders id right rights →
    one.unfolded depth (.inline left) = two.unfolded depth (.inline right)

theorem stands_alike (cycles : derivation.CyclesShown) (bare : derivation.CatalogBare)
    (fillsOne : (derivation.wanting a).Fills one) (fillsTwo : (derivation.wanting b).Fills two)
    (alike : derivation.Alike a b one two depth)
    (found : derivation.model.message? id = some message) (plain : message.mapEntry = false)
    (member : field ∈ message.fields)
    (outlined : derivation.fieldOutline message.absoluteName field = .ok outline)
    (first : (derivation.wanting a).Stands id outline.content left lefts)
    (second : (derivation.wanting b).Stands id outline.content right rights) :
    one.unfolded depth left = two.unfolded depth right := by
  cases asked : outline.content with
  | written schema =>
      rw [asked] at first second
      cases first
      cases second
      have within : schema.Within fun _ => False :=
        within_of_written (fun name schema listed => bare name schema listed _)
          (written_of_fieldOutline outlined asked)
      exact Document.unfolded_of_bare (Slot.within_inline.2 within)
  | message target allowed =>
      rw [asked] at first second
      have asks : derivation.Asks message target allowed := ⟨field, member, outline, outlined, asked⟩
      obtain ⟨body, _, shown, renders⟩ :=
        first.shows cycles fillsOne found plain member outlined asked
      obtain ⟨other, _, alsoShown, likewise⟩ :=
        second.shows cycles fillsTwo found plain member outlined asked
      rw [Document.unfolded_of_shown shown, Document.unfolded_of_shown alsoShown]
      exact alike target body other _ _ (asks.leads found plain).2 renders likewise

theorem property_agrees (cycles : derivation.CyclesShown) (bare : derivation.CatalogBare)
    (fillsOne : (derivation.wanting a).Fills one) (fillsTwo : (derivation.wanting b).Fills two)
    (alike : ∀ inner ≤ depth, derivation.Alike a b one two inner)
    (found : derivation.model.message? id = some message) (plain : message.mapEntry = false)
    (member : field ∈ message.fields)
    (outlined : derivation.fieldOutline message.absoluteName field = .ok outline)
    (first : (derivation.wanting a).Stands id outline.content left lefts)
    (second : (derivation.wanting b).Stands id outline.content right rights)
    {property other : Property}
    (ended : derivation.completed message.absoluteName field outline left = .ok property)
    (likewise : derivation.completed message.absoluteName field outline right = .ok other) :
    property.Agrees (one.unfolded depth) (two.unfolded depth) other := by
  obtain ⟨applied, directed, rfl⟩ := exists_of_map_ok ended
  obtain ⟨changed, alsoDirected, rfl⟩ := exists_of_map_ok likewise
  have ruled := ok_of_guilty directed
  have alsoRuled := ok_of_guilty alsoDirected
  have around : one.unfolded depth (outline.frame.around left) =
      two.unfolded depth (outline.frame.around right) :=
    Document.unfolded_around fun inner below =>
      stands_alike cycles bare fillsOne fillsTwo (alike inner below) found plain member outlined first second
  refine ⟨rfl, rfl, ?_⟩
  by_cases empty : (derivation.settings.readComment field.comment).directives = []
  · rw [empty, applyToSlot_nil] at ruled alsoRuled
    cases ruled
    cases alsoRuled
    exact around
  · obtain ⟨here, there, inPlace, alsoInPlace, -⟩ := around_sameKind cycles found plain member
      outlined first second empty
    rw [inPlace] at ruled around
    rw [alsoInPlace] at alsoRuled around
    obtain ⟨result, succeeds, rfl⟩ := exists_of_map_ok ruled
    obtain ⟨others, alsoSucceeds, rfl⟩ := exists_of_map_ok alsoRuled
    exact Document.unfolded_applyAll succeeds alsoSucceeds around

theorem fields_agree (cycles : derivation.CyclesShown) (bare : derivation.CatalogBare)
    (fillsOne : (derivation.wanting a).Fills one) (fillsTwo : (derivation.wanting b).Fills two)
    (alike : ∀ inner ≤ depth, derivation.Alike a b one two inner)
    (found : derivation.model.message? id = some message) (plain : message.mapEntry = false)
    {fields : List Field} (members : ∀ field ∈ fields, field ∈ message.fields)
    {properties others : List Property}
    (first : (derivation.wanting a).RendersFields id message.absoluteName fields properties lefts)
    (second : (derivation.wanting b).RendersFields id message.absoluteName fields others rights) :
    List.Forall₂ (Property.Agrees (one.unfolded depth) (two.unfolded depth)) properties others := by
  induction fields generalizing properties others lefts rights with
  | nil =>
      cases first
      cases second
      exact .nil
  | cons field rest ih =>
      cases first with
      | cons outlined stands ended later =>
        cases second with
        | cons alsoOutlined alsoStands alsoEnded alsoLater =>
            rw [wanting, fieldOutline_repointed] at outlined alsoOutlined
            cases outlined.symm.trans alsoOutlined
            have head := property_agrees cycles bare fillsOne fillsTwo alike found plain
              (members field List.mem_cons_self) outlined stands alsoStands ended alsoEnded
            exact .cons head
              (ih (fun other member => members other (List.mem_cons_of_mem field member)) later alsoLater)

/-- Two documents that hold what may be pointed at show every message alike, at every depth. -/
theorem alike (cycles : derivation.CyclesShown) (bare : derivation.CatalogBare)
    (fillsOne : (derivation.wanting a).Fills one) (fillsTwo : (derivation.wanting b).Fills two)
    (depth : Nat) : derivation.Alike a b one two depth := by
  -- A reference is followed without going deeper, and the frame of a field may go deeper any number of
  -- times before its content: all smaller depths are needed.
  induction depth using Nat.strong_induction_on with
  | _ depth ih =>
      intro id left right lefts rights inlinable first second
      cases depth with
      | zero => rfl
      | succ depth =>
          obtain ⟨message, known, plain⟩ := inlinable
          obtain ⟨message, own, properties, found, owned, fields, rfl⟩ := renders_cases first
          obtain ⟨other, same, others, alsoFound, alsoOwned, alsoFields, rfl⟩ := renders_cases second
          cases known.symm.trans found
          cases found.symm.trans alsoFound
          cases owned.symm.trans alsoOwned
          have agree := fields_agree cycles bare fillsOne fillsTwo
            (fun inner below => ih inner (Nat.lt_succ_of_le below)) found plain
            (fun _ member => member) fields alsoFields
          rw [Document.unfolded_inline, Document.unfolded_inline]
          exact congrArg _ (seen_assemble (fun _ within => Document.unfolded_of_bare within)
            (within_objectOf owned) agree)

/-! ## Success -/

theorem exists_of_rendersFields {fields : List Field} {properties : List Property} {owner : String}
    (renders : (derivation.wanting useRef).RendersFields id owner fields properties targets)
    (member : field ∈ fields) :
    ∃ outline slot inner property, derivation.fieldOutline owner field = .ok outline ∧
      (derivation.wanting useRef).Stands id outline.content slot inner ∧
      derivation.completed owner field outline slot = .ok property := by
  obtain ⟨outline, slot, inner, property, outlined, stands, ended, -⟩ := renders.exists_property member
  rw [wanting, fieldOutline_repointed] at outlined
  exact ⟨outline, slot, inner, property, outlined, stands, ended⟩

/-- The fields of a message that one derivation renders all end well in the other one. -/
theorem property_succeeds (cycles : derivation.CyclesShown) {schema : Schema}
    (renders : (derivation.wanting a).Renders id schema lefts)
    (found : derivation.model.message? id = some message) (plain : message.mapEntry = false)
    {answer : Answer}
    (stands : ∀ target allowed ended, answer target allowed ended → ∃ slot targets, ended = .ok slot ∧
      (derivation.wanting b).Stands id (.message target allowed) slot targets)
    (member : field ∈ message.fields) {ended : Except Failure Property}
    (property : (derivation.wanting b).PropertyFrom answer message.absoluteName field ended) :
    ∃ value, ended = .ok value := by
  obtain ⟨other, own, properties, same, -, fields, -⟩ := renders_cases renders
  cases found.symm.trans same
  obtain ⟨outline, slot, inner, filled, outlined, first, completed⟩ :=
    exists_of_rendersFields fields member
  rcases propertyFrom_iff.1 property with ⟨failure, failed, -⟩ | ⟨_, result, same, answered, rfl⟩
  · rw [wanting, fieldOutline_repointed, outlined] at failed
    cases failed
  · rw [wanting, fieldOutline_repointed, outlined] at same
    cases same
    have second : ∃ slot targets, result = .ok slot ∧
        (derivation.wanting b).Stands id outline.content slot targets := by
      cases asked : outline.content with
      | written schema =>
          rw [asked] at answered
          exact ⟨_, _, answered, .written⟩
      | message target allowed =>
          rw [asked] at answered
          exact stands target allowed result answered
    obtain ⟨other, targets, rfl, second⟩ := second
    have succeeds := completed_succeeds cycles found plain member outlined first second completed
    exact succeeds

/-- What a message that one derivation renders asks for in the other one is rendered as well. -/
theorem Renders.asked (cycles : derivation.CyclesShown) (fills : (derivation.wanting a).Fills document)
    {schema : Schema} (renders : (derivation.wanting a).Renders id schema targets)
    (found : derivation.model.message? id = some message) (plain : message.mapEntry = false)
    (asks : (derivation.wanting b).Asks message target allowed) :
    ∃ body inner, (derivation.wanting a).Renders target body inner := by
  obtain ⟨field, member, outline, outlined, asked⟩ := asks
  obtain ⟨other, own, properties, same, -, fields, -⟩ := renders_cases renders
  cases found.symm.trans same
  obtain ⟨other, slot, inner, property, likewise, stands, -⟩ := exists_of_rendersFields fields member
  rw [wanting, fieldOutline_repointed] at outlined
  cases outlined.symm.trans likewise
  rw [asked] at stands
  obtain ⟨body, inner, -, shown⟩ := stands.shows cycles fills found plain member outlined asked
  exact ⟨body, inner, shown⟩

theorem Renders.body_succeeds (cycles : derivation.CyclesShown) {schema : Schema}
    (renders : (derivation.wanting a).Renders id schema lefts)
    (found : derivation.model.message? id = some message) (plain : message.mapEntry = false)
    {result : Except Failure Schema}
    (body : (derivation.wanting b).BodyFrom
      (fun target allowed ended => ∃ slot targets, ended = .ok slot ∧
        (derivation.wanting b).Stands id (.message target allowed) slot targets) message result) :
    ∃ schema targets, result = .ok schema ∧ (derivation.wanting b).Renders id schema targets := by
  obtain ⟨other, own, properties, same, owned, -, -⟩ := renders_cases renders
  cases found.symm.trans same
  have likewise : (derivation.wanting b).objectOf message = .ok own := owned
  rcases bodyFrom_iff.1 body with ⟨failure, failed, -⟩ | ⟨_, ended, same, sequenced, rfl⟩
  · cases likewise.symm.trans failed
  · cases likewise.symm.trans same
    obtain ⟨values, rfl⟩ := sequenced.exists_ok fun field member ended property =>
      property_succeeds cycles renders found plain (fun _ _ _ answered => answered) member property
    have standing : (derivation.wanting b).BodyFrom ((derivation.wanting b).Standing id) message
        (.ok ((derivation.wanting b).assemble message own values)) := by
      refine body.imp fun target allowed ended answered slot same => ?_
      obtain ⟨other, targets, rfl, stands⟩ := answered
      cases same
      exact ⟨targets, stands⟩
    have rendered : ∃ targets, (derivation.wanting b).Renders id
        ((derivation.wanting b).assemble message own values) targets := renders_of_bodyFrom found standing
    obtain ⟨targets, renders⟩ := rendered
    exact ⟨_, targets, rfl, renders⟩

/-- What one derivation renders, the other one renders as well. -/
def followed (cycles : derivation.CyclesShown) (fillsOne : (derivation.wanting a).Fills one)
    (b : Bool) : Account (derivation.wanting b) where
  scope id := ∃ schema targets, (derivation.wanting a).Renders id schema targets
  body id result := ∃ schema targets, result = .ok schema ∧
    (derivation.wanting b).Renders id schema targets
  answer owner id allowed result := ∃ slot targets, result = .ok slot ∧
    (derivation.wanting b).Stands owner (.message id allowed) slot targets
  closed := by
    rintro id target message allowed ⟨schema, targets, renders⟩ found plain asks
    exact renders.asked cycles fillsOne found plain asks
  derives := by
    rintro id message result ⟨schema, targets, renders⟩ found plain body
    exact renders.body_succeeds cycles found plain body
  inlines := by
    rintro owner id allowed result - ⟨schema, targets, rfl, renders⟩
    exact ⟨.inline schema, targets, rfl, .inlined renders⟩
  points _ found plain component wanted :=
    ⟨_, _, rfl, .pointed component found plain (.inl wanted)⟩
  returns _ found plain _ back := by
    obtain ⟨targets, stands⟩ := stands_returnSlot _ found plain back
    exact ⟨_, targets, rfl, stands⟩

end ProtoSchema.Derivation
