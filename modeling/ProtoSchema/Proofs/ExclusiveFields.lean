import ProtoSchema.Proofs.Mentions

/-!
Fields of which at most one may be present. `Schema.permits` reads a schema against the set of the
properties that an object has; an object is permitted by the `oneOf` and the `allOf` of a message
exactly if it has at most one field of every oneof.
-/
namespace ProtoSchema

namespace Schema

/-- Without alternatives nothing is asked; otherwise exactly one has to hold. -/
def exactlyOne (verdicts : List Bool) : Bool := verdicts.isEmpty || verdicts.count true == 1

def atLeastOne (verdicts : List Bool) : Bool := verdicts.isEmpty || verdicts.any id

mutual

/-- Whether a schema allows an object with the present properties, as far as `required` and the
keywords that combine schemas say so. What a reference points at is judged by `judged`. -/
def permits (judged present : String → Bool) : Schema → Bool
  | ⟨own, _, _, _, oneOf, anyOf, allOf, negated⟩ =>
    own.required.all present
      && exactlyOne (verdicts judged present oneOf)
      && atLeastOne (verdicts judged present anyOf)
      && (verdicts judged present allOf).all id
      && !refuted judged present negated

def slotPermits (judged present : String → Bool) : Slot Schema → Bool
  | .reference path => judged path
  | .inline schema => schema.permits judged present

def verdicts (judged present : String → Bool) : List (Slot Schema) → List Bool
  | [] => []
  | slot :: rest => slotPermits judged present slot :: verdicts judged present rest

def refuted (judged present : String → Bool) : Option (Slot Schema) → Bool
  | none => false
  | some slot => slotPermits judged present slot

end

/-- The schema reduced to the keywords that groups of exclusive fields are written in. -/
def combining (schema : Schema) : Schema := { oneOf := schema.oneOf, allOf := schema.allOf }

variable {judged present : String → Bool} {schema : Schema} {group : List String}
  {groups : List (List String)} {arms : List (Slot Schema)}

theorem verdicts_eq_map (slots : List (Slot Schema)) :
    verdicts judged present slots = slots.map (slotPermits judged present) := by
  induction slots with
  | nil => rfl
  | cons slot rest ih => rw [verdicts, ih, List.map_cons]

@[simp] theorem permits_requiring (name : String) :
    (requiring name).permits judged present = present name := by
  simp [requiring, permits, verdicts, refuted, exactlyOne, atLeastOne]

theorem permits_oneOf : Schema.permits judged present { oneOf := arms } =
    exactlyOne (verdicts judged present arms) := by
  simp [permits, verdicts, refuted, atLeastOne]

theorem permits_anyOf : Schema.permits judged present { anyOf := arms } =
    atLeastOne (verdicts judged present arms) := by
  simp [permits, verdicts, refuted, exactlyOne]

theorem permits_allOf : Schema.permits judged present { allOf := arms } =
    (verdicts judged present arms).all id := by
  simp [permits, verdicts, refuted, exactlyOne, atLeastOne]

theorem permits_negated : Schema.permits judged present { negated := some (.inline schema) } =
    !schema.permits judged present := by
  simp [permits, slotPermits, verdicts, refuted, exactlyOne, atLeastOne]

theorem verdicts_requiring (names : List String) :
    verdicts judged present (names.map fun name => .inline (requiring name)) = names.map present := by
  rw [verdicts_eq_map, List.map_map]
  exact List.map_congr_left fun name _ => permits_requiring name

theorem permits_forbidding (nonempty : group ≠ []) :
    (forbidding group).permits judged present = !group.any present := by
  rw [forbidding, permits_negated, permits_anyOf, verdicts_requiring, atLeastOne, List.isEmpty_map,
    List.isEmpty_eq_false_iff.2 nonempty, Bool.false_or, List.any_map]
  rfl

/-- The alternative that no member is present holds if none is, and every member adds one that holds
if it is present: exactly one holds if at most one member is present. -/
theorem permits_exclusiveArms (nonempty : group ≠ []) :
    Schema.permits judged present { oneOf := exclusiveArms group } = true ↔
      group.countP present ≤ 1 := by
  have counted : (group.map present).count true = group.countP present := by
    rw [List.count, List.countP_map]
    exact List.countP_congr fun name _ => by simp
  rw [permits_oneOf, exclusiveArms, verdicts, verdicts_requiring, slotPermits,
    permits_forbidding nonempty, exactlyOne, List.isEmpty_cons, Bool.false_or, beq_iff_eq,
    List.count_cons, counted]
  cases anyone : group.any present with
  | false =>
      have nobody : group.countP present = 0 := by
        rw [List.countP_eq_zero]
        simpa using anyone
      simp [nobody]
  | true =>
      have somebody : 0 < group.countP present := by
        rw [List.countP_pos_iff]
        simpa using anyone
      simp only [Bool.not_true, beq_iff_eq, Bool.false_eq_true, if_false]
      omega

/-- One group stands in `oneOf`, several stand side by side in `allOf`; both ask the same of every
group. -/
theorem permits_combining_withExclusive (oneOf : schema.oneOf = []) (allOf : schema.allOf = [])
    (nonempty : ∀ group ∈ groups, group ≠ []) :
    (schema.withExclusive groups).combining.permits judged present = true ↔
      ∀ group ∈ groups, group.countP present ≤ 1 := by
  unfold withExclusive
  split
  · rw [combining, oneOf, allOf, permits_oneOf]
    simp [verdicts, exactlyOne]
  · rename_i group
    rw [combining, allOf, permits_exclusiveArms (nonempty group (List.mem_singleton_self group)),
      List.forall_mem_singleton]
  · rw [combining, oneOf, allOf, List.nil_append, permits_allOf, verdicts_eq_map, List.all_map,
      List.all_map, List.all_eq_true]
    exact forall₂_congr fun group member => permits_exclusiveArms (nonempty group member)

end Schema

/-! ## Groups of a message -/

/-- The field belongs to a oneof, and not to one that only stands for an `optional` label. -/
def Field.inOneof (field : Field) (index : Int) : Bool :=
  !field.proto3Optional && field.oneofIndex == some index

namespace Message

variable {message : Message} {present : String → Bool}

/-- The members of all oneofs, with the index of their oneof. -/
def oneofMembers (message : Message) : List (Int × String) :=
  message.fields.filterMap fun field =>
    if field.proto3Optional then none
    else field.oneofIndex.map fun index => (index, field.wireName)

def membersOf (message : Message) (index : Int) : List String :=
  (message.oneofMembers.filter (·.1 = index)).map (·.2)

theorem mem_exclusiveGroups {group : List String} :
    group ∈ message.exclusiveGroups ↔
      ∃ index ∈ message.oneofMembers.map (·.1), message.membersOf index = group := by
  have groups : message.exclusiveGroups =
      (message.oneofMembers.map (·.1)).eraseDups.mergeSort.map message.membersOf := rfl
  rw [groups, List.mem_map]
  simp only [List.mem_mergeSort, List.mem_eraseDups]

theorem membersOf_nonempty {index : Int} (listed : index ∈ message.oneofMembers.map (·.1)) :
    message.membersOf index ≠ [] := by
  obtain ⟨entry, member, same⟩ := List.mem_map.1 listed
  have kept : entry ∈ message.oneofMembers.filter (·.1 = index) :=
    List.mem_filter.2 ⟨member, by simpa using same⟩
  exact List.ne_nil_of_mem (List.mem_map.2 ⟨entry, kept, rfl⟩)

/-- Every member of a oneof is in its own group and in no other. -/
theorem countP_membersOf (index : Int) :
    (message.membersOf index).countP present =
      message.fields.countP fun field => field.inOneof index && present field.wireName := by
  unfold membersOf oneofMembers
  induction message.fields with
  | nil => rfl
  | cons field rest ih =>
      rw [List.countP_cons, ← ih, List.filterMap_cons]
      cases optional : field.proto3Optional with
      | true => simp [Field.inOneof, optional]
      | false =>
          cases owner : field.oneofIndex with
          | none => simp [Field.inOneof, optional, owner]
          | some other =>
              by_cases same : other = index
              · simp [Field.inOneof, optional, owner, same, List.countP_cons]
              · simp [Field.inOneof, optional, owner, same]

theorem forall_exclusiveGroups_iff :
    (∀ group ∈ message.exclusiveGroups, group.countP present ≤ 1) ↔
      ∀ index, (message.fields.countP fun field =>
        field.inOneof index && present field.wireName) ≤ 1 := by
  simp only [mem_exclusiveGroups, ← countP_membersOf]
  constructor
  · intro grouped index
    by_cases listed : index ∈ message.oneofMembers.map (·.1)
    · exact grouped _ ⟨index, listed, rfl⟩
    · -- An index that no member has leaves nothing to count.
      have empty : message.oneofMembers.filter (·.1 = index) = [] := by
        refine List.filter_eq_nil_iff.2 fun entry member => ?_
        have apart : entry.1 ≠ index := fun same => listed (same ▸ List.mem_map_of_mem member)
        simpa using apart
      simp [membersOf, empty]
  · rintro each group ⟨index, -, rfl⟩
    exact each index

end Message

namespace Derivation

variable {derivation : Derivation} {id : Nat} {message : Message} {schema : Schema}
  {targets : List Nat}

/-- Before the groups are added, nothing stands in the keywords that they are written in. -/
theorem Renders.combining_eq (renders : derivation.Renders id schema targets)
    (found : derivation.model.message? id = some message)
    (emulated : derivation.settings.protoOneof = true) :
    ∃ filled : Schema, filled.oneOf = [] ∧ filled.allOf = [] ∧
      schema = filled.withExclusive message.exclusiveGroups := by
  obtain ⟨other, own, properties, same, owned, -, rfl⟩ := renders.exists_fields
  cases same.symm.trans found
  have bare := slots_eq_nil_of_objectOf owned
  simp only [Schema.slots, List.append_eq_nil_iff] at bare
  exact ⟨filled own properties, by grind [filled], by grind [filled], by
    rw [assemble_eq, emulated, if_pos rfl]⟩

/-- With oneofs described, an object has the `oneOf` and the `allOf` of a message on its side exactly
if it has at most one field of every oneof. -/
theorem permits_combining_iff {model : Model} {settings : Settings}
    (emulated : settings.protoOneof = true) {unit calls : List Nat}
    (found : model.message? id = some message)
    (ended : (((ofUnit model settings unit).messageSchema id).runFrom
      ((ofUnit model settings unit).answers calls {}).2).1 = .ok (some schema))
    (judged present : String → Bool) :
    schema.combining.permits judged present = true ↔
      ∀ index, (message.fields.countP fun field =>
        field.inOneof index && present field.wireName) ≤ 1 := by
  obtain ⟨-, targets, renders⟩ := renders_of_call ended
  obtain ⟨filled, oneOf, allOf, rfl⟩ := renders.combining_eq found emulated
  rw [← Message.forall_exclusiveGroups_iff]
  refine Schema.permits_combining_withExclusive oneOf allOf fun group member => ?_
  obtain ⟨index, listed, rfl⟩ := Message.mem_exclusiveGroups.1 member
  exact Message.membersOf_nonempty listed

end Derivation

def Field.choosing (name : String) (index : Int) : Field :=
  { Field.ofKind name .string none with oneofIndex := some index }

/-- Two oneofs whose members alternate, and two labels that stand for oneofs of their own. -/
def Model.choice : Model :=
  .ofMessages
    [.holding "Choice"
      [.choosing "x" 0, .choosing "a" 1, { Field.choosing "s" 2 with proto3Optional := true },
        .choosing "y" 0, .choosing "b" 1, { Field.choosing "t" 3 with proto3Optional := true }]]

theorem Derivation.permits_combining_iff_choice :
    ∃ schema, (((ofUnit Model.choice { protoOneof := true } [0]).messageSchema 0).runFrom
        ((ofUnit Model.choice { protoOneof := true } [0]).answers [0] {}).2).1 = .ok (some schema) ∧
      schema.combining.permits (fun _ => true) (fun name => name = "x" || name = "y") = false ∧
      ∀ judged present, schema.combining.permits judged present = true ↔
        ∀ index, ((Model.choice.messages.flatMap (·.fields)).countP fun field =>
          field.inOneof index && present field.wireName) ≤ 1 := by
  obtain ⟨schema, ended⟩ := exists_of_isSome
    (show (((ofUnit Model.choice { protoOneof := true } [0]).messageSchema 0).runFrom
      ((ofUnit Model.choice { protoOneof := true } [0]).answers [0] {}).2).1.toOption.join.isSome = true by
        decide +kernel)
  have exact := permits_combining_iff rfl rfl ended
  refine ⟨schema, ended, ?_, exact⟩
  rw [← Bool.not_eq_true, exact]
  exact fun each => absurd (each 0) (by decide)

end ProtoSchema
