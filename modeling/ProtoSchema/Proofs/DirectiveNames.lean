import Mathlib.Data.List.Infix
import Mathlib.Data.List.Nodup
import ProtoSchema.Directive.Registry

/-!
The names of directives. A definition that fits a directive is found if every other one that fits has a
shorter name; for the built-in names, what follows a name cannot be taken for the rest of a longer one.
-/
namespace ProtoSchema

theorem Text.after?_eq_some {lead text rest : List Char} :
    Text.after? lead text = some rest ↔ text = lead ++ rest := by
  rw [after?, List.isPrefixOf?_eq_some_iff_append_eq]
  exact eq_comm

theorem Definition.argumentsIn?_eq_some {definition : Definition} {marker arguments : List Char} :
    definition.argumentsIn? marker = some arguments ↔
      marker = definition.name.toList ++ arguments ∧ ∀ c ∈ arguments.head?, c = '=' ∨ c = ':' := by
  rw [← Text.after?_eq_some, argumentsIn?]
  cases found : Text.after? definition.name.toList marker with
  | none => simp
  | some rest =>
      cases rest with
      | nil =>
          constructor
          · intro given
            cases given
            exact ⟨rfl, nofun⟩
          · rintro ⟨same, -⟩
            exact same
      | cons c rest =>
          simp only
          constructor
          · intro given
            split at given
            · rename_i sign
              cases given
              exact ⟨rfl, fun _ first => Option.some.inj first ▸ sign⟩
            · cases given
          · rintro ⟨same, signs⟩
            cases same
            exact if_pos (signs c rfl)

namespace Registry

variable {registry : Registry} {marker : List Char} {target : Target} {definition : Definition}

/-- The definition is one of those among which the directive is looked up. -/
def Fits (marker : List Char) (target : Target) (definition : Definition) : Prop :=
  definition.target = target ∧ (definition.argumentsIn? marker).isSome

/-- What the scan keeps of two definitions, the second of which is looked at. -/
def longer (marker : List Char) (target : Target) (best : Option Definition) (definition : Definition) :
    Option Definition :=
  if definition.target = target ∧ (definition.argumentsIn? marker).isSome then
    match best with
    | some known => if known.name.length ≤ definition.name.length then some definition else best
    | none => some definition
  else best

theorem foldl_longer_eq_some {best : Option Definition}
    (longest : ∀ other ∈ registry, Fits marker target other →
      other = definition ∨ other.name.length < definition.name.length)
    (shorter : ∀ known, best = some known →
      known = definition ∨ known.name.length < definition.name.length)
    (fits : Fits marker target definition)
    (ahead : best = some definition ∨ definition ∈ registry) :
    registry.foldl (longer marker target) best = some definition := by
  -- The definition is the best so far or still ahead, and nothing that fits is as long.
  induction registry generalizing best with
  | nil => simpa using ahead
  | cons other registry ih =>
      obtain ⟨here, later⟩ := List.forall_mem_cons.1 longest
      refine ih later ?_ ?_
      · intro known kept
        unfold longer at kept
        grind [Fits]
      · unfold longer
        grind [Fits]

theorem lookup_eq_some (member : definition ∈ registry) (fits : Fits marker target definition)
    (longest : ∀ other ∈ registry, Fits marker target other →
      other = definition ∨ other.name.length < definition.name.length) :
    registry.lookup marker target = some definition :=
  foldl_longer_eq_some longest nofun fits (.inr member)

theorem fits_of_lookup (found : registry.lookup marker target = some definition) :
    definition ∈ registry ∧ Fits marker target definition := by
  -- What is best so far fits at every step of the scan.
  refine List.foldlRecOn registry _ (motive := fun best => ∀ definition, best = some definition →
    definition ∈ registry ∧ Fits marker target definition) (by simp) ?_ definition found
  intro best known next member other kept
  split at kept
  · rename_i fits
    have fresh : other = next ∨ best = some other := by grind
    rcases fresh with rfl | same
    · exact ⟨member, fits⟩
    · exact known other same
  · exact known other kept

/-! ## Built-in names -/

/-- What `kubebuilder:validation:items:` is spelled like. -/
def itemsName : List Char :=
  ['k', 'u', 'b', 'e', 'b', 'u', 'i', 'l', 'd', 'e', 'r', ':', 'v', 'a', 'l', 'i', 'd', 'a', 't', 'i',
    'o', 'n', ':', 'i', 't', 'e', 'm', 's', ':']

theorem toList_itemsName : (validationLead ++ itemsLead).toList = itemsName := by
  simp [validationLead, itemsLead, itemsName]

/-- A name that is never mixed up with another name or with what stands behind it. -/
structure Clear (name : List Char) (kind : RuleKind) : Prop where
  first : ∃ rest, name = 'k' :: rest
  last : (name.getLast?.all fun c => !Text.isBlank c) = true
  noEquals : '=' ∉ name
  colons : name.count ':' ≤ 2
  colonsOfValidation : kind = .validation → name.count ':' = 2
  notItems : ¬ name <+: itemsName
  notUnderItems : ¬ itemsName <+: name

theorem clear_of_spelled {name : String} {kind : RuleKind} {spelled : List Char}
    (same : name = String.ofList spelled) (clear : Clear spelled kind) : Clear name.toList kind := by
  rw [same, String.toList_ofList]
  exact clear

theorem clear_validationRules :
    ∀ rule ∈ validationRules, Clear (validationLead ++ rule.1).toList rule.2 := by
  unfold validationRules
  repeat
    first
    | exact List.forall_mem_nil _
    | refine List.forall_mem_cons.2 ⟨clear_of_spelled String.ofList_append.symm ⟨⟨_, rfl⟩, by decide,
        by decide, by decide, by decide, by decide, by decide⟩, ?_⟩

theorem clear_fieldRules : ∀ rule ∈ fieldRules, Clear rule.1.toList rule.2 := by
  unfold fieldRules
  repeat
    first
    | exact List.forall_mem_nil _
    | refine List.forall_mem_cons.2 ⟨clear_of_spelled rfl ⟨⟨_, rfl⟩, by decide, by decide, by decide,
        by decide, by decide, by decide⟩, ?_⟩

theorem mem_builtin : definition ∈ builtin ↔
    (∃ rule ∈ validationRules, ∃ target, definition = ⟨validationLead ++ rule.1, target, rule.2⟩) ∨
      (∃ rule ∈ fieldRules, definition = ⟨rule.1, .field, rule.2⟩) ∨
      definition = ⟨"kubebuilder:pruning:PreserveUnknownFields", .type, .preserveUnknownFields⟩ := by
  simp only [builtin, List.mem_append, List.mem_map, List.mem_singleton]
  constructor
  · rintro (((⟨rule, member, rfl⟩ | ⟨rule, member, rfl⟩) | ⟨rule, member, rfl⟩) | rfl)
    · exact .inl ⟨rule, member, .field, rfl⟩
    · exact .inl ⟨rule, member, .type, rfl⟩
    · exact .inr (.inl ⟨rule, member, rfl⟩)
    · exact .inr (.inr rfl)
  · rintro (⟨rule, member, target, rfl⟩ | ⟨rule, member, rfl⟩ | rfl)
    · cases target with
      | field => exact .inl (.inl (.inl ⟨rule, member, rfl⟩))
      | type => exact .inl (.inl (.inr ⟨rule, member, rfl⟩))
    · exact .inl (.inr ⟨rule, member, rfl⟩)
    · exact .inr rfl

theorem clear_builtin (member : definition ∈ builtin) : Clear definition.name.toList definition.kind := by
  rcases mem_builtin.1 member with ⟨rule, listed, target, rfl⟩ | ⟨rule, listed, rfl⟩ | rfl
  · exact clear_validationRules rule listed
  · exact clear_fieldRules rule listed
  · exact clear_of_spelled rfl ⟨⟨_, rfl⟩, by decide, by decide, by decide, by decide, by decide, by decide⟩

theorem builtin_unique : (builtin.map fun definition => (definition.name, definition.target)).Nodup := by
  simp [builtin, validationRules, fieldRules, validationLead]

section

variable {arguments : List Char} (member : definition ∈ builtin)
  (set : ∀ c ∈ arguments.head?, c = '=' ∨ c = ':' ∧ definition.kind = .validation)

include member set

/-- Behind a name, an argument does not go on as a longer name does. -/
theorem length_le_of_append_eq {other : Definition} {more : List Char} (known : other ∈ builtin)
    (same : definition.name.toList ++ arguments = other.name.toList ++ more) :
    other.name.toList.length ≤ definition.name.toList.length := by
  -- A longer name would go on with an equals sign or with a third colon, and none does.
  obtain ⟨extra, longer, split⟩ | ⟨extra, shorter, -⟩ := List.append_eq_append_iff.1 same
  · cases extra with
    | nil => rw [longer, List.append_nil]
    | cons c extra =>
        have clear := clear_builtin known
        rw [longer] at clear
        rcases set c (by rw [split]; rfl) with rfl | ⟨rfl, validates⟩
        · exact absurd (List.mem_append_right _ List.mem_cons_self) clear.noEquals
        · have own := (clear_builtin member).colonsOfValidation validates
          have bound := clear.colons
          rw [List.count_append, List.count_cons_self, own] at bound
          omega
  · rw [shorter, List.length_append]
    exact Nat.le_add_right _ _

theorem lookup_builtin :
    builtin.lookup (definition.name.toList ++ arguments) definition.target = some definition := by
  have given : definition.argumentsIn? (definition.name.toList ++ arguments) = some arguments := by
    refine Definition.argumentsIn?_eq_some.2 ⟨rfl, fun c first => ?_⟩
    exact (set c first).imp_right And.left
  refine lookup_eq_some member ⟨rfl, by rw [given]; rfl⟩ fun other known fits => ?_
  obtain ⟨more, found⟩ := Option.isSome_iff_exists.1 fits.2
  obtain ⟨same, -⟩ := Definition.argumentsIn?_eq_some.1 found
  have bound := length_le_of_append_eq member set known same
  simp only [String.length_toList] at bound
  rcases Nat.lt_or_eq_of_le bound with shorter | equal
  · exact .inr shorter
  · have named : definition.name.toList = other.name.toList :=
      List.append_inj_left same (by simp only [String.length_toList, equal])
    have pair : (other.name, other.target) = (definition.name, definition.target) :=
      Prod.ext (String.toList_inj.1 named).symm fits.1
    exact .inl (List.inj_on_of_nodup_map builtin_unique known member pair)

end

end Registry

end ProtoSchema
