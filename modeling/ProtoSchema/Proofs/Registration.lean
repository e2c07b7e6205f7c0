import Mathlib.Data.List.Nodup
import ProtoSchema.Proofs.DirectiveNames

/-!
Registrations. A registry holds what was registered for each name and target last, in the order in which
the names came up first; a directive is read by the one definition with the longest name that leads it.
What is read does therefore not depend on the order of the registrations.
-/
namespace ProtoSchema

def Definition.key (definition : Definition) : String × Target := (definition.name, definition.target)

/-- The directive starts with the name of the definition, followed by its end, an equals sign or a
colon. -/
def Definition.Leads (definition : Definition) (marker : List Char) : Prop :=
  ∃ arguments, marker = definition.name.toList ++ arguments ∧ ∀ c ∈ arguments.head?, c = '=' ∨ c = ':'

theorem Definition.eq_of_key {one two : Definition} (key : one.key = two.key) (kind : one.kind = two.kind) :
    one = two := by
  cases one
  cases two
  cases key
  cases kind
  rfl

theorem Definition.leads_iff {definition : Definition} {marker : List Char} :
    definition.Leads marker ↔ (definition.argumentsIn? marker).isSome := by
  rw [Option.isSome_iff_exists]
  exact exists_congr fun arguments => argumentsIn?_eq_some.symm

/-- Of all names, only one of each length leads a directive. -/
theorem Definition.Leads.name_eq {one two : Definition} {marker : List Char} (first : one.Leads marker)
    (second : two.Leads marker) (equal : one.name.length = two.name.length) : one.name = two.name := by
  obtain ⟨arguments, rfl, -⟩ := first
  obtain ⟨others, split, -⟩ := second
  exact String.toList_inj.1 (List.append_inj_left split equal)

namespace Registry

/-- One registration after the other. -/
def registerAll (registry : Registry) (steps : List Definition) : Registry :=
  steps.foldl (fun registry step => registry.register step.name step.target step.kind) registry

/-- The kind that a name and target was given last. -/
def lastKind? (steps : List Definition) (key : String × Target) : Option RuleKind :=
  (steps.filter fun step => step.key = key).getLast?.map (·.kind)

theorem lastKind?_append (earlier later : List Definition) (key : String × Target) :
    lastKind? (earlier ++ later) key = (lastKind? later key).or (lastKind? earlier key) := by
  unfold lastKind?
  rw [List.filter_append, List.getLast?_append, Option.map_or]

theorem lastKind?_singleton (step : Definition) (key : String × Target) :
    lastKind? [step] key = if step.key = key then some step.kind else none := by
  unfold lastKind?
  rw [List.filter_singleton]
  split <;> simp_all

variable {registry : Registry} {steps : List Definition} {definition : Definition}

/-! ## The definitions -/

theorem register_cons (step known : Definition) (rest : Registry) :
    register step.name step.target step.kind (known :: rest) =
      if known.key = step.key then step :: rest
      else known :: register step.name step.target step.kind rest := by
  have key : known.key = step.key ↔ known.name = step.name ∧ known.target = step.target := Prod.ext_iff
  rw [register]
  by_cases same : known.key = step.key
  · have replaced : { known with kind := step.kind } = step := Definition.eq_of_key same rfl
    rw [if_pos (key.1 same), if_pos same, replaced]
  · rw [if_neg (mt key.2 same), if_neg same]

theorem keys_register (step : Definition) (registry : Registry) :
    (registry.register step.name step.target step.kind).map Definition.key =
      if step.key ∈ registry.map Definition.key then registry.map Definition.key
      else registry.map Definition.key ++ [step.key] := by
  induction registry with
  | nil => rfl
  | cons known rest ih =>
      rw [register_cons, List.map_cons]
      by_cases same : known.key = step.key
      · rw [if_pos same, if_pos (by rw [same]; exact List.mem_cons_self), List.map_cons, same]
      · rw [if_neg same, List.map_cons, ih]
        simp only [List.mem_cons, Ne.symm same, false_or]
        split <;> rfl

theorem mem_register (once : (registry.map Definition.key).Nodup) (step : Definition) :
    definition ∈ registry.register step.name step.target step.kind ↔
      definition = step ∨ definition ∈ registry ∧ definition.key ≠ step.key := by
  induction registry with
  | nil => simp [register]
  | cons known rest ih =>
      obtain ⟨fresh, others⟩ := List.nodup_cons.1 once
      rw [register_cons]
      by_cases same : known.key = step.key
      · have apart : definition ∈ rest → definition.key ≠ step.key := fun member again =>
          fresh (same.trans again.symm ▸ List.mem_map_of_mem member)
        rw [if_pos same]
        grind
      · rw [if_neg same]
        grind

theorem eraseDups_concat {α : Type} [BEq α] [LawfulBEq α] (earlier : List α) (last : α) :
    (earlier ++ [last]).eraseDups =
      if last ∈ earlier then earlier.eraseDups else earlier.eraseDups ++ [last] := by
  rw [List.eraseDups_append, List.removeAll, List.filter_singleton]
  split <;> simp_all [List.eraseDups_cons]

/-- The registry holds what these registrations come to. -/
structure Records (steps : List Definition) (registry : Registry) : Prop where
  once : (registry.map Definition.key).Nodup
  /-- The names and targets stand in the order in which they came up first. -/
  keys : registry.map Definition.key = (steps.map Definition.key).eraseDups
  kinds : ∀ definition, definition ∈ registry ↔ lastKind? steps definition.key = some definition.kind

theorem records_nil : Records [] [] where
  once := List.nodup_nil
  keys := rfl
  kinds definition := by simp [lastKind?]

theorem Records.register (records : Records steps registry) (step : Definition) :
    Records (steps ++ [step]) (registry.register step.name step.target step.kind) where
  once := by
    rw [keys_register]
    split
    · exact records.once
    · rename_i fresh
      exact List.nodup_append.2 ⟨records.once, List.nodup_singleton _, by grind⟩
  keys := by
    rw [keys_register, records.keys, List.map_append, List.map_singleton, eraseDups_concat]
    simp only [List.mem_eraseDups]
  kinds definition := by
    rw [mem_register records.once, records.kinds, lastKind?_append, lastKind?_singleton]
    by_cases same : step.key = definition.key
    · have settled : definition = step ↔ step.kind = definition.kind :=
        ⟨fun equal => equal ▸ rfl, fun kind => Definition.eq_of_key same.symm kind.symm⟩
      simp only [same, if_true, ne_eq, not_true_eq_false, and_false, or_false, Option.some_or,
        Option.some.injEq, settled]
    · have apart : definition ≠ step := fun equal => same (equal ▸ rfl)
      simp only [same, Ne.symm same, apart, if_false, ne_eq, not_false_eq_true, and_true, false_or,
        Option.none_or]

theorem Records.registerAll (records : Records steps registry) (later : List Definition) :
    Records (steps ++ later) (registry.registerAll later) := by
  induction later generalizing steps registry with
  | nil => rwa [List.append_nil]
  | cons step later ih =>
      have next := ih (records.register step)
      rwa [List.append_assoc] at next

theorem register_of_fresh {step : Definition} (fresh : step.key ∉ registry.map Definition.key) :
    registry.register step.name step.target step.kind = registry ++ [step] := by
  induction registry with
  | nil => rfl
  | cons known rest ih =>
      rw [List.map_cons, List.mem_cons, not_or] at fresh
      obtain ⟨apart, later⟩ := fresh
      rw [register_cons, if_neg (Ne.symm apart), ih later, List.cons_append]

/-- Where no name and target comes up again, registrations are put down as they come. -/
theorem registerAll_of_nodup {later : List Definition}
    (once : ((registry ++ later).map Definition.key).Nodup) :
    registry.registerAll later = registry ++ later := by
  induction later generalizing registry with
  | nil => exact (List.append_nil _).symm
  | cons step later ih =>
      have fresh : step.key ∉ registry.map Definition.key := by
        rw [List.map_append, List.map_cons, List.nodup_middle] at once
        exact fun known => (List.nodup_cons.1 once).1 (List.mem_append_left _ known)
      have next : (registry.register step.name step.target step.kind).registerAll later =
          registry ++ [step] ++ later := by
        rw [register_of_fresh fresh]
        exact ih (by rwa [List.append_assoc])
      rwa [List.append_assoc] at next

/-- The built-in definitions come of registrations themselves. -/
theorem registerAll_builtin : registerAll [] builtin = builtin :=
  registerAll_of_nodup builtin_unique

theorem records_start {start : Registry} (begun : start = [] ∨ start = builtin) : Records start start := by
  rcases begun with rfl | rfl
  · exact records_nil
  · have records := records_nil.registerAll builtin
    rwa [registerAll_builtin] at records

/-! ## Finding definitions -/

section

variable {marker : List Char} {target : Target}

theorem fits_iff : Fits marker target definition ↔ definition.target = target ∧ definition.Leads marker :=
  and_congr_right fun _ => Definition.leads_iff.symm

/-- The definition is the one with the longest name among those of the target that lead the directive. -/
structure Longest (registry : Registry) (marker : List Char) (target : Target) (definition : Definition) :
    Prop where
  member : definition ∈ registry
  aimed : definition.target = target
  leads : definition.Leads marker
  longest : ∀ other ∈ registry, other.target = target → other.Leads marker → other ≠ definition →
    other.name.length < definition.name.length

/-- A scan ends with nothing if it starts with nothing and nothing fits. -/
theorem foldl_longer_eq_none {best : Option Definition} :
    registry.foldl (longer marker target) best = none ↔
      best = none ∧ ∀ other ∈ registry, ¬ Fits marker target other := by
  induction registry generalizing best with
  | nil => simp
  | cons other rest ih =>
      rw [List.foldl_cons, ih, List.forall_mem_cons]
      unfold longer
      grind [Fits]

theorem length_le_of_foldl_longer {best : Option Definition}
    (found : registry.foldl (longer marker target) best = some definition) :
    (∀ known, best = some known → known.name.length ≤ definition.name.length) ∧
      ∀ other ∈ registry, Fits marker target other → other.name.length ≤ definition.name.length := by
  induction registry generalizing best with
  | nil =>
      cases found
      simp
  | cons other rest ih =>
      obtain ⟨kept, later⟩ := ih found
      unfold longer at kept
      grind [Fits]

theorem lookup_eq_none_iff : registry.lookup marker target = none ↔
    ∀ definition ∈ registry, definition.target = target → ¬ definition.Leads marker := by
  have scan : registry.lookup marker target = registry.foldl (longer marker target) none := rfl
  rw [scan, foldl_longer_eq_none]
  simp only [fits_iff, true_and, not_and]

theorem lookup_eq_some_iff (once : (registry.map Definition.key).Nodup) :
    registry.lookup marker target = some definition ↔ Longest registry marker target definition := by
  constructor
  · intro found
    obtain ⟨member, fits⟩ := fits_of_lookup found
    obtain ⟨here, leads⟩ := fits_iff.1 fits
    refine ⟨member, here, leads, fun other known there likewise apart => ?_⟩
    refine Nat.lt_of_le_of_ne ?_ fun equal => apart ?_
    · exact (length_le_of_foldl_longer found).2 other known (fits_iff.2 ⟨there, likewise⟩)
    · -- Two names of one length that lead the directive are the same.
      have key : other.key = definition.key :=
        Prod.ext (likewise.name_eq leads equal) (there.trans here.symm)
      exact List.inj_on_of_nodup_map once known member key
  · intro best
    refine lookup_eq_some best.member (fits_iff.2 ⟨best.aimed, best.leads⟩) fun other known fits => ?_
    obtain ⟨there, likewise⟩ := fits_iff.1 fits
    exact or_iff_not_imp_left.2 (best.longest other known there likewise)

end

/-! ## Reading directives -/

/-- Every directive is found and read the same. -/
structure Agree (one two : Registry) : Prop where
  lookup : ∀ marker target, one.lookup marker target = two.lookup marker target
  parse : ∀ raw target, one.parse raw target = two.parse raw target

theorem Records.agree {other : Registry} {others : List Definition} (one : Records steps registry)
    (two : Records others other) (same : ∀ key, lastKind? steps key = lastKind? others key) :
    Agree registry other := by
  have members (definition : Definition) : definition ∈ registry ↔ definition ∈ other := by
    rw [one.kinds, two.kinds, same]
  have lookup (marker : List Char) (target : Target) :
      registry.lookup marker target = other.lookup marker target := by
    refine Option.ext fun definition => ?_
    rw [lookup_eq_some_iff one.once, lookup_eq_some_iff two.once]
    constructor <;> rintro ⟨member, aimed, leads, longest⟩
    · exact ⟨(members _).1 member, aimed, leads, fun other known => longest other ((members _).2 known)⟩
    · exact ⟨(members _).2 member, aimed, leads, fun other known => longest other ((members _).1 known)⟩
  refine ⟨lookup, fun raw target => ?_⟩
  unfold parse
  simp only [lookup]

/-! ## Registrations -/

/-- The registry holds what these registrations come to, and finds every directive by the longest name. -/
structure Settled (steps : List Definition) (registry : Registry) : Prop extends Records steps registry where
  found : ∀ marker target definition,
    registry.lookup marker target = some definition ↔ Longest registry marker target definition
  missing : ∀ marker target, registry.lookup marker target = none ↔
    ∀ definition ∈ registry, definition.target = target → ¬ definition.Leads marker

/-- Registrations settle what is in a registry and how it is found. Only the kind that is given to each
name and target last decides how directives are read; the built-in definitions count as given first. -/
theorem settled_registerAll {start : Registry} (begun : start = [] ∨ start = builtin)
    (steps : List Definition) :
    Settled (start ++ steps) (start.registerAll steps) ∧
      ∀ (other : Registry) (others : List Definition), (other = [] ∨ other = builtin) →
        (∀ key, lastKind? (start ++ steps) key = lastKind? (other ++ others) key) →
        Agree (start.registerAll steps) (other.registerAll others) := by
  have records := (records_start begun).registerAll steps
  refine ⟨⟨records, ?_, ?_⟩, fun other others likewise same => ?_⟩
  · exact fun marker target definition => lookup_eq_some_iff records.once
  · exact fun marker target => lookup_eq_none_iff
  · exact records.agree ((records_start likewise).registerAll others) same

/-- A tree is registered once more after its crown, with another kind. -/
def regrown : List Definition :=
  [⟨"tree", .field, .maximum⟩, ⟨"tree:crown", .field, .pattern⟩, ⟨"tree", .field, .minimum⟩]

def grown : List Definition := [⟨"tree:crown", .field, .pattern⟩, ⟨"tree", .field, .minimum⟩]

theorem settled_registerAll_regrown :
    Settled (builtin ++ regrown) (builtin.registerAll regrown) ∧
      Agree (builtin.registerAll regrown) (builtin.registerAll grown) ∧
      (builtin.registerAll grown).lookup "tree:3".toList .field = some ⟨"tree", .field, .minimum⟩ := by
  obtain ⟨settled, agree⟩ := settled_registerAll (.inr rfl) regrown
  refine ⟨settled, agree builtin grown (.inr rfl) fun key => ?_, by decide +kernel⟩
  rw [lastKind?_append, lastKind?_append]
  congr 1
  by_cases tree : ("tree", Target.field) = key <;> by_cases crown : ("tree:crown", Target.field) = key <;>
    simp [lastKind?, regrown, grown, Definition.key, tree, crown]

end Registry

end ProtoSchema
