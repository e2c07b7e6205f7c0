import ProtoSchema.Proofs.Components
import ProtoSchema.Proofs.Widening
import ProtoSchema.Proofs.Writing

/-!
The order of the files of a request, and files that no document is for. Documents are planned and
written in the order of names, so they are the same under other numbers; and other numbers are all that
changes when files come in another order or among further ones.
-/
namespace ProtoSchema

section

variable {numbers : Renumbering} {one two : Model}

/-! ## Plans under other numbers -/

theorem Derivation.mirrors_ofUnit (embeds : one.Embeds numbers two) (settings : Settings) (unit : List Nat) :
    (ofUnit one settings unit).Mirrors id numbers
      (ofUnit two settings (unit.map numbers.message)) where
  silent := rfl
  embeds := embeds
  registry := rfl
  catalog := rfl
  listed _ schema _ := schema.redescribed_id
  components id := by
    have top : (two.message? (numbers.message id)).any (·.parent.isNone) =
        (one.message? id).any (·.parent.isNone) := by
      rw [embeds.message]
      cases one.message? id with
      | none => rfl
      | some message => exact Option.isNone_map
    unfold ofUnit
    rw [List.mem_filter, List.mem_filter, List.mem_map_of_injective numbers.injective, top]
  useRef := rfl
  nativeIntegers := rfl
  enumAsIntOrString := rfl
  protoOneof := rfl
  comments _ := rfl

namespace Plan

def renumbered (numbers : Renumbering) (plan : Plan) : Plan :=
  { plan with
    messages := Entries.mapValues numbers.message plan.messages
    enums := Entries.mapValues numbers.enum plan.enums }

theorem byName_renumbered {α : Type} {change : Nat → Nat} {adapt : α → α} {find? other? : Nat → Option α}
    {nameOf : α → String} (embeds : ∀ id, other? (change id) = (find? id).map adapt)
    (named : ∀ declared, nameOf (adapt declared) = nameOf declared) (ids : List Nat) :
    byName ((ids.map change).filterMap fun id =>
        (other? id).map fun declared => (nameOf declared, id)) =
      Entries.mapValues change (byName (ids.filterMap fun id =>
        (find? id).map fun declared => (nameOf declared, id))) := by
  unfold byName
  rw [Entries.mapValues_foldl_putSorted]
  congr 1
  rw [List.filterMap_map, Entries.mapValues, List.map_filterMap]
  congr 1
  funext id
  simp only [Function.comp_apply, embeds]
  cases find? id with
  | none => rfl
  | some declared => exact congrArg (fun name => some (name, change id)) (named declared)

theorem ofFiles_renumbered (embeds : one.Embeds numbers two) (label title version : String)
    (files : List File) :
    ofFiles two label title version (files.map (File.renumbered numbers)) =
      (ofFiles one label title version files).renumbered numbers := by
  have messages : (files.map (File.renumbered numbers)).flatMap (·.messages) =
      (files.flatMap (·.messages)).map numbers.message := by
    rw [List.flatMap_map, List.map_flatMap]
    rfl
  have enums : (files.map (File.renumbered numbers)).flatMap (·.enums) =
      (files.flatMap (·.enums)).map numbers.enum := by
    rw [List.flatMap_map, List.map_flatMap]
    rfl
  have services : (files.map (File.renumbered numbers)).flatMap (·.services) =
      files.flatMap (·.services) := by
    rw [List.flatMap_map]
    rfl
  unfold ofFiles renumbered
  rw [messages, enums, services, byName_renumbered embeds.message fun _ => rfl,
    byName_renumbered embeds.enum fun _ => rfl]

theorem all_renumbered (embeds : one.Embeds numbers two) (settings : Settings) (files : List File) :
    Plan.all two settings (files.map (File.renumbered numbers)) =
      (Plan.all one settings files).map (Plan.renumbered numbers) := by
  unfold Plan.all
  cases settings.grouping with
  | singleFile => exact congrArg (fun plan => [plan]) (ofFiles_renumbered embeds _ _ _ files)
  | perFile =>
      dsimp only
      rw [List.map_map, List.map_map]
      exact List.map_congr_left fun file _ => ofFiles_renumbered embeds _ _ _ [file]
  | perPackage =>
      dsimp only
      have packages : (files.map (File.renumbered numbers)).map (·.package) = files.map (·.package) := by
        rw [List.map_map]
        rfl
      rw [packages, List.map_filterMap]
      congr 1
      funext package
      have group : (files.map (File.renumbered numbers)).filter (·.package = package) =
          (files.filter (·.package = package)).map (File.renumbered numbers) := by
        rw [List.filter_map]
        rfl
      rw [group]
      cases files.filter (·.package = package) with
      | nil => rfl
      | cons first rest =>
          exact congrArg some (ofFiles_renumbered embeds _ _ _ (first :: rest))

/-- A plan under other numbers has the derivation of the plan, under these numbers. -/
theorem mirrors_renumbered (embeds : one.Embeds numbers two) (settings : Settings) (plan : Plan) :
    (plan.derivation one settings).Mirrors id numbers
      ((plan.renumbered numbers).derivation two settings) := by
  have listed : (plan.renumbered numbers).messages.map (·.2) =
      (plan.messages.map (·.2)).map numbers.message := by
    unfold renumbered Entries.mapValues
    rw [List.map_map, List.map_map]
    rfl
  unfold derivation
  rw [listed]
  exact Derivation.mirrors_ofUnit embeds settings _

end Plan

/-! ## Components under other numbers -/

namespace Derivation

variable {tell : String → String} {one two : Derivation} (mirrors : one.Mirrors tell numbers two)

include mirrors

theorem messageComponents_renumbered (plan : Plan) :
    Carries (Session.renumbered tell numbers) (Entries.mapValues (Schema.redescribed tell))
      (one.messageComponents plan) (two.messageComponents (plan.renumbered numbers)) := by
  have component (entry : String × Nat) :
      Carries (Session.renumbered tell numbers)
        (Option.map fun shown => (shown.1, shown.2.redescribed tell)) (one.componentOf entry)
        (two.componentOf (entry.1, numbers.message entry.2)) := by
    refine (messageSchema_renumbered mirrors entry.2).map fun answer => ?_
    cases answer <;> rfl
  have topLevel : ((plan.renumbered numbers).messages.filter fun entry => entry.2 ∈ two.components) =
      (plan.messages.filter fun entry => entry.2 ∈ one.components).map fun entry =>
        (entry.1, numbers.message entry.2) := by
    unfold Plan.renumbered Entries.mapValues
    rw [List.filter_map]
    congr 1
    refine List.filter_congr fun entry _ => ?_
    exact decide_eq_decide.2 (mirrors.components entry.2)
  rw [messageComponents_eq, messageComponents_eq, topLevel]
  refine (Carries.mapM fun entry _ => component entry).map fun found => ?_
  rw [Entries.mapValues, List.map_filterMap, List.filterMap_map]
  rfl

theorem enumComponents_renumbered (plan : Plan) :
    two.enumComponents (plan.renumbered numbers) =
      Entries.mapValues (Schema.redescribed tell) (one.enumComponents plan) := by
  unfold enumComponents Plan.renumbered Entries.mapValues
  rw [List.filterMap_map, List.map_filterMap]
  congr 1
  funext entry
  simp only [Function.comp_apply, mirrors.embeds.enum]
  cases one.model.enum? entry.2 with
  | none => rfl
  | some enum =>
      simp only [Option.map_some, enumSchema_renumbered mirrors]
      cases parent : enum.parent with
      | none => simp [Enum.renumbered, Declaration.renumbered, parent]
      | some owner => simp [Enum.renumbered, Declaration.renumbered, parent]

theorem componentSchemas_renumbered (plan : Plan) :
    Carries (Session.renumbered tell numbers) (Entries.mapValues (Schema.redescribed tell))
      (one.componentSchemas plan) (two.componentSchemas (plan.renumbered numbers)) := by
  refine (messageComponents_renumbered mirrors plan).bind fun messages => .pure ?_
  rw [Entries.mapValues_foldl_putSorted, enumComponents_renumbered mirrors]

end Derivation

/-- A computation that ends the same and reports the same, from its start, is the same from there. -/
theorem Deriving.fromStart_congr {α : Type} {one two : Deriving α}
    (ends : (two.runFrom {}).1 = (one.runFrom {}).1)
    (reports : (two.runFrom {}).2.events = (one.runFrom {}).2.events) :
    fromStart two = fromStart one := by
  have opened (derived : Deriving α) : fromStart derived =
      ((derived.runFrom {}).2.events.forM ProtoSchema.report >>= fun _ =>
        liftExcept (derived.runFrom {}).1) := rfl
  rw [opened, opened, ends, reports]

theorem Plan.write_renumbered (embeds : one.Embeds numbers two) (settings : Settings) (plan : Plan) :
    (plan.renumbered numbers).write two settings = plan.write one settings := by
  have ran : (((plan.renumbered numbers).derivation two settings).componentSchemas
      (plan.renumbered numbers)).runFrom {} = _ :=
    Derivation.componentSchemas_renumbered (plan.mirrors_renumbered embeds settings) plan {}
  have same (result : Except Failure (List (String × Schema))) :
      result.map (Entries.mapValues (Schema.redescribed id)) = result := by
    cases result with
    | error failure => rfl
    | ok schemas => simp [Except.map, Entries.mapValues, Schema.redescribed_id]
  have schemas : Deriving.fromStart (((plan.renumbered numbers).derivation two settings).componentSchemas
      (plan.renumbered numbers)) =
        Deriving.fromStart ((plan.derivation one settings).componentSchemas plan) :=
    Deriving.fromStart_congr ((congrArg Prod.fst ran).trans (same _))
      (congrArg (fun ended => ended.2.events) ran)
  have document : (plan.renumbered numbers).document two settings = plan.document one settings := by
    unfold document
    rw [schemas]
    rfl
  unfold write
  rw [document]
  rfl

end

/-! ## Documents -/

namespace Model

variable {numbers : Renumbering} {one two : Model} {settings : Settings} {names : List String}

theorem filesNamed_renumbered
    (found : ∀ name ∈ names, two.file? name = (one.file? name).map (File.renumbered numbers)) :
    two.filesNamed names = (one.filesNamed names).map (List.map (File.renumbered numbers)) := by
  induction names with
  | nil => rfl
  | cons name rest ih =>
      rw [filesNamed_cons, filesNamed_cons, found name List.mem_cons_self,
        ih fun other later => found other (List.mem_cons_of_mem _ later)]
      cases one.file? name with
      | none => rfl
      | some file => cases one.filesNamed rest <;> rfl

theorem documents_renumbered (embeds : one.Embeds numbers two)
    (found : ∀ name ∈ names, two.file? name = (one.file? name).map (File.renumbered numbers)) :
    two.documents settings names = one.documents settings names := by
  have files := filesNamed_renumbered found
  cases known : one.filesNamed names with
  | error failure =>
      rw [known] at files
      rw [documents_of_unknown files, documents_of_unknown known]
  | ok given =>
      rw [known] at files
      rw [documents_of_known files, documents_of_known known, Plan.all_renumbered embeds, List.mapM_map]
      congr 1
      funext plan
      exact plan.write_renumbered embeds settings

/-- The documents of a request do not depend on the order of its files, nor on further files that no
document is for: the models of both requests have the same documents, or fail in the same way. -/
theorem documents_of_perm {request wider : Request} {extra : List Request.File}
    (linked : request.link = .ok one) (alsoLinked : wider.link = .ok two)
    (same : wider.files.Perm (request.files ++ extra)) (apart : one.NamesApart)
    (alsoApart : two.NamesApart) (unlisted : ∀ file ∈ extra, file.name ∉ names) :
    two.documents settings names = one.documents settings names := by
  have widens : request.Widens wider one two :=
    { links := Request.links_of_link linked
      alsoLinks := Request.links_of_link alsoLinked
      subset := fun file member => same.mem_iff.2 (List.mem_append_left _ member)
      apart
      alsoApart }
  refine documents_renumbered widens.embeds fun name listed => widens.file?_eq fun file member named => ?_
  rcases List.mem_append.1 (same.mem_iff.1 member) with known | added
  · exact known
  · exact absurd (named ▸ listed) (unlisted file added)

end Model

/-- A tree has a leaf that is declared in another file. -/
def Request.grove : Request where
  files := [
    { name := "leaf.proto"
      package := "forest"
      messages := [{ name := "Leaf" }] },
    { name := "tree.proto"
      package := "forest"
      messages := [
        { name := "Tree"
          fields := [
            { name := "leaf"
              kind := .message
              typeName := some ".forest.Leaf" }] }] }]

/-- The files of a grove the other way around, behind a bed. -/
def Request.park : Request where
  files :=
    { name := "bed.proto"
      package := "garden"
      messages := [{ name := "Bed" }]
      enums := [{ name := "Mode" }] } :: Request.grove.files.reverse

theorem Model.documents_of_perm_park :
    ∃ one two, Request.grove.link = .ok one ∧ Request.park.link = .ok two ∧ one.NamesApart ∧
      two.NamesApart ∧ one ≠ two ∧ two.documents {} ["tree.proto"] = one.documents {} ["tree.proto"] := by
  have linked : Request.grove.link = .ok (Request.grove.link.toOption.getD ⟨[], [], []⟩) := by
    rfl
  have alsoLinked : Request.park.link = .ok (Request.park.link.toOption.getD ⟨[], [], []⟩) := by
    rfl
  have apart : (Request.grove.link.toOption.getD ⟨[], [], []⟩).NamesApart := by
    unfold NamesApart
    decide +kernel
  have alsoApart : (Request.park.link.toOption.getD ⟨[], [], []⟩).NamesApart := by
    unfold NamesApart
    decide +kernel
  have same : Request.park.files.Perm (Request.grove.files ++ Request.park.files.take 1) :=
    ((List.reverse_perm _).cons _).trans (List.perm_append_singleton _ _).symm
  refine ⟨_, _, linked, alsoLinked, apart, alsoApart, by decide +kernel, ?_⟩
  exact documents_of_perm linked alsoLinked same apart alsoApart (by decide +kernel)

end ProtoSchema
