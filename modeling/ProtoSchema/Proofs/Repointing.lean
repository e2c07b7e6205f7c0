import ProtoSchema.Proofs.MessageGraph

/-!
Derivations that differ only in what may be pointed at. Which messages have components, whether
references are wanted and how documents are grouped has no say in a message before its fields, in the
outline of a field, or in what becomes of it once its content is known.
-/
namespace ProtoSchema

/-- The settings under another wish for references and another grouping. -/
def Settings.regrouped (settings : Settings) (grouping : Grouping) (useRef : Bool) : Settings :=
  { settings with grouping, useRef }

namespace Derivation

/-- The derivation for another document and with another wish for references. -/
def repointed (derivation : Derivation) (components : List Nat) (grouping : Grouping) (useRef : Bool) :
    Derivation :=
  { derivation with components, settings := derivation.settings.regrouped grouping useRef }

variable {derivation : Derivation} {components : List Nat} {grouping : Grouping} {useRef : Bool}

theorem typeOutline_repointed (maps : List Nat) (declaration description : String)
    (referenceAllowed : Bool) (field : Field) :
    (derivation.repointed components grouping useRef).typeOutline maps declaration description
        referenceAllowed field =
      derivation.typeOutline maps declaration description referenceAllowed field := by
  have declared (declaration : String) (field : Field) :
      (derivation.repointed components grouping useRef).declaredType declaration field =
        derivation.declaredType declaration field := rfl
  have listed (name : String) : (derivation.repointed components grouping useRef).catalog.find? name =
      derivation.catalog.find? name := rfl
  fun_induction typeOutline derivation maps declaration description referenceAllowed field with
  | case1 maps declaration description referenceAllowed field failure unresolved =>
      rw [typeOutline, declared, unresolved]
  | case2 maps declaration description referenceAllowed field schema scalar =>
      rw [typeOutline, declared, scalar]
  | case3 maps declaration description referenceAllowed field enum named =>
      rw [typeOutline, declared, named]
      rfl
  | case4 maps declaration description referenceAllowed field id message found named schema known =>
      rw [typeOutline, declared, named]
      simp only [listed, known]
  | case5 maps declaration description referenceAllowed field id message found named unlisted entry
      missing =>
      rw [typeOutline, declared, named]
      simp only [listed, unlisted, entry, missing, if_true]
  | case6 maps declaration description referenceAllowed field id message found named unlisted entry
      value second visited =>
      rw [typeOutline, declared, named]
      simp only [listed, unlisted, entry, second, visited, if_true, dif_pos]
  | case7 maps declaration description referenceAllowed field id message found named unlisted entry
      value second fresh _ reading ih =>
      rw [typeOutline, declared, named]
      simp only [listed, unlisted, entry, second, fresh, if_true, dif_neg, not_false_eq_true]
      exact congrArg _ ih
  | case8 maps declaration description referenceAllowed field id message found named unlisted plain =>
      rw [typeOutline, declared, named]
      simp only [listed, unlisted, plain, Bool.false_eq_true, if_false]

theorem fieldOutline_repointed (owner : String) (field : Field) :
    (derivation.repointed components grouping useRef).fieldOutline owner field =
      derivation.fieldOutline owner field := by
  unfold fieldOutline
  simp only [typeOutline_repointed]
  rfl

theorem property_repointed (resolve : Resolver) (owner : String) (field : Field) :
    (derivation.repointed components grouping useRef).property resolve owner field =
      derivation.property resolve owner field := by
  rw [property_eq, property_eq, fieldOutline_repointed]
  rfl

/-- The schema of a message depends on what may be pointed at through its resolver alone. -/
theorem messageBody_repointed (resolve : Resolver) (message : Message) :
    (derivation.repointed components grouping useRef).messageBody resolve message =
      derivation.messageBody resolve message := by
  have properties (owner : String) :
      (derivation.repointed components grouping useRef).property resolve owner =
        derivation.property resolve owner :=
    funext fun field => property_repointed resolve owner field
  unfold messageBody
  simp only [properties]
  rfl

end Derivation

end ProtoSchema
