import ProtoSchema.Proofs.KindConsistency
import ProtoSchema.Proofs.Renumbering

/-!
Settings for descriptions. They decide what a comment says in words, and neither which directives it
holds nor anything else of a schema: without descriptions, calls return what they return with them, the
descriptions blanked.
-/
namespace ProtoSchema

open List (Forall₂)

/-- The settings with other wishes for descriptions. -/
def Settings.describing (settings : Settings) (includeDescription multilineDescription : Bool) :
    Settings :=
  { settings with includeDescription, multilineDescription }

/-- The schema with every description blanked, its own and those below it. -/
def Schema.undescribed (schema : Schema) : Schema := schema.redescribed fun _ => ""

theorem Schema.everywhere_undescribed (schema : Schema) :
    schema.undescribed.Everywhere fun node => node.description = "" := by
  intro node contains
  generalize blank : schema.undescribed = whole at contains
  induction contains generalizing schema with
  | self =>
      rw [← blank, undescribed, redescribed_eq]
      rfl
  | inside member _ ih =>
      rw [← blank, undescribed, slots_redescribed] at member
      obtain ⟨slot, -, same⟩ := List.mem_map.1 member
      cases slot with
      | reference path => cases same
      | inline inner => exact ih inner (Slot.inline.inj same)

/-- Only the words of a comment depend on the wishes for descriptions, and without descriptions there
are none. -/
theorem Settings.readComment_describing (settings : Settings) (describe multiline other : Bool)
    (comment : String) :
    (settings.describing false other).readComment comment =
      { (settings.describing describe multiline).readComment comment with description := "" } := by
  have read : (settings.describing false other).commentPolicy.read comment =
      { (settings.describing describe multiline).commentPolicy.read comment with
        description := "" } := rfl
  unfold readComment
  rw [read]
  change (if settings.ignoreDirectives then _ else _) = _
  change _ = { (if settings.ignoreDirectives then _ else _ : Comment.Reading) with description := "" }
  cases settings.ignoreDirectives <;> rfl

namespace Derivation

variable (model : Model) (settings : Settings) (unit : List Nat)

/-- A derivation without descriptions works as one with them does. -/
theorem mirrors_undescribed (describe multiline other : Bool) :
    (ofUnit model (settings.describing describe multiline) unit).Mirrors (fun _ => "") .same
      (ofUnit model (settings.describing false other) unit) where
  silent := rfl
  embeds := .refl model
  registry := rfl
  catalog := rfl
  listed _ _ listed := Catalog.redescribed_of_withEmpty rfl listed
  components _ := Iff.rfl
  useRef := rfl
  nativeIntegers := rfl
  enumAsIntOrString := rfl
  protoOneof := rfl
  comments := settings.readComment_describing describe multiline other

/-! ## Calls for messages and enums -/

/-- A call for the schema of a message or an enum. -/
inductive Call where
  | message (id : Nat)
  | enum (id : Nat)

/-- The schema that is called for, if there is one. -/
def called (derivation : Derivation) : Call → Deriving (Option Schema)
  | .message id => derivation.messageSchema id
  | .enum id => pure ((derivation.model.enum? id).map derivation.enumSchema)

/-- One call after the other in one session; a call that fails does not end them. -/
def replies (derivation : Derivation) : List Call → Session → List (Except Failure (Option Schema))
  | [], _ => []
  | call :: calls, session =>
    let (reply, next) := (derivation.called call).runFrom session
    reply :: derivation.replies calls next

theorem replies_cons (derivation : Derivation) (call : Call) (calls : List Call) (session : Session) :
    derivation.replies (call :: calls) session =
      ((derivation.called call).runFrom session).1 ::
        derivation.replies calls ((derivation.called call).runFrom session).2 := rfl

/-- Both calls fail with one failure, or both succeed with schemas that are the same once every
description is blanked. -/
def DifferInDescriptions (one two : Except Failure (Option Schema)) : Prop :=
  one.map (Option.map Schema.undescribed) = two.map (Option.map Schema.undescribed)

def Call.renumbered (numbers : Renumbering) : Call → Call
  | .message id => .message (numbers.message id)
  | .enum id => .enum (numbers.enum id)

variable {tell : String → String} {numbers : Renumbering} {one two : Derivation}

theorem called_renumbered (mirrors : one.Mirrors tell numbers two) (call : Call) :
    Carries (Session.renumbered tell numbers) (Option.map (Schema.redescribed tell)) (one.called call)
      (two.called (call.renumbered numbers)) := by
  cases call with
  | message id => exact messageSchema_renumbered mirrors id
  | enum id =>
      refine .pure ?_
      rw [mirrors.embeds.enum id]
      cases one.model.enum? id with
      | none => rfl
      | some enum => exact congrArg some (enumSchema_renumbered mirrors enum).symm

theorem replies_renumbered (mirrors : one.Mirrors tell numbers two) (calls : List Call)
    (session : Session) :
    two.replies (calls.map (Call.renumbered numbers)) (session.renumbered tell numbers) =
      (one.replies calls session).map (Except.map (Option.map (Schema.redescribed tell))) := by
  induction calls generalizing session with
  | nil => rfl
  | cons call calls ih =>
      have ran : (two.called (call.renumbered numbers)).runFrom (session.renumbered tell numbers) =
          (((one.called call).runFrom session).1.map (Option.map (Schema.redescribed tell)),
            ((one.called call).runFrom session).2.renumbered tell numbers) :=
        called_renumbered mirrors call session
      simp only [List.map_cons, replies_cons, ran, ih]

/-- Without descriptions, calls return what they return with them, the descriptions blanked. -/
theorem replies_undescribed (describe multiline other : Bool) (calls : List Call) :
    (ofUnit model (settings.describing false other) unit).replies calls {} =
      ((ofUnit model (settings.describing describe multiline) unit).replies calls {}).map
        (Except.map (Option.map Schema.undescribed)) := by
  have same : calls.map (Call.renumbered .same) = calls := by
    refine (List.map_congr_left fun call _ => ?_).trans (List.map_id' calls)
    cases call <;> rfl
  have replies := replies_renumbered (mirrors_undescribed model settings unit describe multiline other)
    calls {}
  rw [same] at replies
  exact replies

/-- Settings that differ in their wishes for descriptions alone lead to the same failures, and to
schemas that differ in descriptions alone; where none are wished for, there are none at any depth. -/
theorem replies_describing (calls : List Call) (describe multiline : Bool) :
    Forall₂ DifferInDescriptions ((ofUnit model settings unit).replies calls {})
        ((ofUnit model (settings.describing describe multiline) unit).replies calls {}) ∧
      ∀ schema, .ok (some schema) ∈
          (ofUnit model (settings.describing false multiline) unit).replies calls {} →
        schema.Everywhere fun node => node.description = "" := by
  constructor
  · -- Both come to what is left without descriptions.
    have left : _ = ((ofUnit model settings unit).replies calls {}).map _ :=
      replies_undescribed model settings unit settings.includeDescription
        settings.multilineDescription true calls
    have right := replies_undescribed model settings unit describe multiline true calls
    have same := left.symm.trans right
    rw [← List.forall₂_eq_eq_eq, List.forall₂_map_left_iff, List.forall₂_map_right_iff] at same
    exact same
  · intro schema member
    rw [replies_undescribed model settings unit false multiline multiline] at member
    obtain ⟨reply, -, same⟩ := List.mem_map.1 member
    obtain ⟨answer, -, same⟩ := exists_of_map_ok same
    obtain ⟨other, -, rfl⟩ := Option.map_eq_some_iff.1 same
    exact other.everywhere_undescribed

end Derivation

/-- A meadow is described in two paragraphs, and its paths lead to other meadows. -/
def Model.meadow : Model where
  files := [
    { name := "meadow.proto"
      package := "forest"
      packageComment := ""
      messages := [0]
      enums := [0]
      services := [] }]
  messages := [
    { Message.holding "Meadow"
        [{ Field.holding "paths" 0 with
            repeated := true
            comment := " Ways out.\n" }] with
      comment := " A meadow.\n\n Mown.\n" }]
  enums := [
    { name := "Mode"
      dottedName := "Mode"
      package := "forest"
      file := 0
      parent := none
      comment := " Wetness.\n"
      values := ["WET", "DRY"] }]

theorem Derivation.replies_describing_meadow :
    Forall₂ DifferInDescriptions ((ofUnit Model.meadow {} [0]).replies [.message 0, .enum 0] {})
        ((ofUnit Model.meadow (Settings.describing {} true true) [0]).replies [.message 0, .enum 0] {}) ∧
      ∃ schema, .ok (some schema) ∈ (ofUnit Model.meadow (Settings.describing {} false true) [0]).replies
          [.message 0, .enum 0] {} ∧
        schema.Everywhere fun node => node.description = "" := by
  obtain ⟨differ, silent⟩ := replies_describing Model.meadow {} [0] [.message 0, .enum 0] true true
  obtain ⟨schema, ended⟩ := exists_of_isSome
    (show (((ofUnit Model.meadow (Settings.describing {} false true) [0]).called (.message 0)).runFrom
      {}).1.toOption.join.isSome = true by decide +kernel)
  have member : .ok (some schema) ∈ (ofUnit Model.meadow (Settings.describing {} false true) [0]).replies
      [.message 0, .enum 0] {} := by
    rw [replies_cons, ended]
    exact List.mem_cons_self
  exact ⟨differ, schema, member, silent schema member⟩

end ProtoSchema
