import ProtoSchema.Document.Generate
import ProtoSchema.Proofs.Deriving

/-!
Writing a plan. Whatever was reported before, the document of a plan holds the components that a
derivation finds from its start, and the file of the plan holds the text of that document.
-/
namespace ProtoSchema

variable {α β : Type}

namespace Reported

/-- How a computation ends that has these events before it, and all events after it. -/
def runFrom (reported : Reported α) (events : List Event) : Except Failure α × List Event :=
  (reported.run.run events).run

theorem runFrom_bind (reported : Reported α) (next : α → Reported β) (events : List Event) :
    runFrom (reported >>= next) events =
      match reported.runFrom events with
      | (.ok value, after) => (next value).runFrom after
      | (.error failure, after) => (.error failure, after) := by
  rw [runFrom, run_bind, ← runFrom]
  rcases reported.runFrom events with ⟨_ | _, _⟩ <;> rfl

theorem runFrom_forM_report (added events : List Event) :
    runFrom (added.forM report) events = (.ok (), events ++ added) := by
  induction added generalizing events with
  | nil =>
      rw [List.append_nil]
      rfl
  | cons event rest ih =>
      have next : runFrom ((event :: rest).forM report) events =
          runFrom (rest.forM report) (events ++ [event]) := rfl
      rw [next, ih, List.append_assoc, List.singleton_append]

/-- Where steps in a row succeed, each of them succeeds after the events of those before it. -/
theorem forall₂_of_mapM {perform : α → Reported β} {steps : List α} {values : List β}
    {events : List Event} (ended : ((steps.mapM perform).runFrom events).1 = .ok values) :
    List.Forall₂ (fun step value => ∃ now, ((perform step).runFrom now).1 = .ok value) steps values := by
  induction steps generalizing values events with
  | nil =>
      cases ended
      exact .nil
  | cons step rest ih =>
      rw [List.mapM_cons, runFrom_bind] at ended
      cases first : (perform step).runFrom events with
      | mk result after =>
          rw [first] at ended
          cases result with
          | error failure => cases ended
          | ok value =>
              simp only [runFrom_bind] at ended
              cases others : (rest.mapM perform).runFrom after with
              | mk result last =>
                  rw [others] at ended
                  cases result with
                  | error failure => cases ended
                  | ok tail =>
                      cases ended
                      exact .cons ⟨events, by rw [first]⟩ (ih (by rw [others]))

end Reported

theorem Deriving.fromStart_runFrom (derived : Deriving α) (events : List Event) :
    (fromStart derived).runFrom events =
      ((derived.runFrom {}).1, events ++ (derived.runFrom {}).2.events) := by
  have opened : (fromStart derived).runFrom events =
      Reported.runFrom ((derived.runFrom {}).2.events.forM ProtoSchema.report >>= fun _ =>
        liftExcept (derived.runFrom {}).1) events := rfl
  rw [opened, Reported.runFrom_bind, Reported.runFrom_forM_report]
  cases (derived.runFrom {}).1 <;> rfl

namespace Plan

variable {plan : Plan} {model : Model} {settings : Settings} {events : List Event}

theorem document_runFrom :
    ((plan.document model settings).runFrom events).1 =
      (((plan.derivation model settings).componentSchemas plan).runFrom {}).1.map fun schemas =>
        { title := plan.title, version := plan.version, schemas } := by
  unfold document
  rw [Reported.runFrom_bind, Deriving.fromStart_runFrom]
  cases (((plan.derivation model settings).componentSchemas plan).runFrom {}).1 <;> rfl

theorem write_runFrom :
    ((plan.write model settings).runFrom events).1 =
      ((plan.document model settings).runFrom events).1.map fun document =>
        { name := plan.fileName settings, content := document.text settings.yaml } := by
  unfold write
  rw [Reported.runFrom_bind]
  rcases (plan.document model settings).runFrom events with ⟨failure | document, after⟩
  · rfl
  · cases plan.services.isEmpty <;> rfl

end Plan

namespace Model

variable {model : Model} {settings : Settings} {names : List String}

theorem filesNamed_cons (model : Model) (name : String) (rest : List String) :
    model.filesNamed (name :: rest) =
      match model.file? name with
      | none => .error (.unknownFile name)
      | some file => (model.filesNamed rest).map (file :: ·) := by
  unfold filesNamed
  rw [List.mapM_cons]
  cases model.file? name <;> rfl

theorem documents_of_known {files : List File}
    (known : model.filesNamed names = .ok files) :
    model.documents settings names =
      (Plan.all model settings files).mapM fun plan => plan.write model settings := by
  unfold documents
  rw [known]
  rfl

theorem documents_of_unknown {failure : Failure}
    (unknown : model.filesNamed names = .error failure) :
    model.documents settings names = throw failure := by
  unfold documents
  rw [unknown]
  rfl

end Model

/-- Where all documents are written, the files are known, and each plan for them has its output. -/
theorem Model.documents_ok {model : Model} {settings : Settings} {names : List String}
    {events : List Event} {outputs : List OutputFile}
    (generated : ((model.documents settings names).runFrom events).1 = .ok outputs) :
    ∃ files, model.filesNamed names = .ok files ∧
      List.Forall₂ (fun plan output => ∃ now,
        ((plan.write model settings).runFrom now).1 = .ok output)
        (Plan.all model settings files) outputs := by
  unfold documents at generated
  cases known : model.filesNamed names with
  | error failure =>
      rw [known] at generated
      cases generated
  | ok files =>
      rw [known, Reported.runFrom_bind] at generated
      exact ⟨files, rfl, Reported.forall₂_of_mapM generated⟩

end ProtoSchema
