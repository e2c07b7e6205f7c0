import ProtoSchema.Directive.Scanner

/-!
The argument of each rule family: nothing at all, a value behind an equals sign, or named arguments
behind a colon.
-/
namespace ProtoSchema.RuleKind

def valueOf : List Char → Except ArgumentFault (List Char)
  | '=' :: rest => .ok rest
  | _ => .error .valueMissing

def withoutArguments (rule : Rule) (arguments : List Char) : Except ArgumentFault Rule :=
  if arguments.isEmpty then .ok rule else .error (.unwantedArguments (String.ofList arguments))

/-- A flag without a value is on. -/
def readFlag (arguments : List Char) : Except ArgumentFault Bool :=
  if arguments.isEmpty then .ok true
  else do
    let text := Text.trim (← valueOf arguments)
    if text = "true".toList then .ok true
    else if text = "false".toList then .ok false
    else .error (.notBoolean (String.ofList text))

def readNumber (arguments : List Char) : Except ArgumentFault Binary64 := do
  let text := Text.trim (← valueOf arguments)
  match Binary64.ofLiteral? text with
  | some x => if x.isFinite then .ok x else .error (.notNumber (String.ofList text))
  | none => .error (.notNumber (String.ofList text))

def readCount (arguments : List Char) : Except ArgumentFault Nat := do
  let text := Text.trim (← valueOf arguments)
  match Numeral.natural? text with
  | some n => if n < UInt64.size then .ok n else .error (.notCount (String.ofList text))
  | none => .error (.notCount (String.ofList text))

def readText (arguments : List Char) : Except ArgumentFault String := do
  let text ← (Scanner.start (← valueOf arguments)).remainder
  if text.isEmpty then .error .emptyText else .ok text

def readType (arguments : List Char) : Except ArgumentFault TypeOverride := do
  match ← readText arguments with
  | "object" => .ok .object
  | "value" => .ok .value
  | other => .error (.unsupportedType other)

/-- What was read has to be all there is. -/
def complete {α : Type} {before : Scanner} (read : Scanner.Scanned before α) :
    Except ArgumentFault α :=
  if read.after.atEnd then .ok read.value else .error .trailingInput

def readList (arguments : List Char) : Except ArgumentFault (List Json) := do
  complete (← (Scanner.start (← valueOf arguments)).list)

def readValue (arguments : List Char) : Except ArgumentFault Json := do
  complete (← (Scanner.start (← valueOf arguments)).value [])

def readValidation : List Char → Except ArgumentFault Validation
  | ':' :: body => do
    let validation ← complete (← (Scanner.start body).namedArguments {})
    if validation.rule.isEmpty then .error .ruleMissing else .ok validation
  | _ => .error .namedArgumentsMissing

def read (kind : RuleKind) (arguments : List Char) : Except ArgumentFault Rule :=
  match kind with
  | .maximum => (readNumber arguments).map .maximum
  | .minimum => (readNumber arguments).map .minimum
  | .exclusiveMaximum => (readFlag arguments).map .exclusiveMaximum
  | .exclusiveMinimum => (readFlag arguments).map .exclusiveMinimum
  | .multipleOf => (readNumber arguments).map .multipleOf
  | .maxProperties => (readCount arguments).map .maxProperties
  | .minProperties => (readCount arguments).map .minProperties
  | .maxLength => (readCount arguments).map .maxLength
  | .minLength => (readCount arguments).map .minLength
  | .pattern => (readText arguments).map .pattern
  | .maxItems => (readCount arguments).map .maxItems
  | .minItems => (readCount arguments).map .minItems
  | .uniqueItems => (readFlag arguments).map .uniqueItems
  | .enumeration => (readList arguments).map .enumeration
  | .format => (readText arguments).map .format
  | .type => (readType arguments).map .type
  | .preserveUnknownFields => withoutArguments .preserveUnknownFields arguments
  | .embeddedResource => withoutArguments .embeddedResource arguments
  | .intOrString => withoutArguments .intOrString arguments
  | .validation => (readValidation arguments).map .validation
  | .required => withoutArguments .required arguments
  | .nullable => withoutArguments .nullable arguments
  | .defaultValue => (readValue arguments).map .defaultValue
  | .exampleValue => (readValue arguments).map .exampleValue
  | .schemaless => withoutArguments .schemaless arguments

private theorem kind_of_map {α : Type} {result : Except ArgumentFault α} {make : α → Rule}
    {rule : Rule} {kind : RuleKind} (made : ∀ value, (make value).kind = kind)
    (ended : result.map make = .ok rule) : rule.kind = kind := by
  cases result with
  | error fault => cases ended
  | ok value => cases ended; exact made value

private theorem kind_of_withoutArguments {rule made : Rule} {arguments : List Char}
    (ended : withoutArguments rule arguments = .ok made) : made.kind = rule.kind := by
  unfold withoutArguments at ended
  split at ended
  · cases ended; rfl
  · cases ended

/-- Arguments decide what a rule says, not which family it belongs to. -/
theorem kind_of_read {kind : RuleKind} {arguments : List Char} {rule : Rule}
    (ended : kind.read arguments = .ok rule) : rule.kind = kind := by
  cases kind with
  | preserveUnknownFields | embeddedResource | intOrString | required | nullable | schemaless =>
      exact kind_of_withoutArguments ended
  | _ => exact kind_of_map (fun _ => rfl) ended

end ProtoSchema.RuleKind
