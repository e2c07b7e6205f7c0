import ProtoSchema.Directive.Argument
import ProtoSchema.Proofs.Literals

/-!
The arguments of rules are read back. Every rule but those that bound a number has a canonical argument,
and its family reads it as this rule.
-/
namespace ProtoSchema

/-- The arguments that an expression is given by. -/
inductive Parameter where
  | rule
  | message
  | messageExpression
deriving DecidableEq

def Parameter.name : Parameter → String
  | .rule => "rule"
  | .message => "message"
  | .messageExpression => "messageExpression"

namespace Validation

def argument (validation : Validation) : Parameter → String
  | .rule => validation.rule
  | .message => validation.message
  | .messageExpression => validation.messageExpression

def put (validation : Validation) (text : String) : Parameter → Validation
  | .rule => { validation with rule := text }
  | .message => { validation with message := text }
  | .messageExpression => { validation with messageExpression := text }

/-- The named arguments in the given order, each in double quotes. -/
def written (validation : Validation) (gap : List Char) : List Parameter → List Char
  | [] => []
  | [parameter] =>
    parameter.name.toList ++ '=' :: Scanner.doubleQuoted (validation.argument parameter).toList
  | parameter :: next :: order =>
    parameter.name.toList ++ '=' :: (Scanner.doubleQuoted (validation.argument parameter).toList ++
      ',' :: (gap ++ validation.written gap (next :: order)))

theorem written_closes (validation : Validation) (gap : List Char) {order : List Parameter}
    (nonempty : order ≠ []) : Scanner.Closes (validation.written gap order) := by
  induction order with
  | nil => contradiction
  | cons parameter order ih =>
      cases order with
      | nil =>
          have quoted : Scanner.Closes (Scanner.doubleQuoted (validation.argument parameter).toList) :=
            ⟨_ :: _, _, rfl, by decide⟩
          exact (quoted.prepend ['=']).prepend parameter.name.toList
      | cons next order =>
          have more := ((ih (List.cons_ne_nil next order)).prepend gap).prepend [',']
          have argument := more.prepend (Scanner.doubleQuoted (validation.argument parameter).toList)
          exact (argument.prepend ['=']).prepend parameter.name.toList

theorem ext_argument {one two : Validation} (same : ∀ parameter, one.argument parameter = two.argument parameter) :
    one = two := by
  cases one
  cases two
  have rules := same .rule
  have messages := same .message
  have expressions := same .messageExpression
  simp_all [argument]

theorem argument_put (validation : Validation) (text : String) (parameter other : Parameter) :
    (validation.put text parameter).argument other =
      if other = parameter then text else validation.argument other := by
  cases parameter <;> cases other <;> rfl

/-- What the arguments in the order amount to when they are added one by one. -/
def gathered (validation start : Validation) (order : List Parameter) : Validation :=
  order.foldl (fun built parameter => built.put (validation.argument parameter) parameter) start

theorem argument_gathered (validation start : Validation) (order : List Parameter)
    (parameter : Parameter) :
    (validation.gathered start order).argument parameter =
      if parameter ∈ order then validation.argument parameter else start.argument parameter := by
  induction order generalizing start with
  | nil => simp [gathered]
  | cons first order ih =>
      have further := ih (start.put (validation.argument first) first)
      rw [gathered, List.foldl_cons, ← gathered, further, argument_put]
      by_cases here : parameter = first <;> by_cases later : parameter ∈ order <;> simp_all

theorem gathered_eq {validation : Validation} {order : List Parameter}
    (others : ∀ parameter, parameter ∉ order → validation.argument parameter = "") :
    validation.gathered {} order = validation := by
  refine ext_argument fun parameter => ?_
  rw [argument_gathered]
  split
  · rfl
  · rename_i missing
    rw [others parameter missing]
    cases parameter <;> rfl

end Validation

namespace Scanner

variable {scanner : Scanner} {rest gap : List Char}

theorem identifier_read (parameter : Parameter)
    (next : scanner.skipBlanks.rest = parameter.name.toList ++ '=' :: rest) :
    Reads (identifier scanner) parameter.name ('=' :: rest) := by
  have inside : parameter.name.toList.all isIdentifierCharacter = true := by
    cases parameter <;> decide
  obtain ⟨taken, dropped⟩ : (parameter.name.toList ++ '=' :: rest).takeWhile isIdentifierCharacter =
      parameter.name.toList ∧ (parameter.name.toList ++ '=' :: rest).dropWhile isIdentifierCharacter =
        '=' :: rest := by
    refine Text.takeWhile_dropWhile_append (List.all_eq_true.1 inside) fun c first => ?_
    cases first
    rfl
  have nonempty : parameter.name.toList.isEmpty = false := by cases parameter <;> rfl
  simp only [identifier, next, taken, dropped, nonempty, String.ofList_toList, Bool.false_eq_true, if_false]
  exact ⟨_, rfl⟩

theorem written_begins (validation : Validation) (gap : List Char) (parameter : Parameter)
    (order : List Parameter) : Begins (validation.written gap (parameter :: order)) := by
  have named : Begins parameter.name.toList := by
    cases parameter <;> exact ⟨_, _, rfl, by decide⟩
  cases order with
  | nil => exact named.append _
  | cons next order => exact named.append _

theorem argument_read {validation : Validation} {parameter : Parameter} {tail : List Char}
    (next : scanner.skipBlanks.rest = parameter.name.toList ++
      '=' :: (doubleQuoted (validation.argument parameter).toList ++ tail)) :
    Reads (identifier scanner) parameter.name
        ('=' :: (doubleQuoted (validation.argument parameter).toList ++ tail)) ∧
      Reads (text [','] (scanner.moveTo (doubleQuoted (validation.argument parameter).toList ++ tail)))
        (validation.argument parameter) tail := by
  refine ⟨identifier_read parameter next, ?_⟩
  have begins : Begins (doubleQuoted (validation.argument parameter).toList ++ tail) :=
    ⟨_, _, rfl, by decide⟩
  have given : Reads (text [','] (scanner.moveTo
      (doubleQuoted (validation.argument parameter).toList ++ tail)))
      (String.ofList (validation.argument parameter).toList) tail :=
    text_doubleQuoted (begins.skip scanner)
  rwa [String.ofList_toList] at given

theorem namedArguments_read {validation : Validation} (start : Validation) {order : List Parameter}
    (blank : ∀ c ∈ gap, Text.isBlank c = true) (nonempty : order ≠ [])
    (next : scanner.skipBlanks.rest = validation.written gap order) :
    Reads (namedArguments start scanner) (validation.gathered start order) [] := by
  -- What is gathered so far varies, as an argument may be given more than once.
  induction order generalizing scanner start with
  | nil => contradiction
  | cons parameter order ih =>
      cases order with
      | nil =>
          rw [Validation.written, ← List.append_nil (doubleQuoted _)] at next
          obtain ⟨⟨_, named⟩, ⟨_, given⟩⟩ := argument_read next
          obtain ⟨_, equals⟩ := expect_moveTo scanner
            (doubleQuoted (validation.argument parameter).toList ++ []) (by decide : Text.isBlank '=' = false)
          rw [namedArguments, named]
          simp only [equals, given]
          cases parameter <;> exact ⟨_, rfl⟩
      | cons second order =>
          rw [Validation.written] at next
          obtain ⟨⟨_, named⟩, ⟨_, given⟩⟩ := argument_read next
          obtain ⟨_, equals⟩ := expect_moveTo scanner
            (doubleQuoted (validation.argument parameter).toList ++
              ',' :: (gap ++ validation.written gap (second :: order)))
            (by decide : Text.isBlank '=' = false)
          obtain ⟨_, comma⟩ := eat?_moveTo scanner (gap ++ validation.written gap (second :: order))
            (by decide : Text.isBlank ',' = false)
          obtain ⟨_, more⟩ := ih (start.put (validation.argument parameter) parameter)
            (List.cons_ne_nil second order)
            ((written_begins validation gap second order).next blank scanner)
          rw [namedArguments, named]
          simp only [equals, given]
          cases parameter <;>
            (simp only [Validation.put] at more
             simp only [Parameter.name, moveTo_moveTo, comma, more]
             exact ⟨_, rfl⟩)

end Scanner

def TypeOverride.word : TypeOverride → List Char
  | .object => "object".toList
  | .value => "value".toList

theorem TypeOverride.isWord (override : TypeOverride) : Scanner.Word override.word := by
  cases override <;> exact Scanner.word_of_all (by decide) (by decide)

namespace RuleKind

variable {gap : List Char} {json : Json}

theorem readFlag_written (on : Bool) : readFlag ('=' :: (Json.boolean on).written gap) = .ok on := by
  have trimmed : Text.trim ((Json.boolean on).written gap) = (Json.boolean on).written gap :=
    (Scanner.word_boolean on).solid.trim
  simp only [readFlag, valueOf, List.isEmpty_cons, Bool.false_eq_true, if_false, bind, Except.bind, trimmed]
  cases on <;> rfl

theorem readCount_digits {n : Nat} (bound : n < UInt64.size) :
    readCount ('=' :: Numeral.digits n) = .ok n := by
  have trimmed : Text.trim (Numeral.digits n) = Numeral.digits n := (Scanner.word_digits n).solid.trim
  simp only [readCount, valueOf, bind, Except.bind, trimmed, Numeral.natural?_digits, if_pos bound]

theorem readText_of_remainder {argument : List Char} {text : String} (nonempty : text ≠ "")
    (reads : (Scanner.start argument).remainder = .ok text) : readText ('=' :: argument) = .ok text := by
  have filled : text.isEmpty = false := by simpa using nonempty
  simp only [readText, valueOf, bind, Except.bind, reads, filled, Bool.false_eq_true, if_false]

theorem readText_backQuoted {text : String} (nonempty : text ≠ "") (free : '\x60' ∉ text.toList) :
    readText ('=' :: Scanner.backQuoted text.toList) = .ok text := by
  refine readText_of_remainder nonempty ?_
  rw [Scanner.remainder_backQuoted free, String.ofList_toList]

theorem readType_word (override : TypeOverride) : readType ('=' :: override.word) = .ok override := by
  have isWord := override.isWord
  have unquoted : ∀ c ∈ override.word.head?, c ≠ '"' ∧ c ≠ '\x60' := by
    intro c first
    have plain := isWord.plain c (List.mem_of_mem_head? first)
    refine ⟨?_, ?_⟩ <;> (rintro rfl; exact plain (by decide))
  have reads : readText ('=' :: override.word) = .ok (String.ofList override.word) := by
    refine readText_of_remainder ?_ (Scanner.remainder_word isWord.solid unquoted)
    simpa using isWord.nonempty
  rw [readType, reads]
  cases override <;> rfl

theorem complete_of_reads {α : Type} {before : Scanner} {value : α}
    {result : Except ArgumentFault (Scanner.Scanned before α)} (reads : Scanner.Reads result value []) :
    result.bind complete = .ok value := by
  obtain ⟨_, rfl⟩ := reads
  rfl

theorem readValue_written (literal : json.Literal) (blank : ∀ c ∈ gap, Text.isBlank c = true) :
    readValue ('=' :: json.written gap) = .ok json := by
  have next : (Scanner.start (json.written gap)).skipBlanks.rest = json.written gap ++ [] := by
    rw [List.append_nil]
    exact (literal.begins gap).skip (Scanner.start (json.written gap))
  exact complete_of_reads (literal.readsBack blank (List.nil_subset _) nofun next)

theorem readList_written {items : List Json} (literals : ∀ item ∈ items, item.Literal)
    (blank : ∀ c ∈ gap, Text.isBlank c = true) :
    readList ('=' :: (Json.array items).written gap) = .ok items := by
  have next : (Scanner.start ((Json.array items).written gap)).skipBlanks.rest =
      (Json.array items).written gap ++ [] := by
    rw [List.append_nil]
    exact ((Json.Literal.list literals).begins gap).skip (Scanner.start ((Json.array items).written gap))
  obtain ⟨_, read⟩ := Json.braced_items blank literals
    (fun item member => (literals item member).readsBack blank) next
  have reads : Scanner.Reads (Scanner.start ((Json.array items).written gap)).list items [] := by
    rw [Scanner.list_eq_braced (by rw [next, Json.written, List.cons_append]), read]
    exact ⟨_, rfl⟩
  exact complete_of_reads reads

theorem readValidation_written {validation : Validation} {order : List Parameter}
    (blank : ∀ c ∈ gap, Text.isBlank c = true) (ruled : validation.rule ≠ "")
    (others : ∀ parameter, parameter ∉ order → validation.argument parameter = "") :
    readValidation (':' :: validation.written gap order) = .ok validation := by
  have listed : Parameter.rule ∈ order := by
    by_contra missing
    exact ruled (others .rule missing)
  have next : (Scanner.start (validation.written gap order)).skipBlanks.rest =
      validation.written gap order := by
    obtain ⟨parameter, order, rfl⟩ := List.exists_cons_of_ne_nil (List.ne_nil_of_mem listed)
    exact (Scanner.written_begins validation gap parameter order).next (List.forall_mem_nil _)
      (Scanner.start (validation.written gap (parameter :: order)))
  obtain ⟨within, read⟩ := Scanner.namedArguments_read {} blank (List.ne_nil_of_mem listed) next
  rw [Validation.gathered_eq others] at read
  have finished : complete ⟨validation, (Scanner.start (validation.written gap order)).moveTo [], within⟩ =
      .ok validation := rfl
  have given : validation.rule.isEmpty = false := by simpa using ruled
  simp only [readValidation, bind, Except.bind, read, finished, given, Bool.false_eq_true, if_false]

end RuleKind

/-! ## Rules -/

/-- How directives are laid out: the blanks behind commas and colons, and the order of named arguments. -/
structure Layout where
  gap : List Char
  blank : ∀ c ∈ gap, Text.isBlank c = true
  order : List Parameter

namespace Rule

/-- The canonical argument of a rule. Rules that bound a number have none. -/
def written (layout : Layout) : Rule → List Char
  | .exclusiveMaximum on | .exclusiveMinimum on | .uniqueItems on =>
    '=' :: (Json.boolean on).written layout.gap
  | .maxProperties count | .minProperties count | .maxLength count | .minLength count
  | .maxItems count | .minItems count => '=' :: Numeral.digits count
  | .pattern text | .format text => '=' :: Scanner.backQuoted text.toList
  | .type override => '=' :: override.word
  | .enumeration values => '=' :: (Json.array values).written layout.gap
  | .defaultValue value | .exampleValue value => '=' :: value.written layout.gap
  | .validation expression => ':' :: expression.written layout.gap layout.order
  | .preserveUnknownFields | .embeddedResource | .intOrString | .required | .nullable | .schemaless
  | .maximum _ | .minimum _ | .multipleOf _ => []

/-- The rule has a canonical argument in this layout. -/
def Canonical (layout : Layout) : Rule → Prop
  | .exclusiveMaximum _ | .exclusiveMinimum _ | .uniqueItems _ | .type _ => True
  | .maxProperties count | .minProperties count | .maxLength count | .minLength count
  | .maxItems count | .minItems count => count < UInt64.size
  | .pattern text | .format text => text ≠ "" ∧ '\x60' ∉ text.toList
  | .enumeration values => ∀ value ∈ values, value.Literal
  | .defaultValue value | .exampleValue value => value.Literal
  | .validation expression =>
    expression.rule ≠ "" ∧ ∀ parameter, parameter ∉ layout.order → expression.argument parameter = ""
  | .preserveUnknownFields | .embeddedResource | .intOrString | .required | .nullable | .schemaless => True
  | .maximum _ | .minimum _ | .multipleOf _ => False

variable {layout : Layout} {rule : Rule}

theorem read_written (canonical : rule.Canonical layout) :
    rule.kind.read (rule.written layout) = .ok rule := by
  cases rule with
  | maximum | minimum | multipleOf => cases canonical
  | preserveUnknownFields | embeddedResource | intOrString | required | nullable | schemaless => rfl
  | exclusiveMaximum on | exclusiveMinimum on | uniqueItems on =>
      exact congrArg (Except.map _) (RuleKind.readFlag_written on)
  | maxProperties count | minProperties count | maxLength count | minLength count | maxItems count
  | minItems count => exact congrArg (Except.map _) (RuleKind.readCount_digits canonical)
  | pattern text | format text =>
      exact congrArg (Except.map _) (RuleKind.readText_backQuoted canonical.1 canonical.2)
  | type override => exact congrArg (Except.map _) (RuleKind.readType_word override)
  | enumeration values =>
      exact congrArg (Except.map _) (RuleKind.readList_written canonical layout.blank)
  | defaultValue value | exampleValue value =>
      exact congrArg (Except.map _) (RuleKind.readValue_written canonical layout.blank)
  | validation expression =>
      exact congrArg (Except.map _)
        (RuleKind.readValidation_written layout.blank canonical.1 canonical.2)

/-- An argument is set off from the name in front of it, by a colon only where it is made of named ones. -/
theorem head_written (layout : Layout) (rule : Rule) :
    ∀ c ∈ (rule.written layout).head?, c = '=' ∨ c = ':' ∧ rule.kind = .validation := by
  intro c first
  cases rule <;> cases first
  all_goals first | exact .inl rfl | exact .inr ⟨rfl, rfl⟩

theorem written_closes (canonical : rule.Canonical layout) (nonempty : rule.written layout ≠ []) :
    Scanner.Closes (rule.written layout) := by
  cases rule with
  | maximum | minimum | multipleOf => cases canonical
  | preserveUnknownFields | embeddedResource | intOrString | required | nullable | schemaless =>
      contradiction
  | exclusiveMaximum on | exclusiveMinimum on | uniqueItems on =>
      exact ((Json.Literal.boolean on).closes layout.gap).prepend ['=']
  | maxProperties count | minProperties count | maxLength count | minLength count | maxItems count
  | minItems count =>
      exact (Scanner.Closes.of_solid (Scanner.word_digits count).solid
        (Scanner.word_digits count).nonempty).prepend ['=']
  | pattern text | format text => exact ⟨_ :: _ :: _, _, rfl, by decide⟩
  | type override =>
      exact (Scanner.Closes.of_solid override.isWord.solid override.isWord.nonempty).prepend ['=']
  | enumeration values => exact ((Json.Literal.list canonical).closes layout.gap).prepend ['=']
  | defaultValue value | exampleValue value => exact (Json.Literal.closes canonical layout.gap).prepend ['=']
  | validation expression =>
      have listed : layout.order ≠ [] := by
        intro nothing
        exact canonical.1 (canonical.2 .rule (by simp [nothing]))
      exact (expression.written_closes layout.gap listed).prepend [':']

end Rule

end ProtoSchema
