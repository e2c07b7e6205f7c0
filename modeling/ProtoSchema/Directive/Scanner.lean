import ProtoSchema.Directive.Fault
import ProtoSchema.Number.Literal
import ProtoSchema.Text.Blank

/-!
The literals of directive arguments: numbers and words, text in double quotes with escapes or in
back quotes without, lists in braces or between semicolons, and maps in braces. Each function takes
a literal off the front of a `Scanner` and answers with what is left, which is never longer than
before.
-/
namespace ProtoSchema

/-- The rest of an argument, and how many bytes the whole argument has. -/
structure Scanner where
  total : Nat
  rest : List Char

namespace Scanner

def byteSize (text : List Char) : Nat := text.foldr (fun c total => c.utf8Size + total) 0

def start (text : List Char) : Scanner := ⟨byteSize text, text⟩

def offset (scanner : Scanner) : Nat := scanner.total - byteSize scanner.rest

def moveTo (scanner : Scanner) (rest : List Char) : Scanner := { scanner with rest }

def skipBlanks (scanner : Scanner) : Scanner :=
  scanner.moveTo (scanner.rest.dropWhile Text.isBlank)

def atEnd (scanner : Scanner) : Bool := scanner.skipBlanks.rest.isEmpty

/-- A value and the scanner behind it. -/
structure Scanned (before : Scanner) (α : Type) where
  value : α
  after : Scanner
  within : after.rest.length ≤ before.rest.length

theorem skipBlanks_length_le (scanner : Scanner) :
    scanner.skipBlanks.rest.length ≤ scanner.rest.length :=
  (List.dropWhile_sublist Text.isBlank).length_le

/-- Whether a character comes next behind blanks, and the scanner behind it. -/
def eat? (wanted : Char) (scanner : Scanner) :
    Option { after : Scanner // after.rest.length < scanner.rest.length } :=
  match found : scanner.skipBlanks.rest with
  | c :: rest =>
    if c = wanted then
      some ⟨scanner.skipBlanks.moveTo rest, by
        have bound := skipBlanks_length_le scanner
        rw [found] at bound
        exact bound⟩
    else none
  | [] => none

def expect (wanted : Char) (scanner : Scanner) :
    Except ArgumentFault { after : Scanner // after.rest.length < scanner.rest.length } :=
  match scanner.eat? wanted with
  | some after => .ok after
  | none => .error (.characterMissing wanted scanner.skipBlanks.offset)

def isIdentifierCharacter (c : Char) : Bool := c.isAlphanum || c == '_'

def identifier (scanner : Scanner) : Except ArgumentFault (Scanned scanner String) :=
  let inner := scanner.skipBlanks
  let name := inner.rest.takeWhile isIdentifierCharacter
  if name.isEmpty then .error (.identifierMissing inner.offset)
  else .ok ⟨String.ofList name, inner.moveTo (inner.rest.dropWhile isIdentifierCharacter),
    Nat.le_trans (List.dropWhile_sublist isIdentifierCharacter).length_le
      (skipBlanks_length_le scanner)⟩

/-! ## Text -/

/-- What an escaped character stands for; a backslash before any other character stays. -/
def unescape (c : Char) : List Char :=
  if c = 'n' then ['\n']
  else if c = 't' then ['\t']
  else if c = 'r' then ['\r']
  else if c = '"' ∨ c = '\\' ∨ c = '\'' then [c]
  else ['\\', c]

/-- What stands before the closing double quote, with its escapes resolved, and what stands behind
it. -/
def untilQuote : (text : List Char) →
    Except ArgumentFault (List Char × { rest : List Char // rest.length ≤ text.length })
  | [] => .error .unclosedQuote
  | '"' :: rest => .ok ([], ⟨rest, Nat.le_succ _⟩)
  | ['\\'] => .error .unfinishedEscape
  | '\\' :: c :: rest =>
    (untilQuote rest).map fun (tail, left) =>
      (unescape c ++ tail, ⟨left.1, Nat.le_trans left.2 (by simp; omega)⟩)
  | c :: rest =>
    (untilQuote rest).map fun (tail, left) => (c :: tail, ⟨left.1, Nat.le_succ_of_le left.2⟩)

/-- What stands before the closing back quote, and what stands behind it. -/
def untilBackQuote : (text : List Char) →
    Except ArgumentFault (List Char × { rest : List Char // rest.length ≤ text.length })
  | [] => .error .unclosedBackQuote
  | c :: rest =>
    if c = '\x60' then .ok ([], ⟨rest, Nat.le_succ _⟩)
    else (untilBackQuote rest).map fun (tail, left) =>
      (c :: tail, ⟨left.1, Nat.le_succ_of_le left.2⟩)

/-- Everything up to one of the stop characters, without blanks at its ends. -/
def bare (stops : List Char) (scanner : Scanner) : Scanned scanner (List Char) where
  value := Text.trim (scanner.rest.takeWhile fun c => !stops.contains c)
  after := scanner.moveTo (scanner.rest.dropWhile fun c => !stops.contains c)
  within := (List.dropWhile_sublist _).length_le

/-- Text in double quotes or back quotes, if the scanner stands at one of them. -/
def quoted? (scanner : Scanner) : Option (Except ArgumentFault (Scanned scanner String)) :=
  match found : scanner.rest with
  | [] => none
  | c :: rest =>
    let finish (read : List Char × { left : List Char // left.length ≤ rest.length }) :
        Scanned scanner String :=
      ⟨String.ofList read.1, scanner.moveTo read.2.1, by
        have := read.2.2
        show read.2.1.length ≤ scanner.rest.length
        rw [found]
        simp
        omega⟩
    if c = '"' then some ((untilQuote rest).map finish)
    else if c = '\x60' then some ((untilBackQuote rest).map finish)
    else none

/-- Text, quoted or bare up to one of the stop characters. -/
def text (stops : List Char) (scanner : Scanner) : Except ArgumentFault (Scanned scanner String) :=
  let inner := scanner.skipBlanks
  have bound := skipBlanks_length_le scanner
  match inner.quoted? with
  | some read => read.map fun read => ⟨read.value, read.after, Nat.le_trans read.within bound⟩
  | none =>
    let read := inner.bare stops
    .ok ⟨String.ofList read.value, read.after, Nat.le_trans read.within bound⟩

/-- All that is left as text; a quoted text has to be all that is left. -/
def remainder (scanner : Scanner) : Except ArgumentFault String :=
  let inner := scanner.skipBlanks
  match inner.quoted? with
  | some read => do
    let read ← read
    if read.after.atEnd then .ok read.value
    else .error (.trailingAfterText (String.ofList read.after.skipBlanks.rest))
  | none => .ok (String.ofList (Text.trimEnd inner.rest))

/-! ## Values -/

/-- What a word without quotes denotes: a truth value, a 64-bit integer, a finite number, or
itself. -/
def scalar (word : List Char) : Json :=
  if word = "true".toList then .boolean true
  else if word = "false".toList then .boolean false
  else
    let number? := match Binary64.ofLiteral? word with
      | some x => if x.isFinite then some (Json.decimal x) else none
      | none => none
    match Numeral.integer? word with
    | some n =>
      if -0x8000000000000000 ≤ n ∧ n ≤ 0x7FFFFFFFFFFFFFFF then .integer n
      else number?.getD (.text (String.ofList word))
    | none => number?.getD (.text (String.ofList word))

/-- Whether braces hold a map: a colon comes before any comma or further brace outside of quotes. -/
def looksLikeMap : Option Char → List Char → Bool
  | _, [] => false
  | some quote, c :: rest => looksLikeMap (if c = quote then none else some quote) rest
  | none, c :: rest =>
    if c = '"' ∨ c = '\x60' then looksLikeMap (some c) rest
    else if c = ':' then true
    else if c = ',' ∨ c = '}' ∨ c = '{' then false
    else looksLikeMap none rest

def braceStops : List Char := [',', '}']

mutual

/-- A literal; a bare word ends at one of the stop characters. -/
def value (stops : List Char) (scanner : Scanner) : Except ArgumentFault (Scanned scanner Json) :=
  have bound := skipBlanks_length_le scanner
  match scanner.skipBlanks.rest with
  | [] => .error .literalMissing
  | c :: _ =>
    match scanner.skipBlanks.quoted? with
    | some read => read.map fun read =>
      ⟨.text read.value, read.after, Nat.le_trans read.within bound⟩
    | none =>
      if c = '{' then braced scanner
      else
        let read := scanner.skipBlanks.bare stops
        .ok ⟨scalar read.value, read.after, Nat.le_trans read.within bound⟩
termination_by (scanner.rest.length, 1)

def braced (scanner : Scanner) : Except ArgumentFault (Scanned scanner Json) :=
  match scanner.expect '{' with
  | .error fault => .error fault
  | .ok opened =>
    have further := opened.2
    match opened.1.eat? '}' with
    | some closed =>
      .ok ⟨.array [], closed.1, by have := closed.2; omega⟩
    | none =>
      if looksLikeMap none opened.1.rest then
        (members opened.1).map fun read =>
          ⟨.object (Entries.ofList read.value), read.after, by have := read.within; omega⟩
      else
        (items opened.1).map fun read =>
          ⟨.array read.value, read.after, by have := read.within; omega⟩
termination_by (scanner.rest.length, 0)

/-- The items of a list up to and with the closing brace. -/
def items (scanner : Scanner) : Except ArgumentFault (Scanned scanner (List Json)) :=
  match value braceStops scanner with
  | .error fault => .error fault
  | .ok first =>
    match first.after.eat? ',' with
    | some next =>
      have further : next.1.rest.length < scanner.rest.length := by
        have := next.2
        have := first.within
        omega
      (items next.1).map fun more =>
        ⟨first.value :: more.value, more.after, by have := more.within; omega⟩
    | none =>
      (first.after.expect '}').map fun closed =>
        ⟨[first.value], closed.1, by have := closed.2; have := first.within; omega⟩
termination_by (scanner.rest.length, 2)

def members (scanner : Scanner) : Except ArgumentFault (Scanned scanner (List (String × Json))) :=
  match text [':'] scanner with
  | .error fault => .error fault
  | .ok key =>
    match key.after.expect ':' with
    | .error fault => .error fault
    | .ok gap =>
      have inside : gap.1.rest.length < scanner.rest.length := by
        have := gap.2
        have := key.within
        omega
      match value braceStops gap.1 with
      | .error fault => .error fault
      | .ok first =>
        match first.after.eat? ',' with
        | some next =>
          have further : next.1.rest.length < scanner.rest.length := by
            have := next.2
            have := first.within
            omega
          (members next.1).map fun more =>
            ⟨(key.value, first.value) :: more.value, more.after, by have := more.within; omega⟩
        | none =>
          (first.after.expect '}').map fun closed =>
            ⟨[(key.value, first.value)], closed.1, by
              have := closed.2
              have := first.within
              omega⟩
termination_by (scanner.rest.length, 2)

end

def separated (scanner : Scanner) : Except ArgumentFault (Scanned scanner (List Json)) :=
  match value [';'] scanner with
  | .error fault => .error fault
  | .ok first =>
    match first.after.eat? ';' with
    | some next =>
      have further : next.1.rest.length < scanner.rest.length := by
        have := next.2
        have := first.within
        omega
      (separated next.1).map fun more =>
        ⟨first.value :: more.value, more.after, by have := more.within; omega⟩
    | none => .ok ⟨[first.value], first.after, first.within⟩
termination_by scanner.rest.length

def list (scanner : Scanner) : Except ArgumentFault (Scanned scanner (List Json)) :=
  match scanner.skipBlanks.rest with
  | '{' :: _ =>
    match braced scanner with
    | .error fault => .error fault
    | .ok read =>
      match read.value with
      | .array values => .ok ⟨values, read.after, read.within⟩
      | other => .error (.notList other)
  | _ => separated scanner

/-- Named arguments between commas, each added to those before it. -/
def namedArguments (validation : Validation) (scanner : Scanner) :
    Except ArgumentFault (Scanned scanner Validation) :=
  match identifier scanner with
  | .error fault => .error fault
  | .ok name =>
    match name.after.expect '=' with
    | .error fault => .error fault
    | .ok gap =>
      match text [','] gap.1 with
      | .error fault => .error fault
      | .ok argument =>
        let changed? : Option Validation := match name.value with
          | "rule" => some { validation with rule := argument.value }
          | "message" => some { validation with message := argument.value }
          | "messageExpression" => some { validation with messageExpression := argument.value }
          | _ => none
        match changed? with
        | none => .error (.unknownArgument name.value)
        | some changed =>
          have inside : argument.after.rest.length < scanner.rest.length := by
            have := argument.within
            have := gap.2
            have := name.within
            omega
          match argument.after.eat? ',' with
          | some next =>
            have further : next.1.rest.length < scanner.rest.length := by
              have := next.2
              omega
            (namedArguments changed next.1).map fun read =>
              ⟨read.value, read.after, by have := read.within; omega⟩
          | none => .ok ⟨changed, argument.after, Nat.le_of_lt inside⟩
termination_by scanner.rest.length

end Scanner

end ProtoSchema
