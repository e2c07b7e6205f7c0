import ProtoSchema.Number.Literal
import ProtoSchema.Text.Split

/-!
Strings as YAML scalars. A string is written plainly where a reader takes the plain text for that
string and nothing else, as a literal block where it has several lines, and in quotes otherwise:
single quotes where they can hold it, double quotes with escapes where they cannot.
-/
namespace ProtoSchema.Yaml

/-! ## Characters -/

def isBreak (c : Char) : Bool :=
  c = '\n' || c = '\r' || c = '\u0085' || c = '\u2028' || c = '\u2029'

/-- A blank, a line break, or the null character that ends a text. -/
def endsWord (c : Char) : Bool := c = ' ' || c = '\t' || c.toNat = 0 || isBreak c

def isPrintable (c : Char) : Bool :=
  let n := c.toNat
  n = 0x0A || (0x20 ≤ n && n ≤ 0x7E) || (0xA0 ≤ n && n ≤ 0xFFFD && n ≠ 0xFEFF) || 0x10000 ≤ n

/-- Whether a plain scalar that starts with `first` is taken for something else. -/
def indicatesAtStart (first : Char) (followed : Bool) : Bool :=
  ['#', ',', '[', ']', '\x7b', '\x7d', '&', '*', '!', '|', '>', '\'', '"', '%', '@',
      '\x60'].contains first
    || (followed && ['?', ':', '-'].contains first)

/-- Whether what follows a character starts with the end of a word. -/
def followed : List Char → Bool
  | [] => true
  | c :: _ => endsWord c

/-- Whether a colon at the end of a word or a comment sign at its start stands behind `previous`. -/
def indicatesInside (previous : Char) : List Char → Bool
  | [] => false
  | c :: rest =>
    (c = ':' && followed rest) || (c = '#' && endsWord previous) || indicatesInside c rest

def indicates (text : List Char) : Bool :=
  Text.startsWith "---".toList text || Text.startsWith "...".toList text
    || match text with
      | [] => false
      | first :: rest => indicatesAtStart first (followed rest) || indicatesInside first rest

/-- Whether some character and the one behind it are as described. -/
def hasPair (before behind : Char → Bool) : List Char → Bool
  | [] => false
  | c :: rest => (before c && rest.head?.any behind) || hasPair before behind rest

def isSpace (c : Char) : Bool := c = ' '

/-! ## Where each style is possible -/

def plainHolds (text : List Char) : Bool :=
  text.all (fun c => isPrintable c && !isBreak c) && !text.head?.any isSpace
    && !text.getLast?.any isSpace && !indicates text

def quotesHold (text : List Char) : Bool :=
  text.all isPrintable && !hasPair isSpace isBreak text && !hasPair isBreak isSpace text

def blockHolds (text : List Char) : Bool :=
  !text.isEmpty && text.all isPrintable && !text.getLast?.any isSpace
    && !hasPair isSpace isBreak text

/-! ## What plain text is read as -/

def radixDigit? (c : Char) : Option Nat :=
  if '0' ≤ c ∧ c ≤ '9' then some (c.toNat - 48)
  else if 'a' ≤ c ∧ c ≤ 'f' then some (c.toNat - 87)
  else if 'A' ≤ c ∧ c ≤ 'F' then some (c.toNat - 55)
  else none

/-- The number that digits to a base denote. -/
def radixValue? (base : Nat) (digits : List Char) : Option Nat :=
  if digits.isEmpty then none
  else digits.foldlM (fun total c =>
    match radixDigit? c with
    | some digit => if digit < base then some (base * total + digit) else none
    | none => none) 0

/-- The number behind a mark for base 16, 8 or 2. -/
def markedValue? : List Char → Option Nat
  | '0' :: 'x' :: digits => radixValue? 16 digits
  | '0' :: 'o' :: digits => radixValue? 8 digits
  | '0' :: 'b' :: digits => radixValue? 2 digits
  | _ => none

/-- An integer of 128 bits with a mark for its base. -/
def isMarkedInteger : List Char → Bool
  | '-' :: rest => (markedValue? rest).any (· ≤ Nat.pow 2 127)
  | '+' :: rest => (markedValue? rest).any (· < Nat.pow 2 128)
  | text => (markedValue? text).any (· < Nat.pow 2 128)

/-- Digits behind a leading zero, after a sign if there is one. -/
def isZeroLed (text : List Char) : Bool :=
  let unsigned := match text with
    | '-' :: rest => rest
    | '+' :: rest => rest
    | rest => rest
  match unsigned with
  | '0' :: c :: rest => (c :: rest).all Numeral.isDigit
  | _ => false

def isFiniteLiteral (text : List Char) : Bool :=
  (Binary64.ofLiteral? text).any (·.isFinite)

/-- A number with or without a fraction, or the name of a number that is not finite. -/
def isDecimal : List Char → Bool
  | '+' :: '+' :: _ => false
  | '+' :: '-' :: _ => false
  | '+' :: rest =>
    [".inf", ".Inf", ".INF"].contains (String.ofList rest) || isFiniteLiteral rest
  | text =>
    [".inf", ".Inf", ".INF", "-.inf", "-.Inf", "-.INF", ".nan", ".NaN", ".NAN"].contains
        (String.ofList text)
      || isFiniteLiteral text

def wordValues : List String :=
  ["", "null", "Null", "NULL", "~", "true", "True", "TRUE", "false", "False", "FALSE"]

/-- Whether the plain text is read as something else than a string. -/
def readsOtherwise (text : List Char) : Bool :=
  wordValues.contains (String.ofList text) || isMarkedInteger text || isZeroLed text
    || isDecimal text

/-! ## Writing -/

inductive Style where
  | plain
  | singleQuoted
  | doubleQuoted
  | literal
deriving DecidableEq

def Style.of (text : List Char) : Style :=
  if text.contains '\n' then
    if blockHolds text then .literal else .doubleQuoted
  else if plainHolds text && !readsOtherwise text then .plain
  else if quotesHold text then .singleQuoted
  else .doubleQuoted

def spaces (count : Nat) : List Char := List.replicate count ' '

/-- Text on several lines, whose lines after the first start at an indentation. Breaks in a row stay
together; `broken` tells that a break was the last character. -/
def indentedLines (indentation : Nat) : (broken : Bool) → List Char → List Char
  | _, [] => []
  | broken, c :: rest =>
    if isBreak c then c :: indentedLines indentation true rest
    else (if broken then spaces indentation else []) ++ c :: indentedLines indentation false rest

def singleQuoted (indentation : Nat) (text : List Char) : List Char :=
  let doubled := text.flatMap fun c => if c = '\'' then ['\'', '\''] else [c]
  let closing := if text.getLast?.any isBreak then spaces indentation else []
  '\'' :: indentedLines indentation false doubled ++ closing ++ ['\'']

def hexDigit (n : Nat) : Char := if n < 10 then Char.ofNat (48 + n) else Char.ofNat (55 + n)

/-- The last `width` digits of a number to base 16. -/
def hexDigits : (width : Nat) → (n : Nat) → List Char
  | 0, _ => []
  | width + 1, n => hexDigits width (n / 16) ++ [hexDigit (n % 16)]

/-- The letter of an escape that has one. -/
def escapeLetter? (n : Nat) : Option Char :=
  [(0x00, '0'), (0x07, 'a'), (0x08, 'b'), (0x09, 't'), (0x0A, 'n'), (0x0B, 'v'), (0x0C, 'f'),
    (0x0D, 'r'), (0x1B, 'e'), (0x22, '"'), (0x5C, '\\'), (0x85, 'N'), (0x2028, 'L'),
    (0x2029, 'P')].lookup n

def escape (c : Char) : List Char :=
  let n := c.toNat
  match escapeLetter? n with
  | some letter => ['\\', letter]
  | none =>
    if n ≤ 0xFF then '\\' :: 'x' :: hexDigits 2 n
    else if n ≤ 0xFFFF then '\\' :: 'u' :: hexDigits 4 n
    else '\\' :: 'U' :: hexDigits 8 n

def doubleQuoted (text : List Char) : List Char :=
  let escaped := text.flatMap fun c =>
    if !isPrintable c || isBreak c || c = '"' || c = '\\' then escape c else [c]
  '"' :: escaped ++ ['"']

/-- What the head of a literal block says: an indentation where the first line does not show it, and
what becomes of the breaks at the end. A sole break at the end needs no mark. -/
def literalHints (text : List Char) : List Char :=
  (if text.head?.any (fun c => isSpace c || isBreak c) then ['2'] else [])
    ++ match text.reverse with
      | [] => ['-']
      | [last] => if isBreak last then ['+'] else ['-']
      | last :: before :: _ =>
        if !isBreak last then ['-'] else if isBreak before then ['+'] else []

def literal (indentation : Nat) (text : List Char) : List Char :=
  '|' :: literalHints text ++ '\n' :: indentedLines indentation true text

/-- A string as a scalar whose further lines start at an indentation. -/
def scalar (indentation : Nat) (text : String) : String :=
  let text := text.toList
  String.ofList <|
    match Style.of text with
    | .plain => text
    | .singleQuoted => singleQuoted indentation text
    | .doubleQuoted => doubleQuoted text
    | .literal => literal indentation text

/-- Whether a key can stand in front of a colon on one line. -/
def isSimpleKey (key : String) : Bool := key.utf8ByteSize ≤ 128 && !key.toList.any isBreak

end ProtoSchema.Yaml
