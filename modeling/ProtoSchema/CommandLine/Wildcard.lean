import ProtoSchema.Number.Numeral
import ProtoSchema.Text.Split

/-!
Wildcards in the names of files: `?` for one character, `*` for any run of them, `[...]` and
`[!...]` for a character in or outside a class, and `**` as a whole step for any number of folders.
-/
namespace ProtoSchema.Wildcard

inductive Cause where
  | tooManyStars
  | recursiveInName
  | openClass
deriving DecidableEq

def Cause.message : Cause → String
  | .tooManyStars => "wildcards are either regular \x60*\x60 or recursive \x60**\x60"
  | .recursiveInName => "recursive wildcards must form a single path component"
  | .openClass => "invalid range pattern"

/-- Why a pattern makes no sense, and how many characters stand before that place. -/
structure PatternError where
  position : Nat
  cause : Cause
deriving DecidableEq

def PatternError.message (error : PatternError) : String :=
  "Pattern syntax error near position " ++ Numeral.text error.position ++ ": "
    ++ error.cause.message

structure Range where
  low : Char
  high : Char
deriving DecidableEq

def Range.holds (range : Range) (c : Char) : Bool := range.low ≤ c && c ≤ range.high

inductive Part where
  | exactly (c : Char)
  | anyOne
  | anyRun
  | anyFolders
  | within (ranges : List Range)
  | outside (ranges : List Range)
deriving DecidableEq

abbrev Pattern := List Part

/-- The ranges that the text of a class stands for. A dash between two characters makes a range of
them. -/
def ranges : List Char → List Range
  | [] => []
  | low :: '-' :: high :: rest => ⟨low, high⟩ :: ranges rest
  | c :: rest => ⟨c, c⟩ :: ranges rest

/-- A class without the bracket that opens it: its part, and the text behind it. A class holds at
least one character, which may be a closing bracket. -/
def readClass? (text : List Char) : Option (Part × List Char) :=
  let closing (inner : List Char) : Option (List Char × List Char) :=
    match inner with
    | [] => none
    | first :: rest => (Text.cutAt? ']' rest).map fun (more, behind) => (first :: more, behind)
  match text with
  | '!' :: inner => (closing inner).map fun (members, behind) => (.outside (ranges members), behind)
  | inner => (closing inner).map fun (members, behind) => (.within (ranges members), behind)

/-- Read a pattern from a position on. `previous` is the character before it; `fuel` bounds the
length of the text. -/
def readFrom : (fuel : Nat) → (position : Nat) → (previous : Option Char) → List Char →
    Except PatternError Pattern
  | 0, _, _, _ => .ok []
  | _, _, _, [] => .ok []
  | fuel + 1, position, previous, '*' :: rest =>
    match rest with
    | '*' :: '*' :: _ => .error ⟨position + 2, .tooManyStars⟩
    | '*' :: behind =>
      if previous = none ∨ previous = some '/' then
        match behind with
        | [] => .ok [.anyFolders]
        | '/' :: further =>
          (readFrom fuel (position + 3) (some '/') further).map fun parts => .anyFolders :: parts
        | _ => .error ⟨position + 2, .recursiveInName⟩
      else .error ⟨position - 1, .recursiveInName⟩
    | behind =>
      (readFrom fuel (position + 1) (some '*') behind).map fun parts => .anyRun :: parts
  | fuel + 1, position, _, '?' :: rest =>
    (readFrom fuel (position + 1) (some '?') rest).map fun parts => .anyOne :: parts
  | fuel + 1, position, _, '[' :: rest =>
    match readClass? rest with
    | some (part, behind) =>
      (readFrom fuel (position + 1 + (rest.length - behind.length)) (some ']') behind).map
        fun parts => part :: parts
    | none => .error ⟨position, .openClass⟩
  | fuel + 1, position, _, c :: rest =>
    (readFrom fuel (position + 1) (some c) rest).map fun parts => .exactly c :: parts

def Pattern.parse (text : List Char) : Except PatternError Pattern :=
  readFrom text.length 0 none text

def Part.admits (part : Part) (c : Char) : Bool :=
  match part with
  | .exactly wanted => c = wanted
  | .anyOne => true
  | .within ranges => ranges.any (·.holds c)
  | .outside ranges => !ranges.any (·.holds c)
  | .anyRun | .anyFolders => false

/-- How a name compares with a pattern. A name that ends before the pattern does is too short, and
all the more so without its first characters. -/
inductive Fit where
  | whole
  | differs
  | tooShort
deriving DecidableEq

/-- The comparison of the first end of a text, beginning with the text itself, that shows how every
shorter end compares. -/
def settle (compare : List Char → Fit) : List Char → Fit
  | [] => compare []
  | c :: rest =>
    match compare (c :: rest) with
    | .differs => settle compare rest
    | settled => settled

def Pattern.compare : Pattern → List Char → Fit
  | [], name => if name.isEmpty then .whole else .differs
  | .anyRun :: parts, name => settle (Pattern.compare parts) name
  | .anyFolders :: parts, name => settle (Pattern.compare parts) name
  | part :: parts, name =>
    match name with
    | c :: rest => if part.admits c then Pattern.compare parts rest else .differs
    | [] => .tooShort

def Pattern.holds (pattern : Pattern) (name : List Char) : Bool := pattern.compare name = .whole

def Pattern.name? (pattern : Pattern) : Option String :=
  (pattern.mapM fun part =>
    match part with
    | Part.exactly c => some c
    | _ => none).map String.ofList

def Pattern.isRecursive (pattern : Pattern) : Bool := pattern.contains .anyFolders

def isPattern (text : String) : Bool := text.toList.any ['*', '?', '[', '\x7b'].contains

end ProtoSchema.Wildcard
