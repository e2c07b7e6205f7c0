import ProtoSchema.Text.Blank
import ProtoSchema.Text.Split

/-!
Leading comments. A comment is a sequence of blocks set apart by empty lines. Its directive lines
are taken out wherever they stand; what is left, without hidden blocks and hidden lines, is the
description.
-/
namespace ProtoSchema.Comment

def directiveLead : List Char := "+kubebuilder:".toList

/-- A block or a line that starts with one of these never reaches the description. -/
def hidingMarks : List (List Char) :=
  ["$hide_from_docs".toList, "$hide".toList, "@exclude".toList]

structure Policy where
  describe : Bool := true
  /-- Keep every line of the description, or join the first block into one line. -/
  multiline : Bool := false
  /-- A directive line that contains one of these is ordinary text. -/
  ignored : List String := []

structure Reading where
  description : String
  directives : List String
deriving DecidableEq

def isHidden (text : List Char) : Bool :=
  hidingMarks.any fun mark => Text.startsWith mark (Text.trim text)

/-- Whether one of the ignored substrings occurs in the text; the empty one never does. -/
def Policy.ignores (policy : Policy) (text : List Char) : Bool :=
  policy.ignored.any fun part => !part.isEmpty && Text.contains part.toList text

/-- The line without one leading space and without blanks at its end. -/
def reflow (line : List Char) : List Char :=
  match line with
  | ' ' :: rest => Text.trimEnd rest
  | line => Text.trimEnd line

inductive Line where
  | directive (text : List Char)
  | hidden
  | plain (text : List Char)
deriving DecidableEq

def Policy.line (policy : Policy) (line : List Char) : Line :=
  let bare := Text.trim line
  if Text.startsWith directiveLead bare && !policy.ignores bare then .directive bare
  else if isHidden bare then .hidden
  else .plain (reflow line)

def Line.directive? : Line → Option (List Char)
  | .directive text => some text
  | _ => none

def Line.plain? : Line → Option (List Char)
  | .plain text => some text
  | _ => none

def blocks (comment : List Char) : List (List Char) := Text.paragraphs (Text.trim comment)

def Policy.lines (policy : Policy) (block : List Char) : List Line :=
  (Text.pieces '\n' block).map policy.line

def Policy.directives (policy : Policy) (comment : List Char) : List (List Char) :=
  (blocks comment).flatMap fun block => (policy.lines block).filterMap Line.directive?

/-- The text that a block adds to the description, if it adds any. -/
def Policy.blockText? (policy : Policy) (block : List Char) : Option (List Char) :=
  if isHidden block then none
  else
    let text := Text.joined ['\n'] ((policy.lines block).filterMap Line.plain?)
    if (Text.trim text).isEmpty then none else some text

def Policy.fullText (policy : Policy) (comment : List Char) : List Char :=
  Text.trim (Text.joined ['\n', '\n'] ((blocks comment).filterMap policy.blockText?))

def firstParagraph (text : List Char) : List Char := (Text.paragraphs text).headD []

/-- The first block of the description on one line. A first block hidden in the comment leaves
nothing. -/
def summary (comment full : List Char) : List Char :=
  let opening := firstParagraph full
  let hidden := Text.startsWith ['$'] (firstParagraph (Text.trim comment))
  if hidden || Text.startsWith ['$'] opening then []
  else Text.joined [' '] (Text.words opening)

def Policy.read (policy : Policy) (comment : String) : Reading :=
  let text := comment.toList
  let full := policy.fullText text
  { description :=
      if !policy.describe then ""
      else if policy.multiline then String.ofList full
      else String.ofList (summary text full)
    directives := (policy.directives text).map String.ofList }

end ProtoSchema.Comment
