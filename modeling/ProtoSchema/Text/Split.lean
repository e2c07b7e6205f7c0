/-!
Cutting text at separators and joining it again, over lists of characters.
-/
namespace ProtoSchema.Text

/-- The text after `lead`, when it starts with it. -/
def after? (lead : List Char) (text : List Char) : Option (List Char) :=
  List.isPrefixOf? lead text

def startsWith (lead : List Char) (text : List Char) : Bool := lead.isPrefixOf text

/-- The pieces between the occurrences of one character; there is always at least one piece. -/
def pieces (separator : Char) (text : List Char) : List (List Char) :=
  text.splitOnP (· == separator)

/-- The blocks between the occurrences of two line ends in a row, found from the left. -/
def paragraphs : List Char → List (List Char)
  | [] => [[]]
  | '\n' :: '\n' :: rest => [] :: paragraphs rest
  | c :: rest =>
    match paragraphs rest with
    | block :: blocks => (c :: block) :: blocks
    | [] => [[c]]

/-- Whether `part` occurs somewhere in the text. -/
def contains (part : List Char) : List Char → Bool
  | [] => part.isEmpty
  | c :: rest => part.isPrefixOf (c :: rest) || contains part rest

/-- The text before and after the first occurrence of a character. -/
def cutAt? (separator : Char) : List Char → Option (List Char × List Char)
  | [] => none
  | c :: rest =>
    if c = separator then some ([], rest)
    else (cutAt? separator rest).map fun (before, behind) => (c :: before, behind)

def joined (separator : List Char) (pieces : List (List Char)) : List Char :=
  List.intercalate separator pieces

end ProtoSchema.Text
