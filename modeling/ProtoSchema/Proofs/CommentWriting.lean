import ProtoSchema.Comment
import ProtoSchema.Proofs.Paragraphs

/-!
Comments are read back. A comment is written as paragraphs of lines, each of them text, a directive or
hidden; all its directives are found again, and the text of all paragraphs that do not open with a hidden
line.
-/
namespace ProtoSchema.Comment

open Scanner (Begins Closes)
open Text (layout joined)

/-! ## Writing -/

/-- A line of text, which is taken neither for a directive nor for a hidden line. -/
structure IsText (line : List Char) : Prop where
  unbroken : '\n' ∉ line
  filled : line ≠ []
  trimmed : Text.trim line = line
  noDirective : ¬ directiveLead <+: line
  notHidden : ∀ mark ∈ hidingMarks, ¬ mark <+: line

structure IsDirective (line : List Char) : Prop where
  unbroken : '\n' ∉ line
  trimmed : Text.trim line = line
  leads : directiveLead <+: line

structure IsHiding (line : List Char) : Prop where
  unbroken : '\n' ∉ line
  marked : ∃ mark ∈ hidingMarks, mark <+: line

/-- One line of a comment. -/
inductive Item where
  | text (line : List Char) (formed : IsText line)
  | directive (line : List Char) (formed : IsDirective line)
  | hidden (line : List Char) (formed : IsHiding line)

namespace Item

def line : Item → List Char
  | .text line _ | .directive line _ | .hidden line _ => line

def text? : Item → Option (List Char)
  | .text line _ => some line
  | _ => none

def directive? : Item → Option (List Char)
  | .directive line _ => some line
  | _ => none

def isHidden : Item → Bool
  | .hidden _ _ => true
  | _ => false

end Item

/-- Lines that stand together. -/
structure Paragraph where
  items : List Item
  filled : items ≠ []

/-- Each line is written behind a space, and an empty line between paragraphs. -/
def written (comment : List Paragraph) : List Char :=
  layout (comment.map fun paragraph => paragraph.items.map fun item => ' ' :: item.line)

/-- The text of lines that stand together, if they have any and do not open with a hidden one. -/
def textOf? (items : List Item) : Option (List Char) :=
  if items.head?.any Item.isHidden then none
  else
    match items.filterMap Item.text? with
    | [] => none
    | lines => some (joined ['\n'] lines)

/-- What a comment describes. -/
def described (comment : List Paragraph) : List Char :=
  joined ['\n', '\n'] (comment.filterMap fun paragraph => textOf? paragraph.items)

/-- What a comment directs. -/
def directed (comment : List Paragraph) : List (List Char) :=
  comment.flatMap fun paragraph => paragraph.items.filterMap Item.directive?

/-! ## Lines as they may stand in a comment -/

variable {text tail : List Char} {item : Item}

theorem solid_hidingMarks : ∀ mark ∈ hidingMarks, Text.Solid mark := by
  have free : ∀ mark ∈ hidingMarks, mark.all (fun c => !Text.isBlank c) = true := by decide
  intro mark listed
  simpa using free mark listed

theorem solid_directiveLead : Text.Solid directiveLead := by
  have free : directiveLead.all (fun c => !Text.isBlank c) = true := by decide
  simpa using free

/-- No line is both hidden and a directive. -/
theorem not_directive_of_marked (marked : ∃ mark ∈ hidingMarks, mark <+: text) :
    ¬ directiveLead <+: text := by
  obtain ⟨mark, listed, begins⟩ := marked
  have apart : ∀ mark ∈ hidingMarks, ¬ directiveLead <+: mark ∧ ¬ mark <+: directiveLead := by decide
  intro leads
  rcases List.prefix_or_prefix_of_prefix leads begins with inside | around
  · exact (apart mark listed).1 inside
  · exact (apart mark listed).2 around

theorem isHidden_iff : isHidden text = true ↔ ∃ mark ∈ hidingMarks, mark <+: Text.trimStart text := by
  unfold isHidden Text.startsWith Text.trim
  rw [List.any_eq_true]
  refine exists_congr fun mark => and_congr_right fun listed => ?_
  rw [List.isPrefixOf_iff_prefix, (solid_hidingMarks mark listed).prefix_trimEnd_iff]

namespace Item

theorem begins (item : Item) : Begins item.line := by
  cases item with
  | text line formed =>
      have filled : Text.trim line ≠ [] := by
        rw [formed.trimmed]
        exact formed.filled
      have begins := Text.begins_trim filled
      rwa [formed.trimmed] at begins
  | directive line formed =>
      obtain ⟨rest, split⟩ := formed.leads
      exact split ▸ Begins.append ⟨_, _, rfl, by decide⟩ rest
  | hidden line formed =>
      obtain ⟨mark, listed, rest, split⟩ := formed.marked
      have starts : ∀ mark ∈ hidingMarks, ∃ c tail, mark = c :: tail ∧ Text.isBlank c = false := by
        simp only [hidingMarks, List.forall_mem_cons]
        exact ⟨⟨_, _, rfl, by decide⟩, ⟨_, _, rfl, by decide⟩, ⟨_, _, rfl, by decide⟩, nofun⟩
      exact split ▸ Begins.append (starts mark listed) rest

theorem unbroken (item : Item) : '\n' ∉ item.line := by
  cases item with
  | text line formed | directive line formed | hidden line formed => exact formed.unbroken

/-- What is left of a line without the blanks at its end. -/
def core (item : Item) : List Char := Text.trimEnd item.line

theorem core_begins (item : Item) : Begins item.core := Text.begins_trimEnd item.begins

theorem core_closes (item : Item) : Closes item.core := by
  obtain ⟨c, rest, split, -⟩ := item.core_begins
  exact Text.closes_trimEnd (by rw [← core, split]; exact List.cons_ne_nil c rest)

theorem newline_not_mem_core (item : Item) : '\n' ∉ item.core := fun member =>
  item.unbroken ((List.rdropWhile_prefix Text.isBlank item.line).mem member)

theorem core_eq_line (trimmed : Text.trim item.line = item.line) : item.core = item.line := by
  rw [core, ← trimmed]
  exact Text.trimEnd_trimEnd _

theorem isHidden_iff (item : Item) :
    item.isHidden = true ↔ ∃ mark ∈ hidingMarks, mark <+: item.line := by
  cases item with
  | text line formed =>
      refine iff_of_false Bool.false_ne_true ?_
      rintro ⟨mark, listed, begins⟩
      exact formed.notHidden mark listed begins
  | directive line formed =>
      refine iff_of_false Bool.false_ne_true fun marked => ?_
      exact not_directive_of_marked marked formed.leads
  | hidden line formed => exact iff_of_true rfl formed.marked

theorem isHidden_core_append (item : Item) (ends : ∀ c ∈ tail.head?, Text.isBlank c = true) :
    Comment.isHidden (item.core ++ tail) = item.isHidden := by
  rw [Bool.eq_iff_iff, Comment.isHidden_iff, item.isHidden_iff,
    Text.trimStart_of_begins (item.core_begins.append tail)]
  refine exists_congr fun mark => and_congr_right fun listed => ?_
  have solid := solid_hidingMarks mark listed
  rw [solid.prefix_append_iff ends, core, solid.prefix_trimEnd_iff]

/-- How a line is read. -/
def reading : Item → Line
  | .text line _ => .plain line
  | .directive line _ => .directive line
  | .hidden _ _ => .hidden

end Item

/-- A line as it may stand in a comment: with the space in front of it or without, and with blanks behind. -/
structure Shown where
  item : Item
  lead : List Char
  trail : List Char
  leads : lead = [] ∨ lead = [' ']
  blank : ∀ c ∈ trail, Text.isBlank c = true ∧ c ≠ '\n'

namespace Shown

def line (shown : Shown) : List Char := shown.lead ++ (shown.item.core ++ shown.trail)

/-- A line as it is written. -/
def ofItem (item : Item) : Shown where
  item
  lead := [' ']
  trail := Text.trailing item.line
  leads := .inr rfl
  blank c member := by
    refine ⟨Text.isBlank_of_mem_trailing c member, ?_⟩
    rintro rfl
    have within := List.mem_append_right (Text.trimEnd item.line) member
    rw [Text.trimEnd_append_trailing] at within
    exact item.unbroken within

theorem line_ofItem (item : Item) : (ofItem item).line = ' ' :: item.line :=
  congrArg (' ' :: ·) (Text.trimEnd_append_trailing item.line)

def withoutLead (shown : Shown) : Shown := { shown with lead := [], leads := .inl rfl }

def withoutTrail (shown : Shown) : Shown := { shown with trail := [], blank := List.forall_mem_nil _ }

theorem blank_lead (shown : Shown) : ∀ c ∈ shown.lead, Text.isBlank c = true := by
  rcases shown.leads with bare | spaced
  · rw [bare]
    exact List.forall_mem_nil _
  · rw [spaced]
    exact List.forall_mem_singleton.2 (by decide)

theorem trimStart_line_append (shown : Shown) (tail : List Char) :
    Text.trimStart (shown.line ++ tail) = shown.withoutLead.line ++ tail := by
  rw [line, List.append_assoc]
  exact Text.trimStart_append shown.blank_lead ((shown.item.core_begins.append _).append tail)

theorem trimEnd_append_line (shown : Shown) (front : List Char) :
    Text.trimEnd (front ++ shown.line) = front ++ shown.withoutTrail.line := by
  rw [line, ← List.append_assoc, ← List.append_assoc]
  rw [Text.trimEnd_append_of_closes (shown.item.core_closes.prepend _) fun c member =>
    (shown.blank c member).1, withoutTrail, line, List.append_nil, List.append_assoc]

theorem trim_line (shown : Shown) : Text.trim shown.line = shown.item.core := by
  have start := shown.trimStart_line_append []
  rw [List.append_nil, List.append_nil] at start
  rw [Text.trim, start]
  exact (shown.withoutLead.trimEnd_append_line []).trans (List.append_nil _)

theorem isLine (shown : Shown) : Text.IsLine shown.line := by
  obtain ⟨c, rest, split, -⟩ := shown.item.core_begins
  refine ⟨?_, ?_⟩
  · rw [line, split]
    simp
  · rw [line, List.mem_append, List.mem_append, not_or, not_or]
    refine ⟨?_, shown.item.newline_not_mem_core, fun member => (shown.blank _ member).2 rfl⟩
    rcases shown.leads with bare | spaced
    · rw [bare]
      exact List.not_mem_nil
    · rw [spaced]
      decide

theorem reflow_line (shown : Shown) : reflow shown.line = shown.item.core := by
  have trimmed : Text.trimEnd (shown.item.core ++ shown.trail) = shown.item.core :=
    Text.trimEnd_append_of_closes shown.item.core_closes fun c member => (shown.blank c member).1
  obtain ⟨c, rest, split, solid⟩ := shown.item.core_begins
  rcases shown.leads with bare | spaced
  · have other : c ≠ ' ' := by
      rintro rfl
      exact absurd solid (by decide)
    rw [line, bare, List.nil_append, reflow, trimmed]
    intro behind first
    rw [split] at first
    exact other (List.cons.inj first).1
  · rw [line, spaced]
    exact trimmed

/-- A line is hidden if its item is, whatever stands behind it. -/
theorem isHidden_line_append (shown : Shown) (ends : ∀ c ∈ tail.head?, Text.isBlank c = true) :
    isHidden (shown.line ++ tail) = shown.item.isHidden := by
  have blank : ∀ c ∈ (shown.trail ++ tail).head?, Text.isBlank c = true := by
    cases behind : shown.trail with
    | nil => exact ends
    | cons c rest =>
        rintro _ ⟨⟩
        exact (shown.blank c (by rw [behind]; exact List.mem_cons_self)).1
  rw [← shown.item.isHidden_core_append blank, Bool.eq_iff_iff, isHidden_iff, isHidden_iff,
    shown.trimStart_line_append, Text.trimStart_of_begins (shown.item.core_begins.append _)]
  simp only [line, withoutLead, List.nil_append, List.append_assoc]

theorem line_reading (shown : Shown) {policy : Policy} (ignored : policy.ignored = []) :
    policy.line shown.line = shown.item.reading := by
  have attended (text : List Char) : policy.ignores text = false := by
    rw [Policy.ignores, ignored]
    rfl
  have hidden : isHidden (shown.item.core ++ []) = shown.item.isHidden :=
    shown.item.isHidden_core_append nofun
  rw [List.append_nil] at hidden
  have leads : Text.startsWith directiveLead shown.item.core = true ↔ directiveLead <+: shown.item.line := by
    rw [Text.startsWith, List.isPrefixOf_iff_prefix, Item.core, solid_directiveLead.prefix_trimEnd_iff]
  unfold Policy.line
  simp only [shown.trim_line, shown.reflow_line, attended, hidden, Bool.not_false, Bool.and_true]
  cases found : shown.item with
  | text line formed =>
      rw [found] at leads
      have core : Item.core (.text line formed) = line := Item.core_eq_line formed.trimmed
      rw [if_neg (mt leads.1 formed.noDirective), core]
      rfl
  | directive line formed =>
      rw [found] at leads
      have core : Item.core (.directive line formed) = line := Item.core_eq_line formed.trimmed
      rw [if_pos (leads.2 formed.leads), core]
      rfl
  | hidden line formed =>
      rw [found] at leads
      rw [if_neg (mt leads.1 (not_directive_of_marked formed.marked))]
      rfl

end Shown

/-! ## Blocks -/

/-- Lines that stand together in a comment. -/
def blockOf (block : List Shown) : List Char := joined ['\n'] (block.map Shown.line)

section

variable {block : List Shown} {policy : Policy} {items : List Item}

theorem lines_blockOf (filled : block ≠ []) (ignored : policy.ignored = []) :
    policy.lines (blockOf block) = (block.map Shown.item).map Item.reading := by
  have formed : ∀ line ∈ block.map Shown.line, Text.IsLine line := by
    intro line member
    obtain ⟨shown, -, rfl⟩ := List.mem_map.1 member
    exact shown.isLine
  rw [Policy.lines, blockOf, Text.pieces_joined (mt List.map_eq_nil_iff.1 filled) formed, List.map_map,
    List.map_map]
  exact List.map_congr_left fun shown _ => shown.line_reading ignored

theorem isHidden_blockOf (filled : block ≠ []) :
    isHidden (blockOf block) = (block.map Shown.item).head?.any Item.isHidden := by
  obtain ⟨first, others, rfl⟩ := List.exists_cons_of_ne_nil filled
  obtain ⟨tail, ends, laid⟩ := Text.exists_joined_cons ['\n'] (others.map Shown.line)
  have blank : ∀ c ∈ tail.head?, Text.isBlank c = true := by
    rcases ends with rfl | ⟨rest, rfl⟩
    · exact nofun
    · rintro _ ⟨⟩
      decide
  rw [blockOf, List.map_cons, laid, first.isHidden_line_append blank]
  rfl

theorem filterMap_directive? (items : List Item) :
    (items.map Item.reading).filterMap Line.directive? = items.filterMap Item.directive? := by
  rw [List.filterMap_map]
  exact List.filterMap_congr fun item _ => by cases item <;> rfl

theorem filterMap_plain? (items : List Item) :
    (items.map Item.reading).filterMap Line.plain? = items.filterMap Item.text? := by
  rw [List.filterMap_map]
  exact List.filterMap_congr fun item _ => by cases item <;> rfl

/-- Lines of text neither begin nor end with a blank. -/
theorem ends_of_text? (member : text ∈ items.filterMap Item.text?) : Begins text ∧ Closes text := by
  obtain ⟨item, -, given⟩ := List.mem_filterMap.1 member
  cases item with
  | text line formed =>
      have core : Item.core (.text line formed) = line := Item.core_eq_line formed.trimmed
      have begins := Item.core_begins (.text line formed)
      have closes := Item.core_closes (.text line formed)
      rw [core] at begins closes
      cases given
      exact ⟨begins, closes⟩
  | _ => cases given

theorem ends_joined_text? (separator : List Char) (worded : items.filterMap Item.text? ≠ []) :
    Begins (joined separator (items.filterMap Item.text?)) ∧
      Closes (joined separator (items.filterMap Item.text?)) :=
  ⟨Text.joined_begins separator worded fun _ member => (ends_of_text? member).1,
    Text.joined_closes separator worded fun _ member => (ends_of_text? member).2⟩

theorem ends_of_textOf? (given : textOf? items = some text) : Begins text ∧ Closes text := by
  unfold textOf? at given
  split at given
  · cases given
  · split at given
    · cases given
    · rename_i lines filled
      cases given
      exact ends_joined_text? _ filled

theorem blockText?_blockOf (filled : block ≠ []) (ignored : policy.ignored = []) :
    policy.blockText? (blockOf block) = textOf? (block.map Shown.item) := by
  unfold Policy.blockText? textOf?
  simp only [isHidden_blockOf filled, lines_blockOf filled ignored, filterMap_plain?]
  split
  · rfl
  · by_cases empty : (block.map Shown.item).filterMap Item.text? = []
    · rw [empty]
      rfl
    · obtain ⟨begins, closes⟩ := ends_joined_text? ['\n'] empty
      have solid : Text.trim (joined ['\n'] ((block.map Shown.item).filterMap Item.text?)) ≠ [] := by
        rw [Scanner.trim_of_begins begins closes]
        obtain ⟨c, rest, split, -⟩ := begins
        exact split ▸ List.cons_ne_nil c rest
      rw [if_neg (mt List.isEmpty_iff.1 solid)]
      split
      · rename_i none
        exact absurd none empty
      · rfl

end

/-! ## Reading back -/

variable {comment : List Paragraph} {blocks : List (List Shown)}

/-- The blocks show the paragraphs of the comment, line by line. -/
def Shows (comment : List Paragraph) (blocks : List (List Shown)) : Prop :=
  blocks.map (List.map Shown.item) = comment.map Paragraph.items

def page (blocks : List (List Shown)) : List Char := layout (blocks.map (List.map Shown.line))

theorem Shows.filled (shows : Shows comment blocks) : ∀ block ∈ blocks, block ≠ [] := by
  rintro _ member rfl
  have shown := List.mem_map_of_mem (f := List.map Shown.item) member
  rw [shows] at shown
  obtain ⟨paragraph, -, empty⟩ := List.mem_map.1 shown
  exact paragraph.filled empty

theorem Shows.nonempty (shows : Shows comment blocks) (present : comment ≠ []) : blocks ≠ [] := by
  rintro rfl
  exact present (List.map_eq_nil_iff.1 shows.symm)

theorem exists_withoutLead (shows : Shows comment blocks) (present : comment ≠ []) :
    ∃ others, Shows comment others ∧ Text.trimStart (page blocks) = page others := by
  obtain ⟨block, rest, rfl⟩ := List.exists_cons_of_ne_nil (shows.nonempty present)
  obtain ⟨first, more, rfl⟩ := List.exists_cons_of_ne_nil (shows.filled block List.mem_cons_self)
  obtain ⟨tail, laid⟩ := Text.exists_layout_cons (more.map Shown.line) (rest.map (List.map Shown.line))
  refine ⟨(first.withoutLead :: more) :: rest, shows, ?_⟩
  simp only [page, List.map_cons, laid, first.trimStart_line_append]

theorem exists_withoutTrail (shows : Shows comment blocks) (present : comment ≠ []) :
    ∃ others, Shows comment others ∧ Text.trimEnd (page blocks) = page others := by
  obtain ⟨rest, block, rfl⟩ := (List.eq_nil_or_concat' blocks).resolve_left (shows.nonempty present)
  have filled := shows.filled block (List.mem_append_right rest List.mem_cons_self)
  obtain ⟨more, last, rfl⟩ := (List.eq_nil_or_concat' block).resolve_left filled
  obtain ⟨front, laid⟩ := Text.exists_layout_concat (rest.map (List.map Shown.line)) (more.map Shown.line)
  refine ⟨rest ++ [more ++ [last.withoutTrail]], ?_, ?_⟩
  · unfold Shows at shows ⊢
    simpa [Shown.withoutTrail] using shows
  · simp only [page, List.map_append, List.map_singleton, laid, last.trimEnd_append_line]

/-- Trimmed, a comment still shows its paragraphs. -/
theorem exists_trimmed (present : comment ≠ []) :
    ∃ blocks, Shows comment blocks ∧ Text.trim (written comment) = page blocks := by
  have whole : Shows comment (comment.map fun paragraph => paragraph.items.map Shown.ofItem) := by
    simp [Shows, Shown.ofItem, Function.comp_def]
  have lines : written comment = page (comment.map fun paragraph => paragraph.items.map Shown.ofItem) := by
    simp [written, page, Function.comp_def, Shown.line_ofItem]
  obtain ⟨started, shows, start⟩ := exists_withoutLead whole present
  obtain ⟨ended, still, fin⟩ := exists_withoutTrail shows present
  exact ⟨ended, still, by rw [Text.trim, lines, start, fin]⟩

/-- No line moves from one block into another. -/
theorem blocks_written (present : comment ≠ []) :
    ∃ shown, Shows comment shown ∧ Comment.blocks (written comment) = shown.map blockOf := by
  obtain ⟨shown, shows, trimmed⟩ := exists_trimmed present
  refine ⟨shown, shows, ?_⟩
  rw [Comment.blocks, trimmed, page, Text.paragraphs_layout, List.map_map]
  · rfl
  · exact mt List.map_eq_nil_iff.1 (shows.nonempty present)
  · intro lines member
    obtain ⟨block, within, rfl⟩ := List.mem_map.1 member
    exact mt List.map_eq_nil_iff.1 (shows.filled block within)
  · intro lines member line inside
    obtain ⟨block, -, rfl⟩ := List.mem_map.1 member
    obtain ⟨shown, -, rfl⟩ := List.mem_map.1 inside
    exact shown.isLine

theorem directives_written {policy : Policy} (present : comment ≠ []) (ignored : policy.ignored = []) :
    policy.directives (written comment) = directed comment := by
  obtain ⟨shown, shows, cut⟩ := blocks_written present
  have perBlock : ∀ block ∈ shown, (policy.lines (blockOf block)).filterMap Line.directive? =
      (block.map Shown.item).filterMap Item.directive? := by
    intro block member
    rw [lines_blockOf (shows.filled block member) ignored, filterMap_directive?]
  calc policy.directives (written comment)
      = shown.flatMap fun block => (policy.lines (blockOf block)).filterMap Line.directive? := by
        rw [Policy.directives, cut, List.flatMap_map]
    _ = shown.flatMap fun block => (block.map Shown.item).filterMap Item.directive? :=
        List.flatMap_congr perBlock
    _ = (shown.map (List.map Shown.item)).flatMap (List.filterMap Item.directive?) := by
        rw [List.flatMap_map]
    _ = directed comment := by
        rw [shows, List.flatMap_map, directed]

theorem fullText_written {policy : Policy} (present : comment ≠ []) (ignored : policy.ignored = []) :
    policy.fullText (written comment) = described comment := by
  obtain ⟨shown, shows, cut⟩ := blocks_written present
  have perBlock : ∀ block ∈ shown, policy.blockText? (blockOf block) =
      textOf? (block.map Shown.item) :=
    fun block member => blockText?_blockOf (shows.filled block member) ignored
  have texts : (Comment.blocks (written comment)).filterMap policy.blockText? =
      comment.filterMap fun paragraph => textOf? paragraph.items := calc
    _ = shown.filterMap fun block => policy.blockText? (blockOf block) := by
        rw [cut, List.filterMap_map]
        rfl
    _ = shown.filterMap fun block => textOf? (block.map Shown.item) := List.filterMap_congr perBlock
    _ = (shown.map (List.map Shown.item)).filterMap textOf? := by
        rw [List.filterMap_map]
        rfl
    _ = comment.filterMap fun paragraph => textOf? paragraph.items := by
        rw [shows, List.filterMap_map]
        rfl
  rw [Policy.fullText, texts, ← described]
  by_cases empty : comment.filterMap (fun paragraph => textOf? paragraph.items) = []
  · rw [described, empty]
    rfl
  · have ends : ∀ text ∈ comment.filterMap fun paragraph => textOf? paragraph.items,
        Begins text ∧ Closes text := by
      intro text member
      obtain ⟨paragraph, -, given⟩ := List.mem_filterMap.1 member
      exact ends_of_textOf? given
    exact Scanner.trim_of_begins (Text.joined_begins _ empty fun text member => (ends text member).1)
      (Text.joined_closes _ empty fun text member => (ends text member).2)

/-- A comment that keeps its lines is read as what was written: all its directives, and the text of the
paragraphs that do not open with a hidden line. -/
theorem read_comment (comment : List Paragraph) :
    Policy.read { multiline := true } (String.ofList (written comment)) =
      { description := String.ofList (described comment)
        directives := (directed comment).map String.ofList } := by
  unfold Policy.read
  rw [String.toList_ofList]
  by_cases present : comment = []
  · rw [present]
    rfl
  · have full : Policy.fullText { multiline := true } (written comment) = described comment :=
      fullText_written present rfl
    have directives : Policy.directives { multiline := true } (written comment) = directed comment :=
      directives_written present rfl
    simp only [full, directives]
    rfl

/-- A hidden line hides itself, and at the head of a paragraph all text of it. -/
theorem read_comment_hidden :
    Policy.read { multiline := true }
        " Port.\n +kubebuilder:default=80\n @exclude why \n\n $hide\n Old.\n +kubebuilder:example=8080" =
      { description := "Port."
        directives := ["+kubebuilder:default=80", "+kubebuilder:example=8080"] } := by
  have read := read_comment
    [⟨[.text "Port.".toList ⟨by decide, by decide, by decide, by decide, by decide⟩,
        .directive "+kubebuilder:default=80".toList ⟨by decide, by decide, by decide⟩,
        .hidden "@exclude why ".toList ⟨by decide, by decide⟩], List.cons_ne_nil _ _⟩,
      ⟨[.hidden "$hide".toList ⟨by decide, by decide⟩,
        .text "Old.".toList ⟨by decide, by decide, by decide, by decide, by decide⟩,
        .directive "+kubebuilder:example=8080".toList ⟨by decide, by decide, by decide⟩],
        List.cons_ne_nil _ _⟩]
  simpa [written, layout, joined, List.intercalate, Item.line, described, directed, textOf?,
    Item.isHidden, Item.text?, Item.directive?, List.filterMap_cons] using read

end ProtoSchema.Comment
