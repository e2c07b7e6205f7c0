import ProtoSchema.Proofs.CommentWriting
import ProtoSchema.Proofs.Lines

/-!
The lines of any comment, told apart. Cut at line ends alone, a comment shows the same directives as cut
into blocks first, and no directive and no mark that hides text gets into the description.
-/
namespace ProtoSchema.Comment

open scoped List
open Text (Tidy bareLines pieces trim)

/-! ## Kinds of lines -/

/-- A line is a directive if it starts like one and none of the ignored substrings occurs in it. -/
def Policy.Directs (policy : Policy) (line : List Char) : Prop :=
  directiveLead <+: line ∧ ∀ part ∈ policy.ignored, part ≠ "" → ¬ part.toList <:+: line

/-- The text starts with a mark that hides it. -/
def Marked (text : List Char) : Prop := ∃ mark ∈ hidingMarks, mark <+: text

/-- A line for the description. -/
structure Policy.Plain (policy : Policy) (line : List Char) : Prop where
  noDirective : ¬ policy.Directs line
  unmarked : ¬ Marked line

instance (text : List Char) : Decidable (Marked text) :=
  inferInstanceAs (Decidable (∃ mark ∈ hidingMarks, mark <+: text))

section

variable {policy : Policy} {text line block : List Char}

instance : DecidablePred policy.Directs := fun line =>
  inferInstanceAs (Decidable (directiveLead <+: line ∧
    ∀ part ∈ policy.ignored, part ≠ "" → ¬ part.toList <:+: line))

instance : DecidablePred policy.Plain := fun line =>
  decidable_of_iff (¬ policy.Directs line ∧ ¬ Marked line)
    ⟨fun both => ⟨both.1, both.2⟩, fun plain => ⟨plain.noDirective, plain.unmarked⟩⟩

theorem isHidden_iff_marked : isHidden text = true ↔ Marked (trim text) := by
  rw [isHidden, List.any_eq_true, Marked]
  exact exists_congr fun mark => and_congr_right fun _ => List.isPrefixOf_iff_prefix

theorem Policy.ignores_eq_false_iff :
    policy.ignores text = false ↔ ∀ part ∈ policy.ignored, part ≠ "" → ¬ part.toList <:+: text := by
  rw [ignores, List.any_eq_false]
  refine forall_congr' fun part => imp_congr_right fun _ => ?_
  rw [Bool.and_eq_true, not_and, Text.contains_iff]
  simp

theorem Policy.directs_iff : policy.Directs line ↔
    (Text.startsWith directiveLead line && !policy.ignores line) = true := by
  rw [Bool.and_eq_true, Bool.not_eq_true', ignores_eq_false_iff, Text.startsWith, List.isPrefixOf_iff_prefix,
    Directs]

theorem Policy.plain_nil (policy : Policy) : policy.Plain [] := by
  have unmarked : ¬ Marked [] := by decide
  exact ⟨fun directs => absurd (List.prefix_nil.1 directs.1) (by decide), unmarked⟩

theorem trim_reflow (line : List Char) : trim (reflow line) = trim line := by
  fun_cases reflow line with
  | case1 rest => rw [Text.trim_trimEnd, Text.trim_cons (by decide)]
  | case2 line _ => rw [Text.trim_trimEnd]

theorem Policy.line_eq (policy : Policy) (line : List Char) :
    policy.line line =
      if policy.Directs (trim line) then .directive (trim line)
      else if Marked (trim line) then .hidden
      else .plain (reflow line) := by
  have marked : isHidden (trim line) = true ↔ Marked (trim line) := by
    rw [isHidden_iff_marked, Text.trim_trim]
  simp only [Policy.line, ← directs_iff, marked]

/-! ## Lines of a block -/

theorem Policy.filterMap_directive? (policy : Policy) (block : List Char) :
    (policy.lines block).filterMap Line.directive? =
      ((pieces '\n' block).map trim).filter policy.Directs := by
  have each : Line.directive? ∘ policy.line = Option.guard (fun line => policy.Directs line) ∘ trim := by
    funext line
    simp only [Function.comp_apply, line_eq, Option.guard, decide_eq_true_eq]
    by_cases directs : policy.Directs (trim line)
    · rw [if_pos directs, if_pos directs]
      rfl
    · rw [if_neg directs, if_neg directs]
      split <;> rfl
  rw [lines, List.filterMap_map, each, ← List.filterMap_map, List.filterMap_eq_filter]

theorem Policy.filterMap_plain? (policy : Policy) (block : List Char) :
    (policy.lines block).filterMap Line.plain? =
      ((pieces '\n' block).filter fun line => policy.Plain (trim line)).map reflow := by
  have each : Line.plain? ∘ policy.line = fun line =>
      (Option.guard (fun line => policy.Plain (trim line)) line).map reflow := by
    funext line
    simp only [Function.comp_apply, line_eq, Option.guard, decide_eq_true_eq]
    by_cases directs : policy.Directs (trim line)
    · rw [if_pos directs, if_neg fun plain => plain.noDirective directs]
      rfl
    · by_cases marked : Marked (trim line)
      · rw [if_neg directs, if_pos marked, if_neg fun plain => plain.unmarked marked]
        rfl
      · rw [if_neg directs, if_neg marked, if_pos ⟨directs, marked⟩]
        rfl
  rw [lines, List.filterMap_map, each, ← List.filterMap_eq_filter, List.map_filterMap]

theorem newline_not_mem_reflow (unbroken : '\n' ∉ line) : '\n' ∉ reflow line := by
  have fewer {text : List Char} (unbroken : '\n' ∉ text) : '\n' ∉ Text.trimEnd text :=
    fun member => unbroken ((List.rdropWhile_prefix Text.isBlank text).mem member)
  fun_cases reflow line with
  | case1 rest => exact fewer (mt (List.mem_cons_of_mem ' ') unbroken)
  | case2 line _ => exact fewer unbroken

theorem trimEnd_reflow (line : List Char) : Text.trimEnd (reflow line) = reflow line := by
  fun_cases reflow line with
  | case1 rest => exact Text.trimEnd_trimEnd rest
  | case2 line _ => exact Text.trimEnd_trimEnd line

theorem bareLines_reflow (unbroken : '\n' ∉ line) :
    bareLines (reflow line) = [trim line].filter (· ≠ []) := by
  rw [Text.bareLines_of_unbroken (newline_not_mem_reflow unbroken), trim_reflow]

/-- The lines that a block adds to the description: none if it is hidden, and else those that are neither
directives nor hidden. -/
theorem Policy.bareLines_blockText? (policy : Policy) (block : List Char) :
    ((policy.blockText? block).map bareLines).getD [] =
      if isHidden block then [] else (bareLines block).filter policy.Plain := by
  have kept : bareLines (Text.joined ['\n'] ((policy.lines block).filterMap Line.plain?)) =
      (bareLines block).filter policy.Plain := by
    have each : ∀ line ∈ (pieces '\n' block).filter fun line => policy.Plain (trim line),
        bareLines (reflow line) = [trim line].filter (· ≠ []) := fun line member =>
      bareLines_reflow (Text.not_mem_of_mem_pieces (List.mem_of_mem_filter member))
    rw [filterMap_plain?, Text.bareLines_joined_newline, List.flatMap_map, List.flatMap_congr each,
      ← List.filter_flatMap, ← List.map_eq_flatMap, bareLines, List.filter_comm]
    simp only [List.filter_map]
    rfl
  unfold blockText?
  by_cases hidden : isHidden block = true
  · rw [if_pos hidden, if_pos hidden]
    rfl
  · rw [if_neg hidden, if_neg hidden, ← kept]
    dsimp only
    split
    · rename_i empty
      rw [← Text.bareLines_trim, List.isEmpty_iff.1 empty]
      rfl
    · rfl

end

/-! ## Whole comments -/

variable (policy : Policy) (comment : List Char)

theorem flatMap_bareLines_blocks : (blocks comment).flatMap bareLines = bareLines comment := by
  rw [blocks, Text.flatMap_bareLines_paragraphs, Text.bareLines_trim]

theorem Policy.filter_directs (text : List Char) :
    (bareLines text).filter policy.Directs = ((pieces '\n' text).map trim).filter policy.Directs := by
  rw [bareLines, List.filter_filter]
  refine List.filter_congr fun line _ => ?_
  rw [Bool.and_eq_left_iff_imp, decide_eq_true_eq, decide_eq_true_eq]
  rintro directs rfl
  exact policy.plain_nil.noDirective directs

/-- A directive is found wherever it stands. -/
theorem Policy.directives_eq :
    policy.directives comment = ((pieces '\n' comment).map trim).filter policy.Directs := by
  simp only [directives, filterMap_directive?, ← filter_directs, ← List.filter_flatMap,
    flatMap_bareLines_blocks]

/-- The description has the lines of all blocks that are not hidden, but for directives and hidden lines. -/
theorem Policy.bareLines_fullText :
    bareLines (policy.fullText comment) = (blocks comment).flatMap fun block =>
      if isHidden block then [] else (bareLines block).filter policy.Plain := by
  have each (block : List Char) : (policy.blockText? block).toList.flatMap bareLines =
      ((policy.blockText? block).map bareLines).getD [] := by
    cases policy.blockText? block with
    | none => rfl
    | some text => exact List.flatMap_singleton bareLines text
  -- Neither the outer trim nor the empty lines between blocks change a line that holds something.
  rw [fullText, Text.bareLines_trim, Text.bareLines_joined_emptyLine, List.filterMap_eq_flatMap_toList,
    List.flatMap_assoc]
  simp only [each, bareLines_blockText?]

theorem Policy.tidy_fullText : Tidy (policy.fullText comment) := by
  refine Tidy.trim (Text.tidy_joined_emptyLine fun text member => ?_)
  obtain ⟨block, -, given⟩ := List.mem_filterMap.1 member
  have laid : Text.joined ['\n'] ((policy.lines block).filterMap Line.plain?) = text := by
    simp only [blockText?, Option.ite_none_left_eq_some, Option.some.injEq] at given
    exact given.2.2
  rw [← laid, filterMap_plain?]
  refine Text.tidy_joined_newline fun kept shown => ?_
  obtain ⟨line, inside, rfl⟩ := List.mem_map.1 shown
  have unbroken := Text.not_mem_of_mem_pieces (List.mem_of_mem_filter inside)
  exact (Text.tidy_of_unbroken (newline_not_mem_reflow unbroken)).2 (trimEnd_reflow line)

/-- Every line of the description is one of the comment. -/
theorem Policy.bareLines_fullText_sublist : bareLines (policy.fullText comment) <+ bareLines comment := by
  rw [bareLines_fullText, ← flatMap_bareLines_blocks comment]
  refine List.Sublist.flatMap_right _ fun block _ => ?_
  split
  · exact List.nil_sublist _
  · exact List.filter_sublist

theorem Policy.plain_of_mem_fullText {line : List Char}
    (member : line ∈ pieces '\n' (policy.fullText comment)) : policy.Plain (trim line) := by
  by_cases empty : trim line = []
  · -- An empty line comes from no line in particular.
    rw [empty]
    exact policy.plain_nil
  · have bare : trim line ∈ bareLines (policy.fullText comment) :=
      List.mem_filter.2 ⟨List.mem_map_of_mem member, decide_eq_true empty⟩
    rw [bareLines_fullText] at bare
    obtain ⟨block, -, inside⟩ := List.mem_flatMap.1 bare
    split at inside
    · cases inside
    · exact of_decide_eq_true (List.mem_filter.1 inside).2

/-- The description that keeps its lines. -/
def Policy.described (policy : Policy) (comment : String) : List Char :=
  (Policy.read { policy with describe := true, multiline := true } comment).description.toList

theorem Policy.described_eq (comment : String) : policy.described comment = policy.fullText comment.toList :=
  String.toList_ofList

/-- Directives and description of a comment do not mix, and both are made of its lines. -/
structure Policy.TellsApart (policy : Policy) (comment : String) : Prop where
  /-- The directives are all lines that direct, in their order. -/
  directives : (policy.read comment).directives =
    (((pieces '\n' comment.toList).map trim).filter policy.Directs).map String.ofList
  unmarked : ∀ line ∈ pieces '\n' (policy.described comment), ¬ Marked (trim line)
  noDirective : ∀ line ∈ pieces '\n' (policy.described comment), ¬ policy.Directs (trim line)
  /-- The lines of the description are lines of the comment, in their order. -/
  ordered : ((pieces '\n' (policy.described comment)).filter (· ≠ [])).map trim <+
    (pieces '\n' comment.toList).map fun line => trim (reflow line)

theorem Policy.tellsApart (comment : String) : policy.TellsApart comment where
  directives := congrArg (List.map String.ofList) (policy.directives_eq comment.toList)
  unmarked line member := by
    rw [policy.described_eq] at member
    exact (policy.plain_of_mem_fullText comment.toList member).unmarked
  noDirective line member := by
    rw [policy.described_eq] at member
    exact (policy.plain_of_mem_fullText comment.toList member).noDirective
  ordered := by
    rw [policy.described_eq, (policy.tidy_fullText comment.toList).map_trim]
    simp only [trim_reflow]
    exact (policy.bareLines_fullText_sublist comment.toList).trans List.filter_sublist

example : Policy.read { multiline := true }
    " A port.\r\n\n\n @exclude it\n +kubebuilder:default=80\n\n Or more." =
      { description := "A port.\n\nOr more."
        directives := ["+kubebuilder:default=80"] } := by
  decide +kernel

end ProtoSchema.Comment
