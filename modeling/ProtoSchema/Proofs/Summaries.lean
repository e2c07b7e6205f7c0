import ProtoSchema.Proofs.CommentLines

/-!
Summaries: descriptions on one line. A summary is the first paragraph of the description, or nothing where
the first block of the comment is hidden. Which blocks are hidden is judged by their first character alone,
and so that holds only of comments where a dollar sign and nothing else hides the first block.
-/
namespace ProtoSchema

namespace Text

open Scanner (Begins)

variable {text : List Char}

theorem joined_words_ne_nil (begins : Begins text) : joined [' '] (words text) ≠ [] := by
  obtain ⟨c, rest, rfl, solid⟩ := begins
  obtain ⟨word, others, split⟩ := List.exists_cons_of_ne_nil (List.splitOnP_ne_nil isBlank rest)
  have first : words (c :: rest) = (c :: word) :: others.filter fun word => !word.isEmpty := by
    rw [words, List.splitOnP_cons_eq_if_modifyHead, if_neg (by simp [solid]), split]
    rfl
  obtain ⟨behind, -, laid⟩ := exists_joined_cons [' '] (others.filter fun word => !word.isEmpty)
  rw [first, laid]
  exact List.cons_ne_nil c (word ++ behind)

end Text

namespace Comment

open Scanner (Begins)

/-! ## The first block -/

theorem begins_firstParagraph {text : List Char} (begins : Begins text) : Begins (firstParagraph text) := by
  obtain ⟨c, rest, rfl, solid⟩ := begins
  obtain ⟨block, blocks, split⟩ := List.exists_cons_of_ne_nil (Text.paragraphs_ne_nil rest)
  have apart : c = '\n' → rest.head? ≠ some '\n' := by
    rintro rfl
    exact absurd solid (by decide)
  rw [firstParagraph, Text.paragraphs_cons apart split]
  exact ⟨c, block, rfl, solid⟩

/-- The first block of a comment. -/
def opening (comment : String) : List Char := firstParagraph (Text.trim comment.toList)

/-- The first paragraph of what a comment describes, with single spaces between its words. -/
def Policy.firstWords (policy : Policy) (comment : String) : List Char :=
  Text.joined [' '] (Text.words (firstParagraph (policy.described comment)))

/-- A dollar sign opens the comment or what it describes. -/
def Policy.DollarSigned (policy : Policy) (comment : String) : Prop :=
  ['$'] <+: opening comment ∨ ['$'] <+: firstParagraph (policy.described comment)

variable {policy : Policy} {comment : String}

instance : Decidable (policy.DollarSigned comment) :=
  inferInstanceAs (Decidable (_ <+: _ ∨ _ <+: _))

theorem Policy.firstWords_ne_nil (filled : policy.described comment ≠ []) : policy.firstWords comment ≠ [] := by
  refine Text.joined_words_ne_nil (begins_firstParagraph ?_)
  rw [described_eq, fullText] at filled ⊢
  exact Text.begins_trim filled

theorem Policy.description_of_oneLine (describes : policy.describe = true)
    (oneLine : policy.multiline = false) : (policy.read comment).description =
      if policy.DollarSigned comment then "" else String.ofList (policy.firstWords comment) := by
  have signed : (Text.startsWith ['$'] (firstParagraph (Text.trim comment.toList)) ||
      Text.startsWith ['$'] (firstParagraph (policy.fullText comment.toList))) = true ↔
        policy.DollarSigned comment := by
    rw [Bool.or_eq_true, DollarSigned, opening, described_eq]
    exact or_congr List.isPrefixOf_iff_prefix List.isPrefixOf_iff_prefix
  simp only [read, describes, oneLine, summary, signed, firstWords, described_eq, Bool.not_true,
    Bool.false_eq_true, if_false, apply_ite String.ofList, String.ofList_nil]

/-! ## Summaries -/

/-- A hidden first block hides the summary, and otherwise the summary is the first paragraph that is
described. -/
structure Policy.Summarizes (policy : Policy) (comment : String) : Prop where
  hidden : Marked (Text.trim (opening comment)) → (policy.read comment).description = ""
  shown : ¬ Marked (Text.trim (opening comment)) →
    (policy.read comment).description = String.ofList (policy.firstWords comment)
  filled : ¬ Marked (Text.trim (opening comment)) → policy.described comment ≠ [] →
    (policy.read comment).description ≠ ""

/-- A comment is summed up like this exactly if it describes nothing, or a dollar sign stands where the
first block is hidden and nowhere else. -/
theorem Policy.summarizes_iff (describes : policy.describe = true) (oneLine : policy.multiline = false) :
    policy.Summarizes comment ↔
      policy.described comment = [] ∨
        (Marked (Text.trim (opening comment)) ↔ policy.DollarSigned comment) := by
  have read : (policy.read comment).description = _ := description_of_oneLine describes oneLine
  by_cases empty : policy.described comment = []
  · -- Then there are no words, whatever is hidden.
    have words : String.ofList (policy.firstWords comment) = "" := by
      rw [firstWords, empty]
      rfl
    rw [words, ite_self] at read
    refine iff_of_true ⟨fun _ => read, fun _ => ?_, fun _ filled => absurd empty filled⟩ (.inl empty)
    rw [read, words]
  · have words : String.ofList (policy.firstWords comment) ≠ "" :=
      mt String.ofList_eq_empty_iff.1 (firstWords_ne_nil empty)
    rw [or_iff_right empty]
    constructor
    · intro follows
      by_cases signed : policy.DollarSigned comment
      · rw [if_pos signed] at read
        refine iff_of_true (not_not.1 fun plain => ?_) signed
        exact follows.filled plain empty read
      · rw [if_neg signed] at read
        exact iff_of_false (fun marked => words (read.symm.trans (follows.hidden marked))) signed
    · intro same
      refine ⟨fun marked => ?_, fun plain => ?_, fun plain _ => ?_⟩
      · rw [read, if_pos (same.1 marked)]
      · rw [read, if_neg (mt same.2 plain)]
      · rw [read, if_neg (mt same.2 plain)]
        exact words

theorem Policy.summarizes_iff_first_paragraph :
    Policy.Summarizes {} " The first words\n of it.\n\n More.\n" :=
  (summarizes_iff rfl rfl).2 (.inr (by decide +kernel))

/-- The block behind a hidden one is summed up, and a price is not. -/
theorem Policy.exists_not_summarizes :
    ¬ Policy.Summarizes {} " @exclude internal\n\n Public text.\n" ∧
      ¬ Policy.Summarizes {} " $5 per call.\n" := by
  constructor
  · intro follows
    exact absurd (follows.hidden (by decide +kernel)) (by decide +kernel)
  · intro follows
    exact absurd (follows.shown (by decide +kernel)) (by decide +kernel)

end Comment

end ProtoSchema
