import Mathlib.Data.List.Flatten
import Mathlib.Data.List.Infix
import ProtoSchema.Proofs.Paragraphs

/-!
The lines of a text. Cutting a text into paragraphs first and trimming it loses no line that holds
something, and trimming it leaves no blanks at the ends of lines that had none there.
-/
namespace ProtoSchema.Text

open Scanner (Begins Closes)

variable {text front tail line separator : List Char} {c : Char}

theorem contains_iff {part : List Char} : contains part text = true ↔ part <:+: text := by
  induction text with
  | nil => rw [contains, List.isEmpty_iff, List.infix_nil]
  | cons c rest ih => rw [contains, Bool.or_eq_true, ih, List.isPrefixOf_iff_prefix, List.infix_cons_iff]

/-! ## Cutting at a separator -/

theorem joined_pieces (separator : Char) (text : List Char) :
    joined [separator] (pieces separator text) = text := List.intercalate_splitOn separator

theorem not_mem_of_mem_pieces {separator : Char} {piece : List Char}
    (member : piece ∈ pieces separator text) : separator ∉ piece := by
  induction text generalizing piece with
  | nil =>
      rw [List.mem_singleton.1 member]
      exact List.not_mem_nil
  | cons c rest ih =>
      rw [pieces, List.splitOnP_cons_eq_if_modifyHead, ← pieces] at member
      split at member
      · rcases List.mem_cons.1 member with rfl | behind
        · exact List.not_mem_nil
        · exact ih behind
      · rename_i other
        obtain ⟨first, others, split⟩ := List.exists_cons_of_ne_nil
          (show pieces separator rest ≠ [] from List.splitOnP_ne_nil _ rest)
        rw [split] at ih member
        rcases List.mem_cons.1 member with rfl | behind
        · rw [beq_iff_eq] at other
          exact List.not_mem_cons_of_ne_of_not_mem (Ne.symm other) (ih List.mem_cons_self)
        · exact ih (List.mem_cons_of_mem _ behind)

theorem eq_append_of_cutAt?_eq_some {separator : Char} {before behind : List Char}
    (cut : cutAt? separator text = some (before, behind)) :
    text = before ++ separator :: behind ∧ separator ∉ before := by
  induction text generalizing before with
  | nil => cases cut
  | cons c rest ih =>
      unfold cutAt? at cut
      split at cut
      · rename_i here
        cases cut
        exact ⟨congrArg (· :: behind) here, List.not_mem_nil⟩
      · rename_i other
        obtain ⟨⟨inner, tail⟩, later, same⟩ := Option.map_eq_some_iff.1 cut
        cases same
        obtain ⟨rfl, fresh⟩ := ih later
        exact ⟨rfl, List.not_mem_cons_of_ne_of_not_mem (Ne.symm other) fresh⟩

theorem not_mem_of_cutAt?_eq_none {separator : Char} (whole : cutAt? separator text = none) :
    separator ∉ text := by
  induction text with
  | nil => exact List.not_mem_nil
  | cons c rest ih =>
      unfold cutAt? at whole
      split at whole
      · cases whole
      · rename_i other
        exact List.not_mem_cons_of_ne_of_not_mem (Ne.symm other) (ih (Option.map_eq_none_iff.1 whole))

/-! ## Cutting at line ends -/

theorem pieces_of_unbroken (unbroken : '\n' ∉ line) : pieces '\n' line = [line] :=
  List.splitOnP_eq_singleton fun c member => by
    rw [beq_eq_false_iff_ne]
    rintro rfl
    exact unbroken member

theorem pieces_append_newline (front tail : List Char) :
    pieces '\n' (front ++ '\n' :: tail) = pieces '\n' front ++ pieces '\n' tail :=
  List.splitOnP_append_cons front tail rfl

/-- A text is one line, or a line and the text behind its end. -/
@[elab_as_elim]
theorem lines_induction {motive : List Char → Prop} (last : ∀ line, '\n' ∉ line → motive line)
    (more : ∀ line tail, '\n' ∉ line → motive tail → motive (line ++ '\n' :: tail))
    (text : List Char) : motive text := by
  by_cases broken : '\n' ∈ text
  · obtain ⟨line, tail, split, unbroken⟩ := List.eq_append_cons_of_mem broken
    have shorter : tail.length < text.length := by
      rw [split, List.length_append, List.length_cons]
      omega
    rw [split]
    exact more line tail unbroken (lines_induction last more tail)
  · exact last text broken
termination_by text.length

theorem exists_pieces_cons (other : c ≠ '\n') (text : List Char) : ∃ line lines,
    pieces '\n' text = line :: lines ∧ pieces '\n' (c :: text) = (c :: line) :: lines := by
  have joins {line : List Char} (unbroken : '\n' ∉ line) : '\n' ∉ c :: line :=
    mt List.mem_cons.1 (not_or.2 ⟨Ne.symm other, unbroken⟩)
  induction text using lines_induction with
  | last line unbroken =>
      exact ⟨line, [], pieces_of_unbroken unbroken, pieces_of_unbroken (joins unbroken)⟩
  | more line tail unbroken _ =>
      refine ⟨line, pieces '\n' tail, ?_, ?_⟩
      · rw [pieces_append_newline, pieces_of_unbroken unbroken, List.singleton_append]
      · rw [← List.cons_append, pieces_append_newline, pieces_of_unbroken (joins unbroken),
          List.singleton_append]

theorem exists_pieces_concat (other : c ≠ '\n') (text : List Char) : ∃ lines line,
    pieces '\n' text = lines ++ [line] ∧ pieces '\n' (text ++ [c]) = lines ++ [line ++ [c]] := by
  induction text using lines_induction with
  | last line unbroken =>
      have whole : '\n' ∉ line ++ [c] := by simp [unbroken, Ne.symm other]
      exact ⟨[], line, pieces_of_unbroken unbroken, pieces_of_unbroken whole⟩
  | more first tail unbroken ih =>
      obtain ⟨lines, line, split, grown⟩ := ih
      refine ⟨pieces '\n' first ++ lines, line, ?_, ?_⟩
      · rw [pieces_append_newline, split, List.append_assoc]
      · rw [List.append_assoc, List.cons_append, pieces_append_newline, grown, List.append_assoc]

/-! ## Trimming lines -/

theorem trimStart_cons (blank : isBlank c = true) (text : List Char) :
    trimStart (c :: text) = trimStart text :=
  List.dropWhile_cons_of_pos blank

theorem trimEnd_concat (blank : isBlank c = true) (text : List Char) :
    trimEnd (text ++ [c]) = trimEnd text :=
  List.rdropWhile_concat_pos isBlank text c blank

/-- Trimming starts at either end. -/
theorem trim_eq (text : List Char) : trim text = trimStart (trimEnd text) := by
  rw [trim]
  induction text with
  | nil => rfl
  | cons c text ih =>
      cases kind : isBlank c with
      | true =>
          rw [trimStart_cons kind, ih, ← List.singleton_append, trimEnd_append]
          split
          · rename_i empty
            rw [empty, show trimEnd [c] = [] from trimEnd_concat kind []]
          · exact (trimStart_cons kind _).symm
      | false =>
          have begins : Begins (c :: text) := ⟨c, text, rfl, kind⟩
          rw [trimStart_of_begins begins, trimStart_of_begins (begins_trimEnd begins)]

theorem trim_cons (blank : isBlank c = true) (text : List Char) : trim (c :: text) = trim text := by
  rw [trim, trimStart_cons blank, trim]

theorem trim_concat (blank : isBlank c = true) (text : List Char) : trim (text ++ [c]) = trim text := by
  rw [trim_eq, trimEnd_concat blank, trim_eq]

theorem trim_trimEnd (text : List Char) : trim (trimEnd text) = trim text := by
  rw [trim_eq, trimEnd_trimEnd, trim_eq]

theorem trim_trim (text : List Char) : trim (trim text) = trim text := by
  have started : trimStart (trimStart text) = trimStart text := List.dropWhile_idempotent isBlank text
  rw [show trim text = trimEnd (trimStart text) from rfl, trim_trimEnd, trim, started]

/-- What stays true when a blank is taken from either end of a text is true of the trimmed text. -/
theorem trim_induction {motive : List Char → Prop}
    (start : ∀ c text, isBlank c = true → motive (c :: text) → motive text)
    (fin : ∀ c text, isBlank c = true → motive (text ++ [c]) → motive text) (whole : motive text) :
    motive (trim text) := by
  have started : motive (trimStart text) := by
    induction text with
    | nil => exact whole
    | cons c text ih =>
        cases kind : isBlank c with
        | true =>
            rw [trimStart_cons kind]
            exact ih (start c text kind whole)
        | false => rwa [trimStart_of_begins ⟨c, text, rfl, kind⟩]
  rw [trim]
  generalize trimStart text = rest at started ⊢
  induction rest using List.reverseRecOn with
  | nil => exact started
  | append_singleton rest c ih =>
      cases kind : isBlank c with
      | true =>
          rw [trimEnd_concat kind]
          exact ih (fin c rest kind started)
      | false => rwa [trimEnd_of_last (Closes.last ⟨rest, c, rfl, kind⟩)]

/-! ## Lines that hold something -/

/-- The lines of a text that hold something, without the blanks around them. -/
def bareLines (text : List Char) : List (List Char) :=
  ((pieces '\n' text).map trim).filter (· ≠ [])

theorem bareLines_of_unbroken (unbroken : '\n' ∉ line) :
    bareLines line = [trim line].filter (· ≠ []) := by
  rw [bareLines, pieces_of_unbroken unbroken, List.map_singleton]

theorem bareLines_append_newline (front tail : List Char) :
    bareLines (front ++ '\n' :: tail) = bareLines front ++ bareLines tail := by
  rw [bareLines, pieces_append_newline, List.map_append, List.filter_append, bareLines, bareLines]

theorem bareLines_cons (blank : isBlank c = true) (text : List Char) :
    bareLines (c :: text) = bareLines text := by
  by_cases newline : c = '\n'
  · rw [newline, ← List.nil_append ('\n' :: text), bareLines_append_newline]
    rfl
  · obtain ⟨line, lines, split, grown⟩ := exists_pieces_cons newline text
    rw [bareLines, grown, List.map_cons, trim_cons blank, bareLines, split, List.map_cons]

theorem bareLines_concat (blank : isBlank c = true) (text : List Char) :
    bareLines (text ++ [c]) = bareLines text := by
  by_cases newline : c = '\n'
  · rw [newline, bareLines_append_newline]
    exact List.append_nil _
  · obtain ⟨lines, line, split, grown⟩ := exists_pieces_concat newline text
    rw [bareLines, grown, List.map_append, List.map_singleton, trim_concat blank, bareLines, split,
      List.map_append, List.map_singleton]

theorem bareLines_trim (text : List Char) : bareLines (trim text) = bareLines text :=
  trim_induction (motive := fun other => bareLines other = bareLines text)
    (fun _ other blank same => (bareLines_cons blank other).symm.trans same)
    (fun _ other blank same => (bareLines_concat blank other).symm.trans same) rfl

theorem bareLines_joined (splits : ∀ front tail,
    bareLines (front ++ (separator ++ tail)) = bareLines front ++ bareLines tail) (texts : List (List Char)) :
    bareLines (joined separator texts) = texts.flatMap bareLines := by
  induction texts with
  | nil => rfl
  | cons first others ih =>
      cases others with
      | nil => rw [joined_singleton, List.flatMap_singleton]
      | cons second others => rw [joined_cons_cons, splits, ih, ← List.flatMap_cons]

theorem bareLines_joined_newline (texts : List (List Char)) :
    bareLines (joined ['\n'] texts) = texts.flatMap bareLines :=
  bareLines_joined bareLines_append_newline texts

theorem bareLines_joined_emptyLine (texts : List (List Char)) :
    bareLines (joined ['\n', '\n'] texts) = texts.flatMap bareLines := by
  refine bareLines_joined (fun front tail => ?_) texts
  rw [List.cons_append, bareLines_append_newline, List.singleton_append, bareLines_cons rfl]

theorem paragraphs_ne_nil (text : List Char) : paragraphs text ≠ [] := by
  fun_cases paragraphs text <;> exact List.cons_ne_nil _ _

theorem joined_paragraphs (text : List Char) : joined ['\n', '\n'] (paragraphs text) = text := by
  induction text using paragraphs.induct with
  | case1 => rfl
  | case2 rest ih =>
      obtain ⟨block, blocks, split⟩ := List.exists_cons_of_ne_nil (paragraphs_ne_nil rest)
      rw [paragraphs, split, joined_cons_cons, ← split, ih]
      rfl
  | case3 c rest apart block blocks split ih =>
      obtain ⟨behind, -, laid⟩ := exists_joined_cons ['\n', '\n'] blocks
      rw [split, laid] at ih
      rw [paragraphs_cons (fun newline start => ?_) split, laid, List.cons_append, ih]
      obtain ⟨others, whole⟩ := List.head?_eq_some_iff.1 start
      exact apart others newline whole
  | case4 c rest apart empty _ => exact absurd empty (paragraphs_ne_nil rest)

theorem flatMap_bareLines_paragraphs (text : List Char) :
    (paragraphs text).flatMap bareLines = bareLines text := by
  rw [← bareLines_joined_emptyLine, joined_paragraphs]

/-! ## Lines without blanks at their ends -/

/-- No line ends with blanks. -/
def Tidy (text : List Char) : Prop := ∀ line ∈ pieces '\n' text, trimEnd line = line

theorem tidy_of_unbroken (unbroken : '\n' ∉ line) : Tidy line ↔ trimEnd line = line := by
  rw [Tidy, pieces_of_unbroken unbroken, List.forall_mem_singleton]

theorem tidy_append_newline : Tidy (front ++ '\n' :: tail) ↔ Tidy front ∧ Tidy tail := by
  rw [Tidy, pieces_append_newline, List.forall_mem_append, Tidy, Tidy]

theorem tidy_joined (splits : ∀ front tail, Tidy (front ++ (separator ++ tail)) ↔ Tidy front ∧ Tidy tail)
    {texts : List (List Char)} (tidy : ∀ text ∈ texts, Tidy text) : Tidy (joined separator texts) := by
  induction texts with
  | nil => exact (tidy_of_unbroken List.not_mem_nil).2 rfl
  | cons first others ih =>
      obtain ⟨here, later⟩ := List.forall_mem_cons.1 tidy
      cases others with
      | nil => rwa [joined_singleton]
      | cons second others =>
          rw [joined_cons_cons, splits]
          exact ⟨here, ih later⟩

theorem tidy_joined_newline {texts : List (List Char)} (tidy : ∀ text ∈ texts, Tidy text) :
    Tidy (joined ['\n'] texts) :=
  tidy_joined (fun _ _ => tidy_append_newline) tidy

theorem tidy_joined_emptyLine {texts : List (List Char)} (tidy : ∀ text ∈ texts, Tidy text) :
    Tidy (joined ['\n', '\n'] texts) := by
  refine tidy_joined (fun front tail => ?_) tidy
  have empty : Tidy [] := (tidy_of_unbroken List.not_mem_nil).2 rfl
  rw [List.cons_append, tidy_append_newline, List.singleton_append, ← List.nil_append ('\n' :: tail),
    tidy_append_newline, and_iff_right empty]

theorem Tidy.of_cons (tidy : Tidy (c :: text)) : Tidy text := by
  by_cases newline : c = '\n'
  · rw [newline, ← List.nil_append ('\n' :: text), tidy_append_newline] at tidy
    exact tidy.2
  · obtain ⟨line, lines, split, grown⟩ := exists_pieces_cons newline text
    rw [Tidy, grown, List.forall_mem_cons] at tidy
    rw [Tidy, split, List.forall_mem_cons]
    refine ⟨List.rdropWhile_eq_self_iff.2 fun filled => ?_, tidy.2⟩
    have last := List.rdropWhile_eq_self_iff.1 tidy.1 (List.cons_ne_nil c line)
    rwa [List.getLast_cons filled] at last

theorem Tidy.of_concat (blank : isBlank c = true) (tidy : Tidy (text ++ [c])) : Tidy text := by
  by_cases newline : c = '\n'
  · rw [newline, tidy_append_newline] at tidy
    exact tidy.1
  · obtain ⟨lines, line, -, grown⟩ := exists_pieces_concat newline text
    -- No line ends with the blank.
    have kept := tidy (line ++ [c]) (by rw [grown]; exact List.mem_append_right lines List.mem_cons_self)
    have last := List.rdropWhile_eq_self_iff.1 kept (by simp)
    rw [List.getLast_concat] at last
    exact absurd blank last

theorem Tidy.trim (tidy : Tidy text) : Tidy (Text.trim text) :=
  trim_induction (fun _ _ _ => Tidy.of_cons) (fun _ _ => Tidy.of_concat) tidy

/-- Where lines do not end with blanks, those that are not empty hold something. -/
theorem Tidy.map_trim (tidy : Tidy text) :
    ((pieces '\n' text).filter (· ≠ [])).map Text.trim = bareLines text := by
  rw [bareLines, List.filter_map]
  refine congrArg (List.map Text.trim) (List.filter_congr fun line member => ?_)
  have kept := tidy line member
  rw [Function.comp_apply, decide_eq_decide, trim_eq, kept]
  refine not_congr ⟨fun empty => by rw [empty]; rfl, fun empty => ?_⟩
  rw [← kept]
  exact List.rdropWhile_eq_nil_iff.2 (List.dropWhile_eq_nil_iff.1 empty)

end ProtoSchema.Text
