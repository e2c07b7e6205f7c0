import Mathlib.Data.List.DropRight
import ProtoSchema.Proofs.Scanning
import ProtoSchema.Text.Split

/-!
Texts laid out in lines and paragraphs. Lines that hold something are found again between line ends, and
paragraphs of such lines between empty lines.
-/
namespace ProtoSchema.Text

open Scanner (Begins Closes)

variable {text mark line tail block : List Char} {lines : List (List Char)}

/-! ## Blanks around a text -/

/-- The blanks at the end of a text. -/
def trailing (text : List Char) : List Char := (text.reverse.takeWhile isBlank).reverse

theorem trimEnd_append_trailing (text : List Char) : trimEnd text ++ trailing text = text := by
  rw [trimEnd, trailing, ← List.reverse_append, List.takeWhile_append_dropWhile, List.reverse_reverse]

theorem isBlank_of_mem_trailing : ∀ c ∈ trailing text, isBlank c = true :=
  fun _ member => List.mem_takeWhile_imp (List.mem_reverse.1 member)

theorem trimEnd_trimEnd (text : List Char) : trimEnd (trimEnd text) = trimEnd text :=
  List.rdropWhile_idempotent isBlank text

theorem trimStart_append {blanks : List Char} (blank : ∀ c ∈ blanks, isBlank c = true)
    (begins : Begins text) : trimStart (blanks ++ text) = text :=
  begins.next blank ⟨0, []⟩

theorem trimStart_of_begins (begins : Begins text) : trimStart text = text :=
  trimStart_of_head begins.first

theorem trimEnd_append_of_closes {blanks : List Char} (closes : Closes text)
    (blank : ∀ c ∈ blanks, isBlank c = true) : trimEnd (text ++ blanks) = text := by
  have empty : trimEnd blanks = [] := List.rdropWhile_eq_nil_iff.2 blank
  rw [closes.trimEnd_append, empty, List.append_nil]

theorem begins_trimEnd (begins : Begins text) : Begins (trimEnd text) := by
  obtain ⟨c, rest, rfl, solid⟩ := begins
  have alone : trimEnd [c] = [c] := trimEnd_of_last fun last closing => by
    cases closing
    exact solid
  rw [← List.singleton_append, trimEnd_append, alone]
  split
  · exact ⟨c, [], rfl, solid⟩
  · exact ⟨c, trimEnd rest, rfl, solid⟩

theorem closes_trimEnd (filled : trimEnd text ≠ []) : Closes (trimEnd text) := by
  refine ⟨_, _, (List.dropLast_concat_getLast filled).symm, ?_⟩
  exact Bool.eq_false_iff.2 (List.rdropWhile_last_not isBlank text filled)

theorem begins_trim (filled : trim text ≠ []) : Begins (trim text) := by
  rw [trim] at filled ⊢
  refine begins_trimEnd ?_
  cases start : trimStart text with
  | nil =>
      rw [start] at filled
      exact absurd rfl filled
  | cons c rest =>
      have first := List.head?_dropWhile_not isBlank text
      rw [show text.dropWhile isBlank = c :: rest from start] at first
      exact ⟨c, rest, rfl, by simpa using first⟩

/-- A beginning without blanks does not reach over a blank. -/
theorem Solid.prefix_append_iff (solid : Solid mark) (ends : ∀ c ∈ tail.head?, isBlank c = true) :
    mark <+: text ++ tail ↔ mark <+: text := by
  constructor
  · intro begins
    rcases List.prefix_or_prefix_of_prefix begins (List.prefix_append text tail) with inside | ⟨more, rfl⟩
    · exact inside
    · cases more with
      | nil => exact ⟨[], by rw [List.append_nil, List.append_nil]⟩
      | cons c more =>
          obtain ⟨behind, split⟩ := begins
          rw [List.append_assoc, List.append_cancel_left_eq] at split
          have blank := ends c (by rw [← split]; rfl)
          rw [solid c (List.mem_append_right _ List.mem_cons_self)] at blank
          cases blank
  · exact fun begins => begins.trans (List.prefix_append text tail)

theorem Solid.prefix_trimEnd_iff (solid : Solid mark) : mark <+: trimEnd text ↔ mark <+: text := by
  have cut : mark <+: trimEnd text ++ trailing text ↔ mark <+: trimEnd text :=
    solid.prefix_append_iff fun c first => isBlank_of_mem_trailing c (List.mem_of_mem_head? first)
  rw [trimEnd_append_trailing] at cut
  exact cut.symm

/-! ## Pieces put together -/

theorem joined_cons_cons (separator first second : List Char) (rest : List (List Char)) :
    joined separator (first :: second :: rest) =
      first ++ (separator ++ joined separator (second :: rest)) := by
  rw [joined, List.intercalate_cons_cons, List.append_assoc, joined]

@[simp] theorem joined_singleton (separator piece : List Char) : joined separator [piece] = piece :=
  List.intercalate_singleton

theorem mem_joined {c : Char} {separator : List Char} {pieces : List (List Char)}
    (member : c ∈ joined separator pieces) : c ∈ separator ∨ ∃ piece ∈ pieces, c ∈ piece := by
  induction pieces with
  | nil => cases member
  | cons first others ih =>
      cases others with
      | nil =>
          rw [joined_singleton] at member
          exact .inr ⟨first, List.mem_cons_self, member⟩
      | cons second others =>
          rw [joined_cons_cons, List.mem_append, List.mem_append] at member
          rcases member with here | between | later
          · exact .inr ⟨first, List.mem_cons_self, here⟩
          · exact .inl between
          · refine (ih later).imp_right fun ⟨piece, within, inside⟩ => ?_
            exact ⟨piece, List.mem_cons_of_mem first within, inside⟩

/-- The first piece stands in front of nothing or of a separator. -/
theorem exists_joined_cons (separator : List Char) (others : List (List Char)) :
    ∃ tail, (tail = [] ∨ separator <+: tail) ∧
      ∀ first, joined separator (first :: others) = first ++ tail := by
  cases others with
  | nil => exact ⟨[], .inl rfl, fun first => by rw [joined_singleton, List.append_nil]⟩
  | cons second rest =>
      refine ⟨_, .inr (List.prefix_append _ _), fun first => joined_cons_cons separator first second rest⟩

theorem exists_joined_concat (separator : List Char) (others : List (List Char)) :
    ∃ front, ∀ last, joined separator (others ++ [last]) = front ++ last := by
  induction others with
  | nil => exact ⟨[], fun last => joined_singleton separator last⟩
  | cons first others ih =>
      obtain ⟨front, laid⟩ := ih
      refine ⟨first ++ (separator ++ front), fun last => ?_⟩
      rw [List.append_assoc, List.append_assoc, ← laid]
      cases others with
      | nil => exact joined_cons_cons separator first last []
      | cons second others => exact joined_cons_cons separator first second (others ++ [last])

theorem joined_begins {pieces : List (List Char)} (separator : List Char) (filled : pieces ≠ [])
    (begin : ∀ piece ∈ pieces, Begins piece) : Begins (joined separator pieces) := by
  obtain ⟨first, others, rfl⟩ := List.exists_cons_of_ne_nil filled
  obtain ⟨tail, -, laid⟩ := exists_joined_cons separator others
  rw [laid]
  exact (begin first List.mem_cons_self).append tail

theorem joined_closes {pieces : List (List Char)} (separator : List Char) (filled : pieces ≠ [])
    (close : ∀ piece ∈ pieces, Closes piece) : Closes (joined separator pieces) := by
  obtain ⟨front, laid⟩ := exists_joined_concat separator pieces.dropLast
  have last := laid (pieces.getLast filled)
  rw [List.dropLast_concat_getLast] at last
  rw [last]
  exact (close _ (List.getLast_mem filled)).prepend front

/-! ## Lines -/

/-- A line with something in it. -/
structure IsLine (line : List Char) : Prop where
  filled : line ≠ []
  unbroken : '\n' ∉ line

theorem IsLine.head_ne (formed : IsLine line) (text : List Char) : (line ++ text).head? ≠ some '\n' := by
  obtain ⟨c, rest, rfl⟩ := List.exists_cons_of_ne_nil formed.filled
  intro first
  cases first
  exact formed.unbroken List.mem_cons_self

theorem pieces_joined (filled : lines ≠ []) (formed : ∀ line ∈ lines, IsLine line) :
    pieces '\n' (joined ['\n'] lines) = lines :=
  List.splitOn_intercalate '\n' (fun line member => (formed line member).unbroken) filled

/-! ## Paragraphs -/

theorem paragraphs_cons {c : Char} {blocks : List (List Char)}
    (apart : c = '\n' → tail.head? ≠ some '\n') (split : paragraphs tail = block :: blocks) :
    paragraphs (c :: tail) = (c :: block) :: blocks := by
  rw [paragraphs, split]
  rintro rest rfl rfl
  exact apart rfl rfl

theorem paragraphs_line_append {blocks : List (List Char)} (unbroken : '\n' ∉ line)
    (split : paragraphs tail = block :: blocks) :
    paragraphs (line ++ tail) = (line ++ block) :: blocks := by
  induction line with
  | nil => exact split
  | cons c line ih =>
      obtain ⟨other, others⟩ := not_or.1 (mt List.mem_cons.2 unbroken)
      exact paragraphs_cons (fun same => absurd same.symm other) (ih others)

/-- Between lines that hold something there are no two line ends in a row. -/
theorem paragraphs_lines_append {blocks : List (List Char)} (filled : lines ≠ [])
    (formed : ∀ line ∈ lines, IsLine line) (split : paragraphs tail = block :: blocks) :
    paragraphs (joined ['\n'] lines ++ tail) = (joined ['\n'] lines ++ block) :: blocks := by
  induction lines with
  | nil => exact absurd rfl filled
  | cons line lines ih =>
      obtain ⟨here, later⟩ := List.forall_mem_cons.1 formed
      cases lines with
      | nil =>
          rw [joined_singleton]
          exact paragraphs_line_append here.unbroken split
      | cons next lines =>
          have behind := ih (List.cons_ne_nil _ _) later
          have goesOn : (joined ['\n'] (next :: lines) ++ tail).head? ≠ some '\n' := by
            obtain ⟨others, -, laid⟩ := exists_joined_cons ['\n'] lines
            rw [laid, List.append_assoc]
            exact (later next List.mem_cons_self).head_ne _
          simp only [joined_cons_cons, List.append_assoc]
          exact paragraphs_line_append here.unbroken (paragraphs_cons (fun _ => goesOn) behind)

/-- A text of paragraphs, each of them in lines. -/
def layout (blocks : List (List (List Char))) : List Char :=
  joined ['\n', '\n'] (blocks.map (joined ['\n']))

theorem paragraphs_layout {blocks : List (List (List Char))} (present : blocks ≠ [])
    (filled : ∀ lines ∈ blocks, lines ≠ []) (formed : ∀ lines ∈ blocks, ∀ line ∈ lines, IsLine line) :
    paragraphs (layout blocks) = blocks.map (joined ['\n']) := by
  induction blocks with
  | nil => exact absurd rfl present
  | cons lines blocks ih =>
      obtain ⟨here, later⟩ := List.forall_mem_cons.1 filled
      obtain ⟨these, those⟩ := List.forall_mem_cons.1 formed
      cases blocks with
      | nil =>
          have alone := paragraphs_lines_append here these (show paragraphs [] = [] :: [] from rfl)
          rw [List.append_nil] at alone
          rw [layout, List.map_singleton, joined_singleton, alone]
      | cons next blocks =>
          have behind := ih (List.cons_ne_nil _ _) later those
          have cut : paragraphs ('\n' :: '\n' :: layout (next :: blocks)) =
              [] :: (next :: blocks).map (joined ['\n']) := by rw [paragraphs, behind]
          have whole := paragraphs_lines_append here these cut
          rw [List.append_nil] at whole
          rw [layout, List.map_cons, List.map_cons, joined_cons_cons, ← List.map_cons]
          exact whole

theorem exists_layout_cons (others : List (List Char)) (blocks : List (List (List Char))) :
    ∃ tail, ∀ first, layout ((first :: others) :: blocks) = first ++ tail := by
  obtain ⟨inner, -, within⟩ := exists_joined_cons ['\n'] others
  obtain ⟨outer, -, around⟩ := exists_joined_cons ['\n', '\n'] (blocks.map (joined ['\n']))
  refine ⟨inner ++ outer, fun first => ?_⟩
  rw [layout, List.map_cons, around, within, List.append_assoc]

theorem exists_layout_concat (blocks : List (List (List Char))) (others : List (List Char)) :
    ∃ front, ∀ last, layout (blocks ++ [others ++ [last]]) = front ++ last := by
  obtain ⟨inner, within⟩ := exists_joined_concat ['\n'] others
  obtain ⟨outer, around⟩ := exists_joined_concat ['\n', '\n'] (blocks.map (joined ['\n']))
  refine ⟨outer ++ inner, fun last => ?_⟩
  rw [layout, List.map_append, List.map_singleton, around, within, List.append_assoc]

end ProtoSchema.Text
