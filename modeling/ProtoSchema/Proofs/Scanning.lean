import ProtoSchema.Directive.Scanner
import ProtoSchema.Proofs.Numerals

/-!
Texts that are scanned. What stands in back quotes or double quotes is read back whatever follows it, and
a word is read back where what follows it is a stop character or nothing.
-/
namespace ProtoSchema

namespace Text

theorem trimStart_of_head {text : List Char} (first : ∀ c ∈ text.head?, isBlank c = false) :
    trimStart text = text := by
  cases text with
  | nil => rfl
  | cons c rest => exact List.dropWhile_cons_of_neg (by simp [first c rfl])

theorem trimEnd_of_last {text : List Char} (last : ∀ c ∈ text.getLast?, isBlank c = false) :
    trimEnd text = text := by
  have first : ∀ c ∈ text.reverse.head?, isBlank c = false := by simpa using last
  have kept : text.reverse.dropWhile isBlank = text.reverse := trimStart_of_head first
  rw [trimEnd, kept, List.reverse_reverse]

/-- Blanks at the end of a text are those of its last part, and reach into the first only over all of that. -/
theorem trimEnd_append (front text : List Char) :
    trimEnd (front ++ text) = if trimEnd text = [] then trimEnd front else front ++ trimEnd text := by
  unfold trimEnd
  rw [List.reverse_append, List.dropWhile_append]
  split
  · rename_i blank
    rw [if_pos (by rw [List.isEmpty_iff.1 blank, List.reverse_nil])]
  · rename_i solid
    rw [if_neg (by simpa using solid), List.reverse_append, List.reverse_reverse]

theorem trim_of_ends {text : List Char} (first : ∀ c ∈ text.head?, isBlank c = false)
    (last : ∀ c ∈ text.getLast?, isBlank c = false) : trim text = text := by
  rw [trim, trimStart_of_head first, trimEnd_of_last last]

/-- A text without any blank. -/
abbrev Solid (text : List Char) : Prop := ∀ c ∈ text, isBlank c = false

theorem Solid.trim {text : List Char} (solid : Solid text) : trim text = text :=
  trim_of_ends (fun c first => solid c (List.mem_of_mem_head? first))
    fun c last => solid c (List.mem_of_mem_getLast? last)

theorem isBlank_of_isDigit {c : Char} (digit : Numeral.isDigit c = true) : isBlank c = false := by
  have range : 48 ≤ c.toNat ∧ c.toNat ≤ 57 := by
    simpa [Numeral.isDigit, Char.le_def, UInt32.le_iff_toNat_le] using digit
  have absent : c.toNat ∉ blanks := by
    intro member
    simp only [blanks, List.mem_cons, List.not_mem_nil, or_false] at member
    omega
  simpa [isBlank] using absent

theorem takeWhile_dropWhile_append {keep : Char → Bool} {text rest : List Char}
    (inside : ∀ c ∈ text, keep c = true) (outside : ∀ c ∈ rest.head?, keep c = false) :
    (text ++ rest).takeWhile keep = text ∧ (text ++ rest).dropWhile keep = rest := by
  induction text with
  | nil =>
      cases rest with
      | nil => exact ⟨rfl, rfl⟩
      | cons c rest =>
          have stops : ¬ keep c = true := by simp [outside c rfl]
          exact ⟨List.takeWhile_cons_of_neg stops, List.dropWhile_cons_of_neg stops⟩
  | cons c text ih =>
      obtain ⟨taken, dropped⟩ := ih fun other member => inside other (List.mem_cons_of_mem c member)
      have goes := inside c List.mem_cons_self
      rw [List.cons_append, List.takeWhile_cons_of_pos goes, List.dropWhile_cons_of_pos goes, taken]
      exact ⟨rfl, dropped⟩

end Text

namespace Scanner

/-- A literal is read, and nothing but what follows it is left. -/
def Reads {before : Scanner} {α : Type} (result : Except ArgumentFault (Scanned before α)) (value : α)
    (rest : List Char) : Prop :=
  ∃ within, result = .ok ⟨value, before.moveTo rest, within⟩

variable {scanner : Scanner} {c : Char} {rest : List Char}

@[simp] theorem moveTo_moveTo (before : List Char) :
    (scanner.moveTo before).moveTo rest = scanner.moveTo rest := rfl

/-- A text that starts with something to read. -/
def Begins (text : List Char) : Prop := ∃ c tail, text = c :: tail ∧ Text.isBlank c = false

theorem Begins.append {text : List Char} (begins : Begins text) (rest : List Char) :
    Begins (text ++ rest) := by
  obtain ⟨c, tail, rfl, solid⟩ := begins
  exact ⟨c, tail ++ rest, rfl, solid⟩

theorem Begins.first {text : List Char} (begins : Begins text) :
    ∀ c ∈ text.head?, Text.isBlank c = false := by
  obtain ⟨c, tail, rfl, solid⟩ := begins
  rintro _ ⟨⟩
  exact solid

theorem Begins.next {text gap : List Char} (begins : Begins text)
    (blank : ∀ c ∈ gap, Text.isBlank c = true) (scanner : Scanner) :
    (scanner.moveTo (gap ++ text)).skipBlanks.rest = text := by
  exact (Text.takeWhile_dropWhile_append blank begins.first).2

theorem Begins.skip {text : List Char} (begins : Begins text) (scanner : Scanner) :
    (scanner.moveTo text).skipBlanks.rest = text :=
  begins.next (List.forall_mem_nil _) scanner

/-- A text that ends with something to read. -/
def Closes (text : List Char) : Prop := ∃ before c, text = before ++ [c] ∧ Text.isBlank c = false

theorem Closes.prepend {text : List Char} (closes : Closes text) (before : List Char) :
    Closes (before ++ text) := by
  obtain ⟨inner, c, rfl, solid⟩ := closes
  exact ⟨before ++ inner, c, by rw [List.append_assoc], solid⟩

theorem Closes.last {text : List Char} (closes : Closes text) :
    ∀ c ∈ text.getLast?, Text.isBlank c = false := by
  obtain ⟨before, c, rfl, solid⟩ := closes
  intro last closing
  rw [List.getLast?_concat] at closing
  cases closing
  exact solid

theorem Closes.trimEnd_append {front : List Char} (closes : Closes front) (text : List Char) :
    Text.trimEnd (front ++ text) = front ++ Text.trimEnd text := by
  rw [Text.trimEnd_append]
  split
  · rename_i blank
    rw [blank, List.append_nil, Text.trimEnd_of_last closes.last]
  · rfl

theorem Closes.of_solid {text : List Char} (solid : Text.Solid text) (nonempty : text ≠ []) :
    Closes text :=
  ⟨text.dropLast, text.getLast nonempty, (List.dropLast_concat_getLast nonempty).symm,
    solid _ (List.getLast_mem nonempty)⟩

theorem trim_of_begins {text : List Char} (begins : Begins text) (closes : Closes text) :
    Text.trim text = text :=
  Text.trim_of_ends begins.first closes.last

theorem eat?_of_next (next : scanner.skipBlanks.rest = c :: rest) :
    ∃ further, scanner.eat? c = some ⟨scanner.moveTo rest, further⟩ := by
  have further : rest.length < scanner.rest.length := by
    have bound := skipBlanks_length_le scanner
    rw [next] at bound
    exact bound
  refine ⟨further, ?_⟩
  unfold eat?
  split
  · rename_i other tail found
    cases found.symm.trans next
    exact if_pos rfl
  · rename_i found
    cases found.symm.trans next

theorem eat?_of_other {wanted : Char} (next : scanner.skipBlanks.rest = c :: rest) (other : c ≠ wanted) :
    scanner.eat? wanted = none := by
  unfold eat?
  split
  · rename_i first tail found
    cases found.symm.trans next
    exact if_neg other
  · rfl

theorem expect_of_next (next : scanner.skipBlanks.rest = c :: rest) :
    ∃ further, scanner.expect c = .ok ⟨scanner.moveTo rest, further⟩ := by
  obtain ⟨further, eaten⟩ := eat?_of_next next
  exact ⟨further, by rw [expect, eaten]⟩

section

variable (scanner) (rest) (solid : Text.isBlank c = false)

include solid

theorem skipBlanks_of_solid : (scanner.moveTo (c :: rest)).skipBlanks.rest = c :: rest :=
  Begins.skip ⟨c, rest, rfl, solid⟩ scanner

theorem eat?_moveTo :
    ∃ further, (scanner.moveTo (c :: rest)).eat? c = some ⟨scanner.moveTo rest, further⟩ :=
  eat?_of_next (skipBlanks_of_solid scanner rest solid)

theorem eat?_moveTo_other {wanted : Char} (other : c ≠ wanted) :
    (scanner.moveTo (c :: rest)).eat? wanted = none :=
  eat?_of_other (skipBlanks_of_solid scanner rest solid) other

theorem expect_moveTo :
    ∃ further, (scanner.moveTo (c :: rest)).expect c = .ok ⟨scanner.moveTo rest, further⟩ :=
  expect_of_next (skipBlanks_of_solid scanner rest solid)

theorem expect_moveTo_other {wanted : Char} (other : c ≠ wanted) :
    ∃ offset, (scanner.moveTo (c :: rest)).expect wanted = .error (.characterMissing wanted offset) :=
  ⟨_, by rw [expect, eat?_moveTo_other scanner rest solid other]⟩

end

/-! ## Text -/

def backQuoted (text : List Char) : List Char := '\x60' :: (text ++ ['\x60'])

theorem untilBackQuote_append {text : List Char} (free : '\x60' ∉ text) (rest : List Char) :
    ∃ bound, untilBackQuote (text ++ '\x60' :: rest) = .ok (text, ⟨rest, bound⟩) := by
  induction text with
  | nil => exact ⟨_, if_pos rfl⟩
  | cons c text ih =>
      obtain ⟨apart, later⟩ := not_or.1 (List.mem_cons.not.1 free)
      obtain ⟨bound, read⟩ := ih later
      rw [List.cons_append, untilBackQuote, if_neg (Ne.symm apart), read]
      exact ⟨_, rfl⟩

/-- A backslash is put before every double quote and before every backslash. -/
def escaped (text : List Char) : List Char :=
  text.flatMap fun c => if c = '"' ∨ c = '\\' then ['\\', c] else [c]

theorem mem_escaped {text : List Char} (member : c ∈ escaped text) : c = '\\' ∨ c ∈ text := by
  obtain ⟨given, inside, written⟩ := List.mem_flatMap.1 member
  split at written
  · rcases List.mem_cons.1 written with same | same
    · exact .inl same
    · exact .inr (List.mem_singleton.1 same ▸ inside)
  · exact .inr (List.mem_singleton.1 written ▸ inside)

def doubleQuoted (text : List Char) : List Char := '"' :: (escaped text ++ ['"'])

theorem untilQuote_append (text rest : List Char) :
    ∃ bound, untilQuote (escaped text ++ '"' :: rest) = .ok (text, ⟨rest, bound⟩) := by
  induction text with
  | nil => exact ⟨_, rfl⟩
  | cons c text ih =>
      obtain ⟨bound, read⟩ := ih
      rw [escaped, List.flatMap_cons, ← escaped]
      by_cases special : c = '"' ∨ c = '\\'
      · rw [if_pos special]
        simp only [List.cons_append, List.nil_append]
        have longer : rest.length ≤ ('\\' :: c :: (escaped text ++ '"' :: rest)).length :=
          Nat.le_trans bound (Nat.le_add_right _ 2)
        rcases special with rfl | rfl
        · rw [untilQuote, read]
          exact ⟨longer, rfl⟩
        · rw [untilQuote, read]
          exact ⟨longer, rfl⟩
      · obtain ⟨notQuote, notBackslash⟩ := not_or.1 special
        rw [if_neg special]
        simp only [List.cons_append, List.nil_append]
        rw [untilQuote, read]
        · exact ⟨Nat.le_succ_of_le bound, rfl⟩
        · exact notQuote
        · exact fun same _ => notBackslash same
        · exact fun _ _ same _ => notBackslash same

theorem quoted?_of_read {quote : Char} {text tail : List Char} {bound : rest.length ≤ tail.length}
    (begins : scanner.rest = quote :: tail)
    (read : quote = '"' ∧ untilQuote tail = .ok (text, ⟨rest, bound⟩) ∨
      quote = '\x60' ∧ untilBackQuote tail = .ok (text, ⟨rest, bound⟩)) :
    ∃ within, scanner.quoted? = some (.ok ⟨String.ofList text, scanner.moveTo rest, within⟩) := by
  have within : rest.length ≤ scanner.rest.length := by
    rw [begins]
    exact Nat.le_succ_of_le bound
  refine ⟨within, ?_⟩
  unfold quoted?
  split
  · rename_i found
    cases found.symm.trans begins
  · rename_i first others found
    cases found.symm.trans begins
    rcases read with ⟨rfl, read⟩ | ⟨rfl, read⟩
    · simp only [read]
      rfl
    · simp only [read]
      rfl

theorem quoted?_backQuoted {text : List Char} (free : '\x60' ∉ text)
    (starts : scanner.rest = backQuoted text ++ rest) :
    ∃ within, scanner.quoted? = some (.ok ⟨String.ofList text, scanner.moveTo rest, within⟩) := by
  obtain ⟨bound, read⟩ := untilBackQuote_append free rest
  have begins : scanner.rest = '\x60' :: (text ++ '\x60' :: rest) := by simp [starts, backQuoted]
  exact quoted?_of_read begins (.inr ⟨rfl, read⟩)

theorem quoted?_doubleQuoted {text : List Char}
    (starts : scanner.rest = doubleQuoted text ++ rest) :
    ∃ within, scanner.quoted? = some (.ok ⟨String.ofList text, scanner.moveTo rest, within⟩) := by
  obtain ⟨bound, read⟩ := untilQuote_append text rest
  have begins : scanner.rest = '"' :: (escaped text ++ '"' :: rest) := by simp [starts, doubleQuoted]
  exact quoted?_of_read begins (.inl ⟨rfl, read⟩)

theorem quoted?_of_other (begins : scanner.rest = c :: rest) (plain : c ≠ '"' ∧ c ≠ '\x60') :
    scanner.quoted? = none := by
  unfold quoted?
  split
  · rfl
  · rename_i first tail found
    cases found.symm.trans begins
    rw [if_neg plain.1, if_neg plain.2]

/-- A word is read up to a stop character or the end. -/
theorem bare_append {stops word : List Char} (solid : Text.Solid word)
    (free : ∀ c ∈ word, c ∉ stops) (ends : ∀ c ∈ rest.head?, c ∈ stops)
    (starts : scanner.rest = word ++ rest) :
    ∃ within, scanner.bare stops = ⟨word, scanner.moveTo rest, within⟩ := by
  obtain ⟨taken, dropped⟩ : (word ++ rest).takeWhile (fun c => !stops.contains c) = word ∧
      (word ++ rest).dropWhile (fun c => !stops.contains c) = rest :=
    Text.takeWhile_dropWhile_append (by simpa using free) (by simpa using ends)
  refine ⟨by simp [starts, moveTo], ?_⟩
  simp only [bare, starts, taken, dropped, solid.trim]

theorem text_of_quoted? {stops : List Char} {value : String}
    (quoted : ∃ within, scanner.skipBlanks.quoted? =
      some (.ok ⟨value, scanner.skipBlanks.moveTo rest, within⟩)) :
    Reads (scanner.text stops) value rest := by
  obtain ⟨within, quoted⟩ := quoted
  simp only [text, quoted]
  exact ⟨_, rfl⟩

theorem text_backQuoted {stops text : List Char} (free : '\x60' ∉ text)
    (next : scanner.skipBlanks.rest = backQuoted text ++ rest) :
    Reads (scanner.text stops) (String.ofList text) rest :=
  text_of_quoted? (quoted?_backQuoted free next)

theorem text_doubleQuoted {stops text : List Char}
    (next : scanner.skipBlanks.rest = doubleQuoted text ++ rest) :
    Reads (scanner.text stops) (String.ofList text) rest :=
  text_of_quoted? (quoted?_doubleQuoted next)

theorem remainder_backQuoted {text : List Char} (free : '\x60' ∉ text) :
    (start (backQuoted text)).remainder = .ok (String.ofList text) := by
  have next : (start (backQuoted text)).skipBlanks.rest = backQuoted text ++ [] := by
    rw [List.append_nil]
    rfl
  obtain ⟨within, quoted⟩ := quoted?_backQuoted free next
  simp only [remainder, quoted]
  rfl

theorem remainder_word {word : List Char} (solid : Text.Solid word)
    (plain : ∀ c ∈ word.head?, c ≠ '"' ∧ c ≠ '\x60') :
    (start word).remainder = .ok (String.ofList word) := by
  have next : (start word).skipBlanks.rest = word :=
    Text.trimStart_of_head fun c first => solid c (List.mem_of_mem_head? first)
  have unquoted : (start word).skipBlanks.quoted? = none := by
    cases word with
    | nil => rfl
    | cons c rest => exact quoted?_of_other next (plain c rfl)
  have trimmed : Text.trimEnd word = word :=
    Text.trimEnd_of_last fun c last => solid c (List.mem_of_mem_getLast? last)
  simp only [remainder, unquoted, next, trimmed]

end Scanner

end ProtoSchema
