import Mathlib.Data.List.Forall2
import ProtoSchema.Proofs.Entries
import ProtoSchema.Proofs.Paragraphs

/-!
Literals are read back. Truth values, integers and texts in back quotes are put into lists and maps of any
depth; what is written for such a value is read as that value, whatever follows it.
-/
namespace ProtoSchema

open List (Forall₂)

namespace Scanner

/-- The characters that mean something outside of quotes. -/
def specials : List Char := ['"', '\x60', ':', ',', ';', '{', '}']

structure Word (word : List Char) : Prop where
  nonempty : word ≠ []
  solid : Text.Solid word
  plain : ∀ c ∈ word, c ∉ specials

end Scanner

namespace Json

/-- The values that have literals. -/
inductive Literal : Json → Prop
  | boolean (value : Bool) : Literal (.boolean value)
  | integer {value : Int} :
      -0x8000000000000000 ≤ value → value ≤ 0x7FFFFFFFFFFFFFFF → Literal (.integer value)
  | text {value : String} : '\x60' ∉ value.toList → Literal (.text value)
  | list {items : List Json} : (∀ item ∈ items, Literal item) → Literal (.array items)
  | map {entries : List (String × Json)} : entries ≠ [] → (Entries.names entries).Nodup →
      (∀ entry ∈ entries, '\x60' ∉ entry.1.toList) → (∀ entry ∈ entries, Literal entry.2) →
      Literal (.object entries)

mutual

/-- The literal of a value. The gap stands behind commas and colons. -/
def written (gap : List Char) : Json → List Char
  | .boolean true => "true".toList
  | .boolean false => "false".toList
  | .integer value => (Numeral.integerText value).toList
  | .text value => Scanner.backQuoted value.toList
  | .array items => '{' :: (writtenItems gap items ++ ['}'])
  | .object entries => '{' :: (writtenMembers gap entries ++ ['}'])
  | .null | .decimal _ => []

def writtenItems (gap : List Char) : List Json → List Char
  | [] => []
  | [item] => item.written gap
  | item :: next :: rest => item.written gap ++ ',' :: (gap ++ writtenItems gap (next :: rest))

def writtenMembers (gap : List Char) : List (String × Json) → List Char
  | [] => []
  | [(key, value)] => Scanner.backQuoted key.toList ++ ':' :: (gap ++ value.written gap)
  | (key, value) :: next :: rest =>
    Scanner.backQuoted key.toList ++ ':' ::
      (gap ++ (value.written gap ++ ',' :: (gap ++ writtenMembers gap (next :: rest))))

end

end Json

namespace Scanner

variable {scanner : Scanner} {c : Char} {rest stops gap : List Char}

/-! ## Words -/

theorem word_of_all {word : List Char} (nonempty : word ≠ [])
    (usual : (word.all fun c => !Text.isBlank c && !specials.contains c) = true) : Word word := by
  simp only [List.all_eq_true, Bool.and_eq_true, Bool.not_eq_true', List.contains_eq_mem,
    decide_eq_false_iff_not] at usual
  exact ⟨nonempty, fun c member => (usual c member).1, fun c member => (usual c member).2⟩

theorem word_boolean (value : Bool) : Word ((Json.boolean value).written gap) := by
  cases value with
  | true =>
      rw [Json.written]
      exact word_of_all (by decide) (by decide)
  | false =>
      rw [Json.written]
      exact word_of_all (by decide) (by decide)

theorem word_digits (n : Nat) : Word (Numeral.digits n) where
  nonempty := Numeral.digits_ne_nil n
  solid _ member := Text.isBlank_of_isDigit (Numeral.isDigit_of_mem_digits member)
  plain := by
    intro c member special
    have others : (specials.all fun c => !Numeral.isDigit c) = true := by decide
    have other := List.all_eq_true.1 others c special
    rw [Numeral.isDigit_of_mem_digits member] at other
    cases other

theorem word_integer (n : Int) : Word ((Json.integer n).written gap) := by
  rw [Json.written]
  cases n with
  | ofNat n =>
      rw [Numeral.integerText, Numeral.toList_text]
      exact word_digits n
  | negSucc n =>
      rw [Numeral.toList_integerText_negSucc]
      exact ⟨List.cons_ne_nil _ _, List.forall_mem_cons.2 ⟨by decide, (word_digits _).solid⟩,
        List.forall_mem_cons.2 ⟨by decide, (word_digits _).plain⟩⟩

theorem scalar_boolean : ∀ value : Bool, scalar ((Json.boolean value).written gap) = .boolean value
  | true => if_pos rfl
  | false => rfl

theorem scalar_integer {n : Int} (least : -0x8000000000000000 ≤ n) (most : n ≤ 0x7FFFFFFFFFFFFFFF) :
    scalar ((Json.integer n).written gap) = .integer n := by
  have denotes : Numeral.integer? ((Json.integer n).written gap) = some n :=
    Numeral.integer?_integerText n
  have apart : ∀ word : List Char, Numeral.integer? word = none →
      (Json.integer n).written gap ≠ word := by
    rintro word nothing rfl
    rw [nothing] at denotes
    cases denotes
  rw [scalar, if_neg (apart _ (by decide)), if_neg (apart _ (by decide))]
  simp only [denotes, least, most, and_self, if_true]

theorem Word.head {word : List Char} (isWord : Word word) :
    ∃ c tail, word = c :: tail ∧ Text.isBlank c = false ∧ c ∉ specials := by
  obtain ⟨c, tail, rfl⟩ := List.exists_cons_of_ne_nil isWord.nonempty
  exact ⟨c, tail, rfl, isWord.solid c List.mem_cons_self, isWord.plain c List.mem_cons_self⟩

theorem value_word {word : List Char} (isWord : Word word) (known : stops ⊆ specials)
    (ends : ∀ c ∈ rest.head?, c ∈ stops) (next : scanner.skipBlanks.rest = word ++ rest) :
    Reads (value stops scanner) (scalar word) rest := by
  obtain ⟨c, tail, rfl, -, plain⟩ := isWord.head
  have unquoted : scanner.skipBlanks.quoted? = none := by
    refine quoted?_of_other next ⟨?_, ?_⟩ <;> (rintro rfl; exact plain (by decide))
  have brace : c ≠ '{' := by
    rintro rfl
    exact plain (by decide)
  obtain ⟨within, read⟩ := bare_append isWord.solid
    (fun c member stop => isWord.plain c member (known stop)) ends next
  rw [value]
  split
  · rename_i nothing
    cases nothing.symm.trans next
  · rename_i first others found
    cases found.symm.trans next
    simp only [unquoted, if_neg brace, read]
    exact ⟨_, rfl⟩

theorem value_of_quoted? {text : String} (begins : scanner.skipBlanks.rest = c :: rest)
    {left : List Char} (quoted : ∃ within, scanner.skipBlanks.quoted? =
      some (.ok ⟨text, scanner.skipBlanks.moveTo left, within⟩)) :
    Reads (value stops scanner) (.text text) left := by
  obtain ⟨within, quoted⟩ := quoted
  rw [value]
  split
  · rename_i nothing
    cases nothing.symm.trans begins
  · simp only [quoted]
    exact ⟨_, rfl⟩

theorem value_backQuoted {text : List Char} (free : '\x60' ∉ text)
    (next : scanner.skipBlanks.rest = backQuoted text ++ rest) :
    Reads (value stops scanner) (.text (String.ofList text)) rest :=
  value_of_quoted? next (quoted?_backQuoted free next)

theorem value_eq_braced (begins : scanner.skipBlanks.rest = '{' :: rest) :
    value stops scanner = braced scanner := by
  have unquoted : scanner.skipBlanks.quoted? = none := quoted?_of_other begins (by decide)
  rw [value]
  split
  · rename_i nothing
    cases nothing.symm.trans begins
  · rename_i first others found
    cases found.symm.trans begins
    simp only [unquoted]
    rfl

theorem list_eq_braced (begins : scanner.skipBlanks.rest = '{' :: rest) :
    list scanner = (braced scanner).bind fun read =>
      match read.value with
      | .array values => .ok ⟨values, read.after, read.within⟩
      | other => .error (.notList other) := by
  rw [list]
  split
  · cases braced scanner <;> rfl
  · rename_i other
    exact absurd begins (other rest)

/-! ## Lists or maps -/

theorem looksLikeMap_word {word : List Char} (plain : ∀ c ∈ word, c ∉ specials) :
    looksLikeMap none (word ++ rest) = looksLikeMap none rest := by
  induction word with
  | nil => rfl
  | cons c word ih =>
      obtain ⟨first, later⟩ := List.forall_mem_cons.1 plain
      simp only [specials, List.mem_cons, List.not_mem_nil, or_false, not_or] at first
      rw [List.cons_append, looksLikeMap, ih later]
      simp [first]

theorem looksLikeMap_quote {quote : Char} {text : List Char} (free : quote ∉ text) (rest : List Char) :
    looksLikeMap (some quote) (text ++ quote :: rest) = looksLikeMap none rest := by
  induction text with
  | nil => exact congrArg (looksLikeMap · rest) (if_pos rfl)
  | cons c text ih =>
      obtain ⟨apart, later⟩ := not_or.1 (List.mem_cons.not.1 free)
      rw [List.cons_append, looksLikeMap, if_neg (Ne.symm apart), ih later]

theorem looksLikeMap_backQuoted {text : List Char} (free : '\x60' ∉ text) :
    looksLikeMap none (backQuoted text ++ rest) = looksLikeMap none rest := by
  have inside := looksLikeMap_quote free rest
  simpa [backQuoted, looksLikeMap] using inside

/-! ## Lists and maps in braces -/

/-- A text that starts with something to read, and not with a closing brace. -/
def Opens (text : List Char) : Prop := ∃ c tail, text = c :: tail ∧ Text.isBlank c = false ∧ c ≠ '}'

theorem Opens.begins {text : List Char} (opens : Opens text) : Begins text := by
  obtain ⟨c, tail, split, solid, -⟩ := opens
  exact ⟨c, tail, split, solid⟩

theorem Word.opens {word : List Char} (isWord : Word word) : Opens word := by
  obtain ⟨c, tail, split, solid, plain⟩ := isWord.head
  refine ⟨c, tail, split, solid, ?_⟩
  rintro rfl
  exact plain (by decide)

theorem Opens.append {text : List Char} (opens : Opens text) (rest : List Char) : Opens (text ++ rest) := by
  obtain ⟨c, tail, rfl, solid, apart⟩ := opens
  exact ⟨c, tail ++ rest, rfl, solid, apart⟩

/-- A text that is read as a value where more of a list or a map follows, or its end. -/
structure Spells (text : List Char) (json : Json) : Prop where
  opens : Opens text
  reads : ∀ {scanner : Scanner} {c : Char} {rest : List Char}, c ∈ braceStops →
    scanner.skipBlanks.rest = text ++ c :: rest → Reads (value braceStops scanner) json (c :: rest)

/-- A text that is read as the key in front of a colon. -/
structure SpellsKey (text : List Char) (key : String) : Prop where
  opens : Opens text
  reads : ∀ {scanner : Scanner} {rest : List Char}, scanner.skipBlanks.rest = text ++ ':' :: rest →
    Reads (Scanner.text [':'] scanner) key (':' :: rest)

/-- A key and a value with a colon between them. -/
def SpellsEntry (gap text : List Char) (entry : String × Json) : Prop :=
  ∃ key value, text = key ++ ':' :: (gap ++ value) ∧ SpellsKey key entry.1 ∧ Spells value entry.2

theorem SpellsEntry.opens {text : List Char} {entry : String × Json} (spells : SpellsEntry gap text entry) :
    Opens text := by
  obtain ⟨key, value, rfl, named, -⟩ := spells
  exact named.opens.append _

theorem joined_opens {text : List Char} (opens : Opens text) (separator : List Char)
    (texts : List (List Char)) : Opens (Text.joined separator (text :: texts)) := by
  obtain ⟨behind, -, laid⟩ := Text.exists_joined_cons separator texts
  rw [laid]
  exact opens.append behind

theorem braced_empty (next : scanner.skipBlanks.rest = '{' :: '}' :: rest) :
    Reads (braced scanner) (.array []) rest := by
  obtain ⟨_, opened⟩ := expect_of_next next
  obtain ⟨_, closed⟩ := eat?_moveTo scanner rest (by decide : Text.isBlank '}' = false)
  rw [braced, opened]
  simp only [closed]
  exact ⟨_, rfl⟩

section

variable {content : List Char} (opens : Opens content) (next : scanner.skipBlanks.rest = '{' :: content)

include opens next

theorem braced_of_list (isList : looksLikeMap none content = false) :
    ∃ within : ∀ read : Scanned (scanner.moveTo content) (List Json),
        read.after.rest.length ≤ scanner.rest.length,
      braced scanner = (items (scanner.moveTo content)).map fun read =>
        ⟨.array read.value, read.after, within read⟩ := by
  obtain ⟨c, tail, split, -, apart⟩ := id opens
  obtain ⟨further, opened⟩ := expect_of_next next
  have inside := (opens.begins.skip scanner).trans split
  have isList : looksLikeMap none (scanner.moveTo content).rest = false := isList
  refine ⟨fun read => Nat.le_of_lt (Nat.lt_of_le_of_lt read.within further), ?_⟩
  rw [braced, opened]
  simp only [eat?_of_other inside apart, isList, Bool.false_eq_true, if_false]

theorem braced_of_map (isMap : looksLikeMap none content = true) :
    ∃ within : ∀ read : Scanned (scanner.moveTo content) (List (String × Json)),
        read.after.rest.length ≤ scanner.rest.length,
      braced scanner = (members (scanner.moveTo content)).map fun read =>
        ⟨.object (Entries.ofList read.value), read.after, within read⟩ := by
  obtain ⟨c, tail, split, -, apart⟩ := id opens
  obtain ⟨further, opened⟩ := expect_of_next next
  have inside := (opens.begins.skip scanner).trans split
  have isMap : looksLikeMap none (scanner.moveTo content).rest = true := isMap
  refine ⟨fun read => Nat.le_of_lt (Nat.lt_of_le_of_lt read.within further), ?_⟩
  rw [braced, opened]
  simp only [eat?_of_other inside apart, isMap, if_true]

end

/-- What stands first in braces has a comma behind it, or the closing brace. -/
theorem joined_stops (gap text : List Char) (texts : List (List Char)) (rest : List Char) :
    ∃ c tail, (c = ',' ∨ c = '}') ∧
      Text.joined (',' :: gap) (text :: texts) ++ '}' :: rest = text ++ c :: tail := by
  obtain ⟨behind, kind, laid⟩ := Text.exists_joined_cons (',' :: gap) texts
  rw [laid, List.append_assoc]
  rcases kind with rfl | ⟨more, rfl⟩
  · exact ⟨'}', rest, .inr rfl, rfl⟩
  · exact ⟨',', gap ++ more ++ '}' :: rest, .inl rfl, rfl⟩

section

variable {texts : List (List Char)} {values : List Json} {entries : List (String × Json)}
  (blank : ∀ c ∈ gap, Text.isBlank c = true)

include blank

theorem items_read (spelled : Forall₂ Spells texts values) (nonempty : values ≠ [])
    (next : scanner.skipBlanks.rest = Text.joined (',' :: gap) texts ++ '}' :: rest) :
    Reads (items scanner) values rest := by
  induction spelled generalizing scanner with
  | nil => contradiction
  | @cons text value texts values first others ih =>
      cases others with
      | nil =>
          rw [Text.joined_singleton] at next
          obtain ⟨within, read⟩ := first.reads (by decide) next
          have last := eat?_moveTo_other scanner rest (by decide : Text.isBlank '}' = false)
            (by decide : '}' ≠ ',')
          obtain ⟨further, closed⟩ := expect_moveTo scanner rest (by decide : Text.isBlank '}' = false)
          rw [items, read]
          simp only [last, closed]
          exact ⟨_, rfl⟩
      | @cons second _ more _ here later =>
          rw [Text.joined_cons_cons, List.append_assoc, List.cons_append, List.cons_append,
            List.append_assoc] at next
          obtain ⟨within, read⟩ := first.reads (by decide) next
          obtain ⟨further, comma⟩ := eat?_moveTo scanner
            (gap ++ (Text.joined (',' :: gap) (second :: more) ++ '}' :: rest))
            (by decide : Text.isBlank ',' = false)
          have begins : Begins (Text.joined (',' :: gap) (second :: more)) :=
            (joined_opens here.opens _ more).begins
          obtain ⟨bound, tail⟩ := ih (List.cons_ne_nil _ _)
            ((begins.append ('}' :: rest)).next blank scanner)
          rw [items, read]
          simp only [comma, tail]
          exact ⟨_, rfl⟩

theorem members_read (spelled : Forall₂ (SpellsEntry gap) texts entries) (nonempty : entries ≠ [])
    (next : scanner.skipBlanks.rest = Text.joined (',' :: gap) texts ++ '}' :: rest) :
    Reads (members scanner) entries rest := by
  induction spelled generalizing scanner with
  | nil => contradiction
  | @cons text entry texts entries first others ih =>
      obtain ⟨key, value, rfl, named, given⟩ := first
      cases others with
      | nil =>
          rw [Text.joined_singleton, List.append_assoc, List.cons_append, List.append_assoc] at next
          obtain ⟨_, keyRead⟩ := named.reads next
          obtain ⟨_, colon⟩ := expect_moveTo scanner (gap ++ (value ++ '}' :: rest))
            (by decide : Text.isBlank ':' = false)
          obtain ⟨_, read⟩ := given.reads (by decide)
            ((given.opens.begins.append ('}' :: rest)).next blank scanner)
          have last := eat?_moveTo_other scanner rest (by decide : Text.isBlank '}' = false)
            (by decide : '}' ≠ ',')
          obtain ⟨_, closed⟩ := expect_moveTo scanner rest (by decide : Text.isBlank '}' = false)
          rw [members, keyRead]
          simp only [colon, read, moveTo_moveTo, last, closed]
          exact ⟨_, rfl⟩
      | @cons second _ more _ here later =>
          rw [Text.joined_cons_cons, List.append_assoc, List.append_assoc, List.cons_append,
            List.append_assoc, List.cons_append, List.cons_append, List.append_assoc] at next
          obtain ⟨_, keyRead⟩ := named.reads next
          obtain ⟨_, colon⟩ := expect_moveTo scanner
            (gap ++ (value ++ ',' :: (gap ++ (Text.joined (',' :: gap) (second :: more) ++ '}' :: rest))))
            (by decide : Text.isBlank ':' = false)
          obtain ⟨_, read⟩ := given.reads (by decide)
            ((given.opens.begins.append
              (',' :: (gap ++ (Text.joined (',' :: gap) (second :: more) ++ '}' :: rest)))).next blank scanner)
          obtain ⟨_, comma⟩ := eat?_moveTo scanner
            (gap ++ (Text.joined (',' :: gap) (second :: more) ++ '}' :: rest))
            (by decide : Text.isBlank ',' = false)
          have begins : Begins (Text.joined (',' :: gap) (second :: more)) :=
            (joined_opens here.opens _ more).begins
          obtain ⟨_, tail⟩ := ih (List.cons_ne_nil _ _)
            ((begins.append ('}' :: rest)).next blank scanner)
          rw [members, keyRead]
          simp only [colon, read, moveTo_moveTo, comma, tail]
          exact ⟨_, rfl⟩

theorem braced_list (spelled : Forall₂ Spells texts values)
    (isList : looksLikeMap none (Text.joined (',' :: gap) texts ++ '}' :: rest) = false)
    (next : scanner.skipBlanks.rest = '{' :: (Text.joined (',' :: gap) texts ++ '}' :: rest)) :
    Reads (braced scanner) (.array values) rest := by
  cases spelled with
  | nil => exact braced_empty next
  | @cons text value texts values first others =>
      have opens := (joined_opens first.opens (',' :: gap) texts).append ('}' :: rest)
      obtain ⟨_, split⟩ := braced_of_list opens next isList
      obtain ⟨_, read⟩ := items_read blank (.cons first others) (List.cons_ne_nil _ _)
        (opens.begins.skip scanner)
      rw [split, read]
      exact ⟨_, rfl⟩

theorem braced_map (spelled : Forall₂ (SpellsEntry gap) texts entries) (nonempty : entries ≠ [])
    (distinct : (Entries.names entries).Nodup)
    (isMap : looksLikeMap none (Text.joined (',' :: gap) texts ++ '}' :: rest) = true)
    (next : scanner.skipBlanks.rest = '{' :: (Text.joined (',' :: gap) texts ++ '}' :: rest)) :
    Reads (braced scanner) (.object entries) rest := by
  cases spelled with
  | nil => contradiction
  | @cons text entry texts entries first others =>
      have opens := (joined_opens first.opens (',' :: gap) texts).append ('}' :: rest)
      obtain ⟨_, split⟩ := braced_of_map opens next isMap
      obtain ⟨_, read⟩ := members_read blank (.cons first others) (List.cons_ne_nil _ _)
        (opens.begins.skip scanner)
      rw [split, read]
      simp only [Except.map, Entries.ofList_of_nodup distinct]
      exact ⟨_, rfl⟩

end

end Scanner

namespace Json

open Scanner

variable {gap rest : List Char} {json : Json}

theorem Literal.opens (literal : Literal json) (gap : List Char) : Opens (json.written gap) := by
  cases literal with
  | boolean value => exact (word_boolean value).opens
  | integer _ _ => exact (word_integer _).opens
  | text _ => exact ⟨_, _, by rw [written, backQuoted], by decide, by decide⟩
  | list _ => exact ⟨_, _, by rw [written], by decide, by decide⟩
  | map _ _ _ _ => exact ⟨_, _, by rw [written], by decide, by decide⟩

theorem Literal.begins (literal : Literal json) (gap : List Char) : Begins (json.written gap) :=
  (literal.opens gap).begins

/-- A literal before a comma or a closing brace does not look like the first key of a map. -/
theorem Literal.not_looksLikeMap (literal : Literal json) {c : Char} (ends : c = ',' ∨ c = '}') :
    looksLikeMap none (json.written gap ++ c :: rest) = false := by
  have stopped : looksLikeMap none (c :: rest) = false := by
    rcases ends with rfl | rfl <;> rfl
  cases literal with
  | boolean value => rw [looksLikeMap_word (word_boolean value).plain, stopped]
  | integer _ _ => rw [looksLikeMap_word (word_integer _).plain, stopped]
  | text free => rw [written, looksLikeMap_backQuoted free, stopped]
  | list _ => rfl
  | map _ _ _ _ => rfl

/-- The literal of a value is read as this value at every place where a literal may stand. -/
def ReadsBack (gap : List Char) (json : Json) : Prop :=
  ∀ {scanner : Scanner} {stops rest : List Char}, stops ⊆ specials → (∀ c ∈ rest.head?, c ∈ stops) →
    scanner.skipBlanks.rest = json.written gap ++ rest → Reads (Scanner.value stops scanner) json rest

theorem ReadsBack.spells (readsBack : json.ReadsBack gap) (literal : Literal json) :
    Spells (json.written gap) json where
  opens := literal.opens gap
  reads closes next := readsBack (by decide) (fun _ first => Option.some.inj first ▸ closes) next

theorem spellsKey_backQuoted {key : String} (free : '\x60' ∉ key.toList) :
    SpellsKey (backQuoted key.toList) key where
  opens := ⟨_, _, rfl, by decide, by decide⟩
  reads next := by
    have named : Reads (Scanner.text [':'] _) (String.ofList key.toList) _ := text_backQuoted free next
    rwa [String.ofList_toList] at named

theorem writtenItems_eq (gap : List Char) (items : List Json) :
    writtenItems gap items = Text.joined (',' :: gap) (items.map (written gap)) := by
  induction items with
  | nil => rfl
  | cons item more ih =>
      cases more with
      | nil => rw [writtenItems, List.map_singleton, Text.joined_singleton]
      | cons second more =>
          simp only [writtenItems, ih, List.map_cons, Text.joined_cons_cons, List.cons_append]

def writtenMember (gap : List Char) (entry : String × Json) : List Char :=
  backQuoted entry.1.toList ++ ':' :: (gap ++ entry.2.written gap)

theorem writtenMembers_eq (gap : List Char) (entries : List (String × Json)) :
    writtenMembers gap entries = Text.joined (',' :: gap) (entries.map (writtenMember gap)) := by
  induction entries with
  | nil => rfl
  | cons entry more ih =>
      cases more with
      | nil => rw [writtenMembers, List.map_singleton, Text.joined_singleton, writtenMember]
      | cons second more =>
          simp only [writtenMembers, ih, List.map_cons, Text.joined_cons_cons, writtenMember,
            List.cons_append, List.append_assoc]

theorem braced_items {scanner : Scanner} {items : List Json} (blank : ∀ c ∈ gap, Text.isBlank c = true)
    (literals : ∀ item ∈ items, Literal item) (readBack : ∀ item ∈ items, item.ReadsBack gap)
    (next : scanner.skipBlanks.rest = (Json.array items).written gap ++ rest) :
    Reads (Scanner.braced scanner) (.array items) rest := by
  rw [written, writtenItems_eq, List.cons_append, List.append_assoc, List.singleton_append] at next
  refine braced_list blank ?_ ?_ next
  · exact List.forall₂_map_left_iff.2 (List.forall₂_same.2 fun item member =>
      ReadsBack.spells (readBack item member) (literals item member))
  · cases items with
    | nil => rfl
    | cons item more =>
        obtain ⟨c, tail, ends, laid⟩ := joined_stops gap (item.written gap) (more.map (written gap)) rest
        rw [List.map_cons, laid]
        exact (literals item List.mem_cons_self).not_looksLikeMap ends

theorem braced_members {scanner : Scanner} {entries : List (String × Json)}
    (blank : ∀ c ∈ gap, Text.isBlank c = true) (free : ∀ entry ∈ entries, '\x60' ∉ entry.1.toList)
    (literals : ∀ entry ∈ entries, Literal entry.2)
    (readBack : ∀ entry ∈ entries, entry.2.ReadsBack gap) (nonempty : entries ≠ [])
    (distinct : (Entries.names entries).Nodup)
    (next : scanner.skipBlanks.rest = (Json.object entries).written gap ++ rest) :
    Reads (Scanner.braced scanner) (.object entries) rest := by
  rw [written, writtenMembers_eq, List.cons_append, List.append_assoc, List.singleton_append] at next
  refine braced_map blank ?_ nonempty distinct ?_ next
  · exact List.forall₂_map_left_iff.2 (List.forall₂_same.2 fun entry member =>
      ⟨_, _, rfl, spellsKey_backQuoted (free entry member),
        ReadsBack.spells (readBack entry member) (literals entry member)⟩)
  · obtain ⟨entry, more, rfl⟩ := List.exists_cons_of_ne_nil nonempty
    obtain ⟨c, tail, -, laid⟩ := joined_stops gap (writtenMember gap entry) (more.map (writtenMember gap)) rest
    rw [List.map_cons, laid, writtenMember, List.append_assoc,
      looksLikeMap_backQuoted (free entry List.mem_cons_self)]
    rfl

/-- Every literal is read back, at any depth. -/
theorem Literal.readsBack (literal : Literal json) (blank : ∀ c ∈ gap, Text.isBlank c = true) :
    json.ReadsBack gap := by
  -- On the value and not on the text: what follows a literal stays general.
  induction literal with
  | boolean value =>
      intro scanner stops rest known ends next
      have read := value_word (word_boolean value) known ends next
      rwa [scalar_boolean] at read
  | integer least most =>
      intro scanner stops rest known ends next
      have read := value_word (word_integer _) known ends next
      rwa [scalar_integer least most] at read
  | text free =>
      intro scanner stops rest _ _ next
      rw [written] at next
      have read : Reads (Scanner.value stops scanner) _ rest := value_backQuoted free next
      rwa [String.ofList_toList] at read
  | list literals ih =>
      intro scanner stops rest _ _ next
      rw [value_eq_braced (by rw [next, written, List.cons_append])]
      exact braced_items blank literals ih next
  | map nonempty distinct free literals ih =>
      intro scanner stops rest _ _ next
      rw [value_eq_braced (by rw [next, written, List.cons_append])]
      exact braced_members blank free literals ih nonempty distinct next

theorem Literal.closes (literal : Literal json) (gap : List Char) : Closes (json.written gap) := by
  cases literal with
  | boolean value => exact .of_solid (word_boolean value).solid (word_boolean value).nonempty
  | integer _ _ => exact .of_solid (word_integer _).solid (word_integer _).nonempty
  | text _ =>
      rw [written]
      exact ⟨_ :: _, _, rfl, by decide⟩
  | list _ =>
      rw [written]
      exact ⟨_ :: _, _, rfl, by decide⟩
  | map _ _ _ _ =>
      rw [written]
      exact ⟨_ :: _, _, rfl, by decide⟩

end Json

end ProtoSchema
