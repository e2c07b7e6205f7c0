import ProtoSchema.Proofs.DirectiveWriting

/-!
Texts in double quotes, in lists and maps in braces. Before braces are read, a scan for a colon tells maps
from lists, and to this scan a backslash in front of a quote means nothing. Lists are read back where it
finds no colon, and maps where it finds one.
-/
namespace ProtoSchema

open List (Forall₂)

namespace Scanner

variable {scanner : Scanner} {text rest gap content : List Char}

/-! ## The scan for a colon -/

/-- Text that the scan passes: plain characters, and whatever stands between two equal quotes. -/
inductive Passed : List Char → Prop
  | nil : Passed []
  | plain {c : Char} {text : List Char} : c ∉ ['"', '\x60', ':', ',', '{', '}'] → Passed text → Passed (c :: text)
  | quoted {quote : Char} {inside text : List Char} : quote = '"' ∨ quote = '\x60' → quote ∉ inside →
      Passed text → Passed (quote :: (inside ++ quote :: text))

/-- The scan gets to a colon. -/
def ShowsColon (text : List Char) : Prop := ∃ before behind, text = before ++ ':' :: behind ∧ Passed before

theorem looksLikeMap_of_passed {before : List Char} (passed : Passed before) (rest : List Char) :
    looksLikeMap none (before ++ rest) = looksLikeMap none rest := by
  induction passed with
  | nil => rfl
  | plain usual _ ih =>
      simp only [List.mem_cons, List.not_mem_nil, or_false, not_or] at usual
      rw [List.cons_append, looksLikeMap, ih]
      simp [usual]
  | @quoted quote inside text kind free _ ih =>
      rw [List.cons_append, looksLikeMap, if_pos kind, List.append_assoc, List.cons_append,
        looksLikeMap_quote free, ih]

theorem shows_of_looksLikeMap (text : List Char) :
    (looksLikeMap none text = true → ShowsColon text) ∧
      ∀ quote, looksLikeMap (some quote) text = true →
        ∃ inside rest, text = inside ++ quote :: rest ∧ quote ∉ inside ∧ ShowsColon rest := by
  -- Both states of the scan at once: a quote leads from one to the other.
  induction text with
  | nil => exact ⟨nofun, nofun⟩
  | cons c text ih =>
      obtain ⟨outside, within⟩ := ih
      constructor
      · intro found
        rw [looksLikeMap] at found
        by_cases kind : c = '"' ∨ c = '\x60'
        · rw [if_pos kind] at found
          obtain ⟨inside, _, rfl, free, before, behind, rfl, passed⟩ := within c found
          exact ⟨c :: (inside ++ c :: before), behind, by simp, .quoted kind free passed⟩
        · rw [if_neg kind] at found
          by_cases colon : c = ':'
          · exact ⟨[], text, by rw [colon]; rfl, .nil⟩
          · rw [if_neg colon] at found
            by_cases stop : c = ',' ∨ c = '}' ∨ c = '{'
            · rw [if_pos stop] at found
              cases found
            · rw [if_neg stop] at found
              obtain ⟨before, behind, rfl, passed⟩ := outside found
              refine ⟨c :: before, behind, rfl, .plain ?_ passed⟩
              simp only [List.mem_cons, List.not_mem_nil, or_false]
              tauto
      · intro quote found
        rw [looksLikeMap] at found
        by_cases closes : c = quote
        · rw [if_pos closes] at found
          exact ⟨[], text, by rw [closes]; rfl, List.not_mem_nil, outside found⟩
        · rw [if_neg closes] at found
          obtain ⟨inside, rest, rfl, free, shows⟩ := within quote found
          exact ⟨c :: inside, rest, rfl, by simp [free, Ne.symm closes], shows⟩

theorem looksLikeMap_iff : looksLikeMap none text = true ↔ ShowsColon text := by
  refine ⟨(shows_of_looksLikeMap text).1, ?_⟩
  rintro ⟨before, behind, rfl, passed⟩
  rw [looksLikeMap_of_passed passed]
  rfl

instance (text : List Char) : Decidable (ShowsColon text) := decidable_of_iff _ looksLikeMap_iff

/-- What closes the braces is no colon. -/
theorem showsColon_closed : ShowsColon (content ++ ['}']) ↔ ShowsColon content := by
  constructor
  · rintro ⟨before, behind, split, passed⟩
    rcases List.eq_nil_or_concat' behind with rfl | ⟨inner, last, rfl⟩
    · have other := (List.append_inj' split rfl).2
      cases other
    · rw [← List.cons_append, ← List.append_assoc] at split
      exact ⟨before, inner, (List.append_inj' split rfl).1, passed⟩
  · rintro ⟨before, behind, rfl, passed⟩
    exact ⟨before, behind ++ ['}'], by simp, passed⟩

/-! ## Texts in double quotes -/

/-- A list of texts, without its braces. The gap stands behind commas and colons. -/
def quotedItems (gap : List Char) (texts : List String) : List Char :=
  Text.joined (',' :: gap) (texts.map fun text => doubleQuoted text.toList)

def quotedEntry (gap : List Char) (entry : String × String) : List Char :=
  doubleQuoted entry.1.toList ++ ':' :: (gap ++ doubleQuoted entry.2.toList)

def quotedEntries (gap : List Char) (entries : List (String × String)) : List Char :=
  Text.joined (',' :: gap) (entries.map (quotedEntry gap))

theorem value_doubleQuoted {text stops : List Char} (next : scanner.skipBlanks.rest = doubleQuoted text ++ rest) :
    Reads (value stops scanner) (.text (String.ofList text)) rest :=
  value_of_quoted? next (quoted?_doubleQuoted next)

theorem opens_doubleQuoted (text : List Char) : Opens (doubleQuoted text) :=
  ⟨'"', _, rfl, by decide, by decide⟩

theorem spells_doubleQuoted (text : String) : Spells (doubleQuoted text.toList) (.text text) where
  opens := opens_doubleQuoted text.toList
  reads _ next := by
    have read : Reads (value braceStops _) (.text (String.ofList text.toList)) _ := value_doubleQuoted next
    rwa [String.ofList_toList] at read

theorem spellsKey_doubleQuoted (key : String) : SpellsKey (doubleQuoted key.toList) key where
  opens := opens_doubleQuoted key.toList
  reads next := by
    have read : Reads (Scanner.text [':'] _) (String.ofList key.toList) _ := text_doubleQuoted next
    rwa [String.ofList_toList] at read

theorem spellsEntry_quotedEntry (gap : List Char) (entry : String × String) :
    SpellsEntry gap (quotedEntry gap entry) (entry.1, .text entry.2) :=
  ⟨_, _, rfl, spellsKey_doubleQuoted entry.1, spells_doubleQuoted entry.2⟩

theorem looksLikeMap_doubleQuoted (free : '"' ∉ text) (rest : List Char) :
    looksLikeMap none (doubleQuoted text ++ rest) = looksLikeMap none rest := by
  have kept : '"' ∉ escaped text := fun member => (mem_escaped member).elim (by decide) free
  have inside := looksLikeMap_quote kept rest
  simpa [doubleQuoted, looksLikeMap] using inside

/-! ## Plain texts -/

theorem not_showsColon_of_first {texts : List String} (plain : ∀ first ∈ texts.head?, '"' ∉ first.toList) :
    ¬ ShowsColon (quotedItems gap texts) := by
  rw [← showsColon_closed, ← looksLikeMap_iff, Bool.not_eq_true]
  cases texts with
  | nil => rfl
  | cons first others =>
      obtain ⟨c, tail, stop, laid⟩ := joined_stops gap (doubleQuoted first.toList)
        (others.map fun text => doubleQuoted text.toList) []
      rw [quotedItems, List.map_cons, laid, looksLikeMap_doubleQuoted (plain first rfl)]
      rcases stop with rfl | rfl <;> rfl

theorem not_showsColon_of_no_colon {texts : List String} (blank : ∀ c ∈ gap, Text.isBlank c = true)
    (free : ∀ text ∈ texts, ':' ∉ text.toList) : ¬ ShowsColon (quotedItems gap texts) := by
  rintro ⟨before, behind, split, -⟩
  have member : ':' ∈ quotedItems gap texts := by
    rw [split]
    exact List.mem_append_right before List.mem_cons_self
  rcases Text.mem_joined member with between | ⟨piece, listed, inside⟩
  · rcases List.mem_cons.1 between with same | inGap
    · cases same
    · cases blank ':' inGap
  · obtain ⟨text, given, rfl⟩ := List.mem_map.1 listed
    have written : ':' ∈ escaped text.toList := by simpa [doubleQuoted] using inside
    exact (mem_escaped written).elim (by decide) (free text given)

theorem showsColon_of_first {entry : String × String} (plain : '"' ∉ entry.1.toList)
    (others : List (String × String)) : ShowsColon (quotedEntries gap (entry :: others)) := by
  obtain ⟨c, tail, -, laid⟩ := joined_stops gap (quotedEntry gap entry) (others.map (quotedEntry gap)) []
  rw [← showsColon_closed, ← looksLikeMap_iff, quotedEntries, List.map_cons, laid, quotedEntry,
    List.append_assoc, looksLikeMap_doubleQuoted plain]
  rfl

/-! ## Braces -/

section

variable (blank : ∀ c ∈ gap, Text.isBlank c = true)

include blank

theorem braced_quotedItems {texts : List String} (shows : ¬ ShowsColon (quotedItems gap texts))
    (next : scanner.skipBlanks.rest = '{' :: (quotedItems gap texts ++ ['}'])) :
    Reads (braced scanner) (.array (texts.map .text)) [] := by
  refine braced_list blank ?_ ?_ next
  · exact List.forall₂_map_left_iff.2 (List.forall₂_map_right_iff.2
      (List.forall₂_same.2 fun text _ => spells_doubleQuoted text))
  · exact Bool.eq_false_iff.2 (mt looksLikeMap_iff.1 (mt showsColon_closed.1 shows))

theorem braced_quotedEntries {entries : List (String × String)} (nonempty : entries ≠ [])
    (distinct : (Entries.names entries).Nodup) (shows : ShowsColon (quotedEntries gap entries))
    (next : scanner.skipBlanks.rest = '{' :: (quotedEntries gap entries ++ ['}'])) :
    Reads (braced scanner) (.object (entries.map fun entry => (entry.1, .text entry.2))) [] := by
  refine braced_map blank ?_ (by simpa using nonempty) ?_ ?_ next
  · exact List.forall₂_map_left_iff.2 (List.forall₂_map_right_iff.2
      (List.forall₂_same.2 fun entry _ => spellsEntry_quotedEntry gap entry))
  · rwa [Entries.names, List.map_map]
  · exact looksLikeMap_iff.2 (showsColon_closed.2 shows)

end

/-- A list that is taken for a map has no colon behind its first text. -/
theorem braced_quotedItems_taken {texts : List String} (shows : ShowsColon (quotedItems gap texts))
    (next : scanner.skipBlanks.rest = '{' :: (quotedItems gap texts ++ ['}'])) :
    ∃ offset, braced scanner = .error (.characterMissing ':' offset) := by
  cases texts with
  | nil =>
      obtain ⟨before, behind, empty, -⟩ := shows
      exact absurd (show [] = before ++ ':' :: behind from empty) (by simp)
  | cons first others =>
      have opens : Opens (quotedItems gap (first :: others) ++ ['}']) :=
        (joined_opens (opens_doubleQuoted first.toList) _ _).append ['}']
      obtain ⟨_, split⟩ := braced_of_map opens next (looksLikeMap_iff.2 (showsColon_closed.2 shows))
      obtain ⟨c, tail, stop, laid⟩ := joined_stops gap (doubleQuoted first.toList)
        (others.map fun text => doubleQuoted text.toList) []
      obtain ⟨_, named⟩ : Reads (Scanner.text [':'] _) _ _ :=
        text_doubleQuoted ((opens.begins.skip scanner).trans laid)
      have solid : Text.isBlank c = false ∧ c ≠ ':' := by
        rcases stop with rfl | rfl <;> exact ⟨rfl, by decide⟩
      obtain ⟨offset, missing⟩ := expect_moveTo_other scanner tail solid.1 solid.2
      refine ⟨offset, ?_⟩
      rw [split, members, named]
      simp only [moveTo_moveTo, missing]
      rfl

/-- A map that is taken for a list has neither a comma nor a closing brace behind its first key. -/
theorem braced_quotedEntries_taken {entries : List (String × String)} (nonempty : entries ≠ [])
    (shows : ¬ ShowsColon (quotedEntries gap entries))
    (next : scanner.skipBlanks.rest = '{' :: (quotedEntries gap entries ++ ['}'])) :
    ∃ offset, braced scanner = .error (.characterMissing '}' offset) := by
  obtain ⟨entry, others, rfl⟩ := List.exists_cons_of_ne_nil nonempty
  have opens : Opens (quotedEntries gap (entry :: others) ++ ['}']) :=
    (joined_opens (spellsEntry_quotedEntry gap entry).opens _ _).append ['}']
  have isList : looksLikeMap none (quotedEntries gap (entry :: others) ++ ['}']) = false :=
    Bool.eq_false_iff.2 (mt looksLikeMap_iff.1 (mt showsColon_closed.1 shows))
  obtain ⟨_, split⟩ := braced_of_list opens next isList
  obtain ⟨c, tail, -, laid⟩ := joined_stops gap (quotedEntry gap entry) (others.map (quotedEntry gap)) []
  rw [quotedEntry, List.append_assoc, List.cons_append] at laid
  obtain ⟨_, keyRead⟩ : Reads (value braceStops _) _ _ :=
    value_doubleQuoted ((opens.begins.skip scanner).trans laid)
  have noComma := eat?_moveTo_other scanner (gap ++ doubleQuoted entry.2.toList ++ c :: tail)
    (by decide : Text.isBlank ':' = false) (by decide : ':' ≠ ',')
  obtain ⟨offset, missing⟩ := expect_moveTo_other scanner
    (gap ++ doubleQuoted entry.2.toList ++ c :: tail) (by decide : Text.isBlank ':' = false)
    (by decide : ':' ≠ '}')
  refine ⟨offset, ?_⟩
  rw [split, items, keyRead]
  simp only [moveTo_moveTo, noComma, missing]
  rfl

end Scanner

/-! ## Directives -/

/-- The rule is given a value, an enumeration the items of a list. -/
inductive Rule.Takes : Rule → Json → Prop
  | enumeration (values : List Json) : Takes (.enumeration values) (.array values)
  | defaultValue (value : Json) : Takes (.defaultValue value) value
  | exampleValue (value : Json) : Takes (.exampleValue value) value

section

variable {rule : Rule} {json : Json} {content : List Char}

theorem begins_braces (content : List Char) :
    (Scanner.start ('{' :: content)).skipBlanks.rest = '{' :: content :=
  Scanner.Begins.skip ⟨'{', content, rfl, by decide⟩ (Scanner.start ('{' :: content))

theorem Rule.Takes.read_braced (takes : rule.Takes json)
    (reads : Scanner.Reads (Scanner.start ('{' :: content)).braced json []) :
    rule.kind.read ('=' :: '{' :: content) = .ok rule := by
  obtain ⟨within, read⟩ := reads
  cases takes with
  | enumeration values =>
      have listed : Scanner.Reads (Scanner.start ('{' :: content)).list values [] := by
        rw [Scanner.list_eq_braced (begins_braces content), read]
        exact ⟨_, rfl⟩
      exact congrArg (Except.map _) (RuleKind.complete_of_reads listed)
  | defaultValue value | exampleValue value =>
      have valued : Scanner.Reads ((Scanner.start ('{' :: content)).value []) json [] := by
        rw [Scanner.value_eq_braced (begins_braces content), read]
        exact ⟨_, rfl⟩
      exact congrArg (Except.map _) (RuleKind.complete_of_reads valued)

theorem Rule.Takes.read_unbraced {fault : ArgumentFault} (takes : rule.Takes json)
    (failed : (Scanner.start ('{' :: content)).braced = .error fault) :
    rule.kind.read ('=' :: '{' :: content) = .error fault := by
  cases takes with
  | enumeration values =>
      have unlisted : (Scanner.start ('{' :: content)).list = .error fault := by
        rw [Scanner.list_eq_braced (begins_braces content), failed]
        rfl
      change (((Scanner.start ('{' :: content)).list.bind RuleKind.complete).map _) = _
      rw [unlisted]
      rfl
  | defaultValue value | exampleValue value =>
      have unvalued : (Scanner.start ('{' :: content)).value [] = .error fault := by
        rw [Scanner.value_eq_braced (begins_braces content), failed]
      change ((((Scanner.start ('{' :: content)).value []).bind RuleKind.complete).map _) = _
      rw [unvalued]
      rfl

end

/-- The directive for a definition with an argument in braces. -/
def Definition.braced (definition : Definition) (content : List Char) : String :=
  "+" ++ definition.name ++ "=" ++ String.ofList ('{' :: (content ++ ['}']))

namespace Registry

open Scanner (ShowsColon quotedEntries quotedItems)

/-- Content in braces is read as the value under every name of a rule that takes such values. -/
def ReadsAs (content : List Char) (json : Json) : Prop :=
  ∀ definition ∈ builtin, ∀ rule : Rule, definition.kind = rule.kind → rule.Takes json →
    builtin.parse (definition.braced content) definition.target = .ok ⟨rule, .node⟩

/-- Content in braces lacks a character, under every name of a rule that takes such values. -/
def Lacks (wanted : Char) (content : List Char) (json : Json) : Prop :=
  ∀ definition ∈ builtin, ∀ rule : Rule, definition.kind = rule.kind → rule.Takes json →
    ∃ offset, builtin.parse (definition.braced content) definition.target =
      .error (.malformed (definition.braced content) (.characterMissing wanted offset))

section

variable {definition : Definition} {rule : Rule} {json : Json} {content : List Char}

theorem parse_braced (member : definition ∈ builtin) (content : List Char) :
    builtin.parse (definition.braced content) definition.target =
      match definition.kind.read ('=' :: '{' :: (content ++ ['}'])) with
      | .ok rule => .ok ⟨rule, .node⟩
      | .error reason => .error (.malformed (definition.braced content) reason) := by
  refine parse_of_spelled member (fun c first => .inl (Option.some.inj first).symm) ?_ (.inl ?_)
  · exact ⟨definition.name.toList ++ '=' :: '{' :: content, '}', by simp, by decide⟩
  · simp [Definition.braced]

theorem readsAs_of_braced
    (reads : Scanner.Reads (Scanner.start ('{' :: (content ++ ['}']))).braced json []) :
    ReadsAs content json := by
  intro definition member rule family takes
  rw [parse_braced member, family, takes.read_braced reads]

theorem lacks_of_braced {wanted : Char}
    (failed : ∃ offset, (Scanner.start ('{' :: (content ++ ['}']))).braced =
      .error (.characterMissing wanted offset)) : Lacks wanted content json := by
  intro definition member rule family takes
  obtain ⟨offset, failed⟩ := failed
  exact ⟨offset, by rw [parse_braced member, family, takes.read_unbraced failed]⟩

end

/-- What becomes of texts that directives give in double quotes. -/
structure ReadsQuoted (gap : List Char) : Prop where
  list : ∀ texts : List String, ¬ ShowsColon (quotedItems gap texts) →
    ReadsAs (quotedItems gap texts) (.array (texts.map .text))
  map : ∀ entries : List (String × String), entries ≠ [] → (Entries.names entries).Nodup →
    ShowsColon (quotedEntries gap entries) →
      ReadsAs (quotedEntries gap entries) (.object (entries.map fun entry => (entry.1, .text entry.2)))
  /-- Where a colon is found, a list is taken for a map. -/
  listTaken : ∀ texts : List String, ShowsColon (quotedItems gap texts) →
    Lacks ':' (quotedItems gap texts) (.array (texts.map .text))
  /-- Where no colon is found, a map is taken for a list. -/
  mapTaken : ∀ entries : List (String × String), entries ≠ [] → ¬ ShowsColon (quotedEntries gap entries) →
    Lacks '}' (quotedEntries gap entries) (.object (entries.map fun entry => (entry.1, .text entry.2)))
  plainList : ∀ texts : List String,
    (∀ first ∈ texts.head?, '"' ∉ first.toList) ∨ (∀ text ∈ texts, ':' ∉ text.toList) →
      ¬ ShowsColon (quotedItems gap texts)
  plainMap : ∀ (entry : String × String) (others : List (String × String)), '"' ∉ entry.1.toList →
    ShowsColon (quotedEntries gap (entry :: others))

theorem readsQuoted {gap : List Char} (blank : ∀ c ∈ gap, Text.isBlank c = true) : ReadsQuoted gap where
  list _ shows := readsAs_of_braced (Scanner.braced_quotedItems blank shows (begins_braces _))
  map _ nonempty distinct shows :=
    readsAs_of_braced (Scanner.braced_quotedEntries blank nonempty distinct shows (begins_braces _))
  listTaken _ shows := lacks_of_braced (Scanner.braced_quotedItems_taken shows (begins_braces _))
  mapTaken _ nonempty shows :=
    lacks_of_braced (Scanner.braced_quotedEntries_taken nonempty shows (begins_braces _))
  plainList _ plain := plain.elim Scanner.not_showsColon_of_first (Scanner.not_showsColon_of_no_colon blank)
  plainMap _ others plain := Scanner.showsColon_of_first plain others

theorem readsQuoted_spaced :
    builtin.parse "+kubebuilder:validation:Enum=\x7b\"3/4, or 5\", \"say \\\"no\\\"\"\x7d" .type =
        .ok ⟨.enumeration [.text "3/4, or 5", .text "say \"no\""], .node⟩ ∧
      builtin.parse "+kubebuilder:default=\x7b\"a:b\": \"c\\\\\", \"d\": \"\\\"\"\x7d" .field =
        .ok ⟨.defaultValue (.object [("a:b", .text "c\\"), ("d", .text "\"")]), .node⟩ := by
  have reads : ReadsQuoted [' '] := readsQuoted (List.forall_mem_singleton.2 rfl)
  constructor
  · have spelled : Definition.braced ⟨"kubebuilder:validation:Enum", .type, .enumeration⟩
        (quotedItems [' '] ["3/4, or 5", "say \"no\""]) =
          "+kubebuilder:validation:Enum=\x7b\"3/4, or 5\", \"say \\\"no\\\"\"\x7d" := by decide +kernel
    rw [← spelled]
    exact reads.list ["3/4, or 5", "say \"no\""] (reads.plainList _ (.inl (by decide)))
      ⟨"kubebuilder:validation:Enum", .type, .enumeration⟩ (by decide +kernel) _ rfl (.enumeration _)
  · have spelled : Definition.braced ⟨"kubebuilder:default", .field, .defaultValue⟩
        (quotedEntries [' '] [("a:b", "c\\"), ("d", "\"")]) =
          "+kubebuilder:default=\x7b\"a:b\": \"c\\\\\", \"d\": \"\\\"\"\x7d" := by decide +kernel
    rw [← spelled]
    exact reads.map [("a:b", "c\\"), ("d", "\"")] (List.cons_ne_nil _ _) (by decide)
      (reads.plainMap _ _ (by decide)) ⟨"kubebuilder:default", .field, .defaultValue⟩ (by decide +kernel) _
      rfl (.defaultValue _)

/-- A quote in the first text misleads the scan, in a list with a colon behind it and in a map. -/
theorem exists_misread :
    (∀ directive, builtin.parse "+kubebuilder:validation:Enum=\x7b\"5\\\" pipe: steel\"\x7d" .field ≠
        .ok directive) ∧
      ∀ directive, builtin.parse "+kubebuilder:default=\x7b\"5\\\"\": \"pipe\"\x7d" .field ≠
        .ok directive := by
  constructor
  · have spelled : Definition.braced ⟨"kubebuilder:validation:Enum", .field, .enumeration⟩
        (quotedItems [] ["5\" pipe: steel"]) =
          "+kubebuilder:validation:Enum=\x7b\"5\\\" pipe: steel\"\x7d" := by decide +kernel
    have taken : Lacks ':' (quotedItems [] ["5\" pipe: steel"]) (.array [.text "5\" pipe: steel"]) :=
      lacks_of_braced (Scanner.braced_quotedItems_taken (by decide) (begins_braces _))
    obtain ⟨offset, failed⟩ := taken ⟨"kubebuilder:validation:Enum", .field, .enumeration⟩
      (by decide +kernel) _ rfl (.enumeration _)
    intro directive
    rw [← spelled, failed]
    nofun
  · have spelled : Definition.braced ⟨"kubebuilder:default", .field, .defaultValue⟩
        (quotedEntries [' '] [("5\"", "pipe")]) =
          "+kubebuilder:default=\x7b\"5\\\"\": \"pipe\"\x7d" := by decide +kernel
    have taken : Lacks '}' (quotedEntries [' '] [("5\"", "pipe")]) (.object [("5\"", .text "pipe")]) :=
      lacks_of_braced (Scanner.braced_quotedEntries_taken (List.cons_ne_nil _ _) (by decide)
        (begins_braces _))
    obtain ⟨offset, failed⟩ := taken ⟨"kubebuilder:default", .field, .defaultValue⟩ (by decide +kernel) _ rfl
      (.defaultValue _)
    intro directive
    rw [← spelled, failed]
    nofun

end Registry

end ProtoSchema
