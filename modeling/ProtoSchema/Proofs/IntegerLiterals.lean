import ProtoSchema.Proofs.NumericBounds
import ProtoSchema.Proofs.QuotedLiterals

/-!
Integers in literals. Below 2 ^ 63 a numeral is read as the integer that it spells, wherever it stands; from
there on it is read as the float nearest to that integer, which is another number unless 2048 divides it.
-/
namespace ProtoSchema

open List (Forall₂)

namespace Binary64

variable {n : Nat}

theorem ofDecimal_of_lt (below : n < 0x10000000000000000) (positive : 0 < n) :
    ofDecimal false n 0 = ofNat n := by
  have least := Numeral.pow_length_le positive
  have short : Numeral.length n ≤ 20 := by
    by_contra long
    have wide : 10 ^ 20 ≤ 10 ^ (Numeral.length n - 1) := Nat.pow_le_pow_right (by decide) (by omega)
    omega
  have once : n * Nat.pow 10 0 = n := by rw [Nat.pow_eq, Nat.pow_zero, Nat.mul_one]
  simp only [ofDecimal, ofNat]
  rw [if_neg (by omega), if_neg (by omega)]
  exact congrArg (ofRatio false · 1) once

theorem nearest_ofNat (below : n < 0x10000000000000000) :
    ∃ rank : Fin rankCount, ofNat n = .finite false rank ∧ Nearest n rank := by
  have nearest : Nearest ((n * unitsPerOne : ℕ) / (1 : ℕ) / unitsPerOne) (nearestRank (n * unitsPerOne) 1) :=
    nearest_nearestRank Nat.one_pos
  have one : (unitsPerOne : ℚ) ≠ 0 := by exact_mod_cast unitsPerOne_pos.ne'
  have value : ((n * unitsPerOne : ℕ) / (1 : ℕ) / unitsPerOne : ℚ) = n := by
    push_cast
    field_simp
  rw [value] at nearest
  have fits : nearestRank (n * unitsPerOne) 1 < rankCount := by
    by_contra large
    have last : (0x20000000000000000 : ℚ) ≤ magnitude rankCount := by
      have wide : 0x20000000000000000 * unitsPerOne ≤ units rankCount := by decide +kernel
      rw [magnitude, le_div_iff₀ (by exact_mod_cast unitsPerOne_pos)]
      exact_mod_cast wide
    have high := magnitude_strictMono.monotone (not_lt.1 large)
    have low := nearest.low
    have previous := magnitude_nonneg (nearestRank (n * unitsPerOne) 1 - 1)
    have small : (n : ℚ) < 0x10000000000000000 := by exact_mod_cast below
    linarith
  exact ⟨⟨_, fits⟩, ofRank_of_lt false fits, nearest⟩

/-- From 2 ^ 63 to 2 ^ 64 the floats are the multiples of 2048. -/
theorem exists_magnitude_iff (least : 0x8000000000000000 ≤ n) (below : n < 0x10000000000000000) :
    (∃ rank, magnitude rank = n) ↔ 2048 ∣ n := by
  have one : unitsPerOne = 1 <<< 1074 := rfl
  generalize 1074 = place at one
  rw [Nat.one_shiftLeft] at one
  simp only [magnitude_eq_natCast_iff, one]
  constructor
  · rintro ⟨rank, whole⟩
    obtain ⟨short, -⟩ := significand_bounds rank
    have fine : place + 11 ≤ scale rank := by
      by_contra coarse
      have step : 2 ^ scale rank ≤ 2 ^ (place + 10) := Nat.pow_le_pow_right Nat.two_pos (by omega)
      have bound := Nat.mul_lt_mul_of_lt_of_le short step (Nat.two_pow_pos _)
      have large : 2 ^ place * 0x8000000000000000 ≤ 2 ^ place * n := Nat.mul_le_mul_left _ least
      rw [← units_eq, whole, binadeSize_eq, Nat.pow_add] at bound
      omega
    have divides : 2 ^ (place + 11) ∣ 2 ^ place * n := by
      rw [← whole, units_eq]
      exact (Nat.pow_dvd_pow 2 fine).mul_left _
    rw [Nat.pow_add] at divides
    exact Nat.dvd_of_mul_dvd_mul_left (Nat.two_pow_pos place) divides
  · rintro ⟨k, rfl⟩
    have filled : binadeSize ≤ k ∧ k < 2 * binadeSize := by
      rw [binadeSize_eq]
      omega
    have leads : place + 11 = 0 ∨ binadeSize ≤ k := .inr filled.1
    obtain ⟨level, digits⟩ := scale_add filled.2 leads
    refine ⟨(place + 11) * binadeSize + k, ?_⟩
    rw [units_eq, level, digits, Nat.pow_add]
    ring

/-- A natural number of 64 bits in the upper half of the range is its own float only if 2048 divides it. -/
theorem toRat_ofNat_eq_iff (least : 0x8000000000000000 ≤ n) (below : n < 0x10000000000000000) :
    (ofNat n).toRat = n ↔ 2048 ∣ n := by
  obtain ⟨rank, is, nearest⟩ := nearest_ofNat below
  rw [← exists_magnitude_iff least below, is]
  constructor
  · exact fun exact => ⟨rank, exact⟩
  · rintro ⟨other, exact⟩
    have same := nearest.unique (exact ▸ nearest_magnitude other)
    rw [← exact, ← same]
    rfl

end Binary64

/-! ## Values with integers in them -/

namespace Json

mutual

/-- The value with a float for each integer from 2 ^ 63 on. -/
def rounded : Json → Json
  | .integer n => if n < 0x8000000000000000 then .integer n else .decimal (.ofNat n.toNat)
  | .array items => .array (roundedItems items)
  | .object entries => .object (roundedEntries entries)
  | value => value

def roundedItems : List Json → List Json
  | [] => []
  | item :: rest => item.rounded :: roundedItems rest

def roundedEntries : List (String × Json) → List (String × Json)
  | [] => []
  | (key, value) :: rest => (key, value.rounded) :: roundedEntries rest

end

theorem roundedItems_eq (items : List Json) : roundedItems items = items.map rounded := by
  induction items with
  | nil => rfl
  | cons item rest ih => rw [roundedItems, ih, List.map_cons]

theorem roundedEntries_eq (entries : List (String × Json)) :
    roundedEntries entries = entries.map fun entry => (entry.1, entry.2.rounded) := by
  induction entries with
  | nil => rfl
  | cons entry rest ih => rw [roundedEntries, ih, List.map_cons]

/-- The integer stands in the value, at some depth. -/
inductive Holds (n : Int) : Json → Prop
  | integer : Holds n (.integer n)
  | item {item : Json} {items : List Json} (member : item ∈ items) : Holds n item → Holds n (.array items)
  | entry {entry : String × Json} {entries : List (String × Json)} (member : entry ∈ entries) :
      Holds n entry.2 → Holds n (.object entries)

mutual

/-- Rounding keeps a value if and only if all its integers are below 2 ^ 63. -/
theorem rounded_eq_self_iff : ∀ json : Json,
    json.rounded = json ↔ ∀ n, json.Holds n → n < 0x8000000000000000
  | .null => iff_of_true rfl nofun
  | .boolean _ => iff_of_true rfl nofun
  | .decimal _ => iff_of_true rfl nofun
  | .text _ => iff_of_true rfl nofun
  | .integer n => by
      rw [rounded]
      by_cases small : n < 0x8000000000000000
      · rw [if_pos small]
        refine iff_of_true rfl fun m holds => ?_
        cases holds
        exact small
      · rw [if_neg small]
        exact iff_of_false nofun fun all => small (all n .integer)
  | .array items => by
      rw [rounded, Json.array.injEq, roundedItems_eq_self_iff items]
      refine ⟨fun all n holds => ?_, fun all item member n inside => all n (.item member inside)⟩
      cases holds with
      | item member inside => exact all _ member n inside
  | .object entries => by
      rw [rounded, Json.object.injEq, roundedEntries_eq_self_iff entries]
      refine ⟨fun all n holds => ?_, fun all entry member n inside => all n (.entry member inside)⟩
      cases holds with
      | entry member inside => exact all _ member n inside

theorem roundedItems_eq_self_iff : ∀ items : List Json,
    roundedItems items = items ↔ ∀ item ∈ items, ∀ n, item.Holds n → n < 0x8000000000000000
  | [] => iff_of_true rfl nofun
  | item :: rest => by
      rw [roundedItems, List.cons.injEq, rounded_eq_self_iff item, roundedItems_eq_self_iff rest,
        List.forall_mem_cons]

theorem roundedEntries_eq_self_iff : ∀ entries : List (String × Json),
    roundedEntries entries = entries ↔ ∀ entry ∈ entries, ∀ n, entry.2.Holds n → n < 0x8000000000000000
  | [] => iff_of_true rfl nofun
  | (key, value) :: rest => by
      rw [roundedEntries, List.cons.injEq, Prod.mk.injEq, rounded_eq_self_iff value,
        roundedEntries_eq_self_iff rest, List.forall_mem_cons]
      simp

end

end Json

namespace Scanner

variable {gap : List Char}

/-! ## Literals and what they denote -/

/-- The scan for a colon stops before it finds one. -/
def ShowsStop (text : List Char) : Prop :=
  ∃ before c behind, text = before ++ c :: behind ∧ c ∈ [',', '{', '}'] ∧ Passed before

theorem not_looksLikeMap_of_showsStop {text : List Char} (stops : ShowsStop text) (rest : List Char) :
    looksLikeMap none (text ++ rest) = false := by
  obtain ⟨before, c, behind, rfl, stop, passed⟩ := stops
  rw [List.append_assoc, looksLikeMap_of_passed passed]
  simp only [List.mem_cons, List.not_mem_nil, or_false] at stop
  rcases stop with rfl | rfl | rfl <;> rfl

theorem Word.passed {word : List Char} (isWord : Word word) : Passed word := by
  have plain := isWord.plain
  clear isWord
  induction word with
  | nil => exact .nil
  | cons c word ih =>
      obtain ⟨first, later⟩ := List.forall_mem_cons.1 plain
      refine .plain (fun special => first ?_) (ih later)
      simp only [List.mem_cons, List.not_mem_nil, or_false] at special
      rcases special with rfl | rfl | rfl | rfl | rfl | rfl <;> decide

/-- A list that starts with a word, a numeral for example, is not taken for a map. -/
theorem Word.showsStop {word : List Char} (isWord : Word word) (gap : List Char) (others : List (List Char)) :
    ShowsStop (Text.joined (',' :: gap) (word :: others) ++ ['}']) := by
  obtain ⟨c, tail, stop, laid⟩ := joined_stops gap word others []
  exact ⟨word, c, tail, laid, by rcases stop with rfl | rfl <;> decide, isWord.passed⟩

theorem Word.showsColon {word : List Char} (isWord : Word word) (separator value : List Char)
    (others : List (List Char)) : ShowsColon (Text.joined separator ((word ++ ':' :: value) :: others)) := by
  obtain ⟨behind, -, laid⟩ := Text.exists_joined_cons separator others
  exact ⟨word, value ++ behind, by rw [laid, List.append_assoc, List.cons_append], isWord.passed⟩

theorem Word.spellsKey {word : List Char} (isWord : Word word) : SpellsKey word (String.ofList word) where
  opens := isWord.opens
  reads {scanner} rest next := by
    obtain ⟨c, tail, rfl, -, plain⟩ := isWord.head
    have unquoted : scanner.skipBlanks.quoted? = none := by
      refine quoted?_of_other next ⟨?_, ?_⟩ <;> (rintro rfl; exact plain (by decide))
    have free : ∀ other ∈ c :: tail, other ∉ [':'] := fun other member colon =>
      isWord.plain other member (List.mem_singleton.1 colon ▸ by decide)
    have ends : ∀ other ∈ (':' :: rest).head?, other ∈ [':'] := by simp
    obtain ⟨within, read⟩ := bare_append isWord.solid free ends next
    simp only [text, unquoted, read]
    exact ⟨_, rfl⟩

/-- An entry of a map: the spelled key and the spelled value. -/
structure Member where
  key : String
  keyText : List Char
  value : Json
  valueText : List Char

def Member.text (gap : List Char) (member : Member) : List Char :=
  member.keyText ++ ':' :: (gap ++ member.valueText)

def Member.entry (member : Member) : String × Json := (member.key, member.value)

/-- The items of a list in braces, each in front of its text. -/
abbrev Piece := List Char × Json

/-- Literals and the values that they stand for: a numeral stands for the integer that it spells. -/
inductive Denotes : List Char → Json → Prop
  | numeral {n : Int} (least : -0x8000000000000000 ≤ n) (below : n < 0x10000000000000000) :
      Denotes (Numeral.integerText n).toList (.integer n)
  | word {word : List Char} (isWord : Word word) (other : Numeral.integer? word = none) :
      Denotes word (scalar word)
  | backQuoted {text : String} (free : '\x60' ∉ text.toList) : Denotes (backQuoted text.toList) (.text text)
  | doubleQuoted (text : String) : Denotes (doubleQuoted text.toList) (.text text)
  | list {gap : List Char} {pieces : List Piece} (blank : ∀ c ∈ gap, Text.isBlank c = true)
      (isList : ShowsStop (Text.joined (',' :: gap) (pieces.map Prod.fst) ++ ['}'])) :
      (∀ piece ∈ pieces, Denotes piece.1 piece.2) →
        Denotes ('{' :: (Text.joined (',' :: gap) (pieces.map Prod.fst) ++ ['}']))
          (.array (pieces.map Prod.snd))
  | map {gap : List Char} {members : List Member} (blank : ∀ c ∈ gap, Text.isBlank c = true)
      (filled : members ≠ []) (distinct : (members.map Member.key).Nodup)
      (keys : ∀ member ∈ members, SpellsKey member.keyText member.key)
      (isMap : ShowsColon (Text.joined (',' :: gap) (members.map (Member.text gap)))) :
      (∀ member ∈ members, Denotes member.valueText member.value) →
        Denotes ('{' :: (Text.joined (',' :: gap) (members.map (Member.text gap)) ++ ['}']))
          (.object (members.map Member.entry))

/-- A text that is read as a value wherever a literal may stand. -/
structure Stands (text : List Char) (json : Json) : Prop where
  opens : Opens text
  closes : Closes text
  reads : ∀ {scanner : Scanner} {stops rest : List Char}, stops ⊆ specials → (∀ c ∈ rest.head?, c ∈ stops) →
    scanner.skipBlanks.rest = text ++ rest → Reads (value stops scanner) json rest

theorem Stands.spells {text : List Char} {json : Json} (stands : Stands text json) : Spells text json where
  opens := stands.opens
  reads stop next := stands.reads (by decide) (fun _ first => Option.some.inj first ▸ stop) next

theorem Word.stands {word : List Char} (isWord : Word word) : Stands word (scalar word) where
  opens := isWord.opens
  closes := .of_solid isWord.solid isWord.nonempty
  reads known ends next := value_word isWord known ends next

theorem stands_braces {content : List Char} {json : Json}
    (reads : ∀ {scanner : Scanner} {rest : List Char},
      scanner.skipBlanks.rest = '{' :: (content ++ '}' :: rest) → Reads (braced scanner) json rest) :
    Stands ('{' :: (content ++ ['}'])) json where
  opens := ⟨'{', _, rfl, by decide, by decide⟩
  closes := ⟨'{' :: content, '}', rfl, by decide⟩
  reads _ _ next := by
    rw [List.cons_append, List.append_assoc, List.singleton_append] at next
    rw [value_eq_braced next]
    exact reads next

/-- What is not the numeral of an integer stays as it is. -/
theorem rounded_scalar {word : List Char} (other : Numeral.integer? word = none) :
    (scalar word).rounded = scalar word := by
  simp only [scalar, other]
  split
  · rfl
  · split
    · rfl
    · split
      · split <;> rfl
      · rfl

theorem scalar_large {n : Nat} (large : 0x8000000000000000 ≤ n) (below : n < 0x10000000000000000) :
    scalar (Numeral.digits n) = .decimal (.ofNat n) := by
  obtain ⟨rank, is, -⟩ := Binary64.nearest_ofNat below
  have finite : (Binary64.ofNat n).isFinite = true := by rw [is]; rfl
  have number : Binary64.ofLiteral? (Numeral.digits n) = some (.ofNat n) := by
    have numeric : ∀ c ∈ Numeral.digits n ++ [], Numeral.isDigit c = true := by
      simpa using fun c member => Numeral.isDigit_of_mem_digits member
    have ends : Binary64.Ends [] 0 := .inl ⟨rfl, rfl⟩
    have read := Binary64.ofLiteral?_of_digits false (Numeral.digits_ne_nil n) numeric ends
    simpa [Numeral.value_digits, Binary64.ofDecimal_of_lt below (by omega)] using read
  have apart : ∀ word : List Char, Numeral.integer? word = none → Numeral.digits n ≠ word := by
    rintro word nothing rfl
    rw [Numeral.integer?_digits] at nothing
    cases nothing
  rw [scalar, if_neg (apart _ (by decide)), if_neg (apart _ (by decide))]
  simp only [Numeral.integer?_digits, number, finite, if_true]
  rw [if_neg (by omega), Option.getD_some]

/-- A numeral is read as the integer that it spells, or as the float nearest to it. -/
theorem scalar_numeral {n : Int} (least : -0x8000000000000000 ≤ n) (below : n < 0x10000000000000000) :
    scalar (Numeral.integerText n).toList = (Json.integer n).rounded := by
  rw [Json.rounded]
  split
  · rename_i small
    have read : scalar ((Json.integer n).written []) = .integer n := scalar_integer least (by omega)
    rwa [Json.written] at read
  · obtain ⟨m, rfl⟩ := Int.eq_ofNat_of_zero_le (by omega : 0 ≤ n)
    have text : (Numeral.integerText m).toList = Numeral.digits m := Numeral.toList_text m
    rw [text]
    exact scalar_large (by omega) (by omega)

theorem word_integerText (n : Int) : Word (Numeral.integerText n).toList := by
  have isWord : Word ((Json.integer n).written []) := word_integer n
  rwa [Json.written] at isWord

/-- A literal is read as what it denotes, but for rounded integers. -/
theorem Denotes.stands {text : List Char} {json : Json} (denotes : Denotes text json) :
    Stands text json.rounded := by
  -- On the derivation and not on the text: what follows a literal stays general.
  induction denotes with
  | @numeral n least below =>
      rw [← scalar_numeral least below]
      exact (word_integerText n).stands
  | word isWord other =>
      rw [rounded_scalar other]
      exact isWord.stands
  | @backQuoted text free =>
      refine ⟨⟨_, _, rfl, by decide, by decide⟩, ⟨_ :: _, _, rfl, by decide⟩, fun {_} stops _ _ _ next => ?_⟩
      have read : Reads (value stops _) (.text (String.ofList text.toList)) _ := value_backQuoted free next
      rwa [String.ofList_toList] at read
  | doubleQuoted text =>
      refine ⟨opens_doubleQuoted text.toList, ⟨_ :: _, _, rfl, by decide⟩, fun {_} stops _ _ _ next => ?_⟩
      have read : Reads (value stops _) (.text (String.ofList text.toList)) _ := value_doubleQuoted next
      rwa [String.ofList_toList] at read
  | @list gap pieces blank isList _ ih =>
      rw [Json.rounded, Json.roundedItems_eq, List.map_map]
      refine stands_braces fun {_} rest next => braced_list blank ?_ ?_ next
      · exact List.forall₂_map_left_iff.2 (List.forall₂_map_right_iff.2
          (List.forall₂_same.2 fun piece member => (ih piece member).spells))
      · have stopped := not_looksLikeMap_of_showsStop isList rest
        rwa [List.append_assoc, List.singleton_append] at stopped
  | @map gap members blank filled distinct keys isMap _ ih =>
      rw [Json.rounded, Json.roundedEntries_eq, List.map_map]
      refine stands_braces fun {_} rest next => braced_map blank ?_ (by simpa using filled) ?_ ?_ next
      · exact List.forall₂_map_left_iff.2 (List.forall₂_map_right_iff.2
          (List.forall₂_same.2 fun member inside =>
            ⟨_, _, rfl, keys member inside, (ih member inside).spells⟩))
      · rwa [Entries.names, List.map_map]
      · obtain ⟨before, behind, laid, passed⟩ := isMap
        rw [laid]
        exact looksLikeMap_iff.2 ⟨before, behind ++ '}' :: rest, by simp, passed⟩

/-! ## Lists between semicolons -/

theorem separated_read {scanner : Scanner} {texts : List (List Char)} {values : List Json}
    (blank : ∀ c ∈ gap, Text.isBlank c = true) (stand : Forall₂ Stands texts values) (filled : values ≠ [])
    (next : scanner.skipBlanks.rest = Text.joined (';' :: gap) texts) :
    Reads (separated scanner) values [] := by
  induction stand generalizing scanner with
  | nil => contradiction
  | @cons text value texts values first others ih =>
      cases others with
      | nil =>
          rw [Text.joined_singleton, ← List.append_nil text] at next
          have ended : ∀ c ∈ ([] : List Char).head?, c ∈ [';'] := nofun
          obtain ⟨_, read⟩ := first.reads (by decide) ended next
          rw [separated, read]
          exact ⟨_, rfl⟩
      | @cons second _ more _ here later =>
          rw [Text.joined_cons_cons, List.cons_append] at next
          have ended : ∀ c ∈ (';' :: (gap ++ Text.joined (';' :: gap) (second :: more))).head?, c ∈ [';'] := by
            simp
          obtain ⟨_, read⟩ := first.reads (by decide) ended next
          obtain ⟨_, semicolon⟩ := eat?_moveTo scanner (gap ++ Text.joined (';' :: gap) (second :: more))
            (by decide : Text.isBlank ';' = false)
          have begins : Begins (Text.joined (';' :: gap) (second :: more)) :=
            (joined_opens here.opens _ more).begins
          obtain ⟨_, tail⟩ := ih (List.cons_ne_nil _ _) (begins.next blank scanner)
          rw [separated, read]
          simp only [semicolon, tail]
          exact ⟨_, rfl⟩

theorem list_eq_separated {scanner : Scanner} (other : ∀ c ∈ scanner.skipBlanks.rest.head?, c ≠ '{') :
    list scanner = separated scanner := by
  rw [list]
  split
  · rename_i rest found
    exact absurd rfl (other '{' (by rw [found]; rfl))
  · rfl

end Scanner

/-! ## Directives -/

/-- The directive for a definition with an argument behind an equals sign. -/
def Definition.given (definition : Definition) (text : List Char) : String :=
  "+" ++ definition.name ++ "=" ++ String.ofList text

namespace Registry

open Scanner

/-- The text behind the equals sign makes this rule of a family, under each of its names. -/
structure Gives (kind : RuleKind) (text : List Char) (rule : Rule) : Prop where
  read : kind.read ('=' :: text) = .ok rule
  parse : ∀ definition ∈ builtin, definition.kind = kind →
    builtin.parse (definition.given text) definition.target = .ok ⟨rule, .node⟩

theorem gives_of_read {kind : RuleKind} {text : List Char} {rule : Rule} (closes : Closes text)
    (read : kind.read ('=' :: text) = .ok rule) : Gives kind text rule where
  read
  parse definition member family := by
    have spelled : (definition.given text).toList = '+' :: (definition.name.toList ++ '=' :: text) := by
      simp [Definition.given]
    have set : ∀ c ∈ ('=' :: text).head?, c = '=' ∨ c = ':' ∧ definition.kind = .validation := by simp
    rw [parse_of_spelled member set ((closes.prepend ['=']).prepend definition.name.toList) (.inl spelled),
      family, read]

theorem readValue_of_stands {text : List Char} {json : Json} (stands : Stands text json) :
    RuleKind.readValue ('=' :: text) = .ok json := by
  have next : (start text).skipBlanks.rest = text ++ [] := by
    rw [List.append_nil]
    exact stands.opens.begins.skip (start text)
  exact RuleKind.complete_of_reads (stands.reads (List.nil_subset _) nofun next)

theorem gives_default {text : List Char} {json : Json} (stands : Stands text json) :
    Gives .defaultValue text (.defaultValue json) :=
  gives_of_read stands.closes (congrArg (Except.map _) (readValue_of_stands stands))

theorem gives_example {text : List Char} {json : Json} (stands : Stands text json) :
    Gives .exampleValue text (.exampleValue json) :=
  gives_of_read stands.closes (congrArg (Except.map _) (readValue_of_stands stands))

theorem gives_enumeration {text : List Char} {values : List Json} (closes : Closes text)
    (reads : Reads (start text).list values []) : Gives .enumeration text (.enumeration values) := by
  have read : RuleKind.readList ('=' :: text) = .ok values := RuleKind.complete_of_reads reads
  exact gives_of_read closes (congrArg (Except.map _) read)

theorem joined_closes {separator : List Char} {texts : List (List Char)} (filled : texts ≠ [])
    (close : ∀ text ∈ texts, Closes text) : Closes (Text.joined separator texts) := by
  obtain ⟨others, last, rfl⟩ := (List.eq_nil_or_concat' texts).resolve_left filled
  obtain ⟨front, laid⟩ := Text.exists_joined_concat separator others
  rw [laid]
  exact (close last (by simp)).prepend front

section

variable {gap : List Char} {pieces : List Piece} (blank : ∀ c ∈ gap, Text.isBlank c = true)
  (denote : ∀ piece ∈ pieces, Denotes piece.1 piece.2)

include blank denote

theorem gives_braced_list (isList : ShowsStop (Text.joined (',' :: gap) (pieces.map Prod.fst) ++ ['}'])) :
    Gives .enumeration ('{' :: (Text.joined (',' :: gap) (pieces.map Prod.fst) ++ ['}']))
      (.enumeration (pieces.map fun piece => piece.2.rounded)) := by
  have stands := (Denotes.list blank isList denote).stands
  rw [Json.rounded, Json.roundedItems_eq, List.map_map] at stands
  refine gives_enumeration stands.closes ?_
  generalize Text.joined (',' :: gap) (pieces.map Prod.fst) ++ ['}'] = content at *
  have next : (start ('{' :: content)).skipBlanks.rest = '{' :: content ++ [] := by
    rw [List.append_nil]
    exact begins_braces content
  have ended : ∀ c ∈ ([] : List Char).head?, c ∈ ([] : List Char) := nofun
  obtain ⟨_, read⟩ := stands.reads (List.nil_subset _) ended next
  rw [value_eq_braced (begins_braces content)] at read
  rw [list_eq_braced (begins_braces content), read]
  exact ⟨_, rfl⟩

theorem gives_separated_list (filled : pieces ≠ [])
    (unbraced : ∀ piece ∈ pieces.head?, piece.1.head? ≠ some '{') :
    Gives .enumeration (Text.joined (';' :: gap) (pieces.map Prod.fst))
      (.enumeration (pieces.map fun piece => piece.2.rounded)) := by
  have stand : Forall₂ Stands (pieces.map Prod.fst) (pieces.map fun piece => piece.2.rounded) :=
    List.forall₂_map_left_iff.2 (List.forall₂_map_right_iff.2
      (List.forall₂_same.2 fun piece inside => (denote piece inside).stands))
  have closes : Closes (Text.joined (';' :: gap) (pieces.map Prod.fst)) := by
    refine joined_closes (by simpa using filled) fun text listed => ?_
    obtain ⟨piece, inside, rfl⟩ := List.mem_map.1 listed
    exact (denote piece inside).stands.closes
  refine gives_enumeration closes ?_
  obtain ⟨first, others, rfl⟩ := List.exists_cons_of_ne_nil filled
  have opens := (denote first List.mem_cons_self).stands.opens
  have begins := (joined_opens opens (';' :: gap) (others.map Prod.fst)).begins
  have next : (start (Text.joined (';' :: gap) ((first :: others).map Prod.fst))).skipBlanks.rest =
      Text.joined (';' :: gap) ((first :: others).map Prod.fst) := begins.skip (start _)
  have other : ∀ c ∈ (Text.joined (';' :: gap) ((first :: others).map Prod.fst)).head?, c ≠ '{' := by
    obtain ⟨behind, -, laid⟩ := Text.exists_joined_cons (';' :: gap) (others.map Prod.fst)
    obtain ⟨c, tail, split, -, -⟩ := opens
    rw [List.map_cons, laid, split]
    rintro _ ⟨⟩ rfl
    exact unbraced first rfl (by rw [split]; rfl)
  rw [list_eq_separated (by rwa [next])]
  exact separated_read blank stand (by simp) next

end

/-- What becomes of the integers in a value that directives give to a schema. -/
structure ReadsIntegers (schema : Schema) (json : Json) : Prop where
  /-- A default or an example is what its literal denotes, but for rounded integers. -/
  value : ∀ {text : List Char}, Denotes text json →
    Gives .defaultValue text (.defaultValue json.rounded) ∧
      Gives .exampleValue text (.exampleValue json.rounded)
  /-- So are the items of an enumeration, in braces and between semicolons. -/
  bracedList : ∀ {gap : List Char} {pieces : List Piece}, (∀ c ∈ gap, Text.isBlank c = true) →
    (∀ piece ∈ pieces, Denotes piece.1 piece.2) →
      ShowsStop (Text.joined (',' :: gap) (pieces.map Prod.fst) ++ ['}']) →
        Gives .enumeration ('{' :: (Text.joined (',' :: gap) (pieces.map Prod.fst) ++ ['}']))
          (.enumeration (pieces.map fun piece => piece.2.rounded))
  separatedList : ∀ {gap : List Char} {pieces : List Piece}, (∀ c ∈ gap, Text.isBlank c = true) →
    (∀ piece ∈ pieces, Denotes piece.1 piece.2) → pieces ≠ [] →
      (∀ piece ∈ pieces.head?, piece.1.head? ≠ some '{') →
        Gives .enumeration (Text.joined (';' :: gap) (pieces.map Prod.fst))
          (.enumeration (pieces.map fun piece => piece.2.rounded))
  /-- The value keeps all its integers if and only if these are below 2 ^ 63. -/
  kept : json.rounded = json ↔ ∀ n, json.Holds n → n < 0x8000000000000000
  /-- From there on an integer becomes a float, and another number unless 2048 divides it. -/
  lost : ∀ n : Nat, 0x8000000000000000 ≤ n → n < 0x10000000000000000 → ∃ rank : Fin Binary64.rankCount,
    (Json.integer n).rounded = .decimal (.finite false rank) ∧ Binary64.Nearest n rank ∧
      (Binary64.magnitude rank = n ↔ 2048 ∣ n)
  /-- A default or an example is emitted as it was read. -/
  emitted :
    (∃ changed entries, (⟨.defaultValue json.rounded, .node⟩ : Directive).apply schema = .ok changed ∧
        changed.toJson = .object entries ∧ entries.lookup "default" = some json.rounded) ∧
      ∃ changed entries, (⟨.exampleValue json.rounded, .node⟩ : Directive).apply schema = .ok changed ∧
        changed.toJson = .object entries ∧ entries.lookup "example" = some json.rounded

theorem readsIntegers (schema : Schema) (json : Json) : ReadsIntegers schema json where
  value denotes := ⟨gives_default denotes.stands, gives_example denotes.stands⟩
  bracedList := gives_braced_list
  separatedList := gives_separated_list
  kept := Json.rounded_eq_self_iff json
  lost n least below := by
    obtain ⟨rank, is, nearest⟩ := Binary64.nearest_ofNat below
    refine ⟨rank, ?_, nearest, ?_⟩
    · rw [Json.rounded, if_neg (by omega), Int.toNat_natCast, is]
    · rw [← Binary64.toRat_ofNat_eq_iff least below, is]
      rfl
  emitted := by
    constructor
    · let changed : Schema := { schema with defaultValue := some json.rounded }
      have given : ("default", some json.rounded) ∈ Schema.givenValues changed.toKeywords := List.mem_cons_self
      obtain ⟨entries, written, found⟩ :=
        Schema.lookup_toJson_of_mem (Schema.mem_leadingKeywords_of_mem_givenValues given)
      exact ⟨changed, entries, rfl, written, found⟩
    · let changed : Schema := { schema with exampleValue := some json.rounded }
      have given : ("example", some json.rounded) ∈ Schema.givenValues changed.toKeywords :=
        List.mem_cons_of_mem _ List.mem_cons_self
      obtain ⟨entries, written, found⟩ :=
        Schema.lookup_toJson_of_mem (Schema.mem_leadingKeywords_of_mem_givenValues given)
      exact ⟨changed, entries, rfl, written, found⟩

/-- Next to each other in a map, an integer below 2 ^ 63 is kept and a greater one is not. -/
theorem readsIntegers_nested :
    builtin.parse "+kubebuilder:default=\x7bsizes: \x7b1, 18446744073709551615\x7d\x7d" .field =
      .ok ⟨.defaultValue (.object [("sizes",
        .array [.integer 1, .decimal (.ofNat 18446744073709551615)])]), .node⟩ := by
  let pieces : List Piece := [((Numeral.integerText 1).toList, .integer 1),
    ((Numeral.integerText 18446744073709551615).toList, .integer 18446744073709551615)]
  have blank : ∀ c ∈ [' '], Text.isBlank c = true := List.forall_mem_singleton.2 (by decide)
  have sizes : Denotes ('{' :: (Text.joined [',', ' '] (pieces.map Prod.fst) ++ ['}']))
      (.array (pieces.map Prod.snd)) := by
    refine .list blank ((word_integerText 1).showsStop _ _) ?_
    simp only [pieces, List.forall_mem_cons]
    exact ⟨.numeral (by decide) (by decide), .numeral (by decide) (by decide), nofun⟩
  have word : Word "sizes".toList := word_of_all (by decide) (by decide)
  let member : Member := ⟨"sizes", "sizes".toList, .array (pieces.map Prod.snd),
    '{' :: (Text.joined [',', ' '] (pieces.map Prod.fst) ++ ['}'])⟩
  have all : Denotes ('{' :: (Text.joined [',', ' '] ([member].map (Member.text [' '])) ++ ['}']))
      (.object ([member].map Member.entry)) := by
    refine .map blank (List.cons_ne_nil _ _) (List.nodup_singleton _) ?_ (word.showsColon _ _ _) ?_
    · simpa [member] using word.spellsKey
    · simpa using sizes
  have spelled : Definition.given ⟨"kubebuilder:default", .field, .defaultValue⟩
      ('{' :: (Text.joined [',', ' '] ([member].map (Member.text [' '])) ++ ['}'])) =
        "+kubebuilder:default=\x7bsizes: \x7b1, 18446744073709551615\x7d\x7d" := by decide +kernel
  rw [← spelled]
  have gives := ((readsIntegers {} _).value all).1
  exact gives.parse ⟨"kubebuilder:default", .field, .defaultValue⟩ (by decide +kernel) rfl

/-- The greatest integer of 64 bits without a sign is read as another number. -/
theorem exists_rounded_integer :
    builtin.parse "+kubebuilder:default=18446744073709551615" .field =
        .ok ⟨.defaultValue (.decimal (.ofNat 18446744073709551615)), .node⟩ ∧
      builtin.parse "+kubebuilder:default=18446744073709551615" .field ≠
        .ok ⟨.defaultValue (.integer 18446744073709551615), .node⟩ ∧
      (Binary64.ofNat 18446744073709551615).toRat = (18446744073709551616 : ℤ) := by
  have stands : Stands (Numeral.digits 18446744073709551615) (scalar (Numeral.digits 18446744073709551615)) :=
    (word_digits _).stands
  rw [scalar_large (by decide) (by decide)] at stands
  have parsed := (gives_default stands).parse ⟨"kubebuilder:default", .field, .defaultValue⟩
    (by decide +kernel) rfl
  have spelled : Definition.given ⟨"kubebuilder:default", .field, .defaultValue⟩
      (Numeral.digits 18446744073709551615) = "+kubebuilder:default=18446744073709551615" := by decide +kernel
  rw [spelled] at parsed
  refine ⟨parsed, ?_, Binary64.ofInt_unsigned.2.2.2⟩
  rw [parsed]
  nofun

end Registry

end ProtoSchema
