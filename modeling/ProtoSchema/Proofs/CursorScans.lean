import ProtoSchema.Proofs.Cursors

/-!
The scans of a cursor end. From every position between two characters, and with three steps for each character
of the text and three more, a scan has the value or the fault that `Scanner` has there. Every slice that it
takes lies in the text, and it moves on from character to character.
-/
namespace ProtoSchema

namespace Scanner

theorem quoted?_eq_none {scanner : Scanner} (plain : ∀ c ∈ scanner.rest.head?, c ≠ '"' ∧ c ≠ '\x60') :
    scanner.quoted? = none := by
  cases begins : scanner.rest with
  | nil =>
      unfold quoted?
      split
      · rfl
      · rename_i found
        cases found.symm.trans begins
  | cons c rest => exact quoted?_of_other begins (plain c (by rw [begins]; rfl))

/-- Blanks in front do not tell a map from a list. -/
theorem looksLikeMap_dropWhile (text : List Char) :
    looksLikeMap none (text.dropWhile Text.isBlank) = looksLikeMap none text := by
  induction text with
  | nil => rfl
  | cons c text ih =>
      by_cases blank : Text.isBlank c = true
      · have apart : ∀ mark, Text.isBlank mark = false → c ≠ mark := fun mark solid same => by
          rw [same, solid] at blank
          cases blank
        rw [List.dropWhile_cons_of_pos blank, ih, looksLikeMap,
          if_neg (by simp only [apart '"' (by decide), apart '\x60' (by decide), or_self, not_false_eq_true]),
          if_neg (apart ':' (by decide)),
          if_neg (by simp only [apart ',' (by decide), apart '}' (by decide), apart '{' (by decide), or_self,
            not_false_eq_true])]
      · rw [List.dropWhile_cons_of_neg blank]

end Scanner

namespace Cursor

open Scanner (byteSize)

variable {cursor : Cursor} {scanner : Scanner} {steps : Nat}

/-! ## Text -/

theorem At.quoted_follows {tail : List Char} (stands : cursor.At scanner) (next : scanner.rest = '"' :: tail)
    (enough : scanner.rest.length < steps) :
    ∃ answer, scanner.quoted? = some answer ∧ Follows (quoted steps) cursor (located answer) := by
  obtain ⟨after, bumped, there, leads⟩ := stands.bump_eq next
  rw [next] at enough
  have follows := there.untilQuote_follows [] (Nat.lt_of_succ_lt enough)
  unfold Scanner.quoted?
  split
  · rename_i found
    cases found.symm.trans next
  · rename_i c rest found
    cases found.symm.trans next
    refine ⟨_, if_pos rfl, follows_bind bumped leads ?_⟩
    exact (follows.map String.ofList).of_map fun read => rfl

theorem At.backQuoted_follows {tail : List Char} (stands : cursor.At scanner)
    (next : scanner.rest = '\x60' :: tail) (enough : scanner.rest.length < steps) :
    ∃ answer, scanner.quoted? = some answer ∧ Follows (backQuoted steps) cursor (located answer) := by
  obtain ⟨after, bumped, there, leads⟩ := stands.bump_eq next
  rw [next] at enough
  have split : (scanner.moveTo tail).rest = [] ++ tail := rfl
  have follows := there.untilBackQuote_follows split there (.refl after) (Nat.lt_of_succ_lt enough)
  unfold Scanner.quoted?
  split
  · rename_i found
    cases found.symm.trans next
  · rename_i c rest found
    cases found.symm.trans next
    refine ⟨_, (if_neg (by decide)).trans (if_pos rfl), follows_bind bumped leads ?_⟩
    refine follows_bind offset_ran (.refl after) ?_
    exact (follows.map String.ofList).of_map fun read => rfl

/-- The cursor and the scanner agree on whether a quoted text begins, and on that text. -/
theorem At.quoted_cases (stands : cursor.At scanner) (enough : scanner.rest.length < steps) :
    (scanner.rest.head? = some '"' ∧
        ∃ answer, scanner.quoted? = some answer ∧ Follows (quoted steps) cursor (located answer)) ∨
      (scanner.rest.head? = some '\x60' ∧
        ∃ answer, scanner.quoted? = some answer ∧ Follows (backQuoted steps) cursor (located answer)) ∨
      scanner.quoted? = none ∧ scanner.rest.head? ≠ some '"' ∧ scanner.rest.head? ≠ some '\x60' := by
  by_cases double : scanner.rest.head? = some '"'
  · obtain ⟨tail, next⟩ := List.head?_eq_some_iff.1 double
    exact .inl ⟨double, stands.quoted_follows next enough⟩
  · by_cases back : scanner.rest.head? = some '\x60'
    · obtain ⟨tail, next⟩ := List.head?_eq_some_iff.1 back
      exact .inr (.inl ⟨back, stands.backQuoted_follows next enough⟩)
    · have unquoted := Scanner.quoted?_eq_none fun c first =>
        ⟨fun same => double (same ▸ first), fun same => back (same ▸ first)⟩
      exact .inr (.inr ⟨unquoted, double, back⟩)

theorem Near.text_follows (near : cursor.Near scanner) (enough : scanner.rest.length < steps)
    (stops : List Char) :
    Follows (text stops steps) cursor (located (scanner.text stops)) := by
  obtain ⟨inner, skipped, here, leads⟩ := near.skipBlanks_eq enough
  have short := Nat.lt_of_le_of_lt (Scanner.skipBlanks_length_le scanner) enough
  rw [text]
  refine follows_bind skipped leads (follows_bind here.peek_eq (.refl inner) ?_)
  rcases here.quoted_cases short with ⟨first, answer, found, follows⟩ | ⟨first, answer, found, follows⟩ |
    ⟨unquoted, notDouble, notBack⟩
  · simp only [first, if_true, Scanner.text, found]
    exact follows.of_map fun read => rfl
  · simp only [first, if_neg (by decide : some '\x60' ≠ some '"'), if_true, Scanner.text, found]
    exact follows.of_map fun read => rfl
  · simp only [if_neg notDouble, if_neg notBack, Scanner.text, unquoted]
    obtain ⟨after, read, there, further⟩ := here.bare_eq stops short
    exact follows_bind read further (follows_pure (.inl there))

theorem Near.text_of_quoted? {answer : Except ArgumentFault (Scanner.Scanned scanner.skipBlanks String)}
    (near : cursor.Near scanner) (enough : scanner.rest.length < steps) (stops : List Char)
    (found : scanner.skipBlanks.quoted? = some answer) :
    Follows (text stops steps) cursor (located answer) := by
  have same : located (scanner.text stops) = located answer := by
    simp only [Scanner.text, found]
    cases answer <;> rfl
  exact same ▸ near.text_follows enough stops

theorem Near.atEnd_eq (near : cursor.Near scanner) (enough : scanner.rest.length < steps) :
    ∃ after, atEnd steps cursor = .ok scanner.atEnd after ∧ after.At scanner.skipBlanks ∧
      cursor.Leads after := by
  obtain ⟨after, skipped, there, leads⟩ := near.skipBlanks_eq enough
  refine ⟨after, ?_, there, leads⟩
  rw [atEnd, bind_ok skipped, bind_ok there.rest_eq]
  rfl

/-- Behind all of the text there is one place. -/
theorem Near.moveTo_end {after : Cursor} {last : Scanner} (near : cursor.Near scanner)
    (leads : cursor.Leads after) (there : after.At last) (ended : last.rest = []) :
    after.At (scanner.skipBlanks.moveTo []) := by
  have total : scanner.total = byteSize cursor.source := near.elim (·.total) (·.total)
  refine ⟨total.trans (congrArg byteSize leads.source.symm), ?_⟩
  obtain ⟨front, split, size⟩ := there.split
  exact ⟨front, ended ▸ split, size⟩

/-- A text in quotes is all of the remainder if nothing but blanks is behind it. -/
theorem Near.remainder_of_quoted? {answer : Except ArgumentFault (Scanner.Scanned scanner.skipBlanks String)}
    (near : cursor.Near scanner) (enough : scanner.rest.length < steps)
    (found : scanner.skipBlanks.quoted? = some answer) :
    Follows (do
        let value ← text [] steps
        if ← atEnd steps then return value
        else failed (.trailingAfterText (String.ofList (← rest)))) cursor
      (scanner.remainder.map fun text => (text, scanner.skipBlanks.moveTo [])) := by
  have reading := near.text_of_quoted? enough [] found
  have short := Nat.lt_of_le_of_lt (Scanner.skipBlanks_length_le scanner) enough
  simp only [Scanner.remainder, found]
  cases answer with
  | error fault =>
      obtain ⟨after, ran, leads⟩ := reading
      exact follows_fault ran leads rfl
  | ok read =>
      obtain ⟨middle, ran, there, leads⟩ := reading
      obtain ⟨after, asked, behind, further⟩ := there.atEnd_eq (Nat.lt_of_le_of_lt read.within short)
      refine follows_bind ran leads (follows_bind asked further ?_)
      simp only [bind, Except.bind]
      by_cases ended : read.after.atEnd = true
      · simp only [if_pos ended, Except.map]
        have nothing : read.after.skipBlanks.rest = [] := List.isEmpty_iff.1 ended
        exact follows_pure (.inl (near.moveTo_end (leads.trans further) behind nothing))
      · simp only [if_neg ended, Except.map]
        exact follows_bind behind.rest_eq (.refl after) (follows_failed _)

theorem At.remainder_of_bare (stands : cursor.At scanner.skipBlanks)
    (unquoted : scanner.skipBlanks.quoted? = none) :
    Follows (do
        let value := Text.trimEnd (← rest)
        Cursor.moveTo (byteSize (← get).source)
        return String.ofList value) cursor
      (scanner.remainder.map fun text => (text, scanner.skipBlanks.moveTo [])) := by
  have whole : scanner.skipBlanks.rest = scanner.skipBlanks.rest ++ [] := (List.append_nil _).symm
  obtain ⟨after, moved, there, leads⟩ := stands.moveTo whole
  rw [← stands.size_eq] at moved
  simp only [Scanner.remainder, unquoted]
  refine follows_bind stands.rest_eq (.refl cursor) (follows_bind rfl (.refl cursor) ?_)
  exact follows_bind moved leads (follows_pure (.inl there))

theorem Near.remainder_follows (near : cursor.Near scanner) (enough : scanner.rest.length < steps) :
    Follows (remainder steps) cursor
      (scanner.remainder.map fun text => (text, scanner.skipBlanks.moveTo [])) := by
  obtain ⟨inner, skipped, here, leads⟩ := near.skipBlanks_eq enough
  have short := Nat.lt_of_le_of_lt (Scanner.skipBlanks_length_le scanner) enough
  rw [remainder]
  refine follows_bind skipped leads (follows_bind here.peek_eq (.refl inner) ?_)
  rcases here.quoted_cases short with ⟨first, answer, found, -⟩ | ⟨first, answer, found, -⟩ |
    ⟨unquoted, notDouble, notBack⟩
  · rw [if_pos (.inl first)]
    exact Near.remainder_of_quoted? (.inr here) enough found
  · rw [if_pos (.inr first)]
    exact Near.remainder_of_quoted? (.inr here) enough found
  · rw [if_neg (not_or.2 ⟨notDouble, notBack⟩)]
    exact here.remainder_of_bare unquoted

/-! ## Values -/

theorem closing_follows {α γ : Type} {value : α}
    {inner : {after : Scanner // after.rest.length < scanner.rest.length} → γ} {outer : γ → α × Scanner}
    (near : cursor.Near scanner) (enough : scanner.rest.length < steps)
    (same : ∀ closed, outer (inner closed) = (value, closed.1)) :
    Follows (do expect '}' steps; return value) cursor (((scanner.expect '}').map inner).map outer) := by
  refine near.expect_follows enough '}' (fun fault wrong => by rw [wrong]; rfl)
    fun closed after found there => ?_
  simp only [found, Except.map, same]
  exact follows_pure (.inl there)

/-- With these steps the cursor reads as the scanner does: three steps are spent on each character that is left,
one for the value, one for its braces and one for the list or the map in them. -/
structure Agrees (steps : Nat) : Prop where
  value : ∀ {cursor : Cursor} {scanner : Scanner} (stops : List Char), cursor.Near scanner →
    3 * scanner.rest.length + 2 ≤ steps → Follows (value stops steps) cursor (located (scanner.value stops))
  braced : ∀ {cursor : Cursor} {scanner : Scanner}, cursor.Near scanner → 3 * scanner.rest.length + 1 ≤ steps →
    Follows (braced steps) cursor (located scanner.braced)
  items : ∀ {cursor : Cursor} {scanner : Scanner} (gathered : List Json), cursor.Near scanner →
    3 * scanner.rest.length + 3 ≤ steps → Follows (items gathered steps) cursor
      (scanner.items.map fun read => (gathered ++ read.value, read.after))
  members : ∀ {cursor : Cursor} {scanner : Scanner} (gathered : List (String × Json)), cursor.Near scanner →
    3 * scanner.rest.length + 3 ≤ steps → Follows (members gathered steps) cursor
      (scanner.members.map fun read =>
        (read.value.foldl (fun built entry => Entries.put entry.1 entry.2 built) gathered, read.after))

section

variable (agrees : Agrees steps) (near : cursor.Near scanner)

include agrees near

theorem Agrees.value_succ (stops : List Char) (enough : 3 * scanner.rest.length + 2 ≤ steps + 1) :
    Follows (Cursor.value stops (steps + 1)) cursor (located (scanner.value stops)) := by
  have brief : scanner.rest.length < steps + 1 := by omega
  obtain ⟨inner, skipped, here, leads⟩ := near.skipBlanks_eq brief
  have short := Nat.lt_of_le_of_lt (Scanner.skipBlanks_length_le scanner) brief
  rw [Cursor.value, Scanner.value]
  refine follows_bind skipped leads (follows_bind here.peek_eq (.refl inner) ?_)
  have quotes := here.quoted_cases short
  cases next : scanner.skipBlanks.rest with
  | nil => exact follows_failed _
  | cons c rest =>
      simp only [next, List.head?_cons, ne_eq, Option.some.injEq] at quotes ⊢
      rcases quotes with ⟨rfl, answer, found, follows⟩ | ⟨rfl, answer, found, follows⟩ |
        ⟨unquoted, notDouble, notBack⟩
      · simp only [if_true, found]
        exact (follows.map Json.text).of_map fun read => rfl
      · simp only [if_neg (by decide : '\x60' ≠ '"'), if_true, found]
        exact (follows.map Json.text).of_map fun read => rfl
      · simp only [if_neg notDouble, if_neg notBack, unquoted]
        by_cases brace : c = '{'
        · simp only [if_pos brace]
          exact agrees.braced (.inr here) (by omega)
        · simp only [if_neg brace]
          obtain ⟨after, read, there, further⟩ := here.bare_eq stops short
          exact follows_bind read further (follows_pure (.inl there))

theorem Agrees.items_succ (gathered : List Json) (enough : 3 * scanner.rest.length + 3 ≤ steps + 1) :
    Follows (Cursor.items gathered (steps + 1)) cursor
      (scanner.items.map fun read => (gathered ++ read.value, read.after)) := by
  have reading := agrees.value Scanner.braceStops near (by omega)
  rw [Cursor.items, Scanner.items]
  refine reading.bind (fun fault wrong => by simp only [wrong]; rfl) fun first middle read here => ?_
  have less := first.within
  have short : first.after.rest.length < steps + 1 := by omega
  simp only [read]
  refine here.eat_follows short ',' (fun next after found there => ?_) fun after missing there => ?_
  · have further := next.2
    have later := agrees.items (gathered ++ [first.value]) (.inl there) (by omega)
    simp only [found]
    exact later.of_map fun read => by simp only [List.append_assoc, List.singleton_append]
  · simp only [missing]
    exact closing_follows (.inr there) short fun closed => rfl

theorem Agrees.members_succ (gathered : List (String × Json))
    (enough : 3 * scanner.rest.length + 3 ≤ steps + 1) :
    Follows (Cursor.members gathered (steps + 1)) cursor
      (scanner.members.map fun read =>
        (read.value.foldl (fun built entry => Entries.put entry.1 entry.2 built) gathered, read.after)) := by
  have naming := near.text_follows (by omega : scanner.rest.length < steps + 1) [':']
  rw [Cursor.members, Scanner.members]
  refine naming.bind (fun fault wrong => by simp only [wrong]; rfl) fun key behind named here => ?_
  have keyLess := key.within
  have keyShort : key.after.rest.length < steps + 1 := by omega
  simp only [named]
  refine here.expect_follows keyShort ':' (fun fault wrong => by simp only [wrong]; rfl)
    fun gap start colon there => ?_
  have gapLess := gap.2
  have reading := agrees.value Scanner.braceStops (.inl there) (by omega)
  simp only [colon]
  refine reading.bind (fun fault wrong => by simp only [wrong]; rfl) fun first middle read here => ?_
  have less := first.within
  have short : first.after.rest.length < steps + 1 := by omega
  simp only [read]
  refine here.eat_follows short ',' (fun next after found there => ?_) fun after missing there => ?_
  · have further := next.2
    have later := agrees.members (Entries.put key.value first.value gathered) (.inl there) (by omega)
    simp only [found]
    exact later.of_map fun read => by simp only [List.foldl_cons]
  · simp only [missing]
    exact closing_follows (.inr there) short fun closed => rfl

theorem Agrees.braced_succ (enough : 3 * scanner.rest.length + 1 ≤ steps + 1) :
    Follows (Cursor.braced (steps + 1)) cursor (located scanner.braced) := by
  have short : scanner.rest.length < steps + 1 := by omega
  rw [Cursor.braced, Scanner.braced]
  refine near.expect_follows short '{' (fun fault wrong => by simp only [wrong]; rfl)
    fun opened inside found here => ?_
  have less := opened.2
  have inner : opened.1.rest.length < steps + 1 := by omega
  have opening : inside.Near opened.1 := .inl here
  simp only [found]
  refine opening.eat_follows inner '}' (fun closed after found there => ?_) fun after missing there => ?_
  · simp only [found]
    exact follows_pure (.inl there)
  · have shape : Scanner.looksLikeMap none opened.1.skipBlanks.rest = Scanner.looksLikeMap none opened.1.rest :=
      Scanner.looksLikeMap_dropWhile opened.1.rest
    simp only [missing]
    refine follows_bind there.rest_eq (.refl after) ?_
    rw [shape]
    split
    · exact ((agrees.members [] (.inr there) (by omega)).map Json.object).of_map fun read => rfl
    · exact ((agrees.items [] (.inr there) (by omega)).map Json.array).of_map fun read => rfl

end

theorem agrees (steps : Nat) : Agrees steps := by
  induction steps with
  | zero =>
      exact ⟨fun _ _ enough => absurd enough (by omega), fun _ enough => absurd enough (by omega),
        fun _ _ enough => absurd enough (by omega), fun _ _ enough => absurd enough (by omega)⟩
  | succ steps ih =>
      exact ⟨fun stops near => ih.value_succ near stops, fun near => ih.braced_succ near,
        fun gathered near => ih.items_succ near gathered, fun gathered near => ih.members_succ near gathered⟩

theorem Near.separated_follows (near : cursor.Near scanner) (gathered : List Json)
    (enough : 3 * scanner.rest.length + 3 ≤ steps) :
    Follows (separated gathered steps) cursor
      (scanner.separated.map fun read => (gathered ++ read.value, read.after)) := by
  induction steps generalizing cursor scanner gathered with
  | zero => omega
  | succ steps ih =>
      have reading := (agrees steps).value [';'] near (by omega)
      rw [separated, Scanner.separated]
      refine reading.bind (fun fault wrong => by simp only [wrong]; rfl) fun first middle read here => ?_
      have less := first.within
      have short : first.after.rest.length < steps + 1 := by omega
      simp only [read]
      refine here.eat_follows short ';' (fun next after found there => ?_) fun after missing there => ?_
      · have further := next.2
        have later := ih (.inl there) (gathered ++ [first.value]) (by omega)
        simp only [found]
        exact later.of_map fun read => by simp only [List.append_assoc, List.singleton_append]
      · simp only [missing]
        exact follows_pure (.inr there)

theorem Near.list_follows (near : cursor.Near scanner) (enough : 3 * scanner.rest.length + 3 ≤ steps) :
    Follows (list steps) cursor (located scanner.list) := by
  obtain ⟨inner, skipped, here, leads⟩ := near.skipBlanks_eq (by omega : scanner.rest.length < steps)
  have still : inner.Near scanner := .inr here
  rw [list, Scanner.list]
  refine follows_bind skipped leads (follows_bind here.peek_eq (.refl inner) ?_)
  by_cases brace : scanner.skipBlanks.rest.head? = some '{'
  · obtain ⟨tail, next⟩ := List.head?_eq_some_iff.1 brace
    have reading := (agrees steps).braced still (by omega)
    simp only [next, List.head?_cons, if_true]
    refine reading.bind (fun fault wrong => by simp only [wrong]; rfl) fun read after found there => ?_
    simp only [found]
    cases read.value with
    | array values => exact follows_pure there
    | _ => exact follows_failed _
  · rw [if_neg brace]
    split
    · rename_i tail next
      exact absurd (by rw [next]; rfl) brace
    · exact still.separated_follows [] enough

theorem Near.namedArguments_follows (near : cursor.Near scanner) (validation : Validation)
    (enough : scanner.rest.length < steps) :
    Follows (namedArguments validation steps) cursor (located (scanner.namedArguments validation)) := by
  induction steps generalizing cursor scanner validation with
  | zero => omega
  | succ steps ih =>
      have naming := near.identifier_follows enough
      rw [namedArguments, Scanner.namedArguments]
      refine naming.bind (fun fault wrong => by simp only [wrong]; rfl) fun name start named here => ?_
      have nameLess := name.within
      have nameShort : name.after.rest.length < steps + 1 := by omega
      simp only [named]
      refine here.expect_follows nameShort '=' (fun fault wrong => by simp only [wrong]; rfl)
        fun gap middle equals there => ?_
      have gapLess := gap.2
      have gapNear : middle.Near gap.1 := .inl there
      have reading := gapNear.text_follows (by omega : gap.1.rest.length < steps + 1) [',']
      simp only [equals]
      refine reading.bind (fun fault wrong => by simp only [wrong]; rfl) fun argument behind read beyond => ?_
      have less := argument.within
      have short : argument.after.rest.length < steps + 1 := by omega
      simp only [read]
      generalize name.value = called
      split
      case h_4 =>
        simp only
        exact follows_failed _
      all_goals
        simp only [pure_bind]
        refine beyond.eat_follows short ',' (fun next after found there => ?_) fun after missing there => ?_
        · have nextLess := next.2
          simp only [found]
          exact (ih (.inl there) _ (by omega)).of_map fun read => rfl
        · simp only [missing]
          exact follows_pure (.inr there)

/-! ## Ends -/

theorem Boundary.le {text : List Char} {position : Nat} (boundary : Boundary text position) :
    position ≤ byteSize text := by
  obtain ⟨front, rest, rfl, rfl⟩ := boundary
  rw [byteSize_append]
  exact Nat.le_add_right _ _

theorem eq_nil_of_byteSize {text : List Char} (empty : byteSize text = 0) : text = [] := by
  cases text with
  | nil => rfl
  | cons c text =>
      have filled := c.utf8Size_pos
      rw [byteSize_cons] at empty
      omega

/-- What is behind a later position is an end of what is behind an earlier one. -/
theorem suffix_of_byteSize_le {front rest later left : List Char} (same : front ++ rest = later ++ left)
    (order : byteSize front ≤ byteSize later) : left <:+ rest := by
  rcases List.append_eq_append_iff.1 same with ⟨passed, -, split⟩ | ⟨passed, split, kept⟩
  · exact ⟨passed, split.symm⟩
  · rw [split, byteSize_append] at order
    have nothing := eq_nil_of_byteSize (by omega : byteSize passed = 0)
    rw [kept, nothing]
    exact List.suffix_refl rest

/-- The scanner of what is behind the cursor. -/
def toScanner (cursor : Cursor) : Scanner :=
  ⟨byteSize cursor.source, (behind? cursor.source cursor.position).getD []⟩

theorem Sound.at_toScanner (sound : cursor.Sound) : cursor.At cursor.toScanner := by
  obtain ⟨front, rest, split, size⟩ := sound.boundary _ List.mem_cons_self
  refine ⟨rfl, front, ?_, size⟩
  rw [toScanner, ← size, split, behind?_append, Option.getD_some]

theorem start_sound (source : List Char) : (start source).Sound := by
  refine ⟨fun position member => ?_, List.pairwise_singleton _ _⟩
  rw [List.mem_singleton.1 member]
  exact ⟨[], source, rfl, rfl⟩

theorem toScanner_start (source : List Char) : (start source).toScanner = Scanner.start source := by
  rw [toScanner, start, behind?, Option.getD_some]
  rfl

/-- The end of a scan. It has the value or the fault of the answer; every position on the way is between two
characters of the text, and none is in front of an earlier one; and what is left is an end of what was there. -/
structure Ends {α : Type} (run : Scan α) (before : Cursor) (answer : Except ArgumentFault (α × Scanner))
    (after : Cursor) : Prop where
  value : ∀ read, answer = .ok read → run before = .ok read.1 after ∧ after.Near read.2
  fault : ∀ fault, answer = .error fault → run before = .error (.fault fault) after
  source : after.source = before.source
  kept : before.position :: before.earlier <:+ after.position :: after.earlier
  ordered : (after.position :: after.earlier).Pairwise (· ≥ ·)
  between : ∀ position ∈ after.position :: after.earlier, Boundary before.source position
  inside : ∀ position ∈ after.position :: after.earlier, position ≤ byteSize before.source
  left : ∃ left, behind? before.source after.position = some left ∧ left <:+ before.toScanner.rest

theorem Leads.left {after : Cursor} (sound : cursor.Sound) (leads : cursor.Leads after) :
    ∃ left, behind? cursor.source after.position = some left ∧ left <:+ cursor.toScanner.rest := by
  obtain ⟨later, left, split, size⟩ := (leads.sound sound).boundary _ List.mem_cons_self
  obtain ⟨front, before, start⟩ := sound.at_toScanner.split
  rw [leads.source] at split
  have order : cursor.position ≤ after.position := by
    rcases List.mem_cons.1 (leads.kept.mem List.mem_cons_self) with same | earlier
    · exact Nat.le_of_eq same
    · exact (List.pairwise_cons.1 (leads.sound sound).ordered).1 _ earlier
  refine ⟨left, by rw [split, ← size, behind?_append], ?_⟩
  exact suffix_of_byteSize_le (before.symm.trans split) (start ▸ size ▸ order)

theorem Follows.ends {α : Type} {run : Scan α} {answer : Except ArgumentFault (α × Scanner)}
    (follows : Follows run cursor answer) (sound : cursor.Sound) : ∃ after, Ends run cursor answer after := by
  have ended {after : Cursor} (leads : cursor.Leads after)
      (value : ∀ read, answer = .ok read → run cursor = .ok read.1 after ∧ after.Near read.2)
      (fault : ∀ fault, answer = .error fault → run cursor = .error (.fault fault) after) :
      Ends run cursor answer after := by
    have last := leads.sound sound
    have between := leads.source ▸ last.boundary
    exact ⟨value, fault, leads.source, leads.kept, last.ordered, between,
      fun position member => (between position member).le, leads.left sound⟩
  cases answer with
  | error fault =>
      obtain ⟨after, ran, leads⟩ := follows
      refine ⟨after, ended leads (fun read wrong => ?_) fun other same => ?_⟩
      · cases wrong
      · cases same
        exact ran
  | ok read =>
      obtain ⟨after, ran, near, leads⟩ := follows
      refine ⟨after, ended leads (fun other same => ?_) fun fault wrong => ?_⟩
      · cases same
        exact ⟨ran, near⟩
      · cases wrong

/-- Every scan of the cursor ends within the steps, as the scanner there answers. -/
structure Answers (cursor : Cursor) (steps : Nat) : Prop where
  value : ∀ stops, ∃ after, Ends (value stops steps) cursor (located (cursor.toScanner.value stops)) after
  list : ∃ after, Ends (list steps) cursor (located cursor.toScanner.list) after
  text : ∀ stops, ∃ after, Ends (text stops steps) cursor (located (cursor.toScanner.text stops)) after
  remainder : ∃ after, Ends (remainder steps) cursor
    (cursor.toScanner.remainder.map fun text => (text, cursor.toScanner.skipBlanks.moveTo [])) after
  namedArguments : ∀ validation, ∃ after, Ends (namedArguments validation steps) cursor
    (located (cursor.toScanner.namedArguments validation)) after

/-- A scan ends from every sound cursor, whatever its text is. -/
theorem scans_end (sound : cursor.Sound) (enough : 3 * cursor.source.length + 3 ≤ steps) :
    cursor.Answers steps := by
  have stands := sound.at_toScanner
  have near : cursor.Near cursor.toScanner := .inl stands
  have less : cursor.toScanner.rest.length ≤ cursor.source.length := by
    obtain ⟨front, split, -⟩ := stands.split
    rw [split, List.length_append]
    exact Nat.le_add_left _ _
  have short : cursor.toScanner.rest.length < steps := by omega
  exact {
    value := fun stops => ((agrees steps).value stops near (by omega)).ends sound
    list := (near.list_follows (by omega)).ends sound
    text := fun stops => (near.text_follows short stops).ends sound
    remainder := (near.remainder_follows short).ends sound
    namedArguments := fun validation => (near.namedArguments_follows validation short).ends sound }

theorem scans_end_unclosed :
    (start ['{', 'é', ':', '"', 'ü']).Sound ∧ (start ['{', 'é', ':', '"', 'ü']).Answers 18 ∧
      (start ['{', 'é', ':', '"', 'ü']).toScanner = Scanner.start ['{', 'é', ':', '"', 'ü'] :=
  ⟨start_sound _, scans_end (start_sound _) (by decide), toScanner_start _⟩

example : value [] 18 (start ['{', 'é', ':', '"', 'ü']) =
    .error (.fault .unclosedQuote) ⟨['{', 'é', ':', '"', 'ü'], 7, [5, 4, 3, 1, 0]⟩ := rfl

end Cursor

end ProtoSchema
