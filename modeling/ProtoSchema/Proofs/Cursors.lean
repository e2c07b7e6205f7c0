import Mathlib.Data.List.DropRight
import ProtoSchema.Proofs.Scanning

/-!
A cursor over the bytes of an argument. It has the whole text and a position in its bytes, moves on by the bytes
of one character at a time, and takes slices of the text between positions; a slice that leaves the text or cuts
a character stops it, and so does a loop whose steps are used up. The cursor scans the literals that `Scanner`
scans; every position that it has stood at is kept.
-/
namespace ProtoSchema

open Scanner (byteSize)

structure Cursor where
  source : List Char
  position : Nat
  /-- The positions before, the latest first. -/
  earlier : List Nat

namespace Cursor

/-- Why a scan ends without a result. -/
inductive Stop where
  | fault (fault : ArgumentFault)
  | outside
  | exhausted

abbrev Scan := EStateM Stop Cursor

def start (source : List Char) : Cursor := ⟨source, 0, []⟩

/-! ## Slices -/

/-- The text behind a byte position, if a character starts there or the text ends. -/
def behind? : (text : List Char) → (position : Nat) → Option (List Char)
  | text, 0 => some text
  | [], _ + 1 => none
  | c :: text, position + 1 =>
    if c.utf8Size ≤ position + 1 then behind? text (position + 1 - c.utf8Size) else none

/-- The text in front of a byte position, likewise. -/
def before? : (text : List Char) → (position : Nat) → Option (List Char)
  | _, 0 => some []
  | [], _ + 1 => none
  | c :: text, position + 1 =>
    if c.utf8Size ≤ position + 1 then (before? text (position + 1 - c.utf8Size)).map (c :: ·) else none

def slice? (text : List Char) (first last : Nat) : Option (List Char) :=
  if first ≤ last then (behind? text first).bind fun rest => before? rest (last - first) else none

/-! ## Single steps -/

def failed {α : Type} (fault : ArgumentFault) : Scan α := throw (.fault fault)

/-- What lies in the text, or else a slice outside of it. -/
def within {α : Type} : Option α → Scan α
  | some value => pure value
  | none => throw .outside

def offset : Scan Nat := do return (← get).position

def rest : Scan (List Char) := do
  let cursor ← get
  within (behind? cursor.source cursor.position)

/-- The text between an earlier position and the present one. -/
def since (first : Nat) (less : Nat) : Scan (List Char) := do
  let cursor ← get
  within (slice? cursor.source first (cursor.position - less))

def moveTo (position : Nat) : Scan Unit :=
  modify fun cursor => { cursor with position, earlier := cursor.position :: cursor.earlier }

def peek : Scan (Option Char) := do return (← rest).head?

def bump : Scan (Option Char) := do
  match ← peek with
  | none => return none
  | some c =>
    moveTo ((← offset) + c.utf8Size)
    return some c

/-! ## Loops over characters -/

/-- Move on as long as the next character is as described. -/
def skip (keep : Char → Bool) : (steps : Nat) → Scan Unit
  | 0 => throw .exhausted
  | steps + 1 => do
    match ← peek with
    | none => return ()
    | some c =>
      if keep c then
        let _ ← bump
        skip keep steps

def skipBlanks (steps : Nat) : Scan Unit := skip Text.isBlank steps

def atEnd (steps : Nat) : Scan Bool := do
  skipBlanks steps
  return (← rest).isEmpty

def eat (wanted : Char) (steps : Nat) : Scan Bool := do
  skipBlanks steps
  if (← peek) = some wanted then
    let _ ← bump
    return true
  else return false

def expect (wanted : Char) (steps : Nat) : Scan Unit := do
  if ← eat wanted steps then return ()
  else failed (.characterMissing wanted (← offset))

def identifier (steps : Nat) : Scan String := do
  skipBlanks steps
  let first ← offset
  skip Scanner.isIdentifierCharacter steps
  if first = (← offset) then failed (.identifierMissing first)
  else return String.ofList (← since first 0)

def bare (stops : List Char) (steps : Nat) : Scan (List Char) := do
  let first ← offset
  skip (fun c => !stops.contains c) steps
  return Text.trim (← since first 0)

/-- Up to a double quote, behind what is gathered already. -/
def untilQuote (gathered : List Char) : (steps : Nat) → Scan (List Char)
  | 0 => throw .exhausted
  | steps + 1 => do
    match ← bump with
    | none => failed .unclosedQuote
    | some c =>
      if c = '"' then return gathered
      else if c = '\\' then
        match ← bump with
        | none => failed .unfinishedEscape
        | some escaped => untilQuote (gathered ++ Scanner.unescape escaped) steps
      else untilQuote (gathered ++ [c]) steps

/-- Up to a back quote, which is one byte long. -/
def untilBackQuote (first : Nat) : (steps : Nat) → Scan (List Char)
  | 0 => throw .exhausted
  | steps + 1 => do
    match ← bump with
    | none => failed .unclosedBackQuote
    | some c => if c = '\x60' then since first 1 else untilBackQuote first steps

def quoted (steps : Nat) : Scan String := do
  let _ ← bump
  return String.ofList (← untilQuote [] steps)

def backQuoted (steps : Nat) : Scan String := do
  let _ ← bump
  return String.ofList (← untilBackQuote (← offset) steps)

def text (stops : List Char) (steps : Nat) : Scan String := do
  skipBlanks steps
  let next ← peek
  if next = some '"' then quoted steps
  else if next = some '\x60' then backQuoted steps
  else return String.ofList (← bare stops steps)

def remainder (steps : Nat) : Scan String := do
  skipBlanks steps
  let next ← peek
  if next = some '"' ∨ next = some '\x60' then
    let value ← text [] steps
    if ← atEnd steps then return value
    else failed (.trailingAfterText (String.ofList (← rest)))
  else
    let value := Text.trimEnd (← rest)
    moveTo (byteSize (← get).source)
    return String.ofList value

/-! ## Values -/

mutual

def value (stops : List Char) : (steps : Nat) → Scan Json
  | 0 => throw .exhausted
  | steps + 1 => do
    skipBlanks (steps + 1)
    match ← peek with
    | none => failed .literalMissing
    | some c =>
      if c = '"' then return .text (← quoted (steps + 1))
      else if c = '\x60' then return .text (← backQuoted (steps + 1))
      else if c = '{' then braced steps
      else return Scanner.scalar (← bare stops (steps + 1))

def braced : (steps : Nat) → Scan Json
  | 0 => throw .exhausted
  | steps + 1 => do
    expect '{' (steps + 1)
    if ← eat '}' (steps + 1) then return .array []
    else if Scanner.looksLikeMap none (← rest) then return .object (← members [] steps)
    else return .array (← items [] steps)

/-- The items of a list up to and with the closing brace, behind those that are gathered already. -/
def items (gathered : List Json) : (steps : Nat) → Scan (List Json)
  | 0 => throw .exhausted
  | steps + 1 => do
    let item ← value Scanner.braceStops steps
    if ← eat ',' (steps + 1) then items (gathered ++ [item]) steps
    else
      expect '}' (steps + 1)
      return gathered ++ [item]

def members (gathered : List (String × Json)) : (steps : Nat) → Scan (List (String × Json))
  | 0 => throw .exhausted
  | steps + 1 => do
    let key ← text [':'] (steps + 1)
    expect ':' (steps + 1)
    let item ← value Scanner.braceStops steps
    if ← eat ',' (steps + 1) then members (Entries.put key item gathered) steps
    else
      expect '}' (steps + 1)
      return Entries.put key item gathered

end

def separated (gathered : List Json) : (steps : Nat) → Scan (List Json)
  | 0 => throw .exhausted
  | steps + 1 => do
    let item ← value [';'] steps
    if ← eat ';' (steps + 1) then separated (gathered ++ [item]) steps
    else return gathered ++ [item]

def list (steps : Nat) : Scan (List Json) := do
  skipBlanks steps
  if (← peek) = some '{' then
    match ← braced steps with
    | .array values => return values
    | other => failed (.notList other)
  else separated [] steps

def namedArguments (validation : Validation) : (steps : Nat) → Scan Validation
  | 0 => throw .exhausted
  | steps + 1 => do
    let name ← identifier (steps + 1)
    expect '=' (steps + 1)
    let argument ← text [','] (steps + 1)
    let changed ← match name with
      | "rule" => pure { validation with rule := argument }
      | "message" => pure { validation with message := argument }
      | "messageExpression" => pure { validation with messageExpression := argument }
      | _ => failed (.unknownArgument name)
    if ← eat ',' (steps + 1) then namedArguments changed steps
    else return changed

/-! ## Bytes and characters -/

theorem byteSize_append (front rest : List Char) :
    byteSize (front ++ rest) = byteSize front + byteSize rest := by
  induction front with
  | nil => simp [byteSize]
  | cons c front ih =>
      simp only [byteSize, List.cons_append, List.foldr_cons] at *
      omega

theorem byteSize_cons (c : Char) (rest : List Char) : byteSize (c :: rest) = c.utf8Size + byteSize rest := rfl

theorem behind?_append (front rest : List Char) : behind? (front ++ rest) (byteSize front) = some rest := by
  induction front with
  | nil => simp [byteSize, behind?]
  | cons c front ih =>
      have filled := c.utf8Size_pos
      obtain ⟨more, size⟩ : ∃ more, byteSize (c :: front) = more + 1 := Nat.exists_eq_succ_of_ne_zero (by
        rw [byteSize_cons]
        omega)
      rw [size, List.cons_append, behind?, ← size, byteSize_cons, if_pos (Nat.le_add_right _ _),
        Nat.add_sub_cancel_left, ih]

theorem before?_append (front rest : List Char) : before? (front ++ rest) (byteSize front) = some front := by
  induction front with
  | nil => cases rest <;> simp [byteSize, before?]
  | cons c front ih =>
      have filled := c.utf8Size_pos
      obtain ⟨more, size⟩ : ∃ more, byteSize (c :: front) = more + 1 := Nat.exists_eq_succ_of_ne_zero (by
        rw [byteSize_cons]
        omega)
      rw [size, List.cons_append, before?, ← size, byteSize_cons, if_pos (Nat.le_add_right _ _),
        Nat.add_sub_cancel_left, ih, Option.map_some]

theorem slice?_append (front part rest : List Char) :
    slice? (front ++ (part ++ rest)) (byteSize front) (byteSize front + byteSize part) = some part := by
  rw [slice?, if_pos (Nat.le_add_right _ _), behind?_append, Option.bind_some, Nat.add_sub_cancel_left,
    before?_append]

/-- Where slices may start and end: between characters, or at an end of the text. -/
def Boundary (text : List Char) (position : Nat) : Prop :=
  ∃ front rest, text = front ++ rest ∧ byteSize front = position

/-! ## Where cursors stand -/

/-- All positions are between characters, and none is behind a later one. -/
structure Sound (cursor : Cursor) : Prop where
  boundary : ∀ position ∈ cursor.position :: cursor.earlier, Boundary cursor.source position
  ordered : (cursor.position :: cursor.earlier).Pairwise (· ≥ ·)

/-- The cursor has gone on in its text, from sound positions to sound ones. -/
structure Leads (before after : Cursor) : Prop where
  source : after.source = before.source
  kept : before.position :: before.earlier <:+ after.position :: after.earlier
  sound : before.Sound → after.Sound

theorem Leads.refl (cursor : Cursor) : cursor.Leads cursor := ⟨rfl, List.suffix_refl _, id⟩

theorem Leads.trans {one two three : Cursor} (first : one.Leads two) (second : two.Leads three) :
    one.Leads three :=
  ⟨second.source.trans first.source, first.kept.trans second.kept, second.sound ∘ first.sound⟩

/-- The cursor has the same text behind it as the scanner. -/
structure At (cursor : Cursor) (scanner : Scanner) : Prop where
  total : scanner.total = byteSize cursor.source
  split : ∃ front, cursor.source = front ++ scanner.rest ∧ byteSize front = cursor.position

/-- The cursor stands where the scanner stands, or behind the blanks there. -/
def Near (cursor : Cursor) (scanner : Scanner) : Prop := cursor.At scanner ∨ cursor.At scanner.skipBlanks

section

variable {cursor : Cursor} {scanner : Scanner}

theorem At.offset_eq (stands : cursor.At scanner) : scanner.offset = cursor.position := by
  obtain ⟨total, front, split, size⟩ := stands
  rw [Scanner.offset, total, split, byteSize_append, size, Nat.add_sub_cancel_right]

theorem At.rest_eq (stands : cursor.At scanner) : rest cursor = .ok scanner.rest cursor := by
  obtain ⟨-, front, split, size⟩ := stands
  have found : behind? cursor.source cursor.position = some scanner.rest := by
    rw [split, ← size, behind?_append]
  have ran : rest cursor = within (behind? cursor.source cursor.position) cursor := rfl
  rw [ran, found]
  rfl

theorem At.peek_eq (stands : cursor.At scanner) : peek cursor = .ok scanner.rest.head? cursor := by
  simp only [peek, bind, EStateM.bind, stands.rest_eq]
  rfl

theorem At.moveTo {part tail : List Char} (stands : cursor.At scanner) (next : scanner.rest = part ++ tail) :
    ∃ after, moveTo (cursor.position + byteSize part) cursor = .ok () after ∧ after.At (scanner.moveTo tail) ∧
      cursor.Leads after := by
  obtain ⟨total, front, split, size⟩ := stands
  rw [next, ← List.append_assoc] at split
  have length : byteSize (front ++ part) = cursor.position + byteSize part := by rw [byteSize_append, size]
  refine ⟨_, rfl, ⟨total, front ++ part, split, length⟩, rfl, List.suffix_cons _ _, fun sound => ⟨?_, ?_⟩⟩
  · exact List.forall_mem_cons.2 ⟨⟨front ++ part, tail, split, length⟩, sound.boundary⟩
  · refine List.pairwise_cons.2 ⟨fun position member => ?_, sound.ordered⟩
    rcases List.mem_cons.1 member with rfl | earlier
    · exact Nat.le_add_right _ _
    · exact Nat.le_add_right_of_le ((List.pairwise_cons.1 sound.ordered).1 position earlier)

end

/-! ## Runs -/

section

variable {α β : Type} {cursor after : Cursor} {first : Scan α} {next : α → Scan β}

theorem bind_ok {value : α} (ran : first cursor = .ok value after) :
    (first >>= next) cursor = next value after := by
  simp only [bind, EStateM.bind, ran]

theorem bind_error {stop : Stop} (ran : first cursor = .error stop after) :
    (first >>= next) cursor = .error stop after := by
  simp only [bind, EStateM.bind, ran]

/-- The scan ends as the answer says: with its value near its scanner, or with its fault. -/
def Follows (run : Scan α) (cursor : Cursor) : Except ArgumentFault (α × Scanner) → Prop
  | .ok read => ∃ after, run cursor = .ok read.1 after ∧ after.Near read.2 ∧ cursor.Leads after
  | .error fault => ∃ after, run cursor = .error (.fault fault) after ∧ cursor.Leads after

theorem Follows.of_leads {run : Scan α} {answer : Except ArgumentFault (α × Scanner)} {other : Scan α}
    (leads : cursor.Leads after) (same : other cursor = run after) (follows : Follows run after answer) :
    Follows other cursor answer := by
  cases answer with
  | error fault =>
      obtain ⟨last, ran, further⟩ := follows
      exact ⟨last, same.trans ran, leads.trans further⟩
  | ok read =>
      obtain ⟨last, ran, near, further⟩ := follows
      exact ⟨last, same.trans ran, near, leads.trans further⟩

/-- What a first step does is done, and the rest is left to follow. -/
theorem follows_bind {value : α} {answer : Except ArgumentFault (β × Scanner)}
    (ran : first cursor = .ok value after) (leads : cursor.Leads after)
    (follows : Follows (next value) after answer) :
    Follows (first >>= next) cursor answer :=
  follows.of_leads leads (bind_ok ran)

/-- A fault of a first part is one of the whole. -/
theorem follows_fault {answer : Except ArgumentFault (β × Scanner)} {fault : ArgumentFault}
    (ran : first cursor = .error (.fault fault) after) (leads : cursor.Leads after)
    (same : answer = .error fault) : Follows (first >>= next) cursor answer := by
  rw [same]
  exact ⟨after, bind_error ran, leads⟩

/-- The answer of a scanner: the value, and where the scanner stands then. -/
def located {scanner : Scanner} (answer : Except ArgumentFault (Scanner.Scanned scanner α)) :
    Except ArgumentFault (α × Scanner) :=
  answer.map fun read => (read.value, read.after)

/-- A first part ends as its scanner answers, and behind its value the rest is left to follow. -/
theorem Follows.bind {scanner : Scanner} {part : Except ArgumentFault (Scanner.Scanned scanner α)}
    {answer : Except ArgumentFault (β × Scanner)} (follows : Follows first cursor (located part))
    (error : ∀ fault, part = .error fault → answer = .error fault)
    (ok : ∀ read after, part = .ok read → after.Near read.after → Follows (next read.value) after answer) :
    Follows (first >>= next) cursor answer := by
  cases part with
  | error fault =>
      obtain ⟨after, ran, leads⟩ := follows
      exact follows_fault ran leads (error fault rfl)
  | ok read =>
      obtain ⟨after, ran, near, leads⟩ := follows
      exact follows_bind ran leads (ok read after rfl near)

theorem Follows.map {γ : Type} {part : Except ArgumentFault γ} {whole : γ → α × Scanner}
    (follows : Follows first cursor (part.map whole)) (f : α → β) :
    Follows (do return f (← first)) cursor (part.map fun read => (f (whole read).1, (whole read).2)) := by
  cases part with
  | error fault =>
      obtain ⟨after, ran, leads⟩ := follows
      exact follows_fault ran leads rfl
  | ok read =>
      obtain ⟨after, ran, near, leads⟩ := follows
      exact ⟨after, bind_ok ran, near, leads⟩

/-- An answer may be put together in one step or in two. -/
theorem Follows.of_map {γ δ : Type} {part : Except ArgumentFault γ} {whole : γ → α × Scanner} {inner : γ → δ}
    {outer : δ → α × Scanner} (follows : Follows first cursor (part.map whole))
    (same : ∀ read, outer (inner read) = whole read) : Follows first cursor ((part.map inner).map outer) := by
  cases part with
  | error fault => exact follows
  | ok read =>
      simp only [Except.map, same]
      exact follows

theorem follows_pure {value : α} {scanner : Scanner} (near : cursor.Near scanner) :
    Follows (pure value) cursor (.ok (value, scanner)) := ⟨cursor, rfl, near, .refl cursor⟩

theorem follows_failed (fault : ArgumentFault) : Follows (failed fault : Scan α) cursor (.error fault) :=
  ⟨cursor, rfl, .refl cursor⟩

end

section

variable {cursor : Cursor} {scanner : Scanner} {steps : Nat}

theorem offset_ran : offset cursor = .ok cursor.position cursor := rfl

theorem At.bump_eq {c : Char} {tail : List Char} (stands : cursor.At scanner)
    (next : scanner.rest = c :: tail) :
    ∃ after, bump cursor = .ok (some c) after ∧ after.At (scanner.moveTo tail) ∧ cursor.Leads after := by
  obtain ⟨after, moved, further, leads⟩ := stands.moveTo (show scanner.rest = [c] ++ tail from next)
  refine ⟨after, ?_, further, leads⟩
  have found : peek cursor = .ok (some c) cursor := by rw [stands.peek_eq, next]; rfl
  have single : byteSize [c] = c.utf8Size := by simp [byteSize]
  rw [single] at moved
  rw [bump, bind_ok found]
  exact (bind_ok offset_ran).trans (bind_ok moved)

theorem At.bump_end (stands : cursor.At scanner) (next : scanner.rest = []) :
    bump cursor = .ok none cursor := by
  have found : peek cursor = .ok none cursor := by rw [stands.peek_eq, next]; rfl
  rw [bump, bind_ok found]
  rfl

theorem At.skip_eq (stands : cursor.At scanner) (keep : Char → Bool) (enough : scanner.rest.length < steps) :
    ∃ after, skip keep steps cursor = .ok () after ∧ after.At (scanner.moveTo (scanner.rest.dropWhile keep)) ∧
      cursor.Leads after := by
  induction steps generalizing cursor scanner with
  | zero => omega
  | succ steps ih =>
      rw [skip, bind_ok stands.peek_eq]
      cases next : scanner.rest with
      | nil =>
          refine ⟨cursor, rfl, ?_, .refl cursor⟩
          rw [List.dropWhile_nil, ← next]
          exact stands
      | cons c tail =>
          simp only [List.head?_cons]
          by_cases kept : keep c = true
          · obtain ⟨middle, bumped, there, leads⟩ := stands.bump_eq next
            rw [next, List.length_cons] at enough
            have short : (scanner.moveTo tail).rest.length < steps := Nat.lt_of_succ_lt_succ enough
            obtain ⟨after, skipped, last, further⟩ := ih there short
            refine ⟨after, ?_, ?_, leads.trans further⟩
            · rw [if_pos kept, bind_ok bumped, skipped]
            · rw [List.dropWhile_cons_of_pos kept]
              exact last
          · refine ⟨cursor, by rw [if_neg kept]; rfl, ?_, .refl cursor⟩
            rw [List.dropWhile_cons_of_neg kept, ← next]
            exact stands

theorem skipBlanks_skipBlanks (scanner : Scanner) : scanner.skipBlanks.skipBlanks = scanner.skipBlanks := by
  exact congrArg scanner.moveTo (List.dropWhile_idempotent Text.isBlank scanner.rest)

theorem Near.skipBlanks_eq (near : cursor.Near scanner) (enough : scanner.rest.length < steps) :
    ∃ after, skipBlanks steps cursor = .ok () after ∧ after.At scanner.skipBlanks ∧ cursor.Leads after := by
  rcases near with stands | stands
  · exact stands.skip_eq Text.isBlank enough
  · have short := Nat.lt_of_le_of_lt (Scanner.skipBlanks_length_le scanner) enough
    obtain ⟨after, skipped, there, leads⟩ := stands.skip_eq Text.isBlank short
    refine ⟨after, skipped, ?_, leads⟩
    have idle := skipBlanks_skipBlanks scanner
    exact idle ▸ there

/-- Whether a character comes next is told alike, and the cursor stands behind it or behind the blanks. -/
theorem Near.eat_eq (near : cursor.Near scanner) (enough : scanner.rest.length < steps) (wanted : Char) :
    (∃ next after, scanner.eat? wanted = some next ∧ eat wanted steps cursor = .ok true after ∧
        after.At next.1 ∧ cursor.Leads after) ∨
      ∃ after, scanner.eat? wanted = none ∧ eat wanted steps cursor = .ok false after ∧
        after.At scanner.skipBlanks ∧ cursor.Leads after := by
  obtain ⟨middle, skipped, there, leads⟩ := near.skipBlanks_eq enough
  have ran : eat wanted steps cursor = (do
      if (← peek) = some wanted then
        let _ ← bump
        return true
      else return false : Scan Bool) middle := bind_ok skipped
  rw [ran, bind_ok there.peek_eq]
  cases next : scanner.skipBlanks.rest with
  | nil =>
      refine .inr ⟨middle, ?_, by simp; rfl, there, leads⟩
      unfold Scanner.eat?
      split
      · rename_i found
        cases found.symm.trans next
      · rfl
  | cons c tail =>
      by_cases same : c = wanted
      · subst same
        obtain ⟨further, eaten⟩ := Scanner.eat?_of_next next
        obtain ⟨after, bumped, behind, later⟩ := there.bump_eq next
        refine .inl ⟨_, after, eaten, ?_, behind, leads.trans later⟩
        rw [if_pos (by simp), bind_ok bumped]
        rfl
      · refine .inr ⟨middle, Scanner.eat?_of_other next same, ?_, there, leads⟩
        rw [if_neg (by simpa using same)]
        rfl

theorem Near.eat_follows {α : Type} {more other : Scan α} {answer : Except ArgumentFault (α × Scanner)}
    (near : cursor.Near scanner) (enough : scanner.rest.length < steps) (wanted : Char)
    (eaten : ∀ next after, scanner.eat? wanted = some next → after.At next.1 → Follows more after answer)
    (missing : ∀ after, scanner.eat? wanted = none → after.At scanner.skipBlanks → Follows other after answer) :
    Follows (do if ← eat wanted steps then more else other) cursor answer := by
  rcases near.eat_eq enough wanted with ⟨next, after, found, ran, there, leads⟩ |
    ⟨after, none, ran, there, leads⟩
  · exact follows_bind ran leads (eaten next after found there)
  · exact follows_bind ran leads (missing after none there)

theorem Near.expect_follows {α : Type} {more : Scan α} {answer : Except ArgumentFault (α × Scanner)}
    (near : cursor.Near scanner) (enough : scanner.rest.length < steps) (wanted : Char)
    (wrong : ∀ fault, scanner.expect wanted = .error fault → answer = .error fault)
    (eaten : ∀ next after, scanner.expect wanted = .ok next → after.At next.1 → Follows more after answer) :
    Follows (do expect wanted steps; more) cursor answer := by
  rcases near.eat_eq enough wanted with ⟨next, after, found, ran, there, leads⟩ |
    ⟨after, none, ran, there, leads⟩
  · have passed : expect wanted steps cursor = .ok () after := by
      rw [expect, bind_ok ran]
      rfl
    exact follows_bind passed leads (eaten next after (by rw [Scanner.expect, found]) there)
  · have failed : expect wanted steps cursor =
        .error (.fault (.characterMissing wanted scanner.skipBlanks.offset)) after := by
      rw [expect, bind_ok ran, there.offset_eq]
      rfl
    exact follows_fault failed leads (wrong _ (by rw [Scanner.expect, none]))

theorem At.size_eq (stands : cursor.At scanner) :
    byteSize cursor.source = cursor.position + byteSize scanner.rest := by
  obtain ⟨-, front, split, size⟩ := stands
  rw [split, byteSize_append, size]

theorem At.position_eq {after : Cursor} {part tail : List Char} (stands : cursor.At scanner)
    (there : after.At (scanner.moveTo tail)) (leads : cursor.Leads after) (next : scanner.rest = part ++ tail) :
    after.position = cursor.position + byteSize part := by
  have reached := there.size_eq
  rw [leads.source, stands.size_eq, next, byteSize_append] at reached
  simp only [Scanner.moveTo] at reached
  omega

/-- What the cursor has passed is the slice of the text since then. -/
theorem At.since_eq {after : Cursor} {part tail : List Char} (stands : cursor.At scanner)
    (there : after.At (scanner.moveTo tail)) (leads : cursor.Leads after) (mark : List Char)
    (next : scanner.rest = part ++ (mark ++ tail)) :
    since cursor.position (byteSize mark) after = .ok part after := by
  obtain ⟨front, split, size⟩ := stands.split
  have reached := stands.position_eq there leads (next.trans (List.append_assoc part mark tail).symm)
  have last : after.position - byteSize mark = byteSize front + byteSize part := by
    rw [reached, byteSize_append, size]
    omega
  have found : slice? after.source cursor.position (after.position - byteSize mark) = some part := by
    rw [leads.source, split, next, last, ← size, slice?_append]
  have ran : since cursor.position (byteSize mark) after =
      within (slice? after.source cursor.position (after.position - byteSize mark)) after := rfl
  rw [ran, found]
  rfl

theorem At.bare_eq (stands : cursor.At scanner) (stops : List Char) (enough : scanner.rest.length < steps) :
    ∃ after, bare stops steps cursor = .ok (scanner.bare stops).value after ∧
      after.At (scanner.bare stops).after ∧ cursor.Leads after := by
  obtain ⟨after, skipped, there, leads⟩ := stands.skip_eq (fun c => !stops.contains c) enough
  refine ⟨after, ?_, there, leads⟩
  have passed := stands.since_eq there leads [] List.takeWhile_append_dropWhile.symm
  rw [bare, bind_ok offset_ran, bind_ok skipped]
  exact bind_ok passed

theorem Near.identifier_follows (near : cursor.Near scanner) (enough : scanner.rest.length < steps) :
    Follows (identifier steps) cursor (located scanner.identifier) := by
  obtain ⟨middle, skipped, here, leads⟩ := near.skipBlanks_eq enough
  have short := Nat.lt_of_le_of_lt (Scanner.skipBlanks_length_le scanner) enough
  obtain ⟨after, passed, there, further⟩ := here.skip_eq Scanner.isIdentifierCharacter short
  have split := (List.takeWhile_append_dropWhile (p := Scanner.isIdentifierCharacter)
    (l := scanner.skipBlanks.rest)).symm
  have name := here.since_eq there further [] split
  have reached := here.position_eq there further split
  simp only [identifier, Scanner.identifier]
  refine follows_bind skipped leads (follows_bind offset_ran (.refl middle) (follows_bind passed further
    (follows_bind offset_ran (.refl after) ?_)))
  generalize scanner.skipBlanks.rest.takeWhile Scanner.isIdentifierCharacter = word at *
  cases word with
  | nil =>
      rw [if_pos (by simpa [byteSize] using reached.symm)]
      simp only [List.isEmpty_nil, if_true, here.offset_eq]
      exact follows_failed _
  | cons c word =>
      have filled := c.utf8Size_pos
      rw [byteSize_cons] at reached
      rw [if_neg (by omega)]
      exact follows_bind name (.refl after) (follows_pure (.inl there))

theorem At.untilQuote_follows {text : List Char} (stands : cursor.At (scanner.moveTo text))
    (gathered : List Char) (enough : text.length < steps) :
    Follows (untilQuote gathered steps) cursor
      ((Scanner.untilQuote text).map fun read => (gathered ++ read.1, scanner.moveTo read.2.1)) := by
  fun_induction Scanner.untilQuote text generalizing cursor gathered steps with
  | case1 =>
      obtain ⟨steps, rfl⟩ := Nat.exists_eq_succ_of_ne_zero (Nat.ne_zero_of_lt enough)
      rw [untilQuote]
      exact follows_bind (stands.bump_end rfl) (.refl cursor) (follows_failed _)
  | case2 rest =>
      obtain ⟨steps, rfl⟩ := Nat.exists_eq_succ_of_ne_zero (Nat.ne_zero_of_lt enough)
      obtain ⟨after, bumped, there, leads⟩ := stands.bump_eq rfl
      rw [untilQuote]
      refine follows_bind bumped leads ?_
      simp only [if_true, Except.map, List.append_nil]
      exact follows_pure (.inl there)
  | case3 =>
      obtain ⟨steps, rfl⟩ := Nat.exists_eq_succ_of_ne_zero (Nat.ne_zero_of_lt enough)
      obtain ⟨after, bumped, there, leads⟩ := stands.bump_eq rfl
      rw [untilQuote]
      refine follows_bind bumped leads ?_
      simp only [if_neg (by decide : '\\' ≠ '"'), if_true]
      exact follows_bind (there.bump_end rfl) (.refl after) (follows_failed _)
  | case4 c rest ih =>
      obtain ⟨steps, rfl⟩ := Nat.exists_eq_succ_of_ne_zero (Nat.ne_zero_of_lt enough)
      obtain ⟨middle, bumped, here, leads⟩ := stands.bump_eq rfl
      obtain ⟨after, again, there, further⟩ := here.bump_eq rfl
      have short : rest.length < steps := Nat.lt_of_succ_lt (Nat.lt_of_succ_lt_succ enough)
      have follows := ih there (gathered ++ Scanner.unescape c) short
      rw [untilQuote]
      refine follows_bind bumped leads ?_
      simp only [if_neg (by decide : '\\' ≠ '"'), if_true]
      refine follows_bind again further ?_
      exact follows.of_map fun read => by simp
  | case5 c rest notQuote notLast notEscape ih =>
      obtain ⟨steps, rfl⟩ := Nat.exists_eq_succ_of_ne_zero (Nat.ne_zero_of_lt enough)
      obtain ⟨after, bumped, there, leads⟩ := stands.bump_eq rfl
      have notBackslash : c ≠ '\\' := fun same => by
        cases rest with
        | nil => exact notLast same rfl
        | cons other tail => exact notEscape other tail same rfl
      have follows := ih there (gathered ++ [c]) (Nat.lt_of_succ_lt_succ enough)
      rw [untilQuote]
      refine follows_bind bumped leads ?_
      simp only [if_neg notQuote, if_neg notBackslash]
      exact follows.of_map fun read => by simp

theorem At.untilBackQuote_follows {before : Cursor} {passed text : List Char} (stood : before.At scanner)
    (split : scanner.rest = passed ++ text) (stands : cursor.At (scanner.moveTo text))
    (led : before.Leads cursor) (enough : text.length < steps) :
    Follows (untilBackQuote before.position steps) cursor
      ((Scanner.untilBackQuote text).map fun read => (passed ++ read.1, scanner.moveTo read.2.1)) := by
  fun_induction Scanner.untilBackQuote text generalizing cursor passed steps with
  | case1 =>
      obtain ⟨steps, rfl⟩ := Nat.exists_eq_succ_of_ne_zero (Nat.ne_zero_of_lt enough)
      rw [untilBackQuote]
      exact follows_bind (stands.bump_end rfl) (.refl cursor) (follows_failed _)
  | case2 rest =>
      obtain ⟨steps, rfl⟩ := Nat.exists_eq_succ_of_ne_zero (Nat.ne_zero_of_lt enough)
      obtain ⟨after, bumped, there, leads⟩ := stands.bump_eq rfl
      have raw : since before.position 1 after = .ok passed after :=
        stood.since_eq there (led.trans leads) ['\x60'] split
      rw [untilBackQuote]
      refine follows_bind bumped leads ?_
      simp only [if_true, Except.map, List.append_nil]
      exact ⟨after, raw, .inl there, .refl after⟩
  | case3 c rest other ih =>
      obtain ⟨steps, rfl⟩ := Nat.exists_eq_succ_of_ne_zero (Nat.ne_zero_of_lt enough)
      obtain ⟨after, bumped, there, leads⟩ := stands.bump_eq rfl
      have grown : scanner.rest = (passed ++ [c]) ++ rest := by
        rw [split, List.append_assoc, List.singleton_append]
      have follows := ih grown there (led.trans leads) (Nat.lt_of_succ_lt_succ enough)
      rw [untilBackQuote]
      refine follows_bind bumped leads ?_
      simp only [if_neg other]
      exact follows.of_map fun read => by simp

end

end Cursor

end ProtoSchema
