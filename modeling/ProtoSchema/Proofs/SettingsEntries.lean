import Mathlib.Data.List.Forall2
import ProtoSchema.Proofs.Lines
import ProtoSchema.Settings

/-!
The entries of a parameter text. The first entry that is at fault decides alone; where none is, every
setting has the value of its last entry, and the order of the entries does not matter otherwise. A list of
names is what stands between the separators of that value.
-/
namespace ProtoSchema.Settings

/-- What is switched on and off. -/
inductive Flag where
  | perFile
  | singleFile
  | yaml
  | useRef
  | includeDescription
  | multilineDescription
  | enumAsIntOrString
  | protoOneof
  | nativeIntegers
  | ignoreDirectives
deriving DecidableEq

inductive NameList where
  | emptySchemas
  | ignoredDirectives
deriving DecidableEq

def NameList.separator : NameList → Char
  | .emptySchemas => '+'
  | .ignoredDirectives => '|'

/-- What an entry is about. -/
inductive Subject where
  | flag (flag : Flag)
  | names (list : NameList)
deriving DecidableEq

/-- The keys of entries and what they are about; directives are ignored by either of two keys. -/
def keys : List (String × Subject) :=
  [("per_file", .flag .perFile), ("single_file", .flag .singleFile), ("yaml", .flag .yaml),
    ("use_ref", .flag .useRef), ("include_description", .flag .includeDescription),
    ("multiline_description", .flag .multilineDescription),
    ("enum_as_int_or_string", .flag .enumAsIntOrString), ("proto_oneof", .flag .protoOneof),
    ("int_native", .flag .nativeIntegers), ("disable_kube_markers", .flag .ignoreDirectives),
    ("disable_validation", .flag .ignoreDirectives),
    ("additional_empty_schema", .names .emptySchemas),
    ("ignored_kube_markers", .names .ignoredDirectives)]

def subject? (key : String) : Option Subject := keys.lookup key

/-- What is wrong with an entry. -/
def fault? (entry : String × String) : Option SettingsError :=
  match subject? entry.1 with
  | none => some (.unknownArgument entry.1)
  | some (.flag _) =>
    if entry.2.map Char.toLower ∈ ["", "true", "false"] then none
    else some (.invalidValue entry.1 entry.2)
  | some (.names _) => none

/-- The value that is given last. -/
def last? (entries : List (String × String)) (subject : Subject) : Option String :=
  (entries.filter fun entry => subject? entry.1 = some subject).getLast?.map (·.2)

/-- Whether a value switches a flag on. -/
def switchesOn (value : String) : Bool := value.map Char.toLower ≠ "false"

namespace Draft

def isOn (draft : Draft) : Flag → Bool
  | .perFile => draft.perFile
  | .singleFile => draft.singleFile
  | .yaml => draft.settings.yaml
  | .useRef => draft.settings.useRef
  | .includeDescription => draft.settings.includeDescription
  | .multilineDescription => draft.settings.multilineDescription
  | .enumAsIntOrString => draft.settings.enumAsIntOrString
  | .protoOneof => draft.settings.protoOneof
  | .nativeIntegers => draft.settings.nativeIntegers
  | .ignoreDirectives => draft.settings.ignoreDirectives

def namesOf (draft : Draft) : NameList → List String
  | .emptySchemas => draft.settings.emptySchemas
  | .ignoredDirectives => draft.settings.ignoredDirectives

/-- The draft with another value for a flag. -/
def switch (draft : Draft) (on : Bool) : Flag → Draft
  | .perFile => { draft with perFile := on }
  | .singleFile => { draft with singleFile := on }
  | .yaml => { draft with settings := { draft.settings with yaml := on } }
  | .useRef => { draft with settings := { draft.settings with useRef := on } }
  | .includeDescription => { draft with settings := { draft.settings with includeDescription := on } }
  | .multilineDescription =>
    { draft with settings := { draft.settings with multilineDescription := on } }
  | .enumAsIntOrString => { draft with settings := { draft.settings with enumAsIntOrString := on } }
  | .protoOneof => { draft with settings := { draft.settings with protoOneof := on } }
  | .nativeIntegers => { draft with settings := { draft.settings with nativeIntegers := on } }
  | .ignoreDirectives => { draft with settings := { draft.settings with ignoreDirectives := on } }

def replace (draft : Draft) (names : List String) : NameList → Draft
  | .emptySchemas => { draft with settings := { draft.settings with emptySchemas := names } }
  | .ignoredDirectives =>
    { draft with settings := { draft.settings with ignoredDirectives := names } }

/-- The draft with the value of one more entry. -/
def put (draft : Draft) (value : String) : Subject → Draft
  | .flag flag => draft.switch (switchesOn value) flag
  | .names list => draft.replace (readNames list.separator value) list

/-- The draft after an entry about the subject. -/
def enter (draft : Draft) (key value : String) : Subject → Except SettingsError Draft
  | .flag flag => (readFlag key value).map fun on => draft.switch on flag
  | .names list => .ok (draft.replace (readNames list.separator value) list)

end Draft

variable {draft : Draft} {key value : String} {subject : Subject}

theorem readFlag_eq (key value : String) :
    readFlag key value =
      if value.map Char.toLower ∈ ["", "true", "false"] then .ok (switchesOn value)
      else .error (.invalidValue key value) := by
  unfold readFlag switchesOn
  generalize value.map Char.toLower = lower
  split <;> simp_all

theorem Draft.add_of_unknown (unknown : subject? key = none) :
    draft.add key value = .error (.unknownArgument key) := by
  unfold add
  split <;> first | rfl | cases unknown

/-- The keys are read as the table of keys tells. -/
theorem Draft.add_of_listed : ∀ listed ∈ keys, ∀ (draft : Draft) (value : String),
    draft.add listed.1 value = draft.enter listed.1 value listed.2 := by
  unfold keys
  repeat
    first
    | exact List.forall_mem_nil _
    | refine List.forall_mem_cons.2 ⟨fun _ _ => rfl, ?_⟩

theorem mem_keys_of_subject? (known : subject? key = some subject) : (key, subject) ∈ keys := by
  obtain ⟨before, behind, listed, -⟩ := List.lookup_eq_some_iff.1 known
  rw [listed]
  exact List.mem_append_right _ List.mem_cons_self

theorem Draft.add_of_fault {entry : String × String} {error : SettingsError}
    (faulty : fault? entry = some error) (draft : Draft) :
    draft.add entry.1 entry.2 = .error error := by
  unfold fault? at faulty
  split at faulty
  · rename_i unknown
    cases faulty
    exact Draft.add_of_unknown unknown
  · rename_i flag known
    have listed := Draft.add_of_listed _ (mem_keys_of_subject? known) draft entry.2
    split at faulty
    · cases faulty
    · rename_i odd
      cases faulty
      rw [listed, Draft.enter, readFlag_eq, if_neg odd]
      rfl
  · cases faulty

theorem Draft.add_of_sound {entry : String × String} (sound : fault? entry = none) (draft : Draft) :
    ∃ subject, subject? entry.1 = some subject ∧
      draft.add entry.1 entry.2 = .ok (draft.put entry.2 subject) := by
  unfold fault? at sound
  split at sound
  · cases sound
  · rename_i flag known
    have listed := Draft.add_of_listed _ (mem_keys_of_subject? known) draft entry.2
    split at sound
    · rename_i plain
      refine ⟨_, known, ?_⟩
      rw [listed, Draft.enter, readFlag_eq, if_pos plain]
      rfl
    · cases sound
  · rename_i list known
    exact ⟨_, known, Draft.add_of_listed _ (mem_keys_of_subject? known) draft entry.2⟩

/-! ## Lists of names -/

/-- The names that a value lists, in order: what stands between its separators, where something does. -/
def Lists (separator : Char) (value : String) (names : List String) : Prop :=
  ∃ pieces : List (List Char), (∀ piece ∈ pieces, separator ∉ piece) ∧
    value.toList = Text.joined [separator] pieces ∧
    names = (pieces.filter fun piece => !piece.isEmpty).map String.ofList

theorem readNames_eq_iff {separator : Char} {names : List String} :
    readNames separator value = names ↔ Lists separator value names := by
  constructor
  · rintro rfl
    exact ⟨Text.pieces separator value.toList, fun _ => Text.not_mem_of_mem_pieces,
      (Text.joined_pieces separator _).symm, rfl⟩
  · rintro ⟨pieces, apart, whole, rfl⟩
    unfold readNames
    rw [whole]
    cases pieces with
    | nil => rfl
    | cons first others =>
        have own : Text.pieces separator (Text.joined [separator] (first :: others)) = first :: others :=
          List.splitOn_intercalate separator apart (List.cons_ne_nil first others)
        rw [own]

/-! ## Drafts -/

variable {entries : List (String × String)} {entry : String × String}

theorem last?_concat (known : subject? entry.1 = some subject) (entries : List (String × String))
    (other : Subject) :
    last? (entries ++ [entry]) other = if subject = other then some entry.2 else last? entries other := by
  unfold last?
  rw [List.filter_append, List.getLast?_append]
  by_cases same : subject = other
  · simp [known, same]
  · simp [known, same]

/-- Whether a flag is on after these entries. -/
def flagOf (entries : List (String × String)) (flag : Flag) : Bool :=
  ((last? entries (.flag flag)).map switchesOn).getD (({} : Draft).isOn flag)

def namesOf (entries : List (String × String)) (list : NameList) : List String :=
  ((last? entries (.names list)).map (readNames list.separator)).getD []

theorem namesOf_eq_iff {list : NameList} {names : List String}
    (last : last? entries (.names list) = some value) :
    namesOf entries list = names ↔ Lists list.separator value names := by
  rw [namesOf, last, Option.map_some, Option.getD_some, readNames_eq_iff]

theorem namesOf_of_unset {list : NameList} (unset : last? entries (.names list) = none) :
    namesOf entries list = [] := by
  rw [namesOf, unset, Option.map_none, Option.getD_none]

theorem flagOf_of_unset {flag : Flag} (unset : last? entries (.flag flag) = none) :
    flagOf entries flag = true ↔ flag = .includeDescription := by
  rw [flagOf, unset, Option.map_none, Option.getD_none]
  cases flag <;> decide

/-- The settings that these entries choose. -/
def chosen (entries : List (String × String)) : Settings where
  grouping :=
    if flagOf entries .perFile then .perFile
    else if flagOf entries .singleFile then .singleFile
    else .perPackage
  yaml := flagOf entries .yaml
  useRef := flagOf entries .useRef
  includeDescription := flagOf entries .includeDescription
  multilineDescription := flagOf entries .multilineDescription
  enumAsIntOrString := flagOf entries .enumAsIntOrString
  emptySchemas := namesOf entries .emptySchemas
  protoOneof := flagOf entries .protoOneof
  nativeIntegers := flagOf entries .nativeIntegers
  ignoreDirectives := flagOf entries .ignoreDirectives
  ignoredDirectives := namesOf entries .ignoredDirectives

/-- What the entries come to, where none is at fault. -/
def settled (entries : List (String × String)) : Except SettingsError Settings :=
  if flagOf entries .perFile ∧ flagOf entries .singleFile then .error .perFileAndSingleFile
  else .ok (chosen entries)

theorem settled_congr {others : List (String × String)}
    (same : ∀ subject, last? entries subject = last? others subject) : settled entries = settled others := by
  have flags (flag : Flag) : flagOf entries flag = flagOf others flag := by
    unfold flagOf
    rw [same]
  have names (list : NameList) : namesOf entries list = namesOf others list := by
    unfold namesOf
    rw [same]
  unfold settled chosen
  simp only [flags, names]

/-- The draft holds what the entries choose. -/
structure Draft.Reflects (entries : List (String × String)) (draft : Draft) : Prop where
  flags : ∀ flag, draft.isOn flag = flagOf entries flag
  names : ∀ list, draft.namesOf list = Settings.namesOf entries list

theorem Draft.isOn_put (draft : Draft) (value : String) (subject : Subject) (flag : Flag) :
    (draft.put value subject).isOn flag =
      if subject = .flag flag then switchesOn value else draft.isOn flag := by
  cases subject with
  | flag other => cases other <;> cases flag <;> rfl
  | names list => cases list <;> cases flag <;> rfl

theorem Draft.namesOf_put (draft : Draft) (value : String) (subject : Subject) (list : NameList) :
    (draft.put value subject).namesOf list =
      if subject = .names list then readNames list.separator value else draft.namesOf list := by
  cases subject with
  | flag flag => cases flag <;> cases list <;> rfl
  | names other => cases other <;> cases list <;> rfl

theorem Draft.reflects_nil : ({} : Draft).Reflects [] where
  flags _ := rfl
  names list := by cases list <;> rfl

/-- An entry replaces what the last one with the same subject left. -/
theorem Draft.Reflects.put (reflects : draft.Reflects entries)
    (known : subject? entry.1 = some subject) :
    (draft.put entry.2 subject).Reflects (entries ++ [entry]) where
  flags flag := by
    rw [isOn_put, reflects.flags, flagOf, flagOf, last?_concat known]
    split <;> rfl
  names list := by
    rw [namesOf_put, reflects.names, Settings.namesOf, Settings.namesOf, last?_concat known]
    split <;> rfl

theorem Draft.Reflects.finish_eq (reflects : draft.Reflects entries) :
    draft.finish = settled entries := by
  have perFile : draft.perFile = flagOf entries .perFile := reflects.flags .perFile
  have singleFile : draft.singleFile = flagOf entries .singleFile := reflects.flags .singleFile
  -- The grouping apart, the settings of the draft are those chosen.
  have settings (grouping : Grouping) : { draft.settings with grouping } =
      { chosen entries with grouping } := by
    unfold chosen
    simp only [← reflects.flags, ← reflects.names]
    rfl
  unfold finish
  rw [perFile, singleFile]
  simp only [settings]
  unfold settled chosen
  cases flagOf entries .perFile <;> cases flagOf entries .singleFile <;> rfl

/-! ## Runs -/

def gather (entries : List (String × String)) (draft : Draft) : Except SettingsError Draft :=
  entries.foldlM (fun draft entry => draft.add entry.1 entry.2) draft

theorem parse_eq_gather (parameter : String) :
    parse parameter = (gather (Settings.entries parameter) {}).bind Draft.finish := rfl

/-- No entry is at fault. -/
def Sound (entries : List (String × String)) : Prop := ∀ entry ∈ entries, fault? entry = none

instance (entries : List (String × String)) : Decidable (Sound entries) :=
  inferInstanceAs (Decidable (∀ entry ∈ entries, fault? entry = none))

theorem Draft.Reflects.gather (reflects : draft.Reflects entries) {later : List (String × String)}
    (sound : Sound later) :
    ∃ last, Settings.gather later draft = .ok last ∧ last.Reflects (entries ++ later) := by
  induction later generalizing entries draft with
  | nil => exact ⟨draft, rfl, by rwa [List.append_nil]⟩
  | cons entry later ih =>
      obtain ⟨here, others⟩ := List.forall_mem_cons.1 sound
      obtain ⟨subject, known, added⟩ := Draft.add_of_sound here draft
      obtain ⟨last, gathered, whole⟩ := ih (reflects.put known) others
      rw [List.append_assoc] at whole
      refine ⟨last, ?_, whole⟩
      unfold Settings.gather at gathered ⊢
      rw [List.foldlM_cons, added]
      exact gathered

theorem gather_of_fault {earlier later : List (String × String)} {error : SettingsError}
    (sound : Sound earlier) (faulty : fault? entry = some error) :
    gather (earlier ++ entry :: later) {} = .error error := by
  obtain ⟨last, gathered, -⟩ := Draft.reflects_nil.gather sound
  unfold gather at gathered ⊢
  rw [List.foldlM_append, gathered]
  change (last.add entry.1 entry.2).bind _ = _
  rw [Draft.add_of_fault faulty last]
  rfl

theorem parse_of_fault {parameter : String} {earlier later : List (String × String)}
    {error : SettingsError} (split : Settings.entries parameter = earlier ++ entry :: later)
    (sound : Sound earlier) (faulty : fault? entry = some error) : parse parameter = .error error := by
  rw [parse_eq_gather, split, gather_of_fault sound faulty]
  rfl

theorem parse_of_sound {parameter : String} (sound : Sound (Settings.entries parameter)) :
    parse parameter = settled (Settings.entries parameter) := by
  obtain ⟨last, gathered, reflects⟩ := Draft.reflects_nil.gather sound
  rw [parse_eq_gather, gathered]
  exact reflects.finish_eq

/-! ## Parameter texts -/

/-- How an entry is written: its key alone, or its key and its value behind an equals sign. -/
inductive Written : List Char → String × String → Prop
  | bare {key : List Char} : '=' ∉ key → Written key (String.ofList key, "")
  | valued {key value : List Char} :
      '=' ∉ key → Written (key ++ '=' :: value) (String.ofList key, String.ofList value)

/-- The entries of a parameter text are what stands between its commas, where something does. -/
theorem exists_pieces_entries (parameter : String) :
    ∃ pieces : List (List Char), (∀ piece ∈ pieces, ',' ∉ piece) ∧
      parameter.toList = Text.joined [','] pieces ∧
      List.Forall₂ Written (pieces.filter fun piece => !piece.isEmpty) (Settings.entries parameter) := by
  refine ⟨Text.pieces ',' parameter.toList, fun _ => Text.not_mem_of_mem_pieces,
    (Text.joined_pieces ',' _).symm, ?_⟩
  unfold Settings.entries
  rw [List.forall₂_map_right_iff, List.forall₂_same]
  intro piece _
  split
  · rename_i key value cut
    obtain ⟨rfl, plain⟩ := Text.eq_append_of_cutAt?_eq_some cut
    exact .valued plain
  · rename_i whole
    exact .bare (Text.not_mem_of_cutAt?_eq_none whole)

/-- The first entry at fault decides alone, and where none is, the last entry about every subject. -/
structure DecidedByLast (parameter : String) : Prop where
  cut : ∃ pieces : List (List Char), (∀ piece ∈ pieces, ',' ∉ piece) ∧
    parameter.toList = Text.joined [','] pieces ∧
    List.Forall₂ Written (pieces.filter fun piece => !piece.isEmpty) (Settings.entries parameter)
  faulty : ∀ earlier entry later error, Settings.entries parameter = earlier ++ entry :: later →
    Sound earlier → fault? entry = some error → parse parameter = .error error
  sound : Sound (Settings.entries parameter) → parse parameter = settled (Settings.entries parameter)
  /-- A list holds what its last value lists and nothing of the values before. -/
  names : ∀ list value names, last? (Settings.entries parameter) (.names list) = some value →
    (namesOf (Settings.entries parameter) list = names ↔ Lists list.separator value names)
  /-- Without an entry, descriptions are included, all other flags are off and the lists are empty. -/
  unset : (∀ flag, last? (Settings.entries parameter) (.flag flag) = none →
      (flagOf (Settings.entries parameter) flag = true ↔ flag = .includeDescription)) ∧
    ∀ list, last? (Settings.entries parameter) (.names list) = none →
      namesOf (Settings.entries parameter) list = []
  same : ∀ other, Sound (Settings.entries parameter) → Sound (Settings.entries other) →
    (∀ subject, last? (Settings.entries parameter) subject = last? (Settings.entries other) subject) →
    parse parameter = parse other

theorem decidedByLast (parameter : String) : DecidedByLast parameter where
  cut := exists_pieces_entries parameter
  faulty _ _ _ _ := parse_of_fault
  sound := parse_of_sound
  names _ _ _ := namesOf_eq_iff
  unset := ⟨fun _ => flagOf_of_unset, fun _ => namesOf_of_unset⟩
  same other sound likewise same := by
    rw [parse_of_sound sound, parse_of_sound likewise, settled_congr same]

/-- Entries that are overruled have no influence, of two entries at fault the first one decides, and a list of
names is replaced by a later one. -/
theorem decidedByLast_overruled :
    parse "yaml=false,single_file,disable_kube_markers,,per_file=FALSE,yaml,disable_validation=False" =
        parse "yaml,disable_kube_markers=False,single_file,per_file=FALSE" ∧
      parse "per_file=false,yaml=maybe,single_file=perhaps" = .error (.invalidValue "yaml" "maybe") ∧
      ∃ settings, parse "additional_empty_schema=a.B,yaml,additional_empty_schema=+c.D++e=f" = .ok settings ∧
        settings.emptySchemas = ["c.D", "e=f"] := by
  refine ⟨?_, ?_, ?_⟩
  · have long : Settings.entries
        "yaml=false,single_file,disable_kube_markers,,per_file=FALSE,yaml,disable_validation=False" =
          [("yaml", "false"), ("single_file", ""), ("disable_kube_markers", ""), ("per_file", "FALSE"),
            ("yaml", ""), ("disable_validation", "False")] := by decide +kernel
    have short : Settings.entries "yaml,disable_kube_markers=False,single_file,per_file=FALSE" =
        [("yaml", ""), ("disable_kube_markers", "False"), ("single_file", ""), ("per_file", "FALSE")] := by
      decide +kernel
    refine (decidedByLast _).same _ ?_ ?_ fun subject => ?_
    · rw [long]
      decide +kernel
    · rw [short]
      decide +kernel
    · rw [long, short]
      cases subject with
      | flag flag => cases flag <;> simp [last?, subject?, keys, List.lookup_cons]
      | names list => cases list <;> simp [last?, subject?, keys, List.lookup_cons]
  · have split : Settings.entries "per_file=false,yaml=maybe,single_file=perhaps" =
        [("per_file", "false")] ++ ("yaml", "maybe") :: [("single_file", "perhaps")] := by decide +kernel
    exact (decidedByLast _).faulty _ _ _ _ split (by decide +kernel) (by decide +kernel)
  · have decided := decidedByLast "additional_empty_schema=a.B,yaml,additional_empty_schema=+c.D++e=f"
    have given : Settings.entries "additional_empty_schema=a.B,yaml,additional_empty_schema=+c.D++e=f" =
        [("additional_empty_schema", "a.B"), ("yaml", ""), ("additional_empty_schema", "+c.D++e=f")] := by
      decide +kernel
    generalize "additional_empty_schema=a.B,yaml,additional_empty_schema=+c.D++e=f" = parameter at *
    have sound : Sound (Settings.entries parameter) := by
      rw [given]
      decide +kernel
    have single : ¬ (flagOf (Settings.entries parameter) .perFile ∧
        flagOf (Settings.entries parameter) .singleFile) := by
      rw [given]
      decide +kernel
    have last : last? (Settings.entries parameter) (.names .emptySchemas) = some "+c.D++e=f" := by
      rw [given]
      decide +kernel
    refine ⟨_, (decided.sound sound).trans (if_neg single), (decided.names _ _ _ last).2 ?_⟩
    exact ⟨[[], "c.D".toList, [], "e=f".toList], by decide +kernel, by decide +kernel, by decide +kernel⟩

end ProtoSchema.Settings
