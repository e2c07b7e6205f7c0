import Mathlib.Data.String.Basic
import ProtoSchema.Entries
import ProtoSchema.Proofs.Deriving

/-!
Named values. Putting a value under a name changes what is found under that name and nothing else, and
entries that ascend by their names still do afterwards.
-/
namespace ProtoSchema.Entries

variable {α : Type} {name : String} {value : α} {entry : String × α} {entries : List (String × α)}

theorem mem_of_mem_put (member : entry ∈ put name value entries) :
    entry = (name, value) ∨ entry ∈ entries := by
  induction entries with
  | nil => exact .inl (List.mem_singleton.1 member)
  | cons other rest ih =>
      unfold put at member
      split at member
      · rcases List.mem_cons.1 member with same | later
        · exact .inl same
        · exact .inr (List.mem_cons_of_mem other later)
      · rcases List.mem_cons.1 member with same | later
        · exact .inr (same ▸ List.mem_cons_self)
        · exact (ih later).imp_right (List.mem_cons_of_mem other)

theorem mem_of_mem_ofList (member : entry ∈ ofList entries) : entry ∈ entries := by
  have grow : ∀ (entries built : List (String × α)),
      entry ∈ entries.foldl (fun built entry => put entry.1 entry.2 built) built →
        entry ∈ built ∨ entry ∈ entries := by
    intro entries
    induction entries with
    | nil => exact fun built member => .inl member
    | cons first rest ih =>
        intro built member
        rcases ih _ member with early | later
        · exact (mem_of_mem_put early).elim (fun same => .inr (same ▸ List.mem_cons_self)) .inl
        · exact .inr (List.mem_cons_of_mem first later)
  exact (grow entries [] member).resolve_left List.not_mem_nil

theorem mem_names (member : (name, value) ∈ entries) : name ∈ names entries :=
  List.mem_map_of_mem member

theorem mem_names_put {key : String} :
    key ∈ names (put name value entries) ↔ key = name ∨ key ∈ names entries := by
  induction entries with
  | nil => simp [put, names]
  | cons other rest ih =>
      obtain ⟨first, kept⟩ := other
      unfold put
      by_cases same : first = name
      · simp [names, same]
      · rw [if_neg same]
        simp only [names, List.map_cons, List.mem_cons] at ih ⊢
        rw [ih, or_left_comm]

theorem nodup_names_put (unique : (names entries).Nodup) : (names (put name value entries)).Nodup := by
  induction entries with
  | nil => simp [put, names]
  | cons other rest ih =>
      obtain ⟨first, kept⟩ := other
      obtain ⟨absent, tail⟩ := List.nodup_cons.1 unique
      unfold put
      by_cases same : first = name
      · rw [if_pos same, ← same]
        exact unique
      · rw [if_neg same]
        refine List.nodup_cons.2 ⟨fun again => ?_, ih tail⟩
        exact (mem_names_put.1 again).elim same absent

theorem mapValues_put {β : Type} (change : α → β) :
    mapValues change (put name value entries) = put name (change value) (mapValues change entries) := by
  induction entries with
  | nil => rfl
  | cons other rest ih =>
      obtain ⟨first, kept⟩ := other
      unfold put
      by_cases same : first = name
      · simp [mapValues, same]
      · rw [if_neg same]
        simp only [mapValues, List.map_cons, if_neg same] at ih ⊢
        rw [ih]

theorem mapValues_ofList {β : Type} (change : α → β) (entries : List (String × α)) :
    mapValues change (ofList entries) = ofList (mapValues change entries) := by
  have grow : ∀ entries built : List (String × α),
      mapValues change (entries.foldl (fun built entry => put entry.1 entry.2 built) built) =
        (mapValues change entries).foldl (fun built entry => put entry.1 entry.2 built)
          (mapValues change built) := by
    intro entries
    induction entries with
    | nil => exact fun built => rfl
    | cons first rest ih =>
        intro built
        have next := ih (put first.1 first.2 built)
        rw [mapValues_put] at next
        exact next
  exact grow entries []

theorem put_of_not_mem (absent : name ∉ names entries) :
    put name value entries = entries ++ [(name, value)] := by
  induction entries with
  | nil => rfl
  | cons other rest ih =>
      obtain ⟨first, kept⟩ := other
      obtain ⟨apart, later⟩ := not_or.1 (mt List.mem_cons.2 absent)
      rw [put, if_neg (Ne.symm apart), ih later]
      rfl

/-- Where no name comes twice, nothing is replaced. -/
theorem ofList_of_nodup (unique : (names entries).Nodup) : ofList entries = entries := by
  have grow : ∀ entries built : List (String × α), (names (built ++ entries)).Nodup →
      entries.foldl (fun built entry => put entry.1 entry.2 built) built = built ++ entries := by
    intro entries
    induction entries with
    | nil => exact fun built _ => (List.append_nil built).symm
    | cons first rest ih =>
        intro built unique
        have absent : first.1 ∉ names built := by
          intro earlier
          rw [names, List.map_append] at unique
          exact (List.nodup_append.1 unique).2.2 _ earlier _ List.mem_cons_self rfl
        rw [List.foldl_cons, put_of_not_mem absent, ih _ (by simpa using unique)]
        simp
  exact grow entries [] unique

/-! ## Ascending entries -/

/-- Every name comes before the names behind it. -/
def Ascending (entries : List (String × α)) : Prop := entries.Pairwise fun one two => one.1 < two.1

theorem mem_of_mem_putSorted (member : entry ∈ putSorted name value entries) :
    entry = (name, value) ∨ entry ∈ entries := by
  induction entries with
  | nil => exact .inl (List.mem_singleton.1 member)
  | cons other rest ih =>
      unfold putSorted at member
      split at member
      · exact List.mem_cons.1 member
      · split at member
        · rcases List.mem_cons.1 member with same | later
          · exact .inl same
          · exact .inr (List.mem_cons_of_mem other later)
        · rcases List.mem_cons.1 member with same | later
          · exact .inr (same ▸ List.mem_cons_self)
          · exact (ih later).imp_right (List.mem_cons_of_mem other)

theorem lookup_cons (key : String) :
    ((name, value) :: entries).lookup key = if key = name then some value else entries.lookup key := by
  rw [List.lookup_cons]
  by_cases same : key = name
  · simp [same]
  · simp [same, beq_eq_false_iff_ne.2 same]

theorem lookup_put (key : String) :
    (put name value entries).lookup key = if key = name then some value else entries.lookup key := by
  induction entries with
  | nil => exact lookup_cons key
  | cons other rest ih =>
      obtain ⟨first, kept⟩ := other
      unfold put
      split
      · rename_i same
        rw [lookup_cons, lookup_cons, same]
        split <;> rfl
      · rename_i apart
        rw [lookup_cons, lookup_cons, ih]
        by_cases here : key = first
        · simp [here, apart]
        · simp [here]

theorem lookup_of_nodup (unique : (names entries).Nodup) (member : (name, value) ∈ entries) :
    entries.lookup name = some value := by
  induction entries with
  | nil => cases member
  | cons other rest ih =>
      obtain ⟨first, kept⟩ := other
      obtain ⟨absent, tail⟩ := List.nodup_cons.1 unique
      rw [lookup_cons]
      rcases List.mem_cons.1 member with same | later
      · cases same
        exact if_pos rfl
      · have apart : name ≠ first := by
          rintro rfl
          exact absent (mem_names later)
        rw [if_neg apart]
        exact ih tail later

theorem lookup_putSorted (key : String) :
    (putSorted name value entries).lookup key =
      if key = name then some value else entries.lookup key := by
  induction entries with
  | nil => exact lookup_cons key
  | cons other rest ih =>
      obtain ⟨first, kept⟩ := other
      unfold putSorted
      split
      · exact lookup_cons key
      · split
        · rename_i same
          rw [lookup_cons, lookup_cons, same]
          split <;> rfl
        · rename_i apart
          rw [lookup_cons, lookup_cons, ih]
          by_cases here : key = first
          · simp [here, Ne.symm apart]
          · simp [here]

theorem Ascending.putSorted (ascending : Ascending entries) :
    Ascending (putSorted name value entries) := by
  induction entries with
  | nil => exact List.pairwise_singleton _ _
  | cons other rest ih =>
      obtain ⟨first, kept⟩ := other
      obtain ⟨ahead, tail⟩ := List.pairwise_cons.1 ascending
      unfold Entries.putSorted
      split
      · rename_i before
        refine List.pairwise_cons.2 ⟨fun entry member => ?_, ascending⟩
        rcases List.mem_cons.1 member with rfl | later
        · exact before
        · exact lt_trans before (ahead entry later)
      · split
        · rename_i _ same
          subst same
          exact List.pairwise_cons.2 ⟨ahead, tail⟩
        · rename_i before apart
          refine List.pairwise_cons.2 ⟨fun entry member => ?_, ih tail⟩
          rcases mem_of_mem_putSorted member with rfl | later
          · exact lt_of_le_of_ne (not_lt.1 before) (Ne.symm apart)
          · exact ahead entry later

theorem Ascending.lookup (ascending : Ascending entries) (member : (name, value) ∈ entries) :
    entries.lookup name = some value := by
  induction entries with
  | nil => cases member
  | cons other rest ih =>
      obtain ⟨first, kept⟩ := other
      obtain ⟨ahead, tail⟩ := List.pairwise_cons.1 ascending
      rcases List.mem_cons.1 member with same | later
      · cases same
        rw [lookup_cons, if_pos rfl]
      · have apart : name ≠ first := ne_of_gt (ahead _ later)
        rw [lookup_cons, if_neg apart]
        exact ih tail later

/-- Of several values put in, the last one under a name is found. -/
theorem lookup_foldl_putSorted (key : String) (added entries : List (String × α)) :
    (added.foldl (fun sorted (name, value) => putSorted name value sorted) entries).lookup key =
      (added.reverse.lookup key).or (entries.lookup key) := by
  induction added generalizing entries with
  | nil => rfl
  | cons first rest ih =>
      obtain ⟨name, value⟩ := first
      rw [List.foldl_cons, ih, List.reverse_cons, List.lookup_append, lookup_putSorted, lookup_cons]
      cases rest.reverse.lookup key with
      | some other => rfl
      | none => by_cases same : key = name <;> simp [same]

theorem lookup_reverse_eq_none {added : List (String × α)} (absent : name ∉ names added) :
    added.reverse.lookup name = none := by
  cases found : added.reverse.lookup name with
  | none => rfl
  | some value => exact absurd (mem_names (List.mem_reverse.1 (mem_of_lookup found))) absent

theorem names_foldl_putSorted {added : List (String × α)} (found : entries.lookup name = some value) :
    name ∈ names (added.foldl (fun sorted (name, value) => putSorted name value sorted) entries) := by
  have lookup := lookup_foldl_putSorted name added entries
  rw [found] at lookup
  cases replaced : added.reverse.lookup name with
  | none =>
      rw [replaced] at lookup
      exact mem_names (mem_of_lookup lookup)
  | some other =>
      rw [replaced] at lookup
      exact mem_names (mem_of_lookup lookup)

theorem Ascending.foldl_putSorted (ascending : Ascending entries) (added : List (String × α)) :
    Ascending (added.foldl (fun sorted (name, value) => Entries.putSorted name value sorted) entries) := by
  induction added generalizing entries with
  | nil => exact ascending
  | cons first rest ih => exact ih ascending.putSorted

theorem mapValues_putSorted {β : Type} (change : α → β) :
    mapValues change (putSorted name value entries) =
      putSorted name (change value) (mapValues change entries) := by
  induction entries with
  | nil => rfl
  | cons other rest ih =>
      obtain ⟨first, kept⟩ := other
      simp only [mapValues, List.map_cons] at ih ⊢
      unfold putSorted
      split
      · rfl
      · split
        · rfl
        · rw [List.map_cons, ih]

theorem mapValues_foldl_putSorted {β : Type} (change : α → β) (added entries : List (String × α)) :
    mapValues change (added.foldl (fun sorted (name, value) => putSorted name value sorted) entries) =
      (mapValues change added).foldl (fun sorted (name, value) => putSorted name value sorted)
        (mapValues change entries) := by
  induction added generalizing entries with
  | nil => rfl
  | cons first rest ih =>
      have next := ih (putSorted first.1 first.2 entries)
      rw [mapValues_putSorted] at next
      exact next

theorem mem_of_mem_foldl_putSorted {added : List (String × α)}
    (member : entry ∈ added.foldl (fun sorted (name, value) => putSorted name value sorted) entries) :
    entry ∈ added ∨ entry ∈ entries := by
  induction added generalizing entries with
  | nil => exact .inr member
  | cons first rest ih =>
      rcases ih member with later | early
      · exact .inl (List.mem_cons_of_mem first later)
      · rcases mem_of_mem_putSorted early with rfl | old
        · exact .inl List.mem_cons_self
        · exact .inr old

end ProtoSchema.Entries
