/-!
Named values in the order of their first arrival, and in ascending order of their names. Both kinds
hold a name at most once when built by their operations: a later value takes the place of an earlier
one.
-/
namespace ProtoSchema.Entries

variable {α β : Type}

def names (entries : List (String × α)) : List String := entries.map (·.1)

/-- Replace the value under a name where it stands, or add it at the end. -/
def put (name : String) (value : α) : List (String × α) → List (String × α)
  | [] => [(name, value)]
  | (other, kept) :: rest =>
    if other = name then (name, value) :: rest else (other, kept) :: put name value rest

def ofList (entries : List (String × α)) : List (String × α) :=
  entries.foldl (fun built (name, value) => put name value built) []

/-- Insert into entries that ascend by name, replacing a value under the same name. -/
def putSorted (name : String) (value : α) : List (String × α) → List (String × α)
  | [] => [(name, value)]
  | (other, kept) :: rest =>
    if name < other then (name, value) :: (other, kept) :: rest
    else if name = other then (name, value) :: rest
    else (other, kept) :: putSorted name value rest

def mapValues (f : α → β) (entries : List (String × α)) : List (String × β) :=
  entries.map fun (name, value) => (name, f value)

end ProtoSchema.Entries
