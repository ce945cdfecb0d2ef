import Typeahead.Entries
import Typeahead.Schema.Flags

/-!
# Schemas

A schema gives a profile to each field of a sample of documents. A field is known by its path,
the names from the outermost object to the field with points between them. The profile of a field
holds its flags and the profiles of the fields one name below it.

Profiles are linked from the deepest paths up, so that a field takes in children that have their
own children already.
-/

namespace Typeahead.Schema

/-- What is known of a field and of the fields below it. -/
inductive Profile where
  | mk (flags : Flags Float Text) (children : List (Text × Profile))

namespace Profile

/-- The flags of the field itself. -/
def flags : Profile → Flags Float Text
  | mk flags _ => flags

/-- The profiles of the fields one name below, by their last names. -/
def children : Profile → List (Text × Profile)
  | mk _ children => children

end Profile

end Typeahead.Schema

namespace Typeahead

/-- The profiles of the fields of a sample. -/
structure Schema where
  fields : Entries Schema.Profile
  /-- The number of documents in the sample. -/
  sampled : Int

namespace Schema

/-- The number of points in a path. -/
def depth (path : Text) : Nat :=
  path.count '.'

/-- The last name of a path that lies one name below another. -/
def childName? (parent path : Text) : Option Text :=
  if (parent ++ ['.']).isPrefixOf path then
    let name := path.drop (parent.length + 1)
    if name.contains '.' then none else some name
  else
    none

/-- The profiles among those known that lie one name below a path. -/
def childrenOf (known : Entries Profile) (path : Text) : List (Text × Profile) :=
  known.filterMap fun (other, profile) => (childName? path other).map fun name => (name, profile)

/-- Link fields whose children are among those known or among the fields before them. -/
def linkFrom (known : Entries Profile) : Entries (Flags Float Text) → Entries Profile
  | [] => known
  | (path, flags) :: rest =>
      linkFrom (known ++ [(path, .mk flags (childrenOf known path))]) rest

/-- The fields with the deepest paths first, and in their order among those of one depth. -/
def deepestFirst (fields : Entries (Flags Float Text)) : Entries (Flags Float Text) :=
  fields.mergeSort fun first second => depth second.1 ≤ depth first.1

/-- The schema of fields with distinct paths, in their order. -/
def ofFlags (fields : Entries (Flags Float Text)) (sampled : Int) : Schema :=
  let linked := linkFrom [] (deepestFirst fields)
  { fields := fields.filterMap fun (path, _) => (linked.find? path).map fun profile => (path, profile)
    sampled }

/-- The profile of a field. -/
def find? (schema : Schema) (path : Text) : Option Profile :=
  schema.fields.find? path

/-- The flags of a field. -/
def flags? (schema : Schema) (path : Text) : Option (Flags Float Text) :=
  (schema.find? path).map Profile.flags

/-- The paths of the fields in their order. -/
def paths (schema : Schema) : List Text :=
  schema.fields.keys

end Schema

end Typeahead
