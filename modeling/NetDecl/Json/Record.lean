import NetDecl.Json

/-!
# Records in JSON

A record is an object with a member for each of its fields, in any order and possibly among others,
or an array of the values of all its fields.  A choice among named values is the name, or an object
whose one member has that name and is null.
-/

namespace NetDecl.Json

/-- The values of the named fields of a record; a field that an object leaves out has none. -/
def fields? (names : List String) : Json → Option (List (Option Json))
  | .object members => some (names.map fun name => member? name (.object members))
  | .array items => if items.length = names.length then some (items.map some) else none
  | _ => none

/-- The values of the named fields of a record all of which may be left out; an array may end before
any of them. -/
def leadingFields? (names : List String) : Json → Option (List (Option Json))
  | .array items =>
      if items.length ≤ names.length then
        some (items.map some ++ List.replicate (names.length - items.length) none)
      else none
  | value => value.fields? names

/-- The value of a field that may be left out or null. -/
def optionalField? {α : Type} (decode? : Json → Option α) (field : Option Json) :
    Option (Option α) :=
  match field with
  | some value => optional? decode? value
  | none => some none

/-- The name that a choice among named values gives. -/
def choice? : Json → Option String
  | .string name => some name
  | .object [(name, .null)] => some name
  | _ => none

end NetDecl.Json
