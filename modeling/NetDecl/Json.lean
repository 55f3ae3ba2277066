/-!
# JSON values

A value is what a JSON text says.  Objects keep their members in order, and may name a member more
than once; the last one counts.
-/

namespace NetDecl

/-- A JSON value.  Whole numbers written without sign, fraction or exponent are numbers to calculate
with; any other number is kept as it is written. -/
inductive Json where
  /-- The absent value. -/
  | null
  /-- A truth value. -/
  | bool (value : Bool)
  /-- A whole number. -/
  | natural (value : Nat)
  /-- Any other number, as written. -/
  | number (written : String)
  /-- A text. -/
  | string (value : String)
  /-- Values in order. -/
  | array (items : List Json)
  /-- Named values in order. -/
  | object (members : List (String × Json))
deriving Repr, Inhabited

namespace Json

/-- An array of texts. -/
def strings (texts : List String) : Json :=
  .array (texts.map .string)

/-- A text, or null where there is none. -/
def stringOrNull : Option String → Json
  | some text => .string text
  | none => .null

/-- A whole number, or null where there is none. -/
def naturalOrNull : Option Nat → Json
  | some value => .natural value
  | none => .null

/-- The member of an object with the given name. -/
def member? (name : String) : Json → Option Json
  | .object members => members.reverse.lookup name
  | _ => none

/-- The text that a value is. -/
def string? : Json → Option String
  | .string text => some text
  | _ => none

/-- The truth value that a value is. -/
def bool? : Json → Option Bool
  | .bool value => some value
  | _ => none

/-- The values that an array holds. -/
def items? : Json → Option (List Json)
  | .array items => some items
  | _ => none

/-- The number of a 64-bit word that a value is. -/
def word? : Json → Option Nat
  | .natural value => if value < UInt64.size then some value else none
  | _ => none

/-- A value that may be null. -/
def optional? {α : Type} (decode? : Json → Option α) : Json → Option (Option α)
  | .null => some none
  | value => (decode? value).map some

/-- The values of an array, each decoded. -/
def list? {α : Type} (decode? : Json → Option α) (value : Json) : Option (List α) := do
  (← value.items?).mapM decode?

mutual

/-- How deeply arrays and objects are nested in a value. -/
def depth : Json → Nat
  | .array items => itemsDepth items + 1
  | .object members => membersDepth members + 1
  | _ => 0

/-- The greatest depth of the items of an array. -/
def itemsDepth : List Json → Nat
  | [] => 0
  | item :: items => max (depth item) (itemsDepth items)

/-- The greatest depth of the members of an object. -/
def membersDepth : List (String × Json) → Nat
  | [] => 0
  | (_, value) :: members => max (depth value) (membersDepth members)

end

end Json

end NetDecl
