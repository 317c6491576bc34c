import QueryAssembly.Variables

/-!
# Types and variables in JSON

A short way to state the type of a variable in JSON.  A string is the named type of that very name,
whatever it is, and an array of one nullable type is the lists of it.  The type of a variable is a
nullable type, or an array of a nullable type and the mark that excludes null.  The mark is the
string `"!"`, or an object whose single member `"!"` is null.  The forms are tried one after the
other: arrays before names, and types without null before types with it.

A JSON object declares variables: each member declares its name with the type that its value states,
one member after the other, so of a repeated name the first member gives the place and the last the
type.  An object with a member whose value states no type declares nothing.
-/

namespace QueryAssembly

/-- A JSON value as it is written: an object keeps its members in their order and keeps every member
of a repeated name, and a number keeps its digits. -/
inductive Json where
  | null
  | boolean (value : Bool)
  /-- The number written with the given characters. -/
  | number (literal : String)
  | string (value : String)
  | array (elements : List Json)
  /-- An object with the given members, in the order in which they are written. -/
  | object (members : List (String × Json))
deriving Inhabited

/-! ### Types -/

/-- The named type that a JSON value states. -/
def NullableType.namedOfJson? : Json → Option NullableType
  | .string name => some (.named name)
  | _ => none

/-- The nullable type that a JSON value states: the lists of what the element of an array states, or
else a named type. -/
def NullableType.ofJson? (value : Json) : Option NullableType :=
  (match value with
    | .array [element] => (NullableType.ofJson? element).map .list
    | _ => none) <|> NullableType.namedOfJson? value

/-- Whether a JSON value is the mark that excludes null. -/
def Json.isNonNullMark : Json → Bool
  | .string "!" => true
  | .object [("!", .null)] => true
  | _ => false

/-- The type without null that a JSON value states. -/
def VariableType.nonNullOfJson? : Json → Option VariableType
  | .array [base, mark] => do
    let base ← NullableType.ofJson? base
    if mark.isNonNullMark then return ⟨base, true⟩ else none
  | _ => none

/-- The type with null that a JSON value states. -/
def VariableType.nullableOfJson? (value : Json) : Option VariableType :=
  (NullableType.ofJson? value).map .ofNullable

/-- The type of a variable that a JSON value states: a type without null, or else one with null. -/
def VariableType.ofJson? (value : Json) : Option VariableType :=
  VariableType.nonNullOfJson? value <|> VariableType.nullableOfJson? value

/-- The mark that excludes null has two spellings. -/
theorem Json.isNonNullMark_iff {value : Json} :
    value.isNonNullMark = true ↔ value = .string "!" ∨ value = .object [("!", .null)] := by
  constructor
  · intro h
    unfold isNonNullMark at h
    split at h <;> simp_all
  · rintro (rfl | rfl) <;> rfl

/-! ### Variables -/

/-- The declaration that a member of an object makes. -/
def Variables.declarationOf? (member : String × Json) : Option (String × VariableType) :=
  (VariableType.ofJson? member.2).map (member.1, ·)

/-- The variables that a JSON value declares. -/
def Variables.ofJson? : Json → Option Variables
  | .object members => (members.mapM declarationOf?).map ofList
  | _ => none

end QueryAssembly
