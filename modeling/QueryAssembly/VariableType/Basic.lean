import QueryAssembly.Document

/-!
# Variable types

The type of a variable is a nullable type, a named type or a list of a nullable type, together with
a mark that may exclude null from it.  The mark belongs to the whole type and never to the elements
of a list, so this form admits fewer types than `TypeReference`, into which `toReference` takes it.

The text of a variable type is the text of its reference (`VariableType.write_toReference`): lists
in brackets, and an exclamation mark at the end of a type that excludes null.

A variable type can be constructed in steps.  Making steps start anew from a name, and changing
steps go on from the type there is, if there is one.  `TypeStep.types` lists the type after each
step of a run.
-/

namespace QueryAssembly

/-- A type that has null among its values. -/
inductive NullableType where
  /-- The type of the given name, which may be any text. -/
  | named (name : String)
  /-- Lists whose elements have the given type. -/
  | list (element : NullableType)
deriving DecidableEq, Hashable, Inhabited

/-- The type of a variable: a nullable type, from which the mark may exclude null. -/
structure VariableType where
  base : NullableType
  nonNull : Bool := false
deriving DecidableEq, Hashable, Inhabited

namespace NullableType

/-- A text taken for the name of a type. -/
def ofName (name : String) : NullableType :=
  .named name

/-- The name inside all the lists of a type. -/
def innermostName : NullableType → String
  | .named name => name
  | .list element => element.innermostName

/-- The number of lists around the innermost name of a type. -/
def depth : NullableType → Nat
  | .named _ => 0
  | .list element => element.depth + 1

/-- The text of a nullable type. -/
def write : NullableType → List Char
  | .named name => name.toList
  | .list element => '[' :: (element.write ++ [']'])

/-- The text of a nullable type, as a string. -/
def text (type : NullableType) : String :=
  String.ofList type.write

/-- The reference that stands for a nullable type in a document. -/
def toReference : NullableType → TypeReference
  | .named name => .named name
  | .list element => .list element.toReference

/-- The text of a nullable type is the text of its reference. -/
theorem write_toReference (type : NullableType) : type.toReference.write = type.write := by
  induction type with
  | named name => rfl
  | list element ih => rw [toReference, TypeReference.write, ih, write]

end NullableType

namespace VariableType

/-- The named type of the given name, with null. -/
def named (name : String) : VariableType :=
  ⟨.named name, false⟩

/-- Lists of the named type of the given name, with null. -/
def list (name : String) : VariableType :=
  ⟨.list (.named name), false⟩

/-- A text taken for the name of a type, with null.  The text is not read: `"[ID]"` gives a type of
that very name. -/
def ofName (name : String) : VariableType :=
  named name

/-- A nullable type as the type of a variable, with null. -/
def ofNullable (base : NullableType) : VariableType :=
  ⟨base, false⟩

/-- The given type without null.  A type that excludes null already stays as it is. -/
def withoutNull (type : VariableType) : VariableType :=
  { type with nonNull := true }

/-- The text of a variable type. -/
def write (type : VariableType) : List Char :=
  if type.nonNull then type.base.write ++ ['!'] else type.base.write

/-- The text of a variable type, as a string. -/
def text (type : VariableType) : String :=
  String.ofList type.write

/-- The reference that stands for a variable type in a document. -/
def toReference (type : VariableType) : TypeReference :=
  if type.nonNull then .nonNull type.base.toReference else type.base.toReference

/-- The text of a variable type is the text of its reference. -/
theorem write_toReference (type : VariableType) : type.toReference.write = type.write := by
  obtain ⟨base, nonNull⟩ := type
  cases nonNull <;> simp [toReference, write, TypeReference.write, base.write_toReference]

end VariableType

/-! ### Construction in steps -/

/-- A step in the construction of a variable type. -/
inductive TypeStep where
  /-- Makes the named type of a name. -/
  | named (name : String)
  /-- Makes the lists of the named type of a name. -/
  | list (name : String)
  /-- Takes a text for the name of a type. -/
  | ofName (name : String)
  /-- Makes the named nullable type of a name. -/
  | nullableNamed (name : String)
  /-- Takes a text for the name of a nullable type. -/
  | nullableOfName (name : String)
  /-- Makes the nullable type of the lists of a name. -/
  | nullableList (name : String)
  /-- Takes null away. -/
  | withoutNull
  /-- Goes on to the lists of the type.  Elements of lists may be null, so a mark is lost. -/
  | listOf
  /-- Gives null back. -/
  | base
deriving DecidableEq, Inhabited

namespace TypeStep

/-- The type after a step, given the type before it. -/
def apply : TypeStep → Option VariableType → Option VariableType
  | .named name, _ => some (.named name)
  | .list name, _ => some (.list name)
  | .ofName name, _ => some (.ofName name)
  | .nullableNamed name, _ => some (.ofNullable (.named name))
  | .nullableOfName name, _ => some (.ofNullable (.ofName name))
  | .nullableList name, _ => some (.ofNullable (.list (.ofName name)))
  | .withoutNull, current => current.map .withoutNull
  | .listOf, current => current.map fun type => .ofNullable (.list type.base)
  | .base, current => current.map fun type => .ofNullable type.base

/-- The type that a run of steps ends with, from the given type on. -/
def run (current : Option VariableType) (steps : List TypeStep) : Option VariableType :=
  steps.foldl (fun current step => step.apply current) current

/-- The type after each step of a run, from the given type on.  Where there is none, the step had no
type to change. -/
def types (current : Option VariableType) : List TypeStep → List (Option VariableType)
  | [] => []
  | step :: rest => step.apply current :: types (step.apply current) rest

end TypeStep

end QueryAssembly
