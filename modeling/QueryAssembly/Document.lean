/-!
# Documents

A document is a row of definitions: operations, which can be executed, and fragments, which the
operations spread.  Both hold a selection set, which says which fields are asked for.  A selection
is a field, with a selection set of its own, the spread of a named fragment, or a fragment written
in place.

Nodes of a document carry the place in a source text that they were read from.  A node that is made
and not read has the default position, and a selection set that is made has the default span.

`TypeReference.write` writes the type of a variable down: a list in brackets, an exclamation mark
behind a type that excludes null.  `SelectionSet.spreadNames` and `SelectionSet.childlessFields`
walk a selection set from left to right, each selection before the ones it holds.  The first
collects the names of the fragments spread in it, the second the names of the fields that ask for
nothing below themselves.
-/

namespace QueryAssembly

/-! ### Positions -/

/-- A place in a source text.  The default position, line 0 and column 0, is no place in any text
and marks a node that was made rather than read. -/
structure Position where
  line : Nat := 0
  column : Nat := 0
deriving DecidableEq, Inhabited

/-- The part of a source text from one position to another. -/
structure Span where
  start : Position := {}
  finish : Position := {}
deriving DecidableEq, Inhabited

/-! ### Types and values -/

/-- The type of a variable as a document states it, in any nesting of the three forms. -/
inductive TypeReference where
  /-- The type of the given name. -/
  | named (name : String)
  /-- Lists whose elements have the given type. -/
  | list (element : TypeReference)
  /-- The given type without null. -/
  | nonNull (type : TypeReference)
deriving DecidableEq, Inhabited

/-- The text of a type reference. -/
def TypeReference.write : TypeReference → List Char
  | .named name => name.toList
  | .list element => '[' :: (element.write ++ [']'])
  | .nonNull type => type.write ++ ['!']

/-- The value of an argument. -/
inductive Value where
  /-- The value that the variable of the given name has. -/
  | ofVariable (name : String)
  | int (value : Int)
  | float (value : Float)
  | string (value : String)
  | boolean (value : Bool)
  | null
  /-- The enumeration value of the given name. -/
  | ofEnum (name : String)
  | list (elements : List Value)
  /-- An object with the given members, in increasing order of their names, by code point. -/
  | object (members : List (String × Value))
deriving Inhabited

/-! ### Selections -/

/-- An annotation of a node. -/
structure Directive where
  position : Position := {}
  name : String
  arguments : List (String × Value) := []
deriving Inhabited

/-- The spread of the fragment of the given name. -/
structure FragmentSpread where
  position : Position := {}
  name : String
  directives : List Directive := []
deriving Inhabited

mutual

/-- One thing asked for. -/
inductive Selection where
  | field (field : Field)
  | spread (spread : FragmentSpread)
  | inline (fragment : InlineFragment)

/-- A field, asked for with arguments and a selection set for its value.  The answer holds it under
its own name, or under its alias if it has one. -/
structure Field where
  position : Position := {}
  responseAlias : Option String := none
  name : String
  arguments : List (String × Value) := []
  directives : List Directive := []
  selectionSet : SelectionSet

/-- A fragment written in place, perhaps for values of one type only. -/
structure InlineFragment where
  position : Position := {}
  condition : Option String := none
  directives : List Directive := []
  selectionSet : SelectionSet

/-- Selections in order, with the part of the source text they were read from. -/
structure SelectionSet where
  span : Span := {}
  items : List Selection := []

end

instance : Inhabited SelectionSet := ⟨{}⟩

/-- The field of the given name with the given selection set and nothing else: no alias, no
arguments, no directives, and the default position. -/
def Field.plain (name : String) (selectionSet : SelectionSet) : Field :=
  { name, selectionSet }

/-! ### Definitions -/

/-- The declaration of a variable by an operation. -/
structure VariableDefinition where
  position : Position := {}
  name : String
  type : TypeReference
  defaultValue : Option Value := none
deriving Inhabited

/-- What an operation does, and for a query also whether it is written as a bare selection set. -/
inductive OperationKind where
  | query
  | mutation
  | subscription
  /-- A query written as nothing but its selection set. -/
  | shorthand
deriving DecidableEq, Inhabited

/-- An operation, which may go without a name. -/
structure Operation where
  kind : OperationKind
  position : Position := {}
  name : Option String := none
  variableDefinitions : List VariableDefinition := []
  directives : List Directive := []
  selectionSet : SelectionSet := {}
deriving Inhabited

/-- A named selection set for values of one type. -/
structure Fragment where
  position : Position := {}
  name : String
  condition : String
  directives : List Directive := []
  selectionSet : SelectionSet := {}
deriving Inhabited

/-- A part of a document. -/
inductive Definition where
  | operation (operation : Operation)
  | fragment (fragment : Fragment)
deriving Inhabited

/-- Definitions in order. -/
structure Document where
  definitions : List Definition := []
deriving Inhabited

/-! ### Walks -/

mutual

/-- The names of the fragments spread in a selection. -/
def Selection.spreadNames : Selection → List String
  | .field ⟨_, _, _, _, _, selectionSet⟩ => selectionSet.spreadNames
  | .spread spread => [spread.name]
  | .inline ⟨_, _, _, selectionSet⟩ => selectionSet.spreadNames

/-- The names of the fragments spread in a selection set, from left to right. -/
def SelectionSet.spreadNames : SelectionSet → List String
  | ⟨_, items⟩ => Selection.spreadNamesAll items

/-- The names of the fragments spread in a row of selections. -/
def Selection.spreadNamesAll : List Selection → List String
  | [] => []
  | selection :: rest => selection.spreadNames ++ Selection.spreadNamesAll rest

end

mutual

/-- The names of the fields with an empty selection set in a selection. -/
def Selection.childlessFields : Selection → List String
  | .field ⟨_, _, name, _, _, ⟨_, items⟩⟩ =>
    (if items.isEmpty then [name] else []) ++ Selection.childlessFieldsAll items
  | .spread _ => []
  | .inline ⟨_, _, _, selectionSet⟩ => selectionSet.childlessFields

/-- The names of the fields with an empty selection set in a selection set, from left to right, a
field before the fields below it. -/
def SelectionSet.childlessFields : SelectionSet → List String
  | ⟨_, items⟩ => Selection.childlessFieldsAll items

/-- The names of the fields with an empty selection set in a row of selections. -/
def Selection.childlessFieldsAll : List Selection → List String
  | [] => []
  | selection :: rest => selection.childlessFields ++ Selection.childlessFieldsAll rest

end

end QueryAssembly
