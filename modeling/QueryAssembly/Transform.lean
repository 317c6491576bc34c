import QueryAssembly.Document

/-!
# Transforms of selection sets

A transform turns the selection set of the entry field of a query into another.  It may be any
function; three ways to make one are given.  `Transform.moveUnder` moves a selection set to the end
of a path of fields, `Transform.prependFields` puts fields in front of its selections, and
`Transform.andThen` applies one transform after another.

A reshaping is a transform made by moving, prepending and composition alone, written down as the
tree of the steps it is made of.  `Reshape.apply` carries it out, and `Reshape.normalForm` writes it
as a row of layers in which no layer is idle and neighbours are of different kinds: the steps in
their order, without those that add nothing, and with neighbours of one kind put together.
-/

namespace QueryAssembly

/-! ### Moving and prepending -/

/-- A selection set with one selection, a plain field of the given name, that holds the given
selection set. -/
def SelectionSet.under (name : String) (inner : SelectionSet) : SelectionSet :=
  { items := [.field (.plain name inner)] }

/-- The selection set at the end of a path of plain fields, the outermost first.  A selection set
without selections stays as it is, so that no field of the path is left without any. -/
def SelectionSet.moveUnder (path : List String) (selections : SelectionSet) : SelectionSet :=
  if selections.items.isEmpty then selections else path.foldr SelectionSet.under selections

/-- A plain field without a selection set of its own. -/
def Selection.leaf (name : String) : Selection :=
  .field (.plain name {})

/-- The selection set with plain fields of the given names in front of its selections. -/
def SelectionSet.prependFields (names : List String) (selections : SelectionSet) :
    SelectionSet :=
  { selections with items := names.map Selection.leaf ++ selections.items }

/-! ### Transforms -/

/-- A way to turn selection sets into others. -/
structure Transform where
  apply : SelectionSet → SelectionSet

namespace Transform

/-- Changes nothing. -/
def identity : Transform :=
  ⟨id⟩

instance : Inhabited Transform := ⟨identity⟩

/-- Moves a selection set that has selections to the end of a path of fields. -/
def moveUnder (path : List String) : Transform :=
  ⟨SelectionSet.moveUnder path⟩

/-- Puts fields in front of the selections. -/
def prependFields (names : List String) : Transform :=
  ⟨SelectionSet.prependFields names⟩

/-- Applies the first transform and then the second. -/
def andThen (first second : Transform) : Transform :=
  ⟨fun selections => second.apply (first.apply selections)⟩

/-- What is shown of a transform.  A function has no text, so all transforms show alike. -/
def describe (_ : Transform) : String :=
  "SelectionSetTransform(..)"

end Transform

/-! ### Descent -/

/-- The selection set of the field that is the only selection of a selection set. -/
def SelectionSet.descend? (selections : SelectionSet) : Option SelectionSet :=
  match selections.items with
  | [.field field] => some field.selectionSet
  | _ => none

/-- One level below the field that a selection set was put under is that selection set. -/
@[simp] theorem SelectionSet.descend?_under (name : String) (inner : SelectionSet) :
    (SelectionSet.under name inner).descend? = some inner := rfl

/-! ### Reshapings -/

/-- A transform made by moving, prepending and composition. -/
inductive Reshape where
  | moveUnder (path : List String)
  | prependFields (names : List String)
  | andThen (first second : Reshape)
deriving DecidableEq, Inhabited

/-- One step of a reshaping. -/
inductive Layer where
  | moveUnder (path : List String)
  | prependFields (names : List String)
deriving DecidableEq, Inhabited

/-- The transform that a step stands for. -/
def Layer.transform : Layer → Transform
  | .moveUnder path => .moveUnder path
  | .prependFields names => .prependFields names

/-- Puts a step in front of a row of steps in normal form. -/
def Layer.prepend : Layer → List Layer → List Layer
  | .moveUnder [], rest => rest
  | .prependFields [], rest => rest
  | .moveUnder inner, .moveUnder outer :: rest => .moveUnder (outer ++ inner) :: rest
  | .prependFields last, .prependFields first :: rest =>
    .prependFields (first ++ last) :: rest
  | layer, rest => layer :: rest

namespace Reshape

/-- The transform that a reshaping stands for. -/
def transform : Reshape → Transform
  | .moveUnder path => .moveUnder path
  | .prependFields names => .prependFields names
  | .andThen first second => first.transform.andThen second.transform

/-- Carries a reshaping out. -/
def apply (reshape : Reshape) (selections : SelectionSet) : SelectionSet :=
  reshape.transform.apply selections

/-- The steps of a reshaping, in the order in which they are taken. -/
def layers : Reshape → List Layer
  | .moveUnder path => [.moveUnder path]
  | .prependFields names => [.prependFields names]
  | .andThen first second => first.layers ++ second.layers

/-- The steps of a reshaping without idle ones and with neighbours of one kind put together. -/
def normalForm (reshape : Reshape) : List Layer :=
  reshape.layers.foldr Layer.prepend []

/-- The names of all fields that a reshaping prepends, those of the last step first. -/
def prependedFields : Reshape → List String
  | .moveUnder _ => []
  | .prependFields names => names
  | .andThen first second => second.prependedFields ++ first.prependedFields

end Reshape

end QueryAssembly
