import QueryAssembly.Transform
import QueryAssembly.Variables

/-!
# Queries

A query is one operation with one entry field, which forwards variables as its arguments and spreads
fragments.  It is built from a configuration at once (`Configuration.build`), or by way of a
template.

A fragment to select is supplied as a document that starts with its definition.  What the document
defines besides has no influence.  `leadingFragments` takes the fragments of the documents supplied,
in their order, and `spreadsOf` makes the selection set that spreads each of them once.  The
documents are looked at in order, and the first with a fault decides the error: a document that
defines nothing or starts with an operation, or a fragment of a name that an earlier one has.

A template is everything of a query but its fragments: the name of the operation, the variables it
declares, the entry field with the variables forwarded to it, and perhaps a transform.  `Outline`
holds these as they are given.  `Template` is an outline whose arguments are known to be declared
and distinct, which `Template.ofOutline` finds out once; then `Template.select` builds a document
for any fragments.

Where the entry field lists no arguments, a build forwards every declared variable, and a template
forwards none.

Main statements: `Template.ofOutline_eq_ok_iff`, that an outline makes a template exactly if its
arguments are declared and distinct, and `firstRepeated?_eq_none_iff`.
-/

namespace QueryAssembly

/-! ### Errors -/

/-- Why a query cannot be built. -/
inductive BuildError where
  /-- The operation does not declare a variable of the name of an argument. -/
  | undeclaredArgument (argument operation : String)
  /-- Two arguments have one name. -/
  | duplicateArgument (argument operation : String)
  /-- The fragment document at the given place, counted from zero, defines nothing. -/
  | emptyDocument (index : Nat)
  /-- The fragment document at the given place, counted from zero, starts with an operation. -/
  | leadingOperation (index : Nat)
  /-- Two fragments have one name. -/
  | duplicateFragment (fragment : String)
  /-- The entry field asks for nothing. -/
  | emptySelection (entry : String)
deriving DecidableEq, Inhabited

/-- The wording of a build error. -/
def BuildError.message : BuildError → String
  | .undeclaredArgument argument operation =>
    s!"Argument `{argument}` of operation `{operation}` does not refer to a declared variable."
  | .duplicateArgument argument operation =>
    s!"Argument `{argument}` of operation `{operation}` is listed more than once. " ++
      "Argument names must be unique on a field."
  | .emptyDocument index => s!"Fragment document #{index} contains no definitions."
  | .leadingOperation index =>
    s!"The first definition in fragment document #{index} is an operation, " ++
      "but a fragment definition was expected."
  | .duplicateFragment fragment =>
    s!"Fragment `{fragment}` was supplied more than once. " ++
      "Fragment names must be unique within a document."
  | .emptySelection entry =>
    s!"The selection set for entry field `{entry}` is empty. Select at least one fragment or " ++
      "supply a selection set transform that adds selections."

/-! ### Fragments to select -/

/-- The fragment that a document starts with.  The place of the document is for the error. -/
def Document.leadingFragment (document : Document) (index : Nat) : Except BuildError Fragment :=
  match document.definitions with
  | [] => .error (.emptyDocument index)
  | .operation _ :: _ => .error (.leadingOperation index)
  | .fragment fragment :: _ => .ok fragment

/-- The leading fragments of documents, of which the first has the given place, behind fragments of
the given names. -/
def leadingFragmentsFrom (index : Nat) (seen : List String) :
    List Document → Except BuildError (List Fragment)
  | [] => .ok []
  | document :: rest => do
    let fragment ← document.leadingFragment index
    if fragment.name ∈ seen then .error (.duplicateFragment fragment.name)
    else
      let fragments ← leadingFragmentsFrom (index + 1) (fragment.name :: seen) rest
      return fragment :: fragments

/-- The leading fragments of documents, which have to have distinct names. -/
def leadingFragments (documents : List Document) : Except BuildError (List Fragment) :=
  leadingFragmentsFrom 0 [] documents

/-- The selection set that spreads each fragment once, in order. -/
def spreadsOf (fragments : List Fragment) : SelectionSet :=
  { items := fragments.map fun fragment => .spread { name := fragment.name } }

/-! ### Repeated names -/

/-- The first of some names that is one of the given names or repeats one before it. -/
def firstRepeatedAfter? (seen : List String) : List String → Option String
  | [] => none
  | name :: rest => if name ∈ seen then some name else firstRepeatedAfter? (name :: seen) rest

/-- The first of some names that repeats one before it. -/
def firstRepeated? (names : List String) : Option String :=
  firstRepeatedAfter? [] names

theorem firstRepeatedAfter?_eq_none_iff (seen names : List String) :
    firstRepeatedAfter? seen names = none ↔ names.Nodup ∧ ∀ name ∈ names, name ∉ seen := by
  induction names generalizing seen with
  | nil => simp [firstRepeatedAfter?]
  | cons name rest ih =>
    by_cases h : name ∈ seen
    · simp [firstRepeatedAfter?, h]
    · simp only [firstRepeatedAfter?, if_neg h, ih, List.nodup_cons, List.mem_cons]
      grind

/-- No name is the first to repeat one before it if no name is repeated. -/
theorem firstRepeated?_eq_none_iff (names : List String) :
    firstRepeated? names = none ↔ names.Nodup := by
  simp [firstRepeated?, firstRepeatedAfter?_eq_none_iff]

/-! ### Outlines -/

/-- Everything of a query but its fragments. -/
structure Outline where
  name : String
  vars : Variables
  entryName : String
  /-- The names of the variables forwarded to the entry field. -/
  arguments : List String
  transform : Option Transform
deriving Inhabited

/-- The first argument of an outline that no variable is declared for. -/
def Outline.firstUndeclared? (outline : Outline) : Option String :=
  outline.arguments.find? fun argument => argument ∉ outline.vars.names

/-- The selection set of the entry field: the one given, as the transform leaves it. -/
def Outline.transformed (outline : Outline) (selections : SelectionSet) : SelectionSet :=
  match outline.transform with
  | some transform => transform.apply selections
  | none => selections

/-- The entry field, which forwards the arguments and asks for the given selections. -/
def Outline.entryField (outline : Outline) (selections : SelectionSet) : Field :=
  { name := outline.entryName
    arguments := forwardingArguments outline.arguments
    selectionSet := selections }

/-- The query operation, whose only selection is the entry field. -/
def Outline.operation (outline : Outline) (selections : SelectionSet) : Operation :=
  { kind := .query
    name := some outline.name
    variableDefinitions := outline.vars.definitions
    selectionSet := { items := [.field (outline.entryField selections)] } }

/-- The query operation with the fragments behind it. -/
def Outline.document (outline : Outline) (selections : SelectionSet) (fragments : List Fragment) :
    Document :=
  ⟨.operation (outline.operation selections) :: fragments.map .fragment⟩

/-- The document of an outline that selects the leading fragments of the given documents. -/
def Outline.assemble (outline : Outline) (documents : List Document) :
    Except BuildError Document := do
  let fragments ← leadingFragments documents
  let selections := outline.transformed (spreadsOf fragments)
  if selections.items.isEmpty then .error (.emptySelection outline.entryName)
  else return outline.document selections fragments

/-! ### Templates -/

/-- An outline whose arguments are declared and distinct. -/
structure Template where
  outline : Outline
  /-- Every argument is a declared variable. -/
  declared : ∀ argument ∈ outline.arguments, argument ∈ outline.vars.names
  /-- No argument is listed twice. -/
  distinct : outline.arguments.Nodup

/-- The template of an outline.  An undeclared argument counts before a repeated one, wherever the
two stand. -/
def Template.ofOutline (outline : Outline) : Except BuildError Template :=
  match hdeclared : outline.firstUndeclared? with
  | some argument => .error (.undeclaredArgument argument outline.name)
  | none =>
    match hdistinct : firstRepeated? outline.arguments with
    | some argument => .error (.duplicateArgument argument outline.name)
    | none => .ok
      { outline
        declared := by simpa [Outline.firstUndeclared?] using hdeclared
        distinct := (firstRepeated?_eq_none_iff outline.arguments).mp hdistinct }

/-- The document of a template that selects the leading fragments of the given documents. -/
def Template.select (template : Template) (documents : List Document) :
    Except BuildError Document :=
  template.outline.assemble documents

/-- An outline makes a template exactly if its arguments are declared and distinct. -/
theorem Template.ofOutline_eq_ok_iff {outline : Outline} {template : Template} :
    ofOutline outline = .ok template ↔
      template.outline = outline ∧
        (∀ argument ∈ outline.arguments, argument ∈ outline.vars.names) ∧
          outline.arguments.Nodup := by
  constructor
  · intro h
    unfold ofOutline at h
    split at h
    · simp at h
    · split at h
      · simp at h
      · have heq : outline = template.outline := congrArg Template.outline (Except.ok.inj h)
        rw [heq]
        exact ⟨rfl, template.declared, template.distinct⟩
  · rintro ⟨rfl, hdeclared, hdistinct⟩
    unfold ofOutline
    split
    · next argument h =>
      have := List.find?_some h
      have hmem := List.mem_of_find?_eq_some h
      simp [hdeclared argument hmem] at this
    · split
      · next argument h =>
        rw [(firstRepeated?_eq_none_iff _).mpr hdistinct] at h
        simp at h
      · rfl

/-! ### Configurations -/

/-- The entry field, the only field that the operation itself selects. -/
structure Entry where
  name : String
  /-- The names of the variables forwarded to the field, if they are listed. -/
  arguments : Option (List String) := none
  transform : Option Transform := none
deriving Inhabited

/-- Everything that a query is built from. -/
structure Configuration where
  name : String := ""
  vars : Variables := .empty
  entry : Entry := { name := "" }
  /-- The documents that start with the fragments to select. -/
  fragments : List Document := []
deriving Inhabited

namespace Configuration

/-- The outline of a configuration that forwards the given variables. -/
def outlineWith (configuration : Configuration) (arguments : List String) : Outline :=
  { name := configuration.name
    vars := configuration.vars
    entryName := configuration.entry.name
    arguments
    transform := configuration.entry.transform }

/-- The outline that a configuration is built from. -/
def buildOutline (configuration : Configuration) : Outline :=
  configuration.outlineWith (configuration.vars.forwarded configuration.entry.arguments)

/-- The outline that a configuration makes a template of. -/
def templateOutline (configuration : Configuration) : Outline :=
  configuration.outlineWith (configuration.entry.arguments.getD [])

/-- Builds the document of a configuration. -/
def build (configuration : Configuration) : Except BuildError Document := do
  let template ← Template.ofOutline configuration.buildOutline
  template.select configuration.fragments

end Configuration

end QueryAssembly
