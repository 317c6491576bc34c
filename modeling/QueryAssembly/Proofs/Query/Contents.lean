import QueryAssembly.Proofs.Query.Build

/-!
# The contents of a document

What a document says that is built from a configuration, part by part: its definitions, the
operation with the variables it declares, the entry field, and what is selected in it.
`Document.HasContents` goes through the parts and names every place in which a document could say
something, so that there is only one document with the contents of a configuration
(`Document.HasContents.unique`).

The fragments are those that the fragment documents start with, just as they are given.  All else is
made by the build and has the default position.

Main statement: `Configuration.hasContents_iff_eq_of_build`.
-/

namespace QueryAssembly

/-! ### Contents -/

/-- The operation declares the variables of a configuration, each with its type and without a
default value. -/
structure Operation.Declares (operation : Operation) (vars : Variables) : Prop where
  /-- One definition for each variable, in declared order. -/
  map_eq :
    operation.variableDefinitions.map (fun definition => (definition.name, definition.type)) =
      vars.entries.map fun entry => (entry.1, entry.2.toReference)
  position_eq : ∀ definition ∈ operation.variableDefinitions, definition.position = {}
  defaultValue_eq : ∀ definition ∈ operation.variableDefinitions, definition.defaultValue = none

/-- The selection set spreads each of the given fragments once, in order, and nothing else. -/
structure SelectionSet.Spreads (selections : SelectionSet) (fragments : List Fragment)
    (spreads : List FragmentSpread) : Prop where
  span_eq : selections.span = {}
  items_eq : selections.items = spreads.map .spread
  name_eq : spreads.map FragmentSpread.name = fragments.map Fragment.name
  position_eq : ∀ spread ∈ spreads, spread.position = {}
  directives_eq : ∀ spread ∈ spreads, spread.directives = []

/-- The field is the entry field of a configuration, with the given fragments selected. -/
structure Field.EntryOf (entry : Field) (configuration : Configuration)
    (fragments : List Fragment) : Prop where
  position_eq : entry.position = {}
  alias_eq : entry.responseAlias = none
  name_eq : entry.name = configuration.entry.name
  /-- The arguments are those listed, or all variables if there is no list, each with the value of
  the variable of its own name. -/
  arguments_eq : entry.arguments =
    (configuration.entry.arguments.getD configuration.vars.names).map fun name =>
      (name, .ofVariable name)
  directives_eq : entry.directives = []
  /-- What is selected is what the transform makes of the spreads of the fragments. -/
  selections : ∃ given spreads, SelectionSet.Spreads given fragments spreads ∧
    entry.selectionSet = (configuration.entry.transform.getD .identity).apply given

/-- The document consists of an operation with one entry field and of fragments, and these say what
the configuration asks for. -/
structure Document.ContentsOf (document : Document) (configuration : Configuration)
    (operation : Operation) (entry : Field) (fragments : List Fragment) : Prop where
  /-- One operation, and fragments behind it. -/
  definitions_eq : document.definitions = .operation operation :: fragments.map .fragment
  /-- The fragments are the first definitions of the fragment documents, one for each document. -/
  leading : fragments.map (some ∘ Definition.fragment) =
    configuration.fragments.map fun supplied => supplied.definitions.head?
  kind_eq : operation.kind = .query
  position_eq : operation.position = {}
  name_eq : operation.name = some configuration.name
  directives_eq : operation.directives = []
  declares : operation.Declares configuration.vars
  span_eq : operation.selectionSet.span = {}
  items_eq : operation.selectionSet.items = [.field entry]
  isEntry : entry.EntryOf configuration fragments

/-- The document has the contents that the configuration asks for. -/
def Document.HasContents (document : Document) (configuration : Configuration) : Prop :=
  ∃ operation entry fragments, document.ContentsOf configuration operation entry fragments

/-! ### The contents leave no choice -/

/-- Elements that can be made anew from what a function tells of them are made anew from the list of
what it tells. -/
theorem eq_map_of_map_eq {α β : Type} {tell : α → β} {make : β → α} {xs : List α} {ys : List β}
    (hmap : xs.map tell = ys) (hmake : ∀ x ∈ xs, make (tell x) = x) : xs = ys.map make :=
  calc xs = xs.map id := (List.map_id xs).symm
    _ = xs.map (make ∘ tell) := List.map_congr_left fun x hx => (hmake x hx).symm
    _ = ys.map make := by rw [← hmap, List.map_map]

/-- What an operation declares is said by the variables. -/
theorem Operation.Declares.variableDefinitions_eq {operation : Operation} {vars : Variables}
    (h : operation.Declares vars) : operation.variableDefinitions = vars.definitions := by
  let make (part : String × TypeReference) : VariableDefinition :=
    { name := part.1, type := part.2 }
  have hmake : ∀ definition ∈ operation.variableDefinitions,
      make (definition.name, definition.type) = definition := by
    intro definition hmem
    simp only [make]
    rw [← h.position_eq definition hmem, ← h.defaultValue_eq definition hmem]
  rw [eq_map_of_map_eq h.map_eq hmake, List.map_map]
  rfl

/-- What a selection set spreads is said by the fragments. -/
theorem SelectionSet.Spreads.eq_spreadsOf {selections : SelectionSet} {fragments : List Fragment}
    {spreads : List FragmentSpread} (h : selections.Spreads fragments spreads) :
    selections = spreadsOf fragments := by
  let make (name : String) : FragmentSpread := { name }
  have hmake : ∀ spread ∈ spreads, make spread.name = spread := by
    intro spread hmem
    simp only [make]
    rw [← h.position_eq spread hmem, ← h.directives_eq spread hmem]
  have hitems := h.items_eq
  rw [eq_map_of_map_eq h.name_eq hmake, List.map_map, List.map_map] at hitems
  obtain ⟨span, items⟩ := selections
  rw [spreadsOf, SelectionSet.mk.injEq]
  exact ⟨h.span_eq, hitems⟩

/-- The entry field is that of the outline. -/
theorem Field.EntryOf.eq_entryField {entry : Field} {configuration : Configuration}
    {fragments : List Fragment} (h : entry.EntryOf configuration fragments) :
    entry = configuration.buildOutline.entryField
      (configuration.buildOutline.transformed (spreadsOf fragments)) := by
  obtain ⟨given, spreads, hspreads, hselections⟩ := h.selections
  rw [hspreads.eq_spreadsOf] at hselections
  have htransformed := configuration.buildOutline.transformed_eq (spreadsOf fragments)
  obtain ⟨position, responseAlias, name, arguments, directives, selectionSet⟩ := entry
  rw [Outline.entryField, Field.mk.injEq]
  exact ⟨h.position_eq, h.alias_eq, h.name_eq, h.arguments_eq, h.directives_eq,
    hselections.trans htransformed.symm⟩

namespace Document

variable {document other : Document} {configuration : Configuration} {operation : Operation}
  {entry : Field} {fragments : List Fragment}

/-- The operation with the contents is that of the outline. -/
theorem ContentsOf.operation_eq (h : document.ContentsOf configuration operation entry fragments) :
    operation = configuration.buildOutline.operation
      (configuration.buildOutline.transformed (spreadsOf fragments)) := by
  have hitems := h.items_eq
  rw [h.isEntry.eq_entryField] at hitems
  have hspan := h.span_eq
  obtain ⟨kind, position, name, variableDefinitions, directives, ⟨span, items⟩⟩ := operation
  rw [Outline.operation, Operation.mk.injEq, SelectionSet.mk.injEq]
  exact ⟨h.kind_eq, h.position_eq, h.name_eq, h.declares.variableDefinitions_eq, h.directives_eq,
    hspan, hitems⟩

/-- A document with the contents is the one that is assembled of the outline. -/
theorem ContentsOf.document_eq (h : document.ContentsOf configuration operation entry fragments) :
    document = configuration.buildOutline.document
      (configuration.buildOutline.transformed (spreadsOf fragments)) fragments := by
  have hdefinitions := h.definitions_eq
  rw [h.operation_eq] at hdefinitions
  obtain ⟨definitions⟩ := document
  rw [Outline.document, Document.mk.injEq]
  exact hdefinitions

/-- No two documents have the contents that one configuration asks for. -/
theorem HasContents.unique (h : document.HasContents configuration)
    (hother : other.HasContents configuration) : document = other := by
  obtain ⟨operation, entry, fragments, hcontents⟩ := h
  obtain ⟨otherOperation, otherEntry, otherFragments, hotherContents⟩ := hother
  have hinjective : Function.Injective (some ∘ Definition.fragment) :=
    fun _ _ heq => Definition.fragment.inj (Option.some.inj heq)
  have hfragments : fragments = otherFragments :=
    List.map_injective_iff.mpr hinjective (hcontents.leading.trans hotherContents.leading.symm)
  rw [hcontents.document_eq, hotherContents.document_eq, hfragments]

end Document

/-! ### Documents built -/

/-- The selection set of a build spreads the fragments. -/
theorem spreads_spreadsOf (fragments : List Fragment) :
    (spreadsOf fragments).Spreads fragments
      (fragments.map fun fragment => { name := fragment.name }) where
  span_eq := rfl
  items_eq := by
    rw [List.map_map]
    rfl
  name_eq := by
    rw [List.map_map]
    rfl
  position_eq := by
    intro spread hmem
    obtain ⟨fragment, -, rfl⟩ := List.mem_map.mp hmem
    rfl
  directives_eq := by
    intro spread hmem
    obtain ⟨fragment, -, rfl⟩ := List.mem_map.mp hmem
    rfl

/-- The operation of a build declares the variables. -/
theorem Outline.declares_operation (outline : Outline) (selections : SelectionSet) :
    (outline.operation selections).Declares outline.vars where
  map_eq := by
    rw [operation, Variables.definitions, List.map_map]
    rfl
  position_eq := by
    intro definition hmem
    obtain ⟨entry, -, rfl⟩ := List.mem_map.mp hmem
    rfl
  defaultValue_eq := by
    intro definition hmem
    obtain ⟨entry, -, rfl⟩ := List.mem_map.mp hmem
    rfl

/-- Documents start with the given fragments if these are their first definitions. -/
theorem Document.forall₂_leadsWith_iff {documents : List Document} {fragments : List Fragment} :
    List.Forall₂ LeadsWith documents fragments ↔
      fragments.map (some ∘ Definition.fragment) =
        documents.map fun supplied => supplied.definitions.head? := by
  rw [eq_comm, ← List.forall₂_eq_eq_eq, List.forall₂_map_left_iff, List.forall₂_map_right_iff]
  rfl

namespace Configuration

variable {configuration : Configuration} {document : Document}

/-- The document of the outline has the contents, with the fragments that the fragment documents
start with. -/
theorem contentsOf_document {fragments : List Fragment} {selections : SelectionSet}
    (hleads : List.Forall₂ Document.LeadsWith configuration.fragments fragments)
    (hselections : selections = configuration.buildOutline.transformed (spreadsOf fragments)) :
    (configuration.buildOutline.document selections fragments).ContentsOf configuration
      (configuration.buildOutline.operation selections)
      (configuration.buildOutline.entryField selections) fragments where
  definitions_eq := rfl
  leading := Document.forall₂_leadsWith_iff.mp hleads
  kind_eq := rfl
  position_eq := rfl
  name_eq := rfl
  directives_eq := rfl
  declares := configuration.buildOutline.declares_operation _
  span_eq := rfl
  items_eq := rfl
  isEntry :=
    { position_eq := rfl
      alias_eq := rfl
      name_eq := rfl
      arguments_eq := rfl
      directives_eq := rfl
      selections := ⟨_, _, spreads_spreadsOf fragments,
        hselections.trans (configuration.buildOutline.transformed_eq _)⟩ }

/-- What a build makes has the contents. -/
theorem hasContents_of_build (h : configuration.build = .ok document) :
    document.HasContents configuration := by
  obtain ⟨-, hassemble⟩ := build_eq_ok_iff.mp h
  obtain ⟨fragments, hfragments, -, rfl⟩ := Outline.assemble_eq_ok_iff.mp hassemble
  obtain ⟨hleads, -⟩ := leadingFragments_eq_ok_iff.mp hfragments
  exact ⟨_, _, fragments, contentsOf_document hleads rfl⟩

/-- A build makes the document with the contents that the configuration asks for, and there is only
one. -/
theorem hasContents_iff_eq_of_build (h : configuration.build = .ok document) (other : Document) :
    other.HasContents configuration ↔ other = document := by
  have hdocument : document.HasContents configuration := hasContents_of_build h
  constructor
  · intro hother
    exact hother.unique hdocument
  · rintro rfl
    exact hdocument

/-- Two fragments with positions of their own, each with something else behind it, under a transform
that turns selections around, with all variables forwarded. -/
def reviews : Configuration where
  name := "Reviews"
  vars := .ofList [("product", (VariableType.named "ID").withoutNull), ("tags", .list "String")]
  entry :=
    { name := "reviews"
      transform := some ⟨fun selections => { selections with items := selections.items.reverse }⟩ }
  fragments :=
    [⟨[.fragment { position := ⟨3, 1⟩, name := "Stars", condition := "Review" },
        .operation { kind := .mutation }]⟩,
      ⟨[.fragment { position := ⟨8, 1⟩, name := "Author", condition := "Review",
                    directives := [{ name := "cached" }] },
        .fragment { name := "Stars", condition := "Rating" }]⟩]

theorem hasContents_iff_of_build_reviews :
    ∃ document, reviews.build = .ok document ∧
      ∀ other : Document, other.HasContents reviews ↔ other = document := by
  obtain ⟨document, hbuild⟩ : ∃ document, reviews.build = .ok document := ⟨_, rfl⟩
  exact ⟨document, hbuild, hasContents_iff_eq_of_build hbuild⟩

end Configuration

end QueryAssembly
