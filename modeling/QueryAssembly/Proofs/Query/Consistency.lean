import QueryAssembly.Proofs.Query.Build
import QueryAssembly.Proofs.Transform.Conservation

/-!
# Consistent documents

The parts of a document depend on each other: an argument needs its variable, a spread needs its
fragment, and a fragment that nothing spreads is refused by those who execute documents, as are
names given twice.  `Document.ConsistentWith` says that all this is in order.

Main statement: `Document.Built.consistent`, that every document is consistent that is built with a
reshaping as its transform or with none, at once or from a template.
-/

namespace QueryAssembly

/-- The document consists of an operation with one entry field and of fragments, and these fit
together. -/
structure Document.ConsistentWith (document : Document) (operation : Operation) (entry : Field)
    (fragments : List Fragment) : Prop where
  definitions_eq : document.definitions = .operation operation :: fragments.map .fragment
  items_eq : operation.selectionSet.items = [.field entry]
  /-- No variable is declared twice. -/
  nodup_variables : (operation.variableDefinitions.map VariableDefinition.name).Nodup
  /-- No argument is given twice. -/
  nodup_arguments : (entry.arguments.map Prod.fst).Nodup
  /-- Each argument has the value of the variable of its own name, and that is declared. -/
  bound_arguments : ∀ argument ∈ entry.arguments, argument.2 = .ofVariable argument.1 ∧
    argument.1 ∈ operation.variableDefinitions.map VariableDefinition.name
  /-- No fragment is defined twice. -/
  nodup_fragments : (fragments.map Fragment.name).Nodup
  /-- The entry field spreads each fragment once, in the order of the definitions, and nothing
  else. -/
  spreadNames_eq : entry.selectionSet.spreadNames = fragments.map Fragment.name

/-- The parts of a document fit together. -/
def Document.Consistent (document : Document) : Prop :=
  ∃ operation entry fragments, document.ConsistentWith operation entry fragments

/-- There is no transform, or it is a reshaping. -/
def IsReshaping (transform : Option Transform) : Prop :=
  transform = none ∨ ∃ reshape : Reshape, transform = some reshape.transform

/-- The documents that are built with a reshaping as transform or with none: at once, or selected
from a template. -/
inductive Document.Built : Document → Prop where
  | build {configuration : Configuration} {document : Document}
      (isReshaping : IsReshaping configuration.entry.transform)
      (build_eq : configuration.build = .ok document) : Built document
  | select {outline : Outline} {template : Template} {documents : List Document}
      {document : Document} (isReshaping : IsReshaping outline.transform)
      (ofOutline_eq : Template.ofOutline outline = .ok template)
      (select_eq : template.select documents = .ok document) : Built document

/-! ### The parts of an assembled document -/

theorem spreadNames_spreadsOf (fragments : List Fragment) :
    (spreadsOf fragments).spreadNames = fragments.map Fragment.name := by
  rw [SelectionSet.spreadNames_eq, spreadsOf]
  induction fragments with
  | nil => simp [Selection.spreadNamesAll]
  | cons fragment fragments ih => simp_all [Selection.spreadNamesAll, Selection.spreadNames]

theorem map_fst_forwardingArguments (names : List String) :
    (forwardingArguments names).map Prod.fst = names := by
  simp [forwardingArguments, Function.comp_def]

namespace Outline

variable {outline : Outline}

theorem spreadNames_transformed (h : IsReshaping outline.transform) (selections : SelectionSet) :
    (outline.transformed selections).spreadNames = selections.spreadNames := by
  rw [transformed_eq]
  rcases h with hnone | ⟨reshape, hsome⟩
  · rw [hnone]
    rfl
  · rw [hsome]
    exact reshape.spreadNames_apply selections

/-- What is assembled of an outline with valid arguments is consistent. -/
theorem consistent_of_assemble (hreshaping : IsReshaping outline.transform)
    (hargument : outline.argumentError? = none) {documents : List Document} {document : Document}
    (h : outline.assemble documents = .ok document) : document.Consistent := by
  obtain ⟨hdeclared, hdistinct⟩ := argumentError?_eq_none_iff_nodup.mp hargument
  obtain ⟨fragments, hfragments, -, rfl⟩ := assemble_eq_ok_iff.mp h
  have hnodup : (fragments.map Fragment.name).Nodup :=
    (leadingFragments_eq_ok_iff.mp hfragments).2
  refine ⟨outline.operation (outline.transformed (spreadsOf fragments)),
    outline.entryField (outline.transformed (spreadsOf fragments)), fragments, ?_⟩
  exact
    { definitions_eq := rfl
      items_eq := rfl
      nodup_variables := by
        rw [operation, Variables.map_name_definitions]
        exact outline.vars.nodup_names
      nodup_arguments := by
        rw [entryField, map_fst_forwardingArguments]
        exact hdistinct
      bound_arguments := by
        intro argument hargument
        obtain ⟨name, hname, rfl⟩ := List.mem_map.mp hargument
        rw [operation, Variables.map_name_definitions]
        exact ⟨rfl, hdeclared name hname⟩
      nodup_fragments := hnodup
      spreadNames_eq := by
        rw [entryField, spreadNames_transformed hreshaping, spreadNames_spreadsOf] }

end Outline

/-! ### Documents built -/

/-- Every document built with a reshaping or without a transform is consistent. -/
theorem Document.Built.consistent {document : Document} (h : document.Built) :
    document.Consistent := by
  cases h with
  | @build configuration _ hreshaping hbuild =>
    rw [Configuration.build_eq] at hbuild
    cases hargument : configuration.buildOutline.argumentError? with
    | some error =>
      rw [hargument] at hbuild
      cases hbuild
    | none =>
      rw [hargument] at hbuild
      exact Outline.consistent_of_assemble hreshaping hargument hbuild
  | @select outline template documents _ hreshaping hmade hselected =>
    obtain ⟨rfl, hvalid⟩ := Template.ofOutline_eq_ok_iff.mp hmade
    have hargument := Outline.argumentError?_eq_none_iff_nodup.mpr hvalid
    exact Outline.consistent_of_assemble hreshaping hargument hselected

/-- Two fragments below a path of fields, next to a field that is prepended, with one of two
variables forwarded, which is declared twice. -/
def listing : Configuration where
  name := "Listing"
  vars := .ofList [("after", .named "ID"), ("first", .named "Int"), ("after", .list "ID")]
  entry :=
    { name := "products"
      arguments := some ["after"]
      transform := some (Reshape.andThen (.moveUnder ["edges", "node"])
        (.prependFields ["totalCount"])).transform }
  fragments :=
    [⟨[.fragment { name := "Name", condition := "Product" }]⟩,
      ⟨[.fragment { name := "Price", condition := "Product" }]⟩]

theorem consistent_listing :
    IsReshaping listing.entry.transform ∧
      ∃ document, listing.build = .ok document ∧ document.Consistent := by
  have hreshaping : IsReshaping listing.entry.transform := .inr ⟨_, rfl⟩
  obtain ⟨document, hbuild⟩ : ∃ document, listing.build = .ok document := ⟨_, rfl⟩
  exact ⟨hreshaping, document, hbuild, Document.Built.consistent (.build hreshaping hbuild)⟩

end QueryAssembly
