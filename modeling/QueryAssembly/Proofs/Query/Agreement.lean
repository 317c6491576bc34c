import QueryAssembly.Proofs.Query.Outcome

/-!
# Builds that agree

What a build reads is the name of the operation, the variables, the name of the entry field, the
arguments that reach it, the transform, and of each fragment document its first definition, of which
again only a fragment counts with its contents.  Nothing behind the first definition of a document
and nothing inside an operation has any influence.  The transform has an influence on the selection
set of the entry field and on nothing else, except that a build fails if it leaves nothing to
select.

This is about two builds side by side.  `Configuration.AgreesWith` says that two configurations
agree in what is read, the transform apart.  Then the walks over the two rows of fragment documents
go the same way, with the same names met at each step
(`leadingFragmentsFrom_eq_of_startsAlike`), and the outlines differ in their transforms alone.

Main statement: `Configuration.build_of_agreesWith`.
-/

namespace QueryAssembly

namespace Document

/-- Two documents start alike: both with nothing, both with an operation, whatever it is, or both
with the same fragment.  What they define behind that may differ. -/
inductive StartsAlike : Document → Document → Prop where
  | empty : StartsAlike ⟨[]⟩ ⟨[]⟩
  | operation (operation other : Operation) (rest otherRest : List Definition) :
      StartsAlike ⟨.operation operation :: rest⟩ ⟨.operation other :: otherRest⟩
  | fragment (fragment : Fragment) (rest otherRest : List Definition) :
      StartsAlike ⟨.fragment fragment :: rest⟩ ⟨.fragment fragment :: otherRest⟩

/-- The second document is the first with another selection set for its entry field, the only field
that its operation selects. -/
inductive SameButSelections : Document → Document → Prop where
  | intro (operation : Operation) (entry : Field) (selections : SelectionSet)
      (rest : List Definition) (items_eq : operation.selectionSet.items = [.field entry]) :
      SameButSelections ⟨.operation operation :: rest⟩
        ⟨.operation
          { operation with
            selectionSet :=
              { operation.selectionSet with
                items := [.field { entry with selectionSet := selections }] } } :: rest⟩

end Document

/-- Two configurations agree in all that a build reads, but perhaps not in their transforms. -/
structure Configuration.AgreesWith (configuration other : Configuration) : Prop where
  name_eq : configuration.name = other.name
  vars_eq : configuration.vars = other.vars
  entryName_eq : configuration.entry.name = other.entry.name
  /-- The same arguments reach the entry field, be they listed or not. -/
  arguments_eq : configuration.effectiveArguments = other.effectiveArguments
  /-- There are as many fragment documents, and they start alike. -/
  fragments : List.Forall₂ Document.StartsAlike configuration.fragments other.fragments

/-! ### Fragment documents -/

section Fragments

variable {document other : Document} {documents others : List Document}

theorem Document.StartsAlike.leadingFragment_eq (h : document.StartsAlike other) (index : Nat) :
    document.leadingFragment index = other.leadingFragment index := by
  cases h <;> rfl

/-- Walks over documents that start alike meet the same names and come to the same result. -/
theorem leadingFragmentsFrom_eq_of_startsAlike
    (h : List.Forall₂ Document.StartsAlike documents others) (index : Nat) (seen : List String) :
    leadingFragmentsFrom index seen documents = leadingFragmentsFrom index seen others := by
  -- Behind the heads both walks have met the same name more, so what has been met is general.
  induction h generalizing index seen with
  | nil => rfl
  | cons hhead _ ih =>
    rw [leadingFragmentsFrom, leadingFragmentsFrom, hhead.leadingFragment_eq index]
    simp only [ih]

theorem leadingFragments_eq_of_startsAlike
    (h : List.Forall₂ Document.StartsAlike documents others) :
    leadingFragments documents = leadingFragments others :=
  leadingFragmentsFrom_eq_of_startsAlike h 0 []

end Fragments

/-! ### Outlines -/

namespace Outline

variable {outline : Outline}

/-- The outline with another transform. -/
def withTransform (outline : Outline) (transform : Option Transform) : Outline :=
  { outline with transform }

/-- The check of the arguments does not look at the transform. -/
theorem argumentError?_withTransform (transform : Option Transform) :
    (outline.withTransform transform).argumentError? = outline.argumentError? := rfl

/-- Which document is made of given selections and fragments is not up to the transform. -/
theorem document_withTransform (transform : Option Transform) :
    (outline.withTransform transform).document = outline.document := rfl

/-- Documents made of the same fragments differ in the selections of the entry field alone. -/
theorem sameButSelections_document (selections others : SelectionSet) (fragments : List Fragment) :
    (outline.document selections fragments).SameButSelections (outline.document others fragments) :=
  .intro (outline.operation selections) (outline.entryField selections) others
    (fragments.map .fragment) rfl

/-- Assembling fails for an empty selection set or because the fragments are refused. -/
theorem assemble_eq_error_iff_of_ne {documents : List Document} {error : BuildError}
    (hne : ∀ entry, error ≠ .emptySelection entry) :
    outline.assemble documents = .error error ↔ leadingFragments documents = .error error := by
  cases h : leadingFragments documents with
  | error reported => rw [assemble_of_error h, Except.error.injEq, Except.error.injEq]
  | ok fragments =>
    rw [assemble_of_ok h]
    refine iff_of_false ?_ (by simp)
    intro herror
    by_cases hempty : (outline.transformed (spreadsOf fragments)).items = []
    · rw [if_pos hempty] at herror
      exact hne outline.entryName (Except.error.inj herror).symm
    · rw [if_neg hempty] at herror
      cases herror

/-- What is assembled is up to the transform only through what it makes of selection sets. -/
theorem assemble_withTransform {transform : Option Transform}
    (h : transform.getD .identity = outline.transform.getD .identity) (documents : List Document) :
    (outline.withTransform transform).assemble documents = outline.assemble documents := by
  have htransformed : (outline.withTransform transform).transformed = outline.transformed := by
    funext selections
    rw [transformed_eq, transformed_eq, ← h]
    rfl
  rw [assemble, assemble, htransformed, document_withTransform]
  rfl

end Outline

/-! ### Builds -/

namespace Configuration

variable {configuration other : Configuration}

/-- A build fails in the check of the arguments, else because the fragments are refused, else for an
empty selection set. -/
theorem build_eq_error_iff_of_ne {error : BuildError}
    (hne : ∀ entry, error ≠ .emptySelection entry) :
    configuration.build = .error error ↔
      configuration.buildOutline.argumentError? = some error ∨
        configuration.buildOutline.argumentError? = none ∧
          leadingFragments configuration.fragments = .error error := by
  have hassemble : configuration.buildOutline.assemble configuration.fragments = .error error ↔
      leadingFragments configuration.fragments = .error error :=
    Outline.assemble_eq_error_iff_of_ne hne
  rw [build_eq, ← hassemble]
  cases configuration.buildOutline.argumentError? <;> simp

namespace AgreesWith

/-- The outlines of configurations that agree differ in their transforms alone. -/
theorem buildOutline_eq (h : configuration.AgreesWith other) :
    other.buildOutline = configuration.buildOutline.withTransform other.entry.transform := by
  have harguments : other.vars.forwarded other.entry.arguments =
      configuration.vars.forwarded configuration.entry.arguments := h.arguments_eq.symm
  rw [buildOutline, buildOutline, outlineWith, outlineWith, harguments, h.name_eq, h.vars_eq,
    h.entryName_eq]
  rfl

theorem argumentError?_eq (h : configuration.AgreesWith other) :
    other.buildOutline.argumentError? = configuration.buildOutline.argumentError? := by
  rw [h.buildOutline_eq, Outline.argumentError?_withTransform]

theorem leadingFragments_eq (h : configuration.AgreesWith other) :
    leadingFragments other.fragments = leadingFragments configuration.fragments :=
  (leadingFragments_eq_of_startsAlike h.fragments).symm

/-- Errors do not depend on the transform, unless it leaves nothing to select. -/
theorem build_eq_error_iff (h : configuration.AgreesWith other) {error : BuildError}
    (hne : ∀ entry, error ≠ .emptySelection entry) :
    configuration.build = .error error ↔ other.build = .error error := by
  rw [build_eq_error_iff_of_ne hne, build_eq_error_iff_of_ne hne, h.argumentError?_eq,
    h.leadingFragments_eq]

/-- Two builds that succeed make the same document but for the selections of the entry field. -/
theorem sameButSelections {document otherDocument : Document} (h : configuration.AgreesWith other)
    (hbuild : configuration.build = .ok document) (hother : other.build = .ok otherDocument) :
    document.SameButSelections otherDocument := by
  obtain ⟨-, hassemble⟩ := build_eq_ok_iff.mp hbuild
  obtain ⟨-, hotherAssemble⟩ := build_eq_ok_iff.mp hother
  obtain ⟨fragments, hfragments, -, rfl⟩ := Outline.assemble_eq_ok_iff.mp hassemble
  obtain ⟨otherFragments, hotherFragments, -, rfl⟩ := Outline.assemble_eq_ok_iff.mp hotherAssemble
  obtain rfl : fragments = otherFragments := by
    rw [h.leadingFragments_eq, hfragments] at hotherFragments
    exact Except.ok.inj hotherFragments
  have hdocument : other.buildOutline.document = configuration.buildOutline.document := by
    rw [h.buildOutline_eq, Outline.document_withTransform]
  rw [hdocument]
  exact Outline.sameButSelections_document _ _ fragments

/-- With one transform the two builds come to the same result. -/
theorem build_eq_build (h : configuration.AgreesWith other)
    (htransform : configuration.effectiveTransform = other.effectiveTransform) :
    configuration.build = other.build := by
  have hsame : other.entry.transform.getD .identity =
      configuration.buildOutline.transform.getD .identity := htransform.symm
  have hassemble : other.buildOutline.assemble other.fragments =
      configuration.buildOutline.assemble configuration.fragments :=
    calc other.buildOutline.assemble other.fragments
        = configuration.buildOutline.assemble other.fragments := by
          rw [h.buildOutline_eq, Outline.assemble_withTransform hsame]
      _ = configuration.buildOutline.assemble configuration.fragments := by
          rw [Outline.assemble, Outline.assemble, h.leadingFragments_eq]
  rw [build_eq, build_eq, h.argumentError?_eq, hassemble]

end AgreesWith

/-- Two builds of configurations that agree but for their transforms fail alike, unless a transform
leaves nothing to select.  If both succeed, the documents differ in the selection set of the entry
field alone.  And with one transform the results are the same, so nothing behind the first
definitions of the fragment documents has any influence, and nothing inside an operation. -/
theorem build_of_agreesWith (h : configuration.AgreesWith other) :
    (∀ error, (∀ entry, error ≠ .emptySelection entry) →
      (configuration.build = .error error ↔ other.build = .error error)) ∧
    (∀ document otherDocument, configuration.build = .ok document →
      other.build = .ok otherDocument → document.SameButSelections otherDocument) ∧
    (configuration.effectiveTransform = other.effectiveTransform →
      configuration.build = other.build) := by
  refine ⟨?_, ?_, h.build_eq_build⟩
  · intro error hne
    exact h.build_eq_error_iff hne
  · intro document otherDocument hbuild hother
    exact h.sameButSelections hbuild hother

/-- A configuration that forwards both of its variables, by a list of them or by default. -/
def catalog (arguments : Option (List String)) (transform : Option Transform)
    (documents : List Document) : Configuration where
  name := "Catalog"
  vars := .ofList [("after", .named "ID"), ("first", .named "Int")]
  entry := { name := "products", arguments, transform }
  fragments := documents

theorem catalog_agreesWith (transform other : Option Transform) {documents others : List Document}
    (h : List.Forall₂ Document.StartsAlike documents others) :
    (catalog none transform documents).AgreesWith
      (catalog (some ["after", "first"]) other others) :=
  ⟨rfl, rfl, rfl, rfl, h⟩

/-- A document with a fragment and nothing else. -/
def price : Document :=
  ⟨[.fragment { name := "Price", condition := "Product" }]⟩

/-- The same fragment with another of its name and a mutation behind it. -/
def priceAndMore : Document :=
  ⟨[.fragment { name := "Price", condition := "Product" },
    .fragment { name := "Price", condition := "Offer" }, .operation { kind := .mutation }]⟩

theorem build_of_agreesWith_catalog :
    (∃ document other, (catalog none none [price]).build = .ok document ∧
      (catalog (some ["after", "first"]) (some (.prependFields ["id"])) [priceAndMore]).build =
        .ok other ∧ document.SameButSelections other) ∧
    ((catalog none none [price, ⟨[]⟩]).build = .error (.emptyDocument 1) ∧
      (catalog (some ["after", "first"]) (some ⟨fun _ => {}⟩) [priceAndMore, ⟨[]⟩]).build =
        .error (.emptyDocument 1)) ∧
    (catalog none none [price]).build =
      (catalog (some ["after", "first"]) none [priceAndMore]).build := by
  have hprice : price.StartsAlike priceAndMore := .fragment _ _ _
  refine ⟨?_, ?_, ?_⟩
  · have hagrees := catalog_agreesWith none (some (.prependFields ["id"])) (.cons hprice .nil)
    obtain ⟨document, hbuild⟩ : ∃ document, (catalog none none [price]).build = .ok document :=
      ⟨_, rfl⟩
    obtain ⟨other, hother⟩ : ∃ other, (catalog (some ["after", "first"])
        (some (.prependFields ["id"])) [priceAndMore]).build = .ok other := ⟨_, rfl⟩
    exact ⟨document, other, hbuild, hother,
      (build_of_agreesWith hagrees).2.1 document other hbuild hother⟩
  · have hagrees := catalog_agreesWith none (some ⟨fun _ => {}⟩)
      (.cons hprice (.cons .empty .nil))
    have hfails : (catalog none none [price, ⟨[]⟩]).build = .error (.emptyDocument 1) := rfl
    exact ⟨hfails, ((build_of_agreesWith hagrees).1 _ (by simp)).mp hfails⟩
  · have hagrees := catalog_agreesWith none none (.cons hprice .nil)
    exact (build_of_agreesWith hagrees).2.2 rfl

end Configuration

end QueryAssembly
