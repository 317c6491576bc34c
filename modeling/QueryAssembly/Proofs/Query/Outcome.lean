import QueryAssembly.Proofs.Query.Contents

/-!
# The outcome of a build

Which document or which error a build ends in, said by the first fault.  `Configuration.Outcome`
goes through the faults in the order in which they count: arguments without a variable, repeated
arguments, fragment documents that cannot be used, and a selection set that is left empty.  Among
faults of one of the first three sorts the one at the least place decides, whatever is wrong at
later places or with what counts later.  Where nothing is wrong, the outcome is the document with
the contents that the configuration asks for.

Main statement: `Configuration.build_eq_iff_outcome`, that a build ends in its outcome and in
nothing else.
-/

namespace QueryAssembly

namespace Configuration

/-- The arguments of the entry field: those listed, or all variables if there is no list. -/
def effectiveArguments (configuration : Configuration) : List String :=
  configuration.vars.forwarded configuration.entry.arguments

/-- The transform of the entry field, which changes nothing if there is none. -/
def effectiveTransform (configuration : Configuration) : Transform :=
  configuration.entry.transform.getD .identity

/-- The argument at a place is not a declared variable. -/
def ArgumentUndeclaredAt (configuration : Configuration) : Nat → String → Prop :=
  UndeclaredAt configuration.vars.names configuration.effectiveArguments

/-- The argument at a place stands at an earlier place too. -/
def ArgumentRepeatedAt (configuration : Configuration) : Nat → String → Prop :=
  RepeatedAt configuration.effectiveArguments

/-- What a configuration is built into.  Each case but the first holds only where the cases before
it do not. -/
inductive Outcome (configuration : Configuration) : Except BuildError Document → Prop where
  | undeclaredArgument {argument : String}
      (first : First configuration.ArgumentUndeclaredAt argument) :
      Outcome configuration (.error (.undeclaredArgument argument configuration.name))
  | duplicateArgument {argument : String}
      (declared : ∀ i other, ¬configuration.ArgumentUndeclaredAt i other)
      (first : First configuration.ArgumentRepeatedAt argument) :
      Outcome configuration (.error (.duplicateArgument argument configuration.name))
  | faultyDocument {error : BuildError}
      (declared : ∀ i other, ¬configuration.ArgumentUndeclaredAt i other)
      (distinct : ∀ i other, ¬configuration.ArgumentRepeatedAt i other)
      (first : First (FaultyAt configuration.fragments) error) :
      Outcome configuration (.error error)
  | emptySelection {fragments : List Fragment} {given : SelectionSet}
      {spreads : List FragmentSpread}
      (declared : ∀ i other, ¬configuration.ArgumentUndeclaredAt i other)
      (distinct : ∀ i other, ¬configuration.ArgumentRepeatedAt i other)
      (faultless : ∀ i error, ¬FaultyAt configuration.fragments i error)
      (leading : List.Forall₂ Document.LeadsWith configuration.fragments fragments)
      (spreadsFragments : given.Spreads fragments spreads)
      (empty : (configuration.effectiveTransform.apply given).items = []) :
      Outcome configuration (.error (.emptySelection configuration.entry.name))
  | document {document : Document} {operation : Operation} {entry : Field}
      {fragments : List Fragment}
      (declared : ∀ i other, ¬configuration.ArgumentUndeclaredAt i other)
      (distinct : ∀ i other, ¬configuration.ArgumentRepeatedAt i other)
      (faultless : ∀ i error, ¬FaultyAt configuration.fragments i error)
      (contents : document.ContentsOf configuration operation entry fragments)
      (nonempty : entry.selectionSet.items ≠ []) : Outcome configuration (.ok document)

/-! ### Selections -/

/-- The selection set of the entry field when the given fragments are selected. -/
def selectionsOf (configuration : Configuration) (fragments : List Fragment) : SelectionSet :=
  configuration.effectiveTransform.apply (spreadsOf fragments)

variable {configuration : Configuration}

theorem transformed_buildOutline (fragments : List Fragment) :
    configuration.buildOutline.transformed (spreadsOf fragments) =
      configuration.selectionsOf fragments :=
  configuration.buildOutline.transformed_eq (spreadsOf fragments)

/-! ### The outcome of a build -/

/-- Where the check of the arguments fails, its error is the outcome. -/
theorem outcome_of_argumentError? {error : BuildError}
    (h : configuration.buildOutline.argumentError? = some error) :
    configuration.Outcome (.error error) := by
  unfold Outline.argumentError? at h
  cases hundeclared : configuration.buildOutline.firstUndeclared? with
  | some argument =>
    rw [hundeclared] at h
    obtain rfl := Option.some.inj h
    exact .undeclaredArgument (Outline.firstUndeclared?_eq_some_iff.mp hundeclared)
  | none =>
    rw [hundeclared] at h
    obtain ⟨argument, hrepeated, rfl⟩ := Option.map_eq_some_iff.mp h
    exact .duplicateArgument (Outline.firstUndeclared?_eq_none_iff.mp hundeclared)
      (firstRepeated?_eq_some_iff.mp hrepeated)

section ValidArguments

variable (declared : ∀ i other, ¬configuration.ArgumentUndeclaredAt i other)
  (distinct : ∀ i other, ¬configuration.ArgumentRepeatedAt i other)

include declared distinct

theorem argumentError?_buildOutline : configuration.buildOutline.argumentError? = none :=
  Outline.argumentError?_eq_none_iff.mpr ⟨declared, distinct⟩

/-- With valid arguments the fragment documents decide. -/
theorem build_of_leadingFragments_eq_error {error : BuildError}
    (h : leadingFragments configuration.fragments = .error error) :
    configuration.build = .error error := by
  rw [build_eq, argumentError?_buildOutline declared distinct]
  exact Outline.assemble_of_error h

/-- With valid arguments and documents the selections left by the transform decide. -/
theorem build_of_leadingFragments_eq_ok {fragments : List Fragment}
    (h : leadingFragments configuration.fragments = .ok fragments) :
    configuration.build =
      if (configuration.selectionsOf fragments).items = [] then
        .error (.emptySelection configuration.entry.name)
      else .ok (configuration.buildOutline.document (configuration.selectionsOf fragments)
        fragments) := by
  rw [build_eq, argumentError?_buildOutline declared distinct, ← transformed_buildOutline]
  exact Outline.assemble_of_ok h

end ValidArguments

/-- A build ends in an outcome of its configuration. -/
theorem outcome_build (configuration : Configuration) :
    configuration.Outcome configuration.build := by
  cases hargument : configuration.buildOutline.argumentError? with
  | some error =>
    rw [build_eq, hargument]
    exact outcome_of_argumentError? hargument
  | none =>
    obtain ⟨hdeclared, hdistinct⟩ := Outline.argumentError?_eq_none_iff.mp hargument
    cases hleading : leadingFragments configuration.fragments with
    | error error =>
      rw [build_of_leadingFragments_eq_error hdeclared hdistinct hleading]
      exact .faultyDocument hdeclared hdistinct (leadingFragments_eq_error_iff.mp hleading)
    | ok fragments =>
      obtain ⟨hfaultless, hleads⟩ :=
        leadingFragments_eq_ok_iff_forall_not_faultyAt.mp hleading
      rw [build_of_leadingFragments_eq_ok hdeclared hdistinct hleading]
      by_cases hempty : (configuration.selectionsOf fragments).items = []
      · rw [if_pos hempty]
        exact .emptySelection hdeclared hdistinct hfaultless hleads (spreads_spreadsOf fragments)
          hempty
      · rw [if_neg hempty]
        have hcontents := contentsOf_document hleads (transformed_buildOutline fragments).symm
        exact .document hdeclared hdistinct hfaultless hcontents hempty

/-- A build ends in every outcome of its configuration, so there is one only. -/
theorem Outcome.build_eq {result : Except BuildError Document} (h : configuration.Outcome result) :
    configuration.build = result := by
  cases h with
  | @undeclaredArgument argument first =>
    have hargument : configuration.buildOutline.argumentError? =
        some (.undeclaredArgument argument configuration.name) :=
      Outline.argumentError?_of_undeclared first
    rw [Configuration.build_eq, hargument]
  | @duplicateArgument argument declared first =>
    have hargument : configuration.buildOutline.argumentError? =
        some (.duplicateArgument argument configuration.name) :=
      Outline.argumentError?_of_repeated declared first
    rw [Configuration.build_eq, hargument]
  | faultyDocument declared distinct first =>
    have hleading := leadingFragments_eq_error_iff.mpr first
    exact build_of_leadingFragments_eq_error declared distinct hleading
  | emptySelection declared distinct faultless leading spreadsFragments empty =>
    have hleading := leadingFragments_eq_ok_iff_forall_not_faultyAt.mpr ⟨faultless, leading⟩
    rw [spreadsFragments.eq_spreadsOf] at empty
    rw [build_of_leadingFragments_eq_ok declared distinct hleading, selectionsOf, if_pos empty]
  | @document document operation entry fragments declared distinct faultless contents nonempty =>
    have hleads := Document.forall₂_leadsWith_iff.mpr contents.leading
    have hleading := leadingFragments_eq_ok_iff_forall_not_faultyAt.mpr ⟨faultless, hleads⟩
    have hselections : (configuration.selectionsOf fragments).items ≠ [] := by
      rwa [contents.isEntry.eq_entryField, transformed_buildOutline] at nonempty
    rw [build_of_leadingFragments_eq_ok declared distinct hleading, if_neg hselections,
      contents.document_eq, transformed_buildOutline]

/-- A build ends in its outcome: in the error for the first undeclared argument, wherever repeated
ones stand; else in that for the first repeated argument; else in that for the first faulty
document; else in that for an empty selection set; and in the document if nothing is wrong. -/
theorem build_eq_iff_outcome (configuration : Configuration)
    (result : Except BuildError Document) :
    configuration.build = result ↔ configuration.Outcome result := by
  constructor
  · rintro rfl
    exact outcome_build configuration
  · exact Outcome.build_eq

/-- An undeclared argument counts before a repeated one in front of it and an empty document. -/
example : Configuration.build
    { name := "Listing"
      vars := .ofList [("first", .named "Int")]
      entry := { name := "products", arguments := some ["first", "first", "after"] }
      fragments := [⟨[]⟩] } = .error (.undeclaredArgument "after" "Listing") := rfl

end Configuration

end QueryAssembly
