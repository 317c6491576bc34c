import QueryAssembly.Proofs.Query.Outcome
import QueryAssembly.Proofs.Transform.Conservation

/-!
# Builds that select nothing

The entry field of a query has to ask for something.  A build finds out last, when the arguments
and the fragments have passed and the transform has been applied, so the error for an empty
selection set says that all else is in order.

With a reshaping as transform it says more.  A reshaping leaves a selection set empty only if it is
given an empty one and prepends no fields, and the selection set given to it is empty only if no
fragment is supplied.

Main statement: `Reshape.conserves_and_build_emptySelection_iff`.
-/

namespace QueryAssembly

variable {documents : List Document} {entry : String}

/-- No fragment document is refused for an empty selection set. -/
theorem leadingFragments_ne_emptySelection :
    leadingFragments documents ≠ .error (.emptySelection entry) := by
  intro h
  obtain ⟨i, ⟨document, -, hfault⟩, -⟩ := leadingFragments_eq_error_iff.mp h
  exact nomatch hfault

/-- No fragments are accepted exactly if no documents are supplied. -/
theorem leadingFragments_eq_ok_nil_iff : leadingFragments documents = .ok [] ↔ documents = [] := by
  rw [leadingFragments_eq_ok_iff, List.forall₂_nil_right_iff]
  exact and_iff_left List.nodup_nil

theorem items_spreadsOf_eq_nil_iff {fragments : List Fragment} :
    (spreadsOf fragments).items = [] ↔ fragments = [] :=
  List.map_eq_nil_iff

namespace Outline

variable {outline : Outline}

/-- What is assembled fails for an empty selection set if the fragments are accepted and the
transform leaves nothing to select. -/
theorem assemble_eq_error_emptySelection_iff :
    outline.assemble documents = .error (.emptySelection entry) ↔
      entry = outline.entryName ∧ ∃ fragments, leadingFragments documents = .ok fragments ∧
        (outline.transformed (spreadsOf fragments)).items = [] := by
  cases h : leadingFragments documents with
  | error error =>
    have hne : error ≠ .emptySelection entry := by
      rintro rfl
      exact leadingFragments_ne_emptySelection h
    simp [assemble_of_error h, hne]
  | ok fragments =>
    rw [assemble_of_ok h]
    constructor
    · intro herror
      by_cases hempty : (outline.transformed (spreadsOf fragments)).items = []
      · rw [if_pos hempty] at herror
        have hentry := BuildError.emptySelection.inj (Except.error.inj herror)
        exact ⟨hentry.symm, fragments, rfl, hempty⟩
      · rw [if_neg hempty] at herror
        exact nomatch herror
    · rintro ⟨rfl, others, hothers, hempty⟩
      obtain rfl := Except.ok.inj hothers
      exact if_pos hempty

end Outline

namespace Configuration

variable {configuration : Configuration}

/-- The arguments are declared, and none is listed twice. -/
def ArgumentsInOrder (configuration : Configuration) : Prop :=
  (∀ argument ∈ configuration.effectiveArguments, argument ∈ configuration.vars.names) ∧
    configuration.effectiveArguments.Nodup

/-- The check of the arguments finds out whether they are in order. -/
theorem argumentError?_buildOutline_eq_none_iff :
    configuration.buildOutline.argumentError? = none ↔ configuration.ArgumentsInOrder :=
  Outline.argumentError?_eq_none_iff_nodup

/-- A build fails for an empty selection set if the arguments are in order, the fragments are
accepted, and the transform leaves nothing to select. -/
theorem build_eq_error_emptySelection_iff :
    configuration.build = .error (.emptySelection entry) ↔
      entry = configuration.entry.name ∧ configuration.ArgumentsInOrder ∧
        ∃ fragments, leadingFragments configuration.fragments = .ok fragments ∧
          (configuration.selectionsOf fragments).items = [] := by
  have hassemble : configuration.buildOutline.assemble configuration.fragments =
      .error (.emptySelection entry) ↔
        entry = configuration.entry.name ∧
          ∃ fragments, leadingFragments configuration.fragments = .ok fragments ∧
            (configuration.selectionsOf fragments).items = [] := by
    simp only [← transformed_buildOutline]
    exact Outline.assemble_eq_error_emptySelection_iff
  rw [build_eq, ← argumentError?_buildOutline_eq_none_iff]
  cases hargument : configuration.buildOutline.argumentError? with
  | some error =>
    have hne : error ≠ .emptySelection entry := by
      rintro rfl
      exact nomatch Outline.concernsArguments_of_argumentError? hargument
    simp [hne]
  | none => exact hassemble.trans (and_congr_right fun _ => (and_iff_right rfl).symm)

/-- The configuration with a reshaping as the transform of the entry field. -/
def reshapedBy (configuration : Configuration) (reshape : Reshape) : Configuration :=
  { configuration with
    entry := { configuration.entry with transform := some reshape.transform } }

theorem selectionsOf_reshapedBy (reshape : Reshape) (fragments : List Fragment) :
    (configuration.reshapedBy reshape).selectionsOf fragments =
      reshape.apply (spreadsOf fragments) := rfl

/-- A reshaping leaves nothing to select only if no fragment is supplied and nothing is
prepended. -/
theorem build_reshapedBy_eq_error_emptySelection_iff (reshape : Reshape) :
    (configuration.reshapedBy reshape).build = .error (.emptySelection entry) ↔
      entry = configuration.entry.name ∧ configuration.ArgumentsInOrder ∧
        configuration.fragments = [] ∧ reshape.prependedFields = [] := by
  have hselections : ∀ fragments,
      ((configuration.reshapedBy reshape).selectionsOf fragments).items = [] ↔
        fragments = [] ∧ reshape.prependedFields = [] := by
    intro fragments
    rw [selectionsOf_reshapedBy, reshape.items_apply_eq_nil_iff, items_spreadsOf_eq_nil_iff]
  have hfragments : (∃ fragments, leadingFragments configuration.fragments = .ok fragments ∧
      fragments = [] ∧ reshape.prependedFields = []) ↔
        configuration.fragments = [] ∧ reshape.prependedFields = [] := by
    rw [← leadingFragments_eq_ok_nil_iff]
    constructor
    · rintro ⟨fragments, haccepted, rfl, hprepended⟩
      exact ⟨haccepted, hprepended⟩
    · rintro ⟨haccepted, hprepended⟩
      exact ⟨[], haccepted, rfl, hprepended⟩
  rw [build_eq_error_emptySelection_iff]
  simp only [hselections]
  exact and_congr_right fun _ => and_congr_right fun _ => hfragments

end Configuration

/-- A prepended field that is moved afterwards makes up for missing fragments. -/
example : ((({} : Configuration).reshapedBy (.andThen (.moveUnder ["node"])
    (.andThen (.prependFields ["id"]) (.moveUnder ["edges"])))).build.map
      fun document => document.definitions.length) = .ok 1 := rfl

end QueryAssembly
