import QueryAssembly.Proofs.Query.Faults

/-!
# Building at once and by template

A build makes a template and selects from it.  The template only carries the knowledge that the
check of the arguments succeeded, so what is built depends on the outline alone:
`Outline.argumentError?` is what the check finds, and `Outline.assemble` makes the document of an
outline that passes it.

Main statements: `Template.ofOutline_bind_select`, with its case `Configuration.build_eq`, and
`Outline.assemble_eq_ok_iff`.
-/

namespace QueryAssembly

/-! ### The check of the arguments -/

/-- The error says that something is wrong with the arguments of the entry field. -/
inductive BuildError.ConcernsArguments : BuildError → Prop where
  | undeclaredArgument (argument operation : String) :
      ConcernsArguments (.undeclaredArgument argument operation)
  | duplicateArgument (argument operation : String) :
      ConcernsArguments (.duplicateArgument argument operation)

/-- What is wrong with fragment documents does not concern the arguments. -/
theorem not_concernsArguments_of_leadingFragments {documents : List Document} {error : BuildError}
    (h : leadingFragments documents = .error error) : ¬error.ConcernsArguments := by
  obtain ⟨i, ⟨document, hdocument, hfault⟩, -⟩ := leadingFragments_eq_error_iff.mp h
  cases hfault <;> rintro ⟨⟩

namespace Outline

/-- The error for the arguments of an outline, if something is wrong with them. -/
def argumentError? (outline : Outline) : Option BuildError :=
  match outline.firstUndeclared? with
  | some argument => some (.undeclaredArgument argument outline.name)
  | none => (firstRepeated? outline.arguments).map (.duplicateArgument · outline.name)

variable {outline : Outline} {argument : String}

theorem argumentError?_of_undeclared
    (h : First (UndeclaredAt outline.vars.names outline.arguments) argument) :
    outline.argumentError? = some (.undeclaredArgument argument outline.name) := by
  rw [argumentError?, firstUndeclared?_eq_some_iff.mpr h]

theorem firstUndeclared?_eq_none_iff :
    outline.firstUndeclared? = none ↔
      ∀ i argument, ¬UndeclaredAt outline.vars.names outline.arguments i argument := by
  rw [Option.eq_none_iff_forall_ne_some, ← forall_not_first_iff]
  exact forall_congr' fun argument => not_congr firstUndeclared?_eq_some_iff

theorem argumentError?_of_repeated
    (hdeclared : ∀ i argument, ¬UndeclaredAt outline.vars.names outline.arguments i argument)
    (h : First (RepeatedAt outline.arguments) argument) :
    outline.argumentError? = some (.duplicateArgument argument outline.name) := by
  rw [argumentError?, firstUndeclared?_eq_none_iff.mpr hdeclared, firstRepeated?_eq_some_iff.mpr h]
  rfl

theorem concernsArguments_of_argumentError? {error : BuildError}
    (h : outline.argumentError? = some error) : error.ConcernsArguments := by
  unfold argumentError? at h
  split at h
  next argument _ =>
    obtain rfl := Option.some.inj h
    exact .undeclaredArgument argument outline.name
  next =>
    obtain ⟨argument, -, rfl⟩ := Option.map_eq_some_iff.mp h
    exact .duplicateArgument argument outline.name

/-- The check succeeds if there is no fault at any place. -/
theorem argumentError?_eq_none_iff :
    outline.argumentError? = none ↔
      (∀ i argument, ¬UndeclaredAt outline.vars.names outline.arguments i argument) ∧
        ∀ i argument, ¬RepeatedAt outline.arguments i argument := by
  have hrepeated : firstRepeated? outline.arguments = none ↔
      ∀ i argument, ¬RepeatedAt outline.arguments i argument := by
    rw [Option.eq_none_iff_forall_ne_some, ← forall_not_first_iff]
    exact forall_congr' fun argument => not_congr firstRepeated?_eq_some_iff
  rw [← firstUndeclared?_eq_none_iff, ← hrepeated, argumentError?]
  cases outline.firstUndeclared? <;> simp

/-- The check succeeds if the arguments are declared and distinct. -/
theorem argumentError?_eq_none_iff_nodup :
    outline.argumentError? = none ↔
      (∀ argument ∈ outline.arguments, argument ∈ outline.vars.names) ∧
        outline.arguments.Nodup := by
  rw [← firstRepeated?_eq_none_iff, argumentError?]
  cases hundeclared : outline.firstUndeclared? with
  | none =>
    have hdeclared : ∀ argument ∈ outline.arguments, argument ∈ outline.vars.names := by
      simpa [firstUndeclared?] using hundeclared
    simp only [Option.map_eq_none_iff]
    exact (and_iff_right hdeclared).symm
  | some argument =>
    have hmem : argument ∈ outline.arguments := List.mem_of_find?_eq_some hundeclared
    have hnot : argument ∉ outline.vars.names := by simpa using List.find?_some hundeclared
    simp only [reduceCtorEq, false_iff]
    exact fun h => hnot (h.1 argument hmem)

/-! ### Assembling a document -/

variable {documents : List Document} {fragments : List Fragment}

theorem assemble_of_error {error : BuildError} (h : leadingFragments documents = .error error) :
    outline.assemble documents = .error error := by
  rw [assemble, h]
  rfl

theorem assemble_of_ok (h : leadingFragments documents = .ok fragments) :
    outline.assemble documents =
      if (outline.transformed (spreadsOf fragments)).items = [] then
        .error (.emptySelection outline.entryName)
      else .ok (outline.document (outline.transformed (spreadsOf fragments)) fragments) := by
  rw [assemble, h]
  simp only [← List.isEmpty_iff]
  rfl

/-- A document is assembled if the fragments are accepted and something is selected. -/
theorem assemble_eq_ok_iff {document : Document} :
    outline.assemble documents = .ok document ↔
      ∃ fragments, leadingFragments documents = .ok fragments ∧
        (outline.transformed (spreadsOf fragments)).items ≠ [] ∧
          document = outline.document (outline.transformed (spreadsOf fragments)) fragments := by
  cases h : leadingFragments documents with
  | error error => simp [assemble_of_error h]
  | ok fragments =>
    rw [assemble_of_ok h]
    by_cases hempty : (outline.transformed (spreadsOf fragments)).items = []
    · simp [hempty]
    · rw [if_neg hempty, Except.ok.injEq]
      constructor
      · rintro rfl
        exact ⟨fragments, rfl, hempty, rfl⟩
      · rintro ⟨others, hothers, -, rfl⟩
        rw [Except.ok.inj hothers]

/-- What is wrong with what is assembled does not concern the arguments. -/
theorem not_concernsArguments_of_assemble {error : BuildError}
    (h : outline.assemble documents = .error error) : ¬error.ConcernsArguments := by
  cases hleading : leadingFragments documents with
  | error reported =>
    rw [assemble_of_error hleading] at h
    obtain rfl := Except.error.inj h
    exact not_concernsArguments_of_leadingFragments hleading
  | ok fragments =>
    rw [assemble_of_ok hleading] at h
    split at h
    next =>
      obtain rfl := Except.error.inj h
      rintro ⟨⟩
    next => cases h

/-- The selection set of the entry field is the given one if there is no transform. -/
theorem transformed_eq (outline : Outline) (selections : SelectionSet) :
    outline.transformed selections = (outline.transform.getD .identity).apply selections := by
  rw [transformed]
  cases outline.transform <;> rfl

end Outline

/-! ### Templates -/

namespace Template

theorem ofOutline_of_argumentError? {outline : Outline} {error : BuildError}
    (h : outline.argumentError? = some error) : ofOutline outline = .error error := by
  unfold Outline.argumentError? at h
  unfold ofOutline
  split at h
  · next argument hundeclared =>
    obtain rfl : BuildError.undeclaredArgument argument outline.name = error := by simpa using h
    split
    · next other hother =>
      rw [hundeclared] at hother
      rw [Option.some.inj hother]
    · next hnone =>
      rw [hundeclared] at hnone
      cases hnone
  · next hdeclared =>
    obtain ⟨argument, hrepeated, rfl⟩ := Option.map_eq_some_iff.mp h
    split
    · next other hother =>
      rw [hdeclared] at hother
      cases hother
    · split
      · next other hother =>
        rw [hrepeated] at hother
        rw [Option.some.inj hother]
      · next hnone =>
        rw [hrepeated] at hnone
        cases hnone

theorem exists_ofOutline_eq_ok {outline : Outline} (h : outline.argumentError? = none) :
    ∃ template, ofOutline outline = .ok template ∧ template.outline = outline := by
  obtain ⟨hdeclared, hdistinct⟩ := Outline.argumentError?_eq_none_iff_nodup.mp h
  exact ⟨⟨outline, hdeclared, hdistinct⟩,
    ofOutline_eq_ok_iff.mpr ⟨rfl, hdeclared, hdistinct⟩, rfl⟩

/-- An outline makes no template if the check of its arguments finds an error, and for no other
reason. -/
theorem ofOutline_eq_error_iff {outline : Outline} {error : BuildError} :
    ofOutline outline = .error error ↔ outline.argumentError? = some error := by
  cases h : outline.argumentError? with
  | some reported => simp [ofOutline_of_argumentError? h]
  | none =>
    obtain ⟨template, hok, -⟩ := exists_ofOutline_eq_ok h
    simp [hok]

/-- The check finds nothing wrong with the arguments of a template. -/
theorem argumentError?_outline (template : Template) : template.outline.argumentError? = none :=
  Outline.argumentError?_eq_none_iff_nodup.mpr ⟨template.declared, template.distinct⟩

/-- Making a template and selecting from it checks the arguments and assembles the document. -/
theorem ofOutline_bind_select (outline : Outline) (documents : List Document) :
    (ofOutline outline >>= fun template => template.select documents) =
      match outline.argumentError? with
      | some error => .error error
      | none => outline.assemble documents := by
  cases h : outline.argumentError? with
  | some error =>
    rw [ofOutline_of_argumentError? h]
    rfl
  | none =>
    obtain ⟨template, hok, houtline⟩ := exists_ofOutline_eq_ok h
    calc (ofOutline outline >>= fun template => template.select documents)
        = template.select documents := by rw [hok]; rfl
      _ = outline.assemble documents := by rw [select, houtline]

end Template

/-- A build checks the arguments and assembles the document. -/
theorem Configuration.build_eq (configuration : Configuration) :
    configuration.build =
      match configuration.buildOutline.argumentError? with
      | some error => .error error
      | none => configuration.buildOutline.assemble configuration.fragments :=
  Template.ofOutline_bind_select configuration.buildOutline configuration.fragments

/-- A build succeeds if the arguments pass the check and a document is assembled. -/
theorem Configuration.build_eq_ok_iff {configuration : Configuration} {document : Document} :
    configuration.build = .ok document ↔
      configuration.buildOutline.argumentError? = none ∧
        configuration.buildOutline.assemble configuration.fragments = .ok document := by
  rw [build_eq]
  cases configuration.buildOutline.argumentError? <;> simp

/-- The errors of a build that concern the arguments are those that the check of them finds. -/
theorem Configuration.build_eq_error_and_concernsArguments_iff {configuration : Configuration}
    {error : BuildError} :
    configuration.build = .error error ∧ error.ConcernsArguments ↔
      configuration.buildOutline.argumentError? = some error := by
  rw [build_eq]
  cases hargument : configuration.buildOutline.argumentError? with
  | some reported =>
    simp only [Except.error.injEq, Option.some.injEq, and_iff_left_iff_imp]
    rintro rfl
    exact Outline.concernsArguments_of_argumentError? hargument
  | none =>
    simp only [reduceCtorEq, iff_false, not_and]
    exact Outline.not_concernsArguments_of_assemble

end QueryAssembly
