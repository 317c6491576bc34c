import QueryAssembly.Proofs.Transform.Laws

/-!
# What reshaping conserves

Reshaping neither loses nor repeats nor reorders what is spread: a walk through the reshaped
selection set meets the same fragments as a walk through the one given.  It adds fields, and of
these only the prepended ones ask for nothing below themselves.  The fields of a path never do,
since a selection set without selections is not moved, whatever the steps before left of it.

Main statements: `Reshape.spreadNames_apply`, `Reshape.childlessFields_apply` and
`Reshape.items_apply_eq_nil_iff`.
-/

namespace QueryAssembly

/-! ### Walks through rows of selections -/

theorem Selection.spreadNamesAll_append (front back : List Selection) :
    spreadNamesAll (front ++ back) = spreadNamesAll front ++ spreadNamesAll back := by
  induction front with
  | nil => simp [spreadNamesAll]
  | cons selection front ih => simp [spreadNamesAll, ih]

theorem Selection.spreadNamesAll_map_leaf (names : List String) :
    spreadNamesAll (names.map leaf) = [] := by
  induction names with
  | nil => simp [spreadNamesAll]
  | cons name names ih =>
    have hleaf : (leaf name).spreadNames = [] := by
      simp [leaf, Field.plain, spreadNames, SelectionSet.spreadNames, spreadNamesAll]
    rw [List.map_cons, spreadNamesAll, hleaf, ih, List.append_nil]

theorem Selection.childlessFieldsAll_append (front back : List Selection) :
    childlessFieldsAll (front ++ back) = childlessFieldsAll front ++ childlessFieldsAll back := by
  induction front with
  | nil => simp [childlessFieldsAll]
  | cons selection front ih => simp [childlessFieldsAll, ih]

theorem Selection.childlessFieldsAll_map_leaf (names : List String) :
    childlessFieldsAll (names.map leaf) = names := by
  induction names with
  | nil => simp [childlessFieldsAll]
  | cons name names ih =>
    have hleaf : (leaf name).childlessFields = [name] := by
      simp [leaf, Field.plain, childlessFields, childlessFieldsAll]
    rw [List.map_cons, childlessFieldsAll, hleaf, ih, List.singleton_append]

namespace SelectionSet

theorem spreadNames_eq (selections : SelectionSet) :
    selections.spreadNames = Selection.spreadNamesAll selections.items := by
  cases selections
  rw [spreadNames]

theorem childlessFields_eq (selections : SelectionSet) :
    selections.childlessFields = Selection.childlessFieldsAll selections.items := by
  cases selections
  rw [childlessFields]

/-! ### Single steps -/

theorem spreadNames_under (name : String) (inner : SelectionSet) :
    (under name inner).spreadNames = inner.spreadNames := by
  rw [spreadNames_eq, under, Selection.spreadNamesAll, Selection.spreadNamesAll, List.append_nil,
    Field.plain, Selection.spreadNames]

theorem spreadNames_moveUnder (path : List String) (selections : SelectionSet) :
    (selections.moveUnder path).spreadNames = selections.spreadNames := by
  by_cases h : selections.items = []
  · rw [moveUnder_of_items_eq_nil h]
  · rw [moveUnder_of_items_ne_nil h]
    induction path with
    | nil => rfl
    | cons name path ih => rw [List.foldr_cons, spreadNames_under, ih]

theorem spreadNames_prependFields (names : List String) (selections : SelectionSet) :
    (selections.prependFields names).spreadNames = selections.spreadNames := by
  rw [spreadNames_eq, spreadNames_eq, prependFields, Selection.spreadNamesAll_append,
    Selection.spreadNamesAll_map_leaf, List.nil_append]

/-- A field put around selections has something below itself. -/
theorem childlessFields_under (name : String) {inner : SelectionSet} (h : inner.items ≠ []) :
    (under name inner).childlessFields = inner.childlessFields := by
  obtain ⟨span, items⟩ := inner
  have hitems : items.isEmpty = false := List.isEmpty_eq_false_iff.mpr h
  rw [childlessFields_eq, under, Selection.childlessFieldsAll, Selection.childlessFieldsAll,
    List.append_nil, Field.plain, Selection.childlessFields, hitems, childlessFields_eq]
  rfl

theorem childlessFields_moveUnder (path : List String) (selections : SelectionSet) :
    (selections.moveUnder path).childlessFields = selections.childlessFields := by
  by_cases h : selections.items = []
  · rw [moveUnder_of_items_eq_nil h]
  · rw [moveUnder_of_items_ne_nil h]
    induction path with
    | nil => rfl
    | cons name path ih =>
      have hinner : (path.foldr under selections).items ≠ [] := items_foldr_under_ne_nil h path
      rw [List.foldr_cons, childlessFields_under name hinner, ih]

theorem childlessFields_prependFields (names : List String) (selections : SelectionSet) :
    (selections.prependFields names).childlessFields = names ++ selections.childlessFields := by
  rw [childlessFields_eq, childlessFields_eq, prependFields, Selection.childlessFieldsAll_append,
    Selection.childlessFieldsAll_map_leaf]

end SelectionSet

/-! ### Whole reshapings -/

/-- A reshaping keeps what is spread, in order. -/
theorem Reshape.spreadNames_apply (reshape : Reshape) (selections : SelectionSet) :
    (reshape.apply selections).spreadNames = selections.spreadNames := by
  induction reshape generalizing selections with
  | moveUnder path => exact SelectionSet.spreadNames_moveUnder path selections
  | prependFields names => exact SelectionSet.spreadNames_prependFields names selections
  | andThen first second ihfirst ihsecond =>
    calc (second.apply (first.apply selections)).spreadNames
        = (first.apply selections).spreadNames := ihsecond _
      _ = selections.spreadNames := ihfirst selections

/-- Of the fields that a reshaping adds the prepended ones are childless, and no others. -/
theorem Reshape.childlessFields_apply (reshape : Reshape) (selections : SelectionSet) :
    (reshape.apply selections).childlessFields =
      reshape.prependedFields ++ selections.childlessFields := by
  induction reshape generalizing selections with
  | moveUnder path => exact SelectionSet.childlessFields_moveUnder path selections
  | prependFields names => exact SelectionSet.childlessFields_prependFields names selections
  | andThen first second ihfirst ihsecond =>
    calc (second.apply (first.apply selections)).childlessFields
        = second.prependedFields ++ (first.apply selections).childlessFields := ihsecond _
      _ = second.prependedFields ++ (first.prependedFields ++ selections.childlessFields) := by
        rw [ihfirst]
      _ = (andThen first second).prependedFields ++ selections.childlessFields := by
        rw [prependedFields, List.append_assoc]

/-- After a reshaping there is no selection only if there was none and nothing is prepended. -/
theorem Reshape.items_apply_eq_nil_iff (reshape : Reshape) (selections : SelectionSet) :
    (reshape.apply selections).items = [] ↔
      selections.items = [] ∧ reshape.prependedFields = [] := by
  induction reshape generalizing selections with
  | moveUnder path =>
    have hmove : (selections.moveUnder path).items = [] ↔ selections.items = [] :=
      SelectionSet.items_moveUnder_eq_nil_iff path
    exact hmove.trans (and_iff_left rfl).symm
  | prependFields names =>
    have hprepend : (selections.prependFields names).items = [] ↔
        names = [] ∧ selections.items = [] :=
      SelectionSet.items_prependFields_eq_nil_iff names
    exact hprepend.trans and_comm
  | andThen first second ihfirst ihsecond =>
    have hsecond : (second.apply (first.apply selections)).items = [] ↔
        (first.apply selections).items = [] ∧ second.prependedFields = [] := ihsecond _
    rw [prependedFields, List.append_eq_nil_iff]
    refine hsecond.trans ?_
    rw [ihfirst, and_assoc]
    exact and_congr_right fun _ => and_comm

end QueryAssembly
