import QueryAssembly.Transform

/-!
# Laws of moving and prepending

Moving to the end of one path and then of another is one move, and so is prepending twice; a step
without names changes nothing.  The laws hold for every selection set.  One without selections
needs a case of its own, since moving leaves it where it is.

Main statements: `SelectionSet.moveUnder_moveUnder` and `SelectionSet.prependFields_prependFields`.
-/

namespace QueryAssembly

namespace SelectionSet

variable {selections : SelectionSet}

/-! ### Moving -/

/-- A selection set without selections is not moved. -/
theorem moveUnder_of_items_eq_nil (h : selections.items = []) (path : List String) :
    selections.moveUnder path = selections := by
  simp [moveUnder, h]

/-- A selection set with selections goes to the end of the path. -/
theorem moveUnder_of_items_ne_nil (h : selections.items ≠ []) (path : List String) :
    selections.moveUnder path = path.foldr under selections := by
  simp [moveUnder, h]

/-- The selection set that holds a path has selections if the moved one has. -/
theorem items_foldr_under_ne_nil (h : selections.items ≠ []) (path : List String) :
    (path.foldr under selections).items ≠ [] := by
  cases path with
  | nil => exact h
  | cons name rest => simp [under]

/-- Moving neither takes the last selection away nor makes a first one. -/
theorem items_moveUnder_eq_nil_iff (path : List String) :
    (selections.moveUnder path).items = [] ↔ selections.items = [] := by
  by_cases h : selections.items = []
  · rw [moveUnder_of_items_eq_nil h]
  · rw [moveUnder_of_items_ne_nil h]
    exact iff_of_false (items_foldr_under_ne_nil h path) h

/-- The empty path leads nowhere. -/
@[simp] theorem moveUnder_nil (selections : SelectionSet) :
    selections.moveUnder [] = selections := by
  simp [moveUnder]

/-- Two moves are one move: the path of the second move lies around that of the first. -/
theorem moveUnder_moveUnder (outer inner : List String) (selections : SelectionSet) :
    (selections.moveUnder inner).moveUnder outer = selections.moveUnder (outer ++ inner) := by
  by_cases h : selections.items = []
  · rw [moveUnder_of_items_eq_nil h, moveUnder_of_items_eq_nil h, moveUnder_of_items_eq_nil h]
  · have hinner : (selections.moveUnder inner).items ≠ [] :=
      fun hnil => h ((items_moveUnder_eq_nil_iff inner).mp hnil)
    rw [moveUnder_of_items_ne_nil hinner, moveUnder_of_items_ne_nil h,
      moveUnder_of_items_ne_nil h, List.foldr_append]

/-! ### Prepending -/

/-- Without names nothing is prepended. -/
@[simp] theorem prependFields_nil (selections : SelectionSet) :
    selections.prependFields [] = selections := by
  cases selections
  rfl

/-- Prepending twice is prepending once: what is prepended last comes first. -/
theorem prependFields_prependFields (first last : List String) (selections : SelectionSet) :
    (selections.prependFields last).prependFields first =
      selections.prependFields (first ++ last) := by
  simp [prependFields]

/-- After prepending there is no selection only if there was none and nothing is prepended. -/
theorem items_prependFields_eq_nil_iff (names : List String) :
    (selections.prependFields names).items = [] ↔ names = [] ∧ selections.items = [] := by
  simp [prependFields]

end SelectionSet

end QueryAssembly
