import QueryAssembly.Proofs.Transform.Laws

/-!
# Walking down a path

A selection set that was moved to the end of a path is found there again.  On the way down each
level is a selection set with the default span and one plain field, which has the next name of the
path, and below the last of these fields stands the selection set just as it was.

The fields are put around a selection set from the last one of the path to the first.  So what
stands some levels down is what the rest of the path was put around
(`SelectionSet.descendBy?_foldr_under`), and walking down the whole path undoes the move.  A
selection set without selections is not moved, and what is moved has selections; so no two selection
sets are moved to the same one.

Main statement: `Transform.moveUnder_undone_by_descent`.
-/

namespace QueryAssembly

namespace SelectionSet

variable {selections : SelectionSet} {path : List String}

/-! ### Levels -/

/-- The selection set so many levels down, where on each level there is a single field to go on
from. -/
def descendBy? : Nat → SelectionSet → Option SelectionSet
  | 0, selections => some selections
  | levels + 1, selections => selections.descend?.bind (descendBy? levels)

/-- The selection set has the default span and one selection, the given field, which has the given
name at the default position and nothing else but what is selected below it. -/
structure LevelOf (level : SelectionSet) (name : String) (field : Field) : Prop where
  span_eq : level.span = {}
  items_eq : level.items = [.field field]
  position_eq : field.position = {}
  name_eq : field.name = name
  alias_eq : field.responseAlias = none
  arguments_eq : field.arguments = []
  directives_eq : field.directives = []

theorem levelOf_under (name : String) (inner : SelectionSet) :
    (under name inner).LevelOf name (.plain name inner) :=
  ⟨rfl, rfl, rfl, rfl, rfl, rfl, rfl⟩

/-- One level more under a field is one level less under what the field holds. -/
theorem descendBy?_succ_under (levels : Nat) (name : String) (inner : SelectionSet) :
    (under name inner).descendBy? (levels + 1) = inner.descendBy? levels := by
  rw [descendBy?, descend?_under, Option.bind_some]

/-! ### The way down -/

/-- Some levels down a path stands what the rest of the path was put around. -/
theorem descendBy?_foldr_under (selections : SelectionSet) {i : Nat} (hi : i ≤ path.length) :
    (path.foldr under selections).descendBy? i = some ((path.drop i).foldr under selections) := by
  induction path generalizing i with
  | nil =>
    obtain rfl : i = 0 := Nat.le_zero.mp hi
    rfl
  | cons name rest ih =>
    cases i with
    | zero => rfl
    | succ i =>
      rw [List.foldr_cons, descendBy?_succ_under, ih (Nat.le_of_succ_le_succ hi),
        List.drop_succ_cons]

/-- Each level of a path leads on by the field of its name. -/
theorem exists_levelOf_moveUnder (h : selections.items ≠ []) {i : Nat} (hi : i < path.length) :
    ∃ level field, (selections.moveUnder path).descendBy? i = some level ∧
      level.LevelOf path[i] field := by
  refine ⟨_, _, ?_, levelOf_under path[i] ((path.drop (i + 1)).foldr under selections)⟩
  rw [moveUnder_of_items_ne_nil h, descendBy?_foldr_under selections (Nat.le_of_lt hi),
    List.drop_eq_getElem_cons hi, List.foldr_cons]

/-- At the end of the path stands what was moved there. -/
theorem descendBy?_length_moveUnder (h : selections.items ≠ []) (path : List String) :
    (selections.moveUnder path).descendBy? path.length = some selections := by
  rw [moveUnder_of_items_ne_nil h, descendBy?_foldr_under selections (Nat.le_refl _),
    List.drop_length, List.foldr_nil]

/-- No two selection sets are moved to the same one. -/
theorem injective_moveUnder (path : List String) : Function.Injective (moveUnder path) := by
  intro selections other heq
  have hitems : selections.items = [] ↔ other.items = [] := by
    rw [← items_moveUnder_eq_nil_iff path, heq, items_moveUnder_eq_nil_iff]
  by_cases h : selections.items = []
  · calc selections = selections.moveUnder path := (moveUnder_of_items_eq_nil h path).symm
      _ = other.moveUnder path := heq
      _ = other := moveUnder_of_items_eq_nil (hitems.mp h) path
  · have hother : other.items ≠ [] := fun hnil => h (hitems.mpr hnil)
    have hwalk : some selections = some other := by
      rw [← descendBy?_length_moveUnder h path, heq, descendBy?_length_moveUnder hother path]
    exact Option.some.inj hwalk

end SelectionSet

/-- A selection set with selections is moved to the end of a chain of plain fields that have the
names of the path in order, and stands below the last of them as it was.  One without selections
stays where it is.  And so a move along a given path can be undone. -/
theorem Transform.moveUnder_undone_by_descent (path : List String) :
    (∀ selections : SelectionSet, selections.items ≠ [] →
      (∀ i (hi : i < path.length), ∃ level field,
        ((moveUnder path).apply selections).descendBy? i = some level ∧
          level.LevelOf path[i] field) ∧
      ((moveUnder path).apply selections).descendBy? path.length = some selections) ∧
    (∀ selections : SelectionSet, selections.items = [] →
      (moveUnder path).apply selections = selections) ∧
    Function.Injective (moveUnder path).apply := by
  refine ⟨fun selections h => ⟨?_, ?_⟩, fun selections h => ?_, ?_⟩
  · exact fun i hi => SelectionSet.exists_levelOf_moveUnder h hi
  · exact SelectionSet.descendBy?_length_moveUnder h path
  · exact SelectionSet.moveUnder_of_items_eq_nil h path
  · exact SelectionSet.injective_moveUnder path

end QueryAssembly
