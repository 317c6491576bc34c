import QueryAssembly.Proofs.Transform.Rows

/-!
# Reshapings and their normal forms

Two reshapings do the same to every selection set exactly if their normal forms are equal, and a
selection set that holds nothing but the spread of one fragment tells apart any two whose normal
forms differ.

To see the latter, the steps of a normal row are read off what the row makes of one spread, the
last step first.  A last step that moves leaves a selection set that can be descended into, a last
step that prepends leaves more than one selection, and without steps the spread is left alone.
What lies below the step is then the same on both sides, and the steps in front of it are read off
in the same way (`Layer.wrap_injective`).

Main statement: `Reshape.apply_eq_iff_normalForm_eq`.
-/

namespace QueryAssembly

/-! ### Fields and paths -/

theorem Selection.leaf_injective : Function.Injective Selection.leaf := by
  intro name other h
  simpa [leaf, Field.plain] using h

namespace SelectionSet

theorem under_inj {name other : String} {inner otherInner : SelectionSet} :
    under name inner = under other otherInner ↔ name = other ∧ inner = otherInner := by
  simp [under, Field.plain]

/-- A path can be walked back from its start, down to a selection set that no field leads into. -/
theorem foldr_under_inj {path other : List String} {inner otherInner : SelectionSet}
    (hinner : inner.descend? = none) (hother : otherInner.descend? = none)
    (h : path.foldr under inner = other.foldr under otherInner) :
    path = other ∧ inner = otherInner := by
  induction path generalizing other with
  | nil =>
    cases other with
    | nil => exact ⟨rfl, h⟩
    | cons name rest =>
      have hsome : inner.descend? = some (rest.foldr under otherInner) := congrArg descend? h
      rw [hinner] at hsome
      exact absurd hsome (by simp)
  | cons name rest ih =>
    cases other with
    | nil =>
      have hsome : some (rest.foldr under inner) = otherInner.descend? := congrArg descend? h
      rw [hother] at hsome
      exact absurd hsome (by simp)
    | cons otherName otherRest =>
      obtain ⟨hname, hbelow⟩ := under_inj.mp h
      obtain ⟨hrest, hinner⟩ := ih hbelow
      exact ⟨by rw [hname, hrest], hinner⟩

/-- In front of a single selection, the fields prepended are known from the whole. -/
theorem prependFields_inj {names otherNames : List String} {inner otherInner : SelectionSet}
    {selection other : Selection} (hinner : inner.items = [selection])
    (hother : otherInner.items = [other])
    (h : inner.prependFields names = otherInner.prependFields otherNames) :
    names = otherNames ∧ inner = otherInner := by
  obtain ⟨span, items⟩ := inner
  obtain ⟨otherSpan, otherItems⟩ := otherInner
  obtain rfl : items = [selection] := hinner
  obtain rfl : otherItems = [other] := hother
  obtain ⟨hspan, hitems⟩ : span = otherSpan ∧
      names.map Selection.leaf ++ [selection] = otherNames.map Selection.leaf ++ [other] := by
    simpa [prependFields] using h
  obtain ⟨hnames, hselection⟩ := List.append_inj' hitems rfl
  have hnames : names = otherNames := List.map_injective_iff.mpr Selection.leaf_injective hnames
  exact ⟨hnames, by rw [hspan, hselection]⟩

/-- The selection set that holds one selection, the given spread. -/
def ofSpread (span : Span) (spread : FragmentSpread) : SelectionSet :=
  { span, items := [.spread spread] }

end SelectionSet

/-! ### Reading the steps off -/

namespace Layer

/-- Takes the steps of a row, the last one of the row first. -/
def wrap (row : List Layer) (selections : SelectionSet) : SelectionSet :=
  row.foldr (fun layer current => layer.transform.apply current) selections

theorem wrap_reverse (row : List Layer) (selections : SelectionSet) :
    wrap row.reverse selections = applyAll row selections := by
  rw [wrap, List.foldr_reverse, applyAll]

theorem Normal.reverse {row : List Layer} (h : Normal row) : Normal row.reverse := by
  refine ⟨fun layer hlayer => h.active layer (List.mem_reverse.mp hlayer), ?_⟩
  rw [List.isChain_reverse]
  exact h.alternating.imp fun _ _ hkind => hkind.symm

theorem items_wrap_ne_nil (row : List Layer) {selections : SelectionSet}
    (h : selections.items ≠ []) : (wrap row selections).items ≠ [] := by
  induction row with
  | nil => exact h
  | cons layer row ih =>
    cases layer with
    | moveUnder path =>
      intro hnil
      exact ih ((SelectionSet.items_moveUnder_eq_nil_iff path).mp hnil)
    | prependFields names =>
      intro hnil
      exact ih ((SelectionSet.items_prependFields_eq_nil_iff names).mp hnil).2

section OfSpread

variable {row other : List Layer} {span : Span} {spread : FragmentSpread}

theorem wrap_moveUnder_cons (path : List String) :
    wrap (.moveUnder path :: row) (.ofSpread span spread) =
      path.foldr SelectionSet.under (wrap row (.ofSpread span spread)) := by
  have hitems : (wrap row (.ofSpread span spread)).items ≠ [] :=
    items_wrap_ne_nil row (by simp [SelectionSet.ofSpread])
  exact SelectionSet.moveUnder_of_items_ne_nil hitems path

theorem wrap_prependFields_cons (names : List String) :
    wrap (.prependFields names :: row) (.ofSpread span spread) =
      (wrap row (.ofSpread span spread)).prependFields names := rfl

/-- Where the last step does not prepend, a single selection is left. -/
theorem exists_items_wrap_eq_singleton (h : Normal row)
    (hhead : ∀ layer ∈ row.head?, layer.isMove = true) :
    ∃ selection, (wrap row (.ofSpread span spread)).items = [selection] := by
  cases row with
  | nil => exact ⟨.spread spread, rfl⟩
  | cons layer rest =>
    cases layer with
    | prependFields names => exact absurd (hhead _ rfl) (by simp [isMove])
    | moveUnder path =>
      cases path with
      | nil => exact absurd rfl (normal_cons_iff.mp h).1
      | cons name path =>
        rw [wrap_moveUnder_cons]
        exact ⟨_, rfl⟩

/-- Where the last step does not move, no field leads into all that is left. -/
theorem descend?_wrap_eq_none (h : Normal row)
    (hhead : ∀ layer ∈ row.head?, layer.isMove = false) :
    (wrap row (.ofSpread span spread)).descend? = none := by
  cases row with
  | nil => rfl
  | cons layer rest =>
    cases layer with
    | moveUnder path => exact absurd (hhead _ rfl) (by simp [isMove])
    | prependFields names =>
      have hitems : (wrap rest (.ofSpread span spread)).items ≠ [] :=
        items_wrap_ne_nil rest (by simp [SelectionSet.ofSpread])
      cases names with
      | nil => exact absurd rfl (normal_cons_iff.mp h).1
      | cons name names =>
        rw [wrap_prependFields_cons]
        obtain ⟨first, behind, hbehind⟩ := List.exists_cons_of_ne_nil hitems
        cases names <;> simp [SelectionSet.prependFields, SelectionSet.descend?, hbehind]

/-- Where the last step moves, a field leads into all that is left. -/
theorem descend?_wrap_moveUnder_ne_none {path : List String} (h : Normal (.moveUnder path :: row)) :
    (wrap (.moveUnder path :: row) (.ofSpread span spread)).descend? ≠ none := by
  cases path with
  | nil => exact absurd rfl (normal_cons_iff.mp h).1
  | cons name path =>
    rw [wrap_moveUnder_cons]
    exact Option.some_ne_none _

/-- A spread that something is done to is changed. -/
theorem wrap_cons_ne_ofSpread {layer : Layer} (h : Normal (layer :: row)) :
    wrap (layer :: row) (.ofSpread span spread) ≠ .ofSpread span spread := by
  intro heq
  cases layer with
  | moveUnder path => exact descend?_wrap_moveUnder_ne_none h (congrArg SelectionSet.descend? heq)
  | prependFields names =>
    cases names with
    | nil => exact absurd rfl (normal_cons_iff.mp h).1
    | cons name names =>
      rw [wrap_prependFields_cons] at heq
      have hitems := congrArg SelectionSet.items heq
      simp [SelectionSet.prependFields, SelectionSet.ofSpread, Selection.leaf] at hitems

/-- Below a step that moves, no field leads into all there is. -/
theorem descend?_wrap_of_normal_cons {path : List String} (h : Normal (.moveUnder path :: row)) :
    (wrap row (.ofSpread span spread)).descend? = none := by
  obtain ⟨-, hhead, hrow⟩ := normal_cons_iff.mp h
  refine descend?_wrap_eq_none hrow ?_
  intro next hnext
  have hkind : true ≠ next.isMove := hhead next hnext
  simpa using hkind.symm

/-- Below a step that prepends, there is a single selection. -/
theorem exists_items_wrap_of_normal_cons {names : List String}
    (h : Normal (.prependFields names :: row)) :
    ∃ selection, (wrap row (.ofSpread span spread)).items = [selection] := by
  obtain ⟨-, hhead, hrow⟩ := normal_cons_iff.mp h
  refine exists_items_wrap_eq_singleton hrow ?_
  intro next hnext
  have hkind : false ≠ next.isMove := hhead next hnext
  simpa using hkind.symm

/-- A step that moves and a step that prepends never leave the same. -/
theorem wrap_moveUnder_cons_ne {path names : List String} (hrow : Normal (.moveUnder path :: row))
    (hother : Normal (.prependFields names :: other)) :
    wrap (.moveUnder path :: row) (.ofSpread span spread) ≠
      wrap (.prependFields names :: other) (.ofSpread span spread) := by
  intro h
  have hnone : (wrap (.prependFields names :: other) (.ofSpread span spread)).descend? = none :=
    descend?_wrap_eq_none hother (by simp [isMove])
  rw [← h] at hnone
  exact descend?_wrap_moveUnder_ne_none hrow hnone

/-- The last step of a normal row, and what it is taken on, are known from the whole. -/
theorem wrap_cons_inj {layer otherLayer : Layer} (hrow : Normal (layer :: row))
    (hother : Normal (otherLayer :: other))
    (h : wrap (layer :: row) (.ofSpread span spread) =
      wrap (otherLayer :: other) (.ofSpread span spread)) :
    layer = otherLayer ∧
      wrap row (.ofSpread span spread) = wrap other (.ofSpread span spread) := by
  cases layer with
  | moveUnder path =>
    cases otherLayer with
    | moveUnder otherPath =>
      rw [wrap_moveUnder_cons, wrap_moveUnder_cons] at h
      obtain ⟨hpath, hbelow⟩ := SelectionSet.foldr_under_inj (descend?_wrap_of_normal_cons hrow)
        (descend?_wrap_of_normal_cons hother) h
      exact ⟨congrArg moveUnder hpath, hbelow⟩
    | prependFields names => exact absurd h (wrap_moveUnder_cons_ne hrow hother)
  | prependFields names =>
    cases otherLayer with
    | moveUnder otherPath => exact absurd h.symm (wrap_moveUnder_cons_ne hother hrow)
    | prependFields otherNames =>
      obtain ⟨selection, hselection⟩ :
          ∃ selection, (wrap row (.ofSpread span spread)).items = [selection] :=
        exists_items_wrap_of_normal_cons hrow
      obtain ⟨otherSelection, hotherSelection⟩ :
          ∃ selection, (wrap other (.ofSpread span spread)).items = [selection] :=
        exists_items_wrap_of_normal_cons hother
      rw [wrap_prependFields_cons, wrap_prependFields_cons] at h
      obtain ⟨hnames, hbelow⟩ := SelectionSet.prependFields_inj hselection hotherSelection h
      exact ⟨congrArg prependFields hnames, hbelow⟩

/-- Normal rows that make the same of a spread are equal. -/
theorem wrap_injective (hrow : Normal row) (hother : Normal other)
    (h : wrap row (.ofSpread span spread) = wrap other (.ofSpread span spread)) : row = other := by
  induction row generalizing other with
  | nil =>
    cases other with
    | nil => rfl
    | cons layer rest => exact absurd h.symm (wrap_cons_ne_ofSpread hother)
  | cons layer rest ih =>
    cases other with
    | nil => exact absurd h (wrap_cons_ne_ofSpread hrow)
    | cons otherLayer otherRest =>
      obtain ⟨hlayer, hbelow⟩ := wrap_cons_inj hrow hother h
      have hrest := ih (normal_cons_iff.mp hrow).2.2 (normal_cons_iff.mp hother).2.2 hbelow
      rw [hlayer, hrest]

end OfSpread

end Layer

/-! ### Normal forms decide -/

namespace Reshape

/-- Reshapings that do the same to one spread have one normal form. -/
theorem normalForm_eq_of_apply_ofSpread_eq {first second : Reshape} {span : Span}
    {spread : FragmentSpread}
    (h : first.apply (.ofSpread span spread) = second.apply (.ofSpread span spread)) :
    first.normalForm = second.normalForm := by
  rw [← Layer.applyAll_normalForm, ← Layer.applyAll_normalForm, ← Layer.wrap_reverse,
    ← Layer.wrap_reverse] at h
  have hreverse := Layer.wrap_injective first.normal_normalForm.reverse
    second.normal_normalForm.reverse h
  exact List.reverse_injective hreverse

/-- The steps of a reshaping end in its normal form, whatever neighbours are put together first.
Reshapings do the same to every selection set if and only if their normal forms are equal.  If these
differ, every selection set that holds the spread of one fragment and nothing else tells the
reshapings apart. -/
theorem apply_eq_iff_normalForm_eq (first second : Reshape) :
    (∀ row, first.HasNormalForm row ↔ row = first.normalForm) ∧
      ((∀ selections, first.apply selections = second.apply selections) ↔
        first.normalForm = second.normalForm) ∧
      (first.normalForm ≠ second.normalForm → ∀ span spread,
        first.apply (.ofSpread span spread) ≠ second.apply (.ofSpread span spread)) := by
  have hseparates : ∀ span spread,
      first.apply (.ofSpread span spread) = second.apply (.ofSpread span spread) →
        first.normalForm = second.normalForm :=
    fun span spread h => normalForm_eq_of_apply_ofSpread_eq h
  refine ⟨fun row => hasNormalForm_iff, ⟨?_, ?_⟩, ?_⟩
  · intro h
    exact hseparates {} { name := "" } (h _)
  · intro h selections
    rw [← Layer.applyAll_normalForm, ← Layer.applyAll_normalForm, h]
  · intro hne span spread h
    exact hne (hseparates span spread h)

end Reshape

end QueryAssembly
