import Mathlib.Data.List.Chain
import Mathlib.Logic.Relation
import QueryAssembly.Proofs.Transform.Laws

/-!
# Rows of steps

A reshaping is a row of steps taken one after the other.  A row is normal if no step of it is idle
and no two neighbours are of one kind.  `Reshape.normalForm` computes such a row step by step from
the end.

What it computes does not depend on the way: dropping the idle steps and then putting neighbours of
one kind together, in any order, until none are left, ends in this row and in no other
(`Reshape.hasNormalForm_iff`).  The row of the normal form does the same to every selection set as
the reshaping (`Layer.applyAll_normalForm`).
-/

namespace QueryAssembly

namespace Layer

/-! ### Kinds and names -/

/-- Whether a step moves, and does not prepend. -/
def isMove : Layer → Bool
  | .moveUnder _ => true
  | .prependFields _ => false

/-- The path or the fields of a step. -/
def names : Layer → List String
  | .moveUnder path => path
  | .prependFields fields => fields

/-- A step that has nothing to add. -/
def Idle (layer : Layer) : Prop :=
  layer.names = []

instance : DecidablePred Idle :=
  fun layer => inferInstanceAs (Decidable (layer.names = []))

/-- One step in place of two of one kind: the names of the second come in front. -/
def join : Layer → Layer → Layer
  | .moveUnder inner, next => .moveUnder (next.names ++ inner)
  | .prependFields last, next => .prependFields (next.names ++ last)

@[simp] theorem isMove_join (layer next : Layer) : (layer.join next).isMove = layer.isMove := by
  cases layer <;> rfl

@[simp] theorem names_join (layer next : Layer) :
    (layer.join next).names = next.names ++ layer.names := by
  cases layer <;> rfl

/-- A step is known by its kind and its names. -/
theorem ext_isMove_names {layer other : Layer} (hkind : layer.isMove = other.isMove)
    (hnames : layer.names = other.names) : layer = other := by
  cases layer <;> cases other <;> simp_all [isMove, names]

/-- Joining is associative. -/
theorem join_join (layer next last : Layer) :
    (layer.join next).join last = layer.join (next.join last) :=
  ext_isMove_names (by simp) (by simp)

/-- An idle step adds nothing to a step of its kind behind it. -/
theorem join_of_idle {layer next : Layer} (hkind : layer.isMove = next.isMove)
    (hidle : layer.Idle) : layer.join next = next :=
  ext_isMove_names (by simpa using hkind) (by simpa [Idle] using hidle)

/-- An idle step adds nothing to a step of its kind in front of it. -/
theorem join_idle {layer next : Layer} (hidle : next.Idle) : layer.join next = layer :=
  ext_isMove_names (by simp) (by simpa [Idle] using hidle)

/-- Two steps joined are idle only if both are. -/
theorem idle_join_iff {layer next : Layer} : (layer.join next).Idle ↔ next.Idle ∧ layer.Idle := by
  simp [Idle]

/-! ### Putting a step in front -/

/-- An idle step is left out. -/
theorem prepend_of_idle {layer : Layer} (hidle : layer.Idle) (row : List Layer) :
    layer.prepend row = row := by
  cases layer <;> cases hidle <;> rfl

/-- A step of another kind than the next is put in front. -/
theorem prepend_of_head {layer : Layer} (hactive : ¬layer.Idle) {row : List Layer}
    (hhead : ∀ next ∈ row.head?, layer.isMove ≠ next.isMove) :
    layer.prepend row = layer :: row := by
  cases row with
  | nil => cases layer with
    | moveUnder path => cases path <;> simp_all [prepend, Idle, names]
    | prependFields fields => cases fields <;> simp_all [prepend, Idle, names]
  | cons next rest =>
    have hkind : layer.isMove ≠ next.isMove := hhead next rfl
    cases layer with
    | moveUnder path => cases path <;> cases next <;> simp_all [prepend, Idle, names, isMove]
    | prependFields fields =>
      cases fields <;> cases next <;> simp_all [prepend, Idle, names, isMove]

/-- A step is joined with a next one of its kind. -/
theorem prepend_cons_of_isMove_eq {layer next : Layer} (hactive : ¬layer.Idle)
    (hkind : layer.isMove = next.isMove) (rest : List Layer) :
    layer.prepend (next :: rest) = layer.join next :: rest := by
  cases layer with
  | moveUnder path => cases path <;> cases next <;> simp_all [prepend, Idle, names, isMove, join]
  | prependFields fields =>
    cases fields <;> cases next <;> simp_all [prepend, Idle, names, isMove, join]

/-! ### Normal rows -/

/-- A row without idle steps in which neighbours are of different kinds. -/
structure Normal (row : List Layer) : Prop where
  active : ∀ layer ∈ row, ¬layer.Idle
  alternating : row.IsChain fun layer next => layer.isMove ≠ next.isMove

/-- The row without steps is normal. -/
theorem normal_nil : Normal [] :=
  ⟨by simp, List.isChain_nil⟩

/-- A row is normal if its first step is not idle, the next one is of the other kind, and the rest
is normal. -/
theorem normal_cons_iff {layer : Layer} {row : List Layer} :
    Normal (layer :: row) ↔
      ¬layer.Idle ∧ (∀ next ∈ row.head?, layer.isMove ≠ next.isMove) ∧ Normal row := by
  constructor
  · rintro ⟨hactive, halternating⟩
    rw [List.isChain_cons] at halternating
    exact ⟨hactive layer (by simp), halternating.1,
      fun other hother => hactive other (by simp [hother]), halternating.2⟩
  · rintro ⟨hlayer, hhead, hactive, halternating⟩
    exact ⟨by simpa [hlayer] using hactive, List.isChain_cons.mpr ⟨hhead, halternating⟩⟩

/-- Putting a step in front of a normal row gives a normal row. -/
theorem normal_prepend (layer : Layer) {row : List Layer} (h : Normal row) :
    Normal (layer.prepend row) := by
  by_cases hidle : layer.Idle
  · rwa [prepend_of_idle hidle]
  · cases row with
    | nil =>
      rw [prepend_of_head hidle (by simp)]
      exact normal_cons_iff.mpr ⟨hidle, by simp, h⟩
    | cons next rest =>
      by_cases hkind : layer.isMove = next.isMove
      · obtain ⟨_, hhead, hrest⟩ := normal_cons_iff.mp h
        have hjoin : ¬(layer.join next).Idle := fun h => hidle (idle_join_iff.mp h).2
        rw [prepend_cons_of_isMove_eq hidle hkind]
        refine normal_cons_iff.mpr ⟨hjoin, ?_, hrest⟩
        intro last hlast
        rw [isMove_join, hkind]
        exact hhead last hlast
      · have hhead : ∀ last ∈ (next :: rest).head?, layer.isMove ≠ last.isMove := by
          rintro last hlast
          rwa [← Option.some.inj hlast]
        rw [prepend_of_head hidle hhead]
        exact normal_cons_iff.mpr ⟨hidle, hhead, h⟩

/-- The normal row of a row of steps. -/
def normalize (row : List Layer) : List Layer :=
  row.foldr prepend []

@[simp] theorem normalize_nil : normalize [] = [] := rfl

@[simp] theorem normalize_cons (layer : Layer) (row : List Layer) :
    normalize (layer :: row) = layer.prepend (normalize row) := rfl

theorem normal_normalize (row : List Layer) : Normal (normalize row) := by
  induction row with
  | nil => exact normal_nil
  | cons layer row ih => exact normal_prepend layer ih

/-- A normal row is left as it is. -/
theorem normalize_of_normal {row : List Layer} (h : Normal row) : normalize row = row := by
  induction row with
  | nil => rfl
  | cons layer row ih =>
    obtain ⟨hactive, hhead, hrow⟩ := normal_cons_iff.mp h
    rw [normalize_cons, ih hrow, prepend_of_head hactive hhead]

/-- Two steps of one kind in front of a normal row are put there like the step they join to. -/
theorem prepend_prepend {layer next : Layer} (hkind : layer.isMove = next.isMove)
    {row : List Layer} (h : Normal row) :
    layer.prepend (next.prepend row) = (layer.join next).prepend row := by
  by_cases hlayer : layer.Idle
  · rw [prepend_of_idle hlayer, join_of_idle hkind hlayer]
  by_cases hnext : next.Idle
  · rw [prepend_of_idle hnext, join_idle hnext]
  have hjoin : ¬(layer.join next).Idle := fun hidle => hlayer (idle_join_iff.mp hidle).2
  by_cases hhead : ∀ last ∈ row.head?, next.isMove ≠ last.isMove
  · have hjoinHead : ∀ last ∈ row.head?, (layer.join next).isMove ≠ last.isMove := by
      intro last hlast
      rw [isMove_join, hkind]
      exact hhead last hlast
    rw [prepend_of_head hnext hhead, prepend_cons_of_isMove_eq hlayer hkind,
      prepend_of_head hjoin hjoinHead]
  · push Not at hhead
    obtain ⟨last, hlast, hsame⟩ := hhead
    obtain ⟨rest, rfl⟩ := List.head?_eq_some_iff.mp hlast
    have hlayerKind : layer.isMove = (next.join last).isMove := by rw [isMove_join, hkind]
    have hjoinKind : (layer.join next).isMove = last.isMove := by rw [isMove_join, hkind, hsame]
    rw [prepend_cons_of_isMove_eq hnext hsame, prepend_cons_of_isMove_eq hlayer hlayerKind,
      prepend_cons_of_isMove_eq hjoin hjoinKind, join_join]

/-! ### Merging neighbours -/

/-- Two neighbours of one kind somewhere in a row are put together. -/
inductive Merge : List Layer → List Layer → Prop where
  | join (before after : List Layer) {layer next : Layer} (hkind : layer.isMove = next.isMove) :
      Merge (before ++ layer :: next :: after) (before ++ layer.join next :: after)

/-- What happens in a row can happen behind a further step. -/
theorem Merge.cons (layer : Layer) {row result : List Layer} (h : Merge row result) :
    Merge (layer :: row) (layer :: result) := by
  obtain ⟨before, after, hkind⟩ := h
  exact Merge.join (layer :: before) after hkind

/-- Putting neighbours together keeps the normal row. -/
theorem Merge.normalize_eq {row result : List Layer} (h : Merge row result) :
    normalize row = normalize result := by
  obtain ⟨before, after, hkind⟩ := h
  induction before with
  | nil => exact prepend_prepend hkind (normal_normalize after)
  | cons first before ih => exact congrArg first.prepend ih

/-- Putting neighbours together leaves no step idle, if none was before. -/
theorem Merge.active {row result : List Layer} (h : Merge row result)
    (hactive : ∀ layer ∈ row, ¬layer.Idle) : ∀ layer ∈ result, ¬layer.Idle := by
  obtain @⟨before, after, layer, next, hkind⟩ := h
  intro other hother
  rcases List.mem_append.mp hother with hbefore | hrest
  · exact hactive other (by simp [hbefore])
  · rcases List.mem_cons.mp hrest with rfl | hafter
    · exact fun hjoin => hactive layer (by simp) (idle_join_iff.mp hjoin).2
    · exact hactive other (by simp [hafter])

/-- In a row with alternating kinds there is nothing to put together, and in any other row there
is. -/
theorem isChain_iff_forall_not_merge (row : List Layer) :
    (row.IsChain fun layer next => layer.isMove ≠ next.isMove) ↔ ∀ result, ¬Merge row result := by
  constructor
  · rintro hchain result ⟨before, after, hkind⟩
    have htail := (List.isChain_append.mp hchain).2.1
    have hdifferent := (List.isChain_cons_cons.mp htail).1
    exact hdifferent hkind
  · intro hstuck
    induction row with
    | nil => exact List.isChain_nil
    | cons layer row ih =>
      have hrow : row.IsChain fun layer next => layer.isMove ≠ next.isMove := by
        refine ih ?_
        intro result hmerge
        exact hstuck _ (hmerge.cons layer)
      refine List.isChain_cons.mpr ⟨?_, hrow⟩
      intro next hnext hkind
      obtain ⟨rest, rfl⟩ := List.head?_eq_some_iff.mp hnext
      exact hstuck _ (Merge.join [] rest hkind)

/-- The normal row of a row is reached by dropping the idle steps and then putting neighbours
together. -/
theorem merge_normalize (row : List Layer) :
    Relation.ReflTransGen Merge (row.filter (¬·.Idle)) (normalize row) := by
  induction row with
  | nil => exact .refl
  | cons layer row ih =>
    by_cases hidle : layer.Idle
    · simpa [hidle, prepend_of_idle hidle] using ih
    · have hcons : Relation.ReflTransGen Merge ((layer :: row).filter (¬·.Idle))
          (layer :: normalize row) := by
        simpa [hidle] using ih.lift (layer :: ·) fun _ _ h => h.cons layer
      rw [normalize_cons]
      by_cases hhead : ∀ next ∈ (normalize row).head?, layer.isMove ≠ next.isMove
      · rwa [prepend_of_head hidle hhead]
      · push Not at hhead
        obtain ⟨next, hnext, hkind⟩ := hhead
        obtain ⟨rest, hrest⟩ := List.head?_eq_some_iff.mp hnext
        rw [hrest] at hcons ⊢
        rw [prepend_cons_of_isMove_eq hidle hkind]
        exact hcons.tail (Merge.join [] rest hkind)

/-- Idle steps leave no trace in the normal row. -/
theorem normalize_filter (row : List Layer) : normalize (row.filter (¬·.Idle)) = normalize row := by
  induction row with
  | nil => rfl
  | cons layer row ih =>
    by_cases hidle : layer.Idle
    · simpa [hidle, prepend_of_idle hidle] using ih
    · have hkeep : (layer :: row).filter (¬·.Idle) = layer :: row.filter (¬·.Idle) :=
        List.filter_cons_of_pos (by simpa using hidle)
      rw [hkeep, normalize_cons, ih, normalize_cons]

end Layer

/-- What the steps of a reshaping end in: idle ones are dropped, and neighbours of one kind are put
together until none are left. -/
def Reshape.HasNormalForm (reshape : Reshape) (row : List Layer) : Prop :=
  Relation.ReflTransGen Layer.Merge (reshape.layers.filter (¬·.Idle)) row ∧
    ∀ result, ¬Layer.Merge row result

/-- Whatever neighbours are put together first, the steps of a reshaping end in its normal form. -/
theorem Reshape.hasNormalForm_iff {reshape : Reshape} {row : List Layer} :
    reshape.HasNormalForm row ↔ row = reshape.normalForm := by
  constructor
  · rintro ⟨hmerge, hstuck⟩
    -- Merging keeps two things: the normal row, and that no step is idle.
    have hkeep : Layer.normalize row = reshape.normalForm ∧ ∀ layer ∈ row, ¬layer.Idle := by
      clear hstuck
      induction hmerge with
      | refl => exact ⟨Layer.normalize_filter _, by simp⟩
      | tail _ hstep ih => exact ⟨hstep.normalize_eq ▸ ih.1, hstep.active ih.2⟩
    have hnormal : Layer.Normal row :=
      ⟨hkeep.2, (Layer.isChain_iff_forall_not_merge row).mpr hstuck⟩
    rw [← hkeep.1, Layer.normalize_of_normal hnormal]
  · rintro rfl
    exact ⟨Layer.merge_normalize _,
      (Layer.isChain_iff_forall_not_merge _).mp (Layer.normal_normalize _).alternating⟩

/-- The normal form of a reshaping is a normal row. -/
theorem Reshape.normal_normalForm (reshape : Reshape) : Layer.Normal reshape.normalForm :=
  Layer.normal_normalize reshape.layers

/-! ### What a row does -/

namespace Layer

/-- Takes the steps of a row one after the other. -/
def applyAll (row : List Layer) (selections : SelectionSet) : SelectionSet :=
  row.foldl (fun current layer => layer.transform.apply current) selections

@[simp] theorem applyAll_nil (selections : SelectionSet) :
    applyAll [] selections = selections := rfl

@[simp] theorem applyAll_cons (layer : Layer) (row : List Layer) (selections : SelectionSet) :
    applyAll (layer :: row) selections = applyAll row (layer.transform.apply selections) := rfl

/-- An idle step changes nothing. -/
theorem apply_of_idle {layer : Layer} (hidle : layer.Idle) (selections : SelectionSet) :
    layer.transform.apply selections = selections := by
  cases layer with
  | moveUnder path =>
    obtain rfl : path = [] := hidle
    exact SelectionSet.moveUnder_nil selections
  | prependFields fields =>
    obtain rfl : fields = [] := hidle
    exact SelectionSet.prependFields_nil selections

/-- Two steps of one kind do what the step they join to does. -/
theorem apply_join {layer next : Layer} (hkind : layer.isMove = next.isMove)
    (selections : SelectionSet) :
    (layer.join next).transform.apply selections =
      next.transform.apply (layer.transform.apply selections) := by
  cases layer <;> cases next
  · exact (SelectionSet.moveUnder_moveUnder _ _ selections).symm
  · simp [isMove] at hkind
  · simp [isMove] at hkind
  · exact (SelectionSet.prependFields_prependFields _ _ selections).symm

/-- A row with a step put in front does what the step does and then what the row does. -/
theorem applyAll_prepend (layer : Layer) (row : List Layer) (selections : SelectionSet) :
    applyAll (layer.prepend row) selections = applyAll row (layer.transform.apply selections) := by
  by_cases hidle : layer.Idle
  · rw [prepend_of_idle hidle, apply_of_idle hidle]
  by_cases hhead : ∀ next ∈ row.head?, layer.isMove ≠ next.isMove
  · rw [prepend_of_head hidle hhead, applyAll_cons]
  · push Not at hhead
    obtain ⟨next, hnext, hkind⟩ := hhead
    obtain ⟨rest, rfl⟩ := List.head?_eq_some_iff.mp hnext
    rw [prepend_cons_of_isMove_eq hidle hkind, applyAll_cons, applyAll_cons, apply_join hkind]

/-- The normal row of a row does what the row does. -/
theorem applyAll_normalize (row : List Layer) (selections : SelectionSet) :
    applyAll (normalize row) selections = applyAll row selections := by
  induction row generalizing selections with
  | nil => rfl
  | cons layer row ih => rw [normalize_cons, applyAll_prepend, ih, applyAll_cons]

/-- A reshaping does what its steps do one after the other. -/
theorem applyAll_layers (reshape : Reshape) (selections : SelectionSet) :
    applyAll reshape.layers selections = reshape.apply selections := by
  induction reshape generalizing selections with
  | moveUnder path => rfl
  | prependFields names => rfl
  | andThen first second ihfirst ihsecond =>
    calc applyAll (first.layers ++ second.layers) selections
        = applyAll second.layers (applyAll first.layers selections) := List.foldl_append
      _ = second.apply (first.apply selections) := by rw [ihfirst, ihsecond]

/-- The normal form of a reshaping does what the reshaping does. -/
theorem applyAll_normalForm (reshape : Reshape) (selections : SelectionSet) :
    applyAll reshape.normalForm selections = reshape.apply selections := by
  rw [← applyAll_layers]
  exact applyAll_normalize reshape.layers selections

end Layer

end QueryAssembly
