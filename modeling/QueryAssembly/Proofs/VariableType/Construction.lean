import Mathlib.Data.List.Basic
import Mathlib.Data.List.Induction
import Mathlib.Logic.Function.Iterate
import QueryAssembly.VariableType.Basic

/-!
# What a run of construction steps makes

The type that a run ends with is said by a few things about its steps.  The latest making step, as
`LatestStart` picks it out, gives the name and the lists to start from, and nothing in front of it
counts.  Each step to lists behind it puts one list more around the name.  The type excludes null
exactly if a mark was set behind that step which no step to lists or back to the base took away
again (`MarkKept`), so marks do not add up, and going on to lists always drops the mark.

`BuiltFrom` is this as an invariant.  A making step establishes it (`BuiltFrom.of_start`), each
changing step keeps it (`BuiltFrom.apply`), and so does a run of them
(`TypeStep.exists_builtFrom_run`).  What can be seen of a type, its reference, its mark and its
text, follows from it (`BuiltFrom.shows`).

Main statement: `TypeStep.run_shows_of_latestStart`.
-/

namespace QueryAssembly

/-! ### What can be seen of a type -/

/-- What a type shows is so many lists around a name, with the mark or without: its reference has
that many lists and nothing but the mark around them, and its text that many pairs of brackets. -/
structure VariableType.Shows (type : VariableType) (name : String) (depth : Nat)
    (marked : Bool) : Prop where
  toReference_eq : type.toReference =
    if marked then .nonNull (TypeReference.list^[depth] (.named name))
    else TypeReference.list^[depth] (.named name)
  nonNull_eq : type.nonNull = marked
  text_eq : type.text = String.ofList (List.replicate depth '[' ++ name.toList ++
    List.replicate depth ']' ++ if marked then ['!'] else [])

namespace NullableType

/-- The reference of a type has its lists around its innermost name. -/
theorem toReference_eq_iterate (type : NullableType) :
    type.toReference = TypeReference.list^[type.depth] (.named type.innermostName) := by
  induction type with
  | named name => rfl
  | list element ih => rw [toReference, ih, depth, innermostName, Function.iterate_succ_apply']

/-- The text of a type has a pair of brackets for each of its lists. -/
theorem write_eq_replicate (type : NullableType) :
    type.write = List.replicate type.depth '[' ++ type.innermostName.toList ++
      List.replicate type.depth ']' := by
  induction type with
  | named name => simp [write, depth, innermostName]
  | list element ih =>
    rw [write, ih, depth, innermostName, List.replicate_succ, List.replicate_succ']
    simp only [List.cons_append, List.append_assoc]

end NullableType

/-- What a type shows is said by its innermost name, its depth and its mark. -/
theorem VariableType.shows (type : VariableType) :
    type.Shows type.base.innermostName type.base.depth type.nonNull where
  toReference_eq := by rw [toReference, type.base.toReference_eq_iterate]
  nonNull_eq := rfl
  text_eq := by
    rw [text, write, type.base.write_eq_replicate]
    split <;> simp

/-! ### What the steps say -/

namespace TypeStep

/-- The name and the number of lists that a making step starts from. -/
def start? : TypeStep → Option (String × Nat)
  | .named name | .ofName name | .nullableNamed name | .nullableOfName name => some (name, 0)
  | .list name | .nullableList name => some (name, 1)
  | .withoutNull | .listOf | .base => none

/-- The latest making step of a run starts from the name and the number of lists, and the given
steps come after it. -/
def LatestStart (steps : List TypeStep) (name : String) (depth : Nat)
    (after : List TypeStep) : Prop :=
  ∃ before making, steps = before ++ making :: after ∧ making.start? = some (name, depth) ∧
    ∀ step ∈ after, step.start? = none

/-- Some step sets the mark, and none behind it takes the mark away. -/
def MarkKept (steps : List TypeStep) : Prop :=
  ∃ before behind, steps = before ++ .withoutNull :: behind ∧ .listOf ∉ behind ∧ .base ∉ behind

/-- Every run with a making step has a latest one. -/
theorem exists_latestStart {steps : List TypeStep} (h : ∃ step ∈ steps, step.start? ≠ none) :
    ∃ name depth after, LatestStart steps name depth after := by
  induction steps with
  | nil =>
    obtain ⟨step, hmem, -⟩ := h
    exact absurd hmem List.not_mem_nil
  | cons first rest ih =>
    by_cases hrest : ∃ step ∈ rest, step.start? ≠ none
    · obtain ⟨name, depth, after, before, making, rfl, hlatest⟩ := ih hrest
      exact ⟨name, depth, after, first :: before, making, rfl, hlatest⟩
    · have hchanging : ∀ step ∈ rest, step.start? = none := by
        intro step hmem
        by_contra hmakes
        exact hrest ⟨step, hmem, hmakes⟩
      have hfirst : first.start? ≠ none := by
        obtain ⟨step, hmem, hmakes⟩ := h
        rcases List.mem_cons.mp hmem with rfl | hmem
        · exact hmakes
        · exact absurd (hchanging step hmem) hmakes
      obtain ⟨⟨name, depth⟩, hstart⟩ := Option.ne_none_iff_exists'.mp hfirst
      exact ⟨name, depth, rest, [], first, rfl, hstart, hchanging⟩

theorem not_markKept_nil : ¬MarkKept [] := by
  rintro ⟨before, behind, heq, -⟩
  exact absurd heq (by simp)

/-- A mark that is set last is kept. -/
theorem markKept_concat_withoutNull (steps : List TypeStep) :
    MarkKept (steps ++ [.withoutNull]) :=
  ⟨steps, [], rfl, List.not_mem_nil, List.not_mem_nil⟩

/-- A step to lists or back to the base takes every mark away. -/
theorem not_markKept_concat {steps : List TypeStep} {last : TypeStep}
    (hlast : last = .listOf ∨ last = .base) : ¬MarkKept (steps ++ [last]) := by
  rintro ⟨before, behind, heq, hlists, hbase⟩
  have hne : last ≠ .withoutNull := by
    rintro rfl
    exact absurd hlast (by decide)
  have hend : (TypeStep.withoutNull :: behind).getLast? = some last := by
    have hends := congrArg List.getLast? heq
    rw [List.getLast?_concat, List.getLast?_append_of_ne_nil _ (List.cons_ne_nil _ _)] at hends
    exact hends.symm
  have hmem : last ∈ behind :=
    (List.mem_cons.mp (List.mem_of_getLast? hend)).resolve_left hne
  rcases hlast with rfl | rfl
  · exact hlists hmem
  · exact hbase hmem

/-! ### The invariant -/

/-- A type is what the steps after a making step made of the name and the number of lists that it
started from. -/
structure BuiltFrom (name : String) (depth : Nat) (after : List TypeStep)
    (type : VariableType) : Prop where
  innermostName_eq : type.base.innermostName = name
  /-- Each step to lists puts one list more around the name. -/
  depth_eq : type.base.depth = depth + after.count .listOf
  nonNull_iff : type.nonNull = true ↔ MarkKept after

namespace BuiltFrom

variable {name : String} {depth : Nat} {after : List TypeStep} {type : VariableType}

/-- A making step makes the type of its name with its lists, without a mark, whatever type there
was before. -/
theorem of_start {making : TypeStep} (h : making.start? = some (name, depth))
    (current : Option VariableType) :
    ∃ type, making.apply current = some type ∧ BuiltFrom name depth [] type := by
  have hunmarked : false = true ↔ MarkKept [] := iff_of_false Bool.false_ne_true not_markKept_nil
  cases making with
  | withoutNull | listOf | base => exact nomatch h
  | _ =>
    obtain ⟨rfl, rfl⟩ := Prod.mk.inj (Option.some.inj h)
    exact ⟨_, rfl, rfl, rfl, hunmarked⟩

/-- A changing step goes on from the type there is. -/
theorem apply (h : BuiltFrom name depth after type) {step : TypeStep} (hstep : step.start? = none) :
    ∃ next, step.apply (some type) = some next ∧ BuiltFrom name depth (after ++ [step]) next := by
  have hdepth := h.depth_eq
  cases step with
  | withoutNull =>
    refine ⟨type.withoutNull, rfl, h.innermostName_eq, ?_, ?_⟩
    · rw [List.count_append, List.count_singleton]
      exact hdepth
    · exact iff_of_true rfl (markKept_concat_withoutNull after)
  | listOf =>
    refine ⟨.ofNullable (.list type.base), rfl, h.innermostName_eq, ?_, ?_⟩
    · rw [List.count_append, List.count_singleton_self, ← Nat.add_assoc, ← hdepth]
      rfl
    · exact iff_of_false Bool.false_ne_true (not_markKept_concat (.inl rfl))
  | base =>
    refine ⟨.ofNullable type.base, rfl, h.innermostName_eq, ?_, ?_⟩
    · rw [List.count_append, List.count_singleton]
      exact hdepth
    · exact iff_of_false Bool.false_ne_true (not_markKept_concat (.inr rfl))
  | _ => exact absurd hstep nofun

/-- What is seen of the type is said by the steps. -/
theorem shows (h : BuiltFrom name depth after type) :
    type.Shows name (depth + after.count .listOf) type.nonNull := by
  rw [← h.depth_eq, ← h.innermostName_eq]
  exact type.shows

end BuiltFrom

/-! ### Runs -/

theorem run_append (current : Option VariableType) (steps rest : List TypeStep) :
    run current (steps ++ rest) = run (run current steps) rest :=
  List.foldl_append

theorem run_concat (current : Option VariableType) (steps : List TypeStep) (step : TypeStep) :
    run current (steps ++ [step]) = step.apply (run current steps) :=
  run_append current steps [step]

/-- A run ends with a type that its latest making step and the steps after that have built. -/
theorem exists_builtFrom_run {steps after : List TypeStep} {name : String} {depth : Nat}
    (h : LatestStart steps name depth after) (current : Option VariableType) :
    ∃ type, run current steps = some type ∧ BuiltFrom name depth after type := by
  obtain ⟨before, making, rfl, hstart, hchanging⟩ := h
  -- On the steps after the making one, the last of them first: each goes on from a type built.
  induction after using List.reverseRecOn with
  | nil =>
    rw [run_concat]
    exact BuiltFrom.of_start hstart _
  | append_singleton after step ih =>
    have hafter : ∀ other ∈ after, other.start? = none :=
      fun other hmem => hchanging other (List.mem_append_left _ hmem)
    have hstep : step.start? = none := hchanging step (by simp)
    obtain ⟨type, hrun, hbuilt⟩ := ih hafter
    have hsplit : before ++ making :: (after ++ [step]) =
        (before ++ making :: after) ++ [step] := by simp
    rw [hsplit, run_concat, hrun]
    exact hbuilt.apply hstep

/-- The type after a step of a run is the type that the run up to this step ends with. -/
theorem getElem?_types {steps : List TypeStep} {i : Nat} (hi : i < steps.length)
    (current : Option VariableType) :
    (types current steps)[i]? = some (run current (steps.take (i + 1))) := by
  induction steps generalizing current i with
  | nil => exact absurd hi (Nat.not_lt_zero i)
  | cons first rest ih =>
    rw [types, List.take_succ_cons]
    cases i with
    | zero => rfl
    | succ i =>
      rw [List.getElem?_cons_succ, ih (Nat.lt_of_succ_lt_succ hi)]
      rfl

/-- A run with a making step ends with a type.  What is seen of this type is the name and the lists
of the latest making step, with one list more for each step to lists after it, and with the mark
exactly if a step after it sets the mark and none behind that one takes it away.  The types after
the single steps of a run are those that the runs up to these steps end with. -/
theorem run_shows_of_latestStart (current : Option VariableType) (steps : List TypeStep) :
    ((∃ step ∈ steps, step.start? ≠ none) →
      ∃ name depth after, LatestStart steps name depth after) ∧
    (∀ name depth after, LatestStart steps name depth after →
      ∃ type marked, run current steps = some type ∧ (marked = true ↔ MarkKept after) ∧
        type.Shows name (depth + after.count .listOf) marked) ∧
    ∀ i < steps.length, (types current steps)[i]? = some (run current (steps.take (i + 1))) := by
  refine ⟨exists_latestStart, ?_, fun i hi => getElem?_types hi current⟩
  intro name depth after hlatest
  obtain ⟨type, hrun, hbuilt⟩ := exists_builtFrom_run hlatest current
  exact ⟨type, type.nonNull, hrun, hbuilt.nonNull_iff, hbuilt.shows⟩

/-- Two marks that the step to lists drops, and one that is kept. -/
def markedAnew : List TypeStep :=
  [.withoutNull, .withoutNull, .listOf, .withoutNull]

theorem run_shows_of_latestStart_markedAnew :
    LatestStart (.named "Int" :: .list "ID" :: markedAnew) "ID" 1 markedAnew ∧
      ∃ type marked, run none (.named "Int" :: .list "ID" :: markedAnew) = some type ∧
        (marked = true ↔ MarkKept markedAnew) ∧ type.Shows "ID" 2 marked := by
  have hlatest : LatestStart (.named "Int" :: .list "ID" :: markedAnew) "ID" 1 markedAnew :=
    ⟨[.named "Int"], .list "ID", rfl, rfl, by decide⟩
  obtain ⟨-, hshows, -⟩ := run_shows_of_latestStart none (.named "Int" :: .list "ID" :: markedAnew)
  exact ⟨hlatest, hshows "ID" 1 markedAnew hlatest⟩

end TypeStep

end QueryAssembly
