import QueryAssembly.Proofs.Query.Build
import QueryAssembly.Session

/-!
# Templates as snapshots

A session may edit its configuration, build from it and make templates of it in any order, and
selections come from the template made last.  What a selection answers is said here without
templates: it is what a build would have answered when that template was made, with the arguments
listed then and with the fragments to be selected (`Configuration.snapshot`).  Nothing that happens
in between has any influence on it.

Steps are told apart by their places in a run.  `Session.MakesTemplateAt` says that a template is
made at a place, which is seen from the answer given there, and `Session.LatestTemplateAt` picks the
latest of these places before another.  A step that makes no template keeps the one there is
(`Session.template_step`), hence so does the part of a run in which none is made
(`Session.template_before_eq`).

Main statement: `Session.answersBySnapshots`.
-/

namespace QueryAssembly

/-- A configuration as a template of it takes it: with the arguments that are listed, and none if
there is no list.  The fragments are given when they are selected. -/
def Configuration.snapshot (configuration : Configuration) (documents : List Document) :
    Configuration :=
  { configuration with
    entry :=
      { configuration.entry with arguments := some (configuration.entry.arguments.getD []) }
    fragments := documents }

/-- A snapshot is built from the outline that a template is made of. -/
@[simp] theorem Configuration.buildOutline_snapshot (configuration : Configuration)
    (documents : List Document) :
    (configuration.snapshot documents).buildOutline = configuration.templateOutline := rfl

/-- A template of a configuration selects what a snapshot of the configuration builds. -/
theorem Template.select_eq_build_snapshot {template : Template} {configuration : Configuration}
    (h : template.outline = configuration.templateOutline) (documents : List Document) :
    template.select documents = (configuration.snapshot documents).build := by
  rw [Configuration.build_eq, Configuration.buildOutline_snapshot, ← h,
    template.argumentError?_outline, select]
  rfl

namespace Session

/-! ### Places of a run -/

/-- A session that has made no template yet. -/
def start (configuration : Configuration) : Session :=
  { configuration }

/-- The session that a run has come to before the step at a place. -/
def before (session : Session) (steps : List Step) (i : Nat) : Session :=
  session.run (steps.take i)

/-- At the place of a run a template is made. -/
def MakesTemplateAt (session : Session) (steps : List Step) (i : Nat) : Prop :=
  steps[i]? = some .makeTemplate ∧ ∃ answer, (session.answers steps)[i]? = some (.ok answer)

/-- The latest template before the place `k` of a run is made at the place `i`. -/
structure LatestTemplateAt (session : Session) (steps : List Step) (k i : Nat) : Prop where
  lt : i < k
  makes : session.MakesTemplateAt steps i
  none_since : ∀ j, i < j → j < k → ¬session.MakesTemplateAt steps j

variable {session : Session} {steps : List Step} {step : Step} {i k : Nat}

/-- What is answered at a place is the answer to the step there. -/
theorem getElem?_answers (session : Session) (steps : List Step) (i : Nat) :
    (session.answers steps)[i]? =
      steps[i]?.map fun step => ((session.before steps i).step step).1 := by
  induction steps generalizing session i with
  | nil => rfl
  | cons first rest ih =>
    cases i with
    | zero => rfl
    | succ i => exact ih (session.step first).2 i

/-- One step further in a run. -/
theorem before_succ (h : steps[i]? = some step) :
    session.before steps (i + 1) = ((session.before steps i).step step).2 := by
  rw [before, List.take_add_one, h, run, List.foldl_append]
  rfl

/-- Behind its end a run goes no further. -/
theorem before_succ_of_none (h : steps[i]? = none) :
    session.before steps (i + 1) = session.before steps i := by
  rw [before, List.take_add_one, h, Option.toList_none, List.append_nil, before]

/-! ### Single steps -/

/-- What a session answers to a result of a build. -/
def answerOf (result : Except BuildError Document) : Except Failure Answer :=
  (result.mapError .cannotBuild).map .document

theorem answerOf_eq_error_iff {result : Except BuildError Document} {error : BuildError} :
    answerOf result = .error (.cannotBuild error) ↔ result = .error error := by
  rw [answerOf, Except.map_eq_error_iff, Except.mapError_eq_error_iff]
  simp

theorem step_makeTemplate_of_ok {template : Template}
    (h : Template.ofOutline session.configuration.templateOutline = .ok template) :
    session.step .makeTemplate =
      (.ok (.outline template.outline), { session with template := some template }) := by
  rw [Session.step, attempt, h]
  rfl

theorem step_makeTemplate_of_error {error : BuildError}
    (h : Template.ofOutline session.configuration.templateOutline = .error error) :
    session.step .makeTemplate = (.error (.cannotBuild error), session) := by
  rw [Session.step, attempt, h]
  rfl

theorem step_select_of_some {template : Template} (h : session.template = some template)
    (documents : Option (List Document)) :
    session.step (.select documents) =
      (answerOf (template.select (documents.getD session.configuration.fragments)), session) := by
  rw [Session.step, attempt, currentTemplate, h]
  simp only [bind, Except.bind]
  cases template.select (documents.getD session.configuration.fragments) <;> rfl

theorem step_select_of_none (h : session.template = none) (documents : Option (List Document)) :
    session.step (.select documents) = (.error .noTemplate, session) := by
  rw [Session.step, attempt, currentTemplate, h]
  rfl

/-- A selection finds nothing wrong with the arguments. -/
theorem step_select_ne_error {error : BuildError} (h : error.ConcernsArguments)
    (documents : Option (List Document)) :
    (session.step (.select documents)).1 ≠ .error (.cannotBuild error) := by
  cases htemplate : session.template with
  | none =>
    rw [step_select_of_none htemplate]
    rintro ⟨⟩
  | some template =>
    rw [step_select_of_some htemplate, Template.select, ne_eq, answerOf_eq_error_iff]
    intro hassemble
    exact Outline.not_concernsArguments_of_assemble hassemble h

/-- A step that is not to make a template keeps the one there is. -/
theorem template_step (h : step ≠ .makeTemplate) :
    (session.step step).2.template = session.template := by
  cases step with
  | name | clearVariables | entry | listArguments | setTransform | addFragment | clearFragments =>
    rfl
  | declare name value =>
    rw [Session.step, attempt]
    cases VariableType.ofJson? value <;> rfl
  | declareText name text =>
    rw [Session.step, attempt]
    cases VariableType.ofText text <;> rfl
  | build =>
    rw [Session.step, attempt]
    cases session.configuration.build <;> rfl
  | makeTemplate => exact absurd rfl h
  | showTemplate =>
    rw [Session.step, attempt]
    cases session.currentTemplate <;> rfl
  | select documents =>
    cases htemplate : session.template with
    | none => rw [step_select_of_none htemplate, htemplate]
    | some template => rw [step_select_of_some htemplate, htemplate]

/-- Making a template fails with what the check of the arguments finds. -/
theorem step_makeTemplate_eq_error_iff {failure : Failure} :
    (session.step .makeTemplate).1 = .error failure ↔
      ∃ error, failure = .cannotBuild error ∧
        session.configuration.templateOutline.argumentError? = some error := by
  cases hmade : Template.ofOutline session.configuration.templateOutline with
  | error error =>
    rw [step_makeTemplate_of_error hmade, Except.error.injEq,
      Template.ofOutline_eq_error_iff.mp hmade]
    simp [eq_comm]
  | ok template =>
    obtain ⟨houtline, -⟩ := Template.ofOutline_eq_ok_iff.mp hmade
    rw [step_makeTemplate_of_ok hmade, ← houtline, template.argumentError?_outline]
    simp

/-! ### Runs -/

/-- A template is made where one is to be made and the check of the arguments allows it. -/
theorem makesTemplateAt_iff :
    session.MakesTemplateAt steps i ↔ steps[i]? = some .makeTemplate ∧ ∃ template,
      Template.ofOutline (session.before steps i).configuration.templateOutline = .ok template := by
  refine and_congr_right fun hstep => ?_
  rw [getElem?_answers, hstep, Option.map_some]
  cases hmade : Template.ofOutline (session.before steps i).configuration.templateOutline with
  | error error => simp [step_makeTemplate_of_error hmade]
  | ok template => simp [step_makeTemplate_of_ok hmade]

/-- A template that is made at a place is the one that the run holds behind it. -/
theorem MakesTemplateAt.exists_template (h : session.MakesTemplateAt steps i) :
    ∃ template, (session.before steps (i + 1)).template = some template ∧
      template.outline = (session.before steps i).configuration.templateOutline := by
  obtain ⟨hstep, template, hmade⟩ := makesTemplateAt_iff.mp h
  refine ⟨template, ?_, (Template.ofOutline_eq_ok_iff.mp hmade).1⟩
  rw [before_succ hstep, step_makeTemplate_of_ok hmade]

/-- At a place where no template is made, the one there is is kept: whatever else is done there, and
also if the making of one fails. -/
theorem template_before_succ (h : ¬session.MakesTemplateAt steps i) :
    (session.before steps (i + 1)).template = (session.before steps i).template := by
  cases hstep : steps[i]? with
  | none => rw [before_succ_of_none hstep]
  | some step =>
    rw [before_succ hstep]
    by_cases hmake : step = .makeTemplate
    · subst hmake
      cases hmade : Template.ofOutline (session.before steps i).configuration.templateOutline with
      | error error => rw [step_makeTemplate_of_error hmade]
      | ok template => exact absurd (makesTemplateAt_iff.mpr ⟨hstep, template, hmade⟩) h
    · exact template_step hmake

/-- Where no template is made, the one there is is kept. -/
theorem template_before_eq (hik : i ≤ k)
    (h : ∀ j, i ≤ j → j < k → ¬session.MakesTemplateAt steps j) :
    (session.before steps k).template = (session.before steps i).template := by
  induction k, hik using Nat.le_induction with
  | base => rfl
  | succ k hik ih =>
    rw [template_before_succ (h k hik (Nat.lt_succ_self k))]
    exact ih fun j hij hjk => h j hij (Nat.lt_succ_of_lt hjk)

/-- A run holds the latest template that it has made. -/
theorem LatestTemplateAt.exists_template (h : session.LatestTemplateAt steps k i) :
    ∃ template, (session.before steps k).template = some template ∧
      template.outline = (session.before steps i).configuration.templateOutline := by
  rw [template_before_eq h.lt h.none_since]
  exact h.makes.exists_template

/-- If a run has made templates, one of them is the latest. -/
theorem exists_latestTemplateAt (h : ∃ j < k, session.MakesTemplateAt steps j) :
    ∃ i, session.LatestTemplateAt steps k i := by
  induction k with
  | zero =>
    obtain ⟨j, hj, -⟩ := h
    exact absurd hj (Nat.not_lt_zero j)
  | succ k ih =>
    by_cases hk : session.MakesTemplateAt steps k
    · refine ⟨k, Nat.lt_succ_self k, hk, ?_⟩
      intro j hkj hjk
      omega
    · obtain ⟨j, hj, hmakes⟩ := h
      have hjk : j ≠ k := by
        rintro rfl
        exact hk hmakes
      obtain ⟨i, hlatest⟩ := ih ⟨j, by omega, hmakes⟩
      refine ⟨i, Nat.lt_succ_of_lt hlatest.lt, hlatest.makes, ?_⟩
      intro j hij hjk
      rcases Nat.lt_succ_iff_lt_or_eq.mp hjk with hjk | rfl
      · exact hlatest.none_since j hij hjk
      · exact hk

/-! ### Answers by snapshots -/

/-- What is answered to the selection of the given fragment documents at a place of a run. -/
inductive SelectionAnswer (session : Session) (steps : List Step) (k : Nat)
    (documents : List Document) : Except Failure Answer → Prop where
  /-- What a build of the snapshot answers that was taken when the latest template was made. -/
  | snapshot {i : Nat} (latest : session.LatestTemplateAt steps k i) :
      SelectionAnswer session steps k documents
        (answerOf ((session.before steps i).configuration.snapshot documents).build)
  /-- That there is no template, if none has been made. -/
  | noTemplate (none_made : ∀ i < k, ¬session.MakesTemplateAt steps i) :
      SelectionAnswer session steps k documents (.error .noTemplate)

/-- The answers of a run on templates are said by snapshots of its configurations. -/
structure AnswersBySnapshots (session : Session) (steps : List Step) : Prop where
  /-- A selection answers by the snapshot that was taken when the latest template was made.  It
  takes the fragments of the configuration if none are given. -/
  select (k : Nat) (documents : Option (List Document)) (answer : Except Failure Answer) :
    steps[k]? = some (.select documents) →
      ((session.answers steps)[k]? = some answer ↔
        session.SelectionAnswer steps k
          (documents.getD (session.before steps k).configuration.fragments) answer)
  /-- A template cannot be made if a build of the snapshot finds something wrong with the arguments,
  whatever the fragments are, and for no other reason. -/
  makeTemplate (k : Nat) (documents : List Document) (failure : Failure) :
    steps[k]? = some .makeTemplate →
      ((session.answers steps)[k]? = some (.error failure) ↔
        ∃ error, failure = .cannotBuild error ∧ error.ConcernsArguments ∧
          ((session.before steps k).configuration.snapshot documents).build = .error error)
  /-- A selection finds nothing wrong with the arguments. -/
  arguments_valid (k : Nat) (documents : Option (List Document)) (error : BuildError) :
    steps[k]? = some (.select documents) → error.ConcernsArguments →
      (session.answers steps)[k]? ≠ some (.error (.cannotBuild error))

/-- With a template made before, a selection answers by the snapshot. -/
theorem LatestTemplateAt.getElem?_answers_eq {documents : Option (List Document)}
    (h : session.LatestTemplateAt steps k i) (hstep : steps[k]? = some (.select documents)) :
    (session.answers steps)[k]? =
      some (answerOf ((session.before steps i).configuration.snapshot
        (documents.getD (session.before steps k).configuration.fragments)).build) := by
  obtain ⟨template, htemplate, houtline⟩ := h.exists_template
  rw [getElem?_answers, hstep, Option.map_some, step_select_of_some htemplate,
    Template.select_eq_build_snapshot houtline]

/-- Without a template made before, a selection answers that there is none. -/
theorem getElem?_answers_of_none_made {documents : Option (List Document)}
    (hstart : session.template = none) (h : ∀ i < k, ¬session.MakesTemplateAt steps i)
    (hstep : steps[k]? = some (.select documents)) :
    (session.answers steps)[k]? = some (.error .noTemplate) := by
  have htemplate : (session.before steps k).template = none := by
    rw [template_before_eq (Nat.zero_le k) fun j _ hj => h j hj]
    exact hstart
  rw [getElem?_answers, hstep, Option.map_some, step_select_of_none htemplate]

/-- What a run answers to a selection. -/
theorem selectionAnswer_iff {documents : Option (List Document)} {answer : Except Failure Answer}
    (hstart : session.template = none) (hstep : steps[k]? = some (.select documents)) :
    (session.answers steps)[k]? = some answer ↔
      session.SelectionAnswer steps k
        (documents.getD (session.before steps k).configuration.fragments) answer := by
  constructor
  · intro hanswer
    by_cases hmade : ∃ j < k, session.MakesTemplateAt steps j
    · obtain ⟨i, hlatest⟩ := exists_latestTemplateAt hmade
      rw [hlatest.getElem?_answers_eq hstep] at hanswer
      obtain rfl := Option.some.inj hanswer
      exact .snapshot hlatest
    · push Not at hmade
      rw [getElem?_answers_of_none_made hstart hmade hstep] at hanswer
      obtain rfl := Option.some.inj hanswer
      exact .noTemplate hmade
  · rintro (hlatest | hmade)
    · exact hlatest.getElem?_answers_eq hstep
    · exact getElem?_answers_of_none_made hstart hmade hstep

/-- In every run of a session, templates are snapshots: each selection answers what a build would
have answered when the latest template was made, with the arguments listed then, none if they were
not, and with the fragments to be selected.  A template is refused for its arguments alone, with the
error of that build, and so no selection is. -/
theorem answersBySnapshots (configuration : Configuration) (steps : List Step) :
    (start configuration).AnswersBySnapshots steps where
  select k documents answer hstep := selectionAnswer_iff rfl hstep
  makeTemplate k documents failure hstep := by
    rw [getElem?_answers, hstep, Option.map_some, Option.some.injEq, step_makeTemplate_eq_error_iff]
    refine exists_congr fun error => and_congr_right fun _ => ?_
    rw [and_comm, Configuration.build_eq_error_and_concernsArguments_iff,
      Configuration.buildOutline_snapshot]
  arguments_valid k documents error hstep herror := by
    rw [getElem?_answers, hstep, Option.map_some, ne_eq, Option.some.injEq]
    exact step_select_ne_error herror documents

/-- A selection speaks of the entry field that was there when the template was made. -/
example : ((start {}).answers [.entry "products", .makeTemplate, .entry "reviews",
    .select (some [])])[3]? = some (.error (.cannotBuild (.emptySelection "products"))) := rfl

end Session

end QueryAssembly
