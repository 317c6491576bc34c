import QueryAssembly.Proofs.Query.Consistency
import QueryAssembly.Proofs.Variables.Declarations

/-!
# Arguments by default

Where the entry field lists no arguments, a build forwards every declared variable.  The list that
it makes of them goes through the same checks as one that is given, and it always passes: each of
its names is declared, and none stands twice, since no variable is declared twice.

The order of the list is that of the variables, and this is the order of their first declarations,
in whatever way they have come about: declared one by one, some of them anew, forgotten in between,
or taken from a JSON object.  `Variables.ReachedBy` has a case for each of these ways, and each
keeps the invariant `ComesTo` (`Variables.ReachedBy.comesTo`).

Main statement: `Configuration.build_withArguments_none`.
-/

namespace QueryAssembly

/-! ### Ways to come to variables -/

/-- The variables come about by declaring and forgetting, or from a JSON object, and the given
declarations are those that count: all that were made since the variables were last forgotten. -/
inductive Variables.ReachedBy : Variables → List (String × VariableType) → Prop where
  | empty : ReachedBy .empty []
  | insert {vars : Variables} {declarations : List (String × VariableType)}
      (reachedBy : ReachedBy vars declarations) (name : String) (type : VariableType) :
      ReachedBy (vars.insert name type) (declarations ++ [(name, type)])
  | clear {vars : Variables} {declarations : List (String × VariableType)}
      (reachedBy : ReachedBy vars declarations) : ReachedBy .empty []
  | object {members : List (String × Json)} {vars : Variables}
      {declarations : List (String × VariableType)}
      (ofJson?_eq : ofJson? (.object members) = some vars)
      (states : List.Forall₂ States members declarations) : ReachedBy vars declarations

/-- In every way, each name has the place of its first declaration and the type of its last. -/
theorem Variables.ReachedBy.comesTo {vars : Variables}
    {declarations : List (String × VariableType)} (h : vars.ReachedBy declarations) :
    ComesTo declarations vars.entries := by
  induction h with
  | empty => exact comesTo_ofList []
  | insert _ name type ih => exact ih.declare name type
  | clear _ => exact comesTo_ofList []
  | object ofJson?_eq states =>
    rw [ofJson?, mapM_declarationOf?_eq_some_iff.mpr states] at ofJson?_eq
    obtain rfl := Option.some.inj ofJson?_eq
    exact comesTo_ofList _

/-! ### The list by default -/

namespace Outline

variable {outline : Outline}

/-- The names of all variables, in declared order, pass the check of the arguments. -/
theorem argumentError?_of_arguments_eq_names (h : outline.arguments = outline.vars.names) :
    outline.argumentError? = none := by
  have hdeclared : ∀ argument ∈ outline.vars.names, argument ∈ outline.vars.names :=
    fun _ hargument => hargument
  have hdistinct : outline.vars.names.Nodup := outline.vars.nodup_names
  rw [argumentError?_eq_none_iff_nodup, h]
  exact ⟨hdeclared, hdistinct⟩

/-- If all variables are forwarded, the arguments of the entry field are in the order of the
declarations. -/
theorem map_fst_arguments_entryField (h : outline.arguments = outline.vars.names)
    (selections : SelectionSet) :
    (outline.entryField selections).arguments.map Prod.fst =
      (outline.operation selections).variableDefinitions.map VariableDefinition.name := by
  rw [entryField, operation, map_fst_forwardingArguments, h, Variables.map_name_definitions]

end Outline

namespace Configuration

/-- The configuration with another list of arguments for its entry field, or with none. -/
def withArguments (configuration : Configuration) (listed : Option (List String)) :
    Configuration :=
  { configuration with entry := { configuration.entry with arguments := listed } }

/-- By default the arguments are the names of all variables. -/
theorem arguments_buildOutline_withArguments_none (configuration : Configuration) :
    (configuration.withArguments none).buildOutline.arguments =
      (configuration.withArguments none).buildOutline.vars.names := rfl

/-- Without a list the check of the arguments finds nothing wrong, so no build fails in it. -/
theorem build_withArguments_none_ne_error (configuration : Configuration) {error : BuildError}
    (hconcerns : error.ConcernsArguments) :
    (configuration.withArguments none).build ≠ .error error := by
  intro hbuild
  have herror := build_eq_error_and_concernsArguments_iff.mp ⟨hbuild, hconcerns⟩
  rw [Outline.argumentError?_of_arguments_eq_names
    configuration.arguments_buildOutline_withArguments_none] at herror
  cases herror

/-- The names of all variables, listed in declared order, are what is forwarded by default. -/
theorem build_withArguments_names (configuration : Configuration) :
    (configuration.withArguments (some configuration.vars.names)).build =
      (configuration.withArguments none).build := rfl

/-- Without a list of arguments a build never fails for an argument.  It comes to the same as with
the names of all variables listed in declared order, which is the order of their first declarations,
in whatever way they have come about.  And if it succeeds, the entry field has one argument for each
variable that the operation declares, in the same order. -/
theorem build_withArguments_none (configuration : Configuration) :
    (∀ argument operation,
      (configuration.withArguments none).build ≠ .error (.undeclaredArgument argument operation) ∧
      (configuration.withArguments none).build ≠ .error (.duplicateArgument argument operation)) ∧
    (configuration.withArguments none).build =
      (configuration.withArguments (some configuration.vars.names)).build ∧
    (∀ declarations, configuration.vars.ReachedBy declarations →
      ComesTo declarations configuration.vars.entries) ∧
    ∀ document, (configuration.withArguments none).build = .ok document →
      ∃ operation entry, document.definitions.head? = some (.operation operation) ∧
        operation.selectionSet.items = [.field entry] ∧
          entry.arguments.map Prod.fst =
            operation.variableDefinitions.map VariableDefinition.name := by
  refine ⟨?_, configuration.build_withArguments_names.symm,
    fun declarations => Variables.ReachedBy.comesTo, ?_⟩
  · intro argument operation
    exact ⟨build_withArguments_none_ne_error configuration (.undeclaredArgument argument operation),
      build_withArguments_none_ne_error configuration (.duplicateArgument argument operation)⟩
  · intro document hbuild
    obtain ⟨-, hassemble⟩ := build_eq_ok_iff.mp hbuild
    obtain ⟨fragments, -, -, rfl⟩ := Outline.assemble_eq_ok_iff.mp hassemble
    refine ⟨_, _, rfl, rfl, ?_⟩
    exact Outline.map_fst_arguments_entryField
      configuration.arguments_buildOutline_withArguments_none _

/-- Two variables, one of them declared anew, and no list of arguments. -/
def regional : Configuration where
  name := "Regional"
  vars := .ofList [("region", .named "String"), ("first", .named "Int"), ("region", .list "String")]
  entry := { name := "offers" }
  fragments := [⟨[.fragment { name := "Price", condition := "Offer" }]⟩]

theorem build_withArguments_none_regional :
    ComesTo [("region", .named "String"), ("first", .named "Int"), ("region", .list "String")]
        regional.vars.entries ∧
      ∃ document operation entry, (regional.withArguments none).build = .ok document ∧
        document.definitions.head? = some (.operation operation) ∧
          operation.selectionSet.items = [.field entry] ∧
            entry.arguments.map Prod.fst =
              operation.variableDefinitions.map VariableDefinition.name := by
  obtain ⟨-, -, hcomesTo, hforwarded⟩ := build_withArguments_none regional
  have hforgotten : Variables.empty.ReachedBy [] := .clear (.insert .empty "after" (.named "ID"))
  obtain ⟨document, hbuild⟩ : ∃ document, (regional.withArguments none).build = .ok document :=
    ⟨_, rfl⟩
  obtain ⟨operation, entry, hhead, hitems, hnames⟩ := hforwarded document hbuild
  refine ⟨hcomesTo _ ?_, document, operation, entry, hbuild, hhead, hitems, hnames⟩
  exact ((hforgotten.insert "region" (.named "String")).insert "first" (.named "Int")).insert
    "region" (.list "String")

end Configuration

end QueryAssembly
