import QueryAssembly.VariableType.Basic

/-!
# Declared variables

The variables that an operation declares, in the order in which they were first declared, each with
the type that it was last declared with.

`Variables.insert` declares one more: a new name goes to the end, and a name that is declared
already keeps its place and takes the new type.  No name is declared twice, which `Variables` keeps
in its type.  The main statement is `Variables.map_fst_declare`, that a declaration adds its name at
the end or leaves the names as they are.

Variables reach a field as its arguments, each under its own name.  Which of them do is said by a
list of names, or else all of them do.
-/

namespace QueryAssembly

/-- Declared variables in order, each name once. -/
@[ext] structure Variables where
  /-- The names with their types. -/
  entries : List (String × VariableType)
  /-- No name is declared twice. -/
  nodup_names : (entries.map Prod.fst).Nodup

namespace Variables

/-- No variables. -/
def empty : Variables :=
  ⟨[], by simp⟩

instance : Inhabited Variables := ⟨empty⟩

/-- The names of the variables, in declared order. -/
def names (vars : Variables) : List String :=
  vars.entries.map Prod.fst

/-- Declares a name in a row of entries: in its place if it has one, else at the end. -/
def declare (name : String) (type : VariableType) :
    List (String × VariableType) → List (String × VariableType)
  | [] => [(name, type)]
  | (other, held) :: rest =>
    if other = name then (other, type) :: rest else (other, held) :: declare name type rest

/-- A declaration adds its name at the end, unless the name is there already. -/
theorem map_fst_declare (name : String) (type : VariableType)
    (entries : List (String × VariableType)) :
    (declare name type entries).map Prod.fst =
      if name ∈ entries.map Prod.fst then entries.map Prod.fst
      else entries.map Prod.fst ++ [name] := by
  induction entries with
  | nil => simp [declare]
  | cons entry rest ih =>
    obtain ⟨other, held⟩ := entry
    by_cases h : other = name
    · simp [declare, h]
    · have h' : ¬name = other := fun heq => h heq.symm
      by_cases hmem : name ∈ rest.map Prod.fst
      · simp only [declare, if_neg h, List.map_cons, ih, List.mem_cons, hmem, or_true, if_true]
      · simp only [declare, if_neg h, List.map_cons, ih, List.mem_cons, hmem, h', or_self,
          if_false, List.cons_append]

/-- A declaration keeps names distinct. -/
theorem nodup_declare {name : String} {type : VariableType}
    {entries : List (String × VariableType)} (h : (entries.map Prod.fst).Nodup) :
    ((declare name type entries).map Prod.fst).Nodup := by
  rw [map_fst_declare]
  split
  · exact h
  · next hmem => exact List.nodup_append.mpr ⟨h, by simp, by simp; grind⟩

/-- Declares one more variable: in its place if the name is declared already, else at the end. -/
def insert (vars : Variables) (name : String) (type : VariableType) : Variables :=
  ⟨declare name type vars.entries, nodup_declare vars.nodup_names⟩

/-- The variables of a row of declarations, made one after the other. -/
def ofList (declarations : List (String × VariableType)) : Variables :=
  declarations.foldl (fun vars declaration => vars.insert declaration.1 declaration.2)
    empty

/-- The definitions of the variables, in declared order: at the default position and without default
values. -/
def definitions (vars : Variables) : List VariableDefinition :=
  vars.entries.map fun entry => { name := entry.1, type := entry.2.toReference }

/-- Each variable has one definition, in declared order. -/
theorem map_name_definitions (vars : Variables) :
    vars.definitions.map VariableDefinition.name = vars.names := by
  simp [definitions, names]

/-! ### Forwarding -/

/-- The names of the variables to forward: those listed, whatever they are, or all the declared ones
in declared order if there is no list. -/
def forwarded (vars : Variables) (listed : Option (List String)) : List String :=
  listed.getD vars.names

end Variables

/-- The arguments that forward variables: each name with the variable of that name as its value. -/
def forwardingArguments (names : List String) : List (String × Value) :=
  names.map fun name => (name, .ofVariable name)

end QueryAssembly
