import QueryAssembly.Compact

/-!
# What JSON values state

Which JSON values state which types, said without a reading: `NullableType.StatedBy` and
`VariableType.StatedBy`.  Both relations use strings and arrays for several things.  A string may be
a name or the mark that excludes null, and an array of two values may be a type without null or
nothing at all.  Yet no value states two types, so that it does not matter in which order the forms
are tried.

A nullable type is stated by one value, `NullableType.toJson`.  The type of a variable is stated by
one value too, or by two if it excludes null, one for each spelling of the mark.

Main statement: `VariableType.ofJson?_eq_some_iff_statedBy`.
-/

namespace QueryAssembly

/-! ### Statements -/

/-- The JSON values that state a nullable type. -/
inductive NullableType.StatedBy : NullableType → Json → Prop where
  /-- A string states the named type of that very name, whatever it is. -/
  | named (name : String) : StatedBy (.named name) (.string name)
  /-- An array of one value states the lists of the type that this value states. -/
  | list {element : NullableType} {value : Json} (statedBy_element : StatedBy element value) :
      StatedBy (.list element) (.array [value])

/-- The mark that excludes null, in either spelling. -/
def Json.IsNonNullMark (value : Json) : Prop :=
  value = .string "!" ∨ value = .object [("!", .null)]

/-- The JSON values that state the type of a variable. -/
inductive VariableType.StatedBy : VariableType → Json → Prop where
  /-- What states a nullable type states it as the type of a variable. -/
  | nullable {base : NullableType} {value : Json} (statedBy_base : base.StatedBy value) :
      StatedBy ⟨base, false⟩ value
  /-- An array of two values, of which the second is the mark, states without null the type that the
  first one states. -/
  | nonNull {base : NullableType} {value mark : Json} (statedBy_base : base.StatedBy value)
      (isNonNullMark_mark : mark.IsNonNullMark) : StatedBy ⟨base, true⟩ (.array [value, mark])

/-- Two JSON values are the same but for the spelling of the mark at their outermost level. -/
inductive Json.SameButMark : Json → Json → Prop where
  | refl (value : Json) : SameButMark value value
  | mark {value mark other : Json} (isNonNullMark_mark : mark.IsNonNullMark)
      (isNonNullMark_other : other.IsNonNullMark) :
      SameButMark (.array [value, mark]) (.array [value, other])

/-! ### Nullable types -/

namespace NullableType

variable {type element : NullableType} {value : Json} {name : String}

theorem ofJson?_array_singleton (value : Json) :
    ofJson? (.array [value]) = (ofJson? value).map .list := by
  simp [ofJson?, namedOfJson?]

/-- Anything but an array of one value can only state a named type. -/
theorem ofJson?_eq_namedOfJson? (h : ∀ inner, value ≠ .array [inner]) :
    ofJson? value = namedOfJson? value := by
  rw [ofJson?, Option.orElse_eq_orElse, Option.orElse_none]
  exact h

theorem namedOfJson?_eq_some_iff :
    namedOfJson? value = some type ↔ ∃ name, value = .string name ∧ type = .named name := by
  cases value <;> simp [namedOfJson?, eq_comm]

/-- A named type is stated by its name alone. -/
theorem ofJson?_eq_some_named_iff :
    ofJson? value = some (.named name) ↔ value = .string name := by
  by_cases h : ∃ inner, value = .array [inner]
  · obtain ⟨inner, rfl⟩ := h
    simp [ofJson?_array_singleton]
  · rw [ofJson?_eq_namedOfJson? (not_exists.mp h), namedOfJson?_eq_some_iff]
    simp

/-- Lists are stated by an array of what states their elements, and by nothing else. -/
theorem ofJson?_eq_some_list_iff :
    ofJson? value = some (.list element) ↔
      ∃ inner, value = .array [inner] ∧ ofJson? inner = some element := by
  by_cases h : ∃ inner, value = .array [inner]
  · obtain ⟨inner, rfl⟩ := h
    simp [ofJson?_array_singleton]
  · rw [ofJson?_eq_namedOfJson? (not_exists.mp h), namedOfJson?_eq_some_iff]
    constructor
    · rintro ⟨name, -, hname⟩
      cases hname
    · rintro ⟨inner, heq, -⟩
      exact absurd ⟨inner, heq⟩ h

/-- The reading of nullable types succeeds with what is stated. -/
theorem ofJson?_eq_some_iff : ofJson? value = some type ↔ type.StatedBy value := by
  induction type generalizing value with
  | named name =>
    rw [ofJson?_eq_some_named_iff]
    constructor
    · rintro rfl
      exact .named name
    · rintro ⟨⟩
      rfl
  | list element ih =>
    rw [ofJson?_eq_some_list_iff]
    constructor
    · rintro ⟨inner, rfl, hinner⟩
      exact .list (ih.mp hinner)
    · rintro (_ | hinner)
      exact ⟨_, rfl, ih.mpr hinner⟩

/-- The JSON value that states a nullable type. -/
def toJson : NullableType → Json
  | .named name => .string name
  | .list element => .array [element.toJson]

/-- No other value states the type. -/
theorem statedBy_iff_eq_toJson : type.StatedBy value ↔ value = type.toJson := by
  constructor
  · intro h
    induction h with
    | named name => rfl
    | list _ ih => rw [ih, toJson]
  · rintro rfl
    induction type with
    | named name => exact .named name
    | list element ih => exact .list ih

/-- No array of two values states a nullable type. -/
theorem not_statedBy_pair (first second : Json) : ¬type.StatedBy (.array [first, second]) := by
  rintro ⟨⟩

end NullableType

/-! ### Types of variables -/

namespace VariableType

variable {type other : VariableType} {value : Json}

/-- An array of a type and the mark is read as a type without null. -/
theorem nonNullOfJson?_eq_some_iff :
    nonNullOfJson? value = some type ↔
      ∃ base inner mark, type = ⟨base, true⟩ ∧ value = .array [inner, mark] ∧
        base.StatedBy inner ∧ mark.IsNonNullMark := by
  constructor
  · intro h
    unfold nonNullOfJson? at h
    split at h
    next inner mark =>
      obtain ⟨base, hbase, h⟩ := Option.bind_eq_some_iff.mp h
      obtain ⟨hmark, h⟩ := Option.ite_none_right_eq_some.mp h
      exact ⟨base, inner, mark, (Option.some.inj h).symm, rfl,
        NullableType.ofJson?_eq_some_iff.mp hbase, Json.isNonNullMark_iff.mp hmark⟩
    next => cases h
  · rintro ⟨base, inner, mark, rfl, rfl, hbase, hmark⟩
    rw [nonNullOfJson?, NullableType.ofJson?_eq_some_iff.mpr hbase]
    exact if_pos (Json.isNonNullMark_iff.mpr hmark)

/-- Whatever states a nullable type is read as the type with null. -/
theorem nullableOfJson?_eq_some_iff :
    nullableOfJson? value = some type ↔
      ∃ base : NullableType, type = ⟨base, false⟩ ∧ base.StatedBy value := by
  rw [nullableOfJson?, Option.map_eq_some_iff]
  constructor
  · rintro ⟨base, hbase, rfl⟩
    exact ⟨base, rfl, NullableType.ofJson?_eq_some_iff.mp hbase⟩
  · rintro ⟨base, rfl, hbase⟩
    exact ⟨base, NullableType.ofJson?_eq_some_iff.mpr hbase, rfl⟩

/-- What states a nullable type is no array of a type and the mark. -/
theorem nonNullOfJson?_eq_none {base : NullableType} (h : base.StatedBy value) :
    nonNullOfJson? value = none := by
  rw [Option.eq_none_iff_forall_ne_some]
  intro type htype
  obtain ⟨-, inner, mark, -, rfl, -⟩ := nonNullOfJson?_eq_some_iff.mp htype
  exact NullableType.not_statedBy_pair inner mark h

/-- The reading of the types of variables succeeds with what is stated. -/
theorem ofJson?_eq_some_iff : ofJson? value = some type ↔ type.StatedBy value := by
  rw [ofJson?, Option.orElse_eq_orElse, Option.orElse_eq_or, Option.or_eq_some_iff]
  constructor
  · rintro (h | ⟨-, h⟩)
    · obtain ⟨base, inner, mark, rfl, rfl, hbase, hmark⟩ := nonNullOfJson?_eq_some_iff.mp h
      exact .nonNull hbase hmark
    · obtain ⟨base, rfl, hbase⟩ := nullableOfJson?_eq_some_iff.mp h
      exact .nullable hbase
  · rintro (hbase | ⟨hbase, hmark⟩)
    · exact .inr ⟨nonNullOfJson?_eq_none hbase, nullableOfJson?_eq_some_iff.mpr ⟨_, rfl, hbase⟩⟩
    · exact .inl (nonNullOfJson?_eq_some_iff.mpr ⟨_, _, _, rfl, rfl, hbase, hmark⟩)

/-- A JSON value that states a type, with the plain spelling of the mark. -/
def toJson (type : VariableType) : Json :=
  if type.nonNull then .array [type.base.toJson, .string "!"] else type.base.toJson

theorem statedBy_toJson (type : VariableType) : type.StatedBy type.toJson := by
  obtain ⟨base, nonNull⟩ := type
  have hbase : base.StatedBy base.toJson := NullableType.statedBy_iff_eq_toJson.mpr rfl
  cases nonNull with
  | false => exact .nullable hbase
  | true => exact .nonNull hbase (.inl rfl)

/-- No value states two types. -/
theorem StatedBy.unique (h : type.StatedBy value) (hother : other.StatedBy value) :
    type = other := by
  rw [← ofJson?_eq_some_iff] at h hother
  exact Option.some.inj (h.symm.trans hother)

/-- The mark of a type may be spelled in either way. -/
theorem StatedBy.respell {inner mark other : Json} (h : type.StatedBy (.array [inner, mark]))
    (hother : other.IsNonNullMark) : type.StatedBy (.array [inner, other]) := by
  rcases h with hbase | ⟨hbase, -⟩
  · exact absurd hbase (NullableType.not_statedBy_pair inner mark)
  · exact .nonNull hbase hother

/-- Two values that state types state one type if they are the same but for the spelling of the
mark. -/
theorem StatedBy.eq_iff_sameButMark {otherValue : Json} (h : type.StatedBy value)
    (hother : other.StatedBy otherValue) : type = other ↔ value.SameButMark otherValue := by
  constructor
  · rintro rfl
    cases h with
    | @nullable base _ hbase =>
      rcases hother with hotherBase | _
      rw [NullableType.statedBy_iff_eq_toJson.mp hbase,
        NullableType.statedBy_iff_eq_toJson.mp hotherBase]
      exact .refl _
    | @nonNull base inner mark hbase hmark =>
      rcases hother with _ | ⟨hotherBase, hotherMark⟩
      rw [NullableType.statedBy_iff_eq_toJson.mp hbase,
        NullableType.statedBy_iff_eq_toJson.mp hotherBase]
      exact .mark hmark hotherMark
  · rintro (_ | ⟨_, hmark⟩)
    · exact h.unique hother
    · exact (h.respell hmark).unique hother

/-- The reading of JSON values succeeds with what they state, at every depth, and with nothing else.
No value states two types, every type is stated by some value, and two values that state types state
one type exactly if they are the same but for the spelling of the mark. -/
theorem ofJson?_eq_some_iff_statedBy :
    (∀ value type, NullableType.ofJson? value = some type ↔ type.StatedBy value) ∧
    (∀ value type, ofJson? value = some type ↔ type.StatedBy value) ∧
    (∀ value (type other : VariableType),
      type.StatedBy value → other.StatedBy value → type = other) ∧
    (∀ type, ∃ value, ofJson? value = some type) ∧
    ∀ value otherValue type other, ofJson? value = some type → ofJson? otherValue = some other →
      (type = other ↔ value.SameButMark otherValue) := by
  refine ⟨fun _ _ => NullableType.ofJson?_eq_some_iff, fun _ _ => ofJson?_eq_some_iff,
    fun _ _ _ => StatedBy.unique, ?_, ?_⟩
  · intro type
    exact ⟨type.toJson, ofJson?_eq_some_iff.mpr type.statedBy_toJson⟩
  · intro value otherValue type other h hother
    exact (ofJson?_eq_some_iff.mp h).eq_iff_sameButMark (ofJson?_eq_some_iff.mp hother)

/-- The mark counts only behind a type at the outermost level. -/
example : ofJson? (.array [.string "!"]) = some (list "!") ∧
    ofJson? (.array [.string "!", .string "!"]) = some (withoutNull (named "!")) ∧
    ofJson? (.array [.array [.string "ID", .string "!"]]) = none := by decide

end VariableType

end QueryAssembly
