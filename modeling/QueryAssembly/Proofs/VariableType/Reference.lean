import Mathlib.Logic.Function.Defs
import QueryAssembly.VariableType.Basic

/-!
# References of variable types

A variable type is stated in a document by its reference.  References nest named types, lists and
exclusions of null in any way, and the reference of a variable type is one of the few that are a
chain of lists around a named type, perhaps with an exclusion of null around the whole.  These are
all there are, and each stands for one type only.

So a reference tells types apart that have the same text: a type whose name is `[ID]` is written
like the lists of `ID`, but its reference is a name and no list.

Main statement: `VariableType.toReference_faithful`.
-/

namespace QueryAssembly

namespace TypeReference

/-! ### Shapes of references -/

/-- The reference is a chain of lists around a named type. -/
inductive IsChain : TypeReference → Prop where
  | named (name : String) : IsChain (.named name)
  | list {element : TypeReference} (isChain_element : IsChain element) : IsChain (.list element)

/-- All that a reference holds below its root, from the outside to the inside. -/
def belowRoot : TypeReference → List TypeReference
  | .named _ => []
  | .list element => element :: element.belowRoot
  | .nonNull type => type :: type.belowRoot

/-- The reference without the exclusion of null at its root, if there is one. -/
def withNull : TypeReference → TypeReference
  | .nonNull type => type
  | reference => reference

variable {reference : TypeReference}

/-- At the root of a chain null is not excluded. -/
theorem IsChain.ne_nonNull (h : reference.IsChain) (type : TypeReference) :
    reference ≠ .nonNull type := by
  rintro rfl
  cases h

/-- Below the root of a chain null is not excluded either. -/
theorem IsChain.nonNull_notMem_belowRoot (h : reference.IsChain) (type : TypeReference) :
    .nonNull type ∉ reference.belowRoot := by
  induction h with
  | named name => exact List.not_mem_nil
  | @list element helement ih =>
    intro hmem
    rcases List.mem_cons.mp hmem with heq | hmem
    · exact helement.ne_nonNull type heq.symm
    · exact ih hmem

theorem IsChain.withNull_eq (h : reference.IsChain) : reference.withNull = reference := by
  cases h <;> rfl

end TypeReference

namespace NullableType

/-! ### Nullable types -/

theorem isChain_toReference (type : NullableType) : type.toReference.IsChain := by
  induction type with
  | named name => exact .named name
  | list element ih => exact .list ih

/-- No two nullable types have one reference. -/
theorem toReference_injective : Function.Injective toReference := by
  intro type
  induction type with
  | named name =>
    intro other h
    cases other with
    | named otherName => exact congrArg named (TypeReference.named.inj h)
    | list otherElement => cases h
  | list element ih =>
    intro other h
    cases other with
    | named otherName => cases h
    | list otherElement =>
      have helement : element.toReference = otherElement.toReference := TypeReference.list.inj h
      exact congrArg list (ih helement)

/-- The references of nullable types are the chains. -/
theorem exists_toReference_eq_iff {reference : TypeReference} :
    (∃ type : NullableType, type.toReference = reference) ↔ reference.IsChain := by
  constructor
  · rintro ⟨type, rfl⟩
    exact type.isChain_toReference
  · intro h
    induction h with
    | named name => exact ⟨.named name, rfl⟩
    | list _ ih =>
      obtain ⟨element, rfl⟩ := ih
      exact ⟨.list element, rfl⟩

end NullableType

namespace VariableType

/-! ### Types of variables -/

variable {type other : VariableType}

/-- The reference excludes null at its root if the type does. -/
theorem exists_toReference_eq_nonNull_iff :
    (∃ base, type.toReference = .nonNull base) ↔ type.nonNull = true := by
  obtain ⟨base, nonNull⟩ := type
  cases nonNull with
  | false =>
    refine iff_of_false ?_ Bool.false_ne_true
    rintro ⟨inner, h⟩
    exact base.isChain_toReference.ne_nonNull inner h
  | true => exact iff_of_true ⟨base.toReference, rfl⟩ rfl

/-- The reference without the exclusion of null is that of the nullable type. -/
theorem withNull_toReference (type : VariableType) :
    type.toReference.withNull = type.base.toReference := by
  obtain ⟨base, nonNull⟩ := type
  cases nonNull with
  | false => exact base.isChain_toReference.withNull_eq
  | true => rfl

/-- The mark and the nullable type can be told from the reference, and so can the whole type. -/
theorem toReference_injective : Function.Injective toReference := by
  intro type other h
  have hbase : type.base = other.base := by
    apply NullableType.toReference_injective
    rw [← withNull_toReference, ← withNull_toReference, h]
  have hnonNull : type.nonNull = other.nonNull := by
    rw [Bool.eq_iff_iff, ← exists_toReference_eq_nonNull_iff, ← exists_toReference_eq_nonNull_iff,
      h]
  obtain ⟨base, nonNull⟩ := type
  obtain ⟨otherBase, otherNonNull⟩ := other
  rw [mk.injEq]
  exact ⟨hbase, hnonNull⟩

/-- The references of types are the chains, perhaps with an exclusion of null around them. -/
theorem exists_toReference_eq_iff {reference : TypeReference} :
    (∃ type : VariableType, type.toReference = reference) ↔
      reference.IsChain ∨ ∃ base : TypeReference, base.IsChain ∧ reference = .nonNull base := by
  constructor
  · rintro ⟨⟨base, nonNull⟩, rfl⟩
    cases nonNull with
    | false => exact .inl base.isChain_toReference
    | true => exact .inr ⟨base.toReference, base.isChain_toReference, rfl⟩
  · rintro (hchain | ⟨base, hchain, rfl⟩)
    · obtain ⟨base, rfl⟩ := NullableType.exists_toReference_eq_iff.mpr hchain
      exact ⟨⟨base, false⟩, rfl⟩
    · obtain ⟨base, rfl⟩ := NullableType.exists_toReference_eq_iff.mpr hchain
      exact ⟨⟨base, true⟩, rfl⟩

/-- Below the root of the reference of a type null is not excluded. -/
theorem nonNull_notMem_belowRoot_toReference (type : VariableType) (inner : TypeReference) :
    .nonNull inner ∉ type.toReference.belowRoot := by
  obtain ⟨base, nonNull⟩ := type
  have hbase : base.toReference.IsChain := base.isChain_toReference
  cases nonNull with
  | false => exact hbase.nonNull_notMem_belowRoot inner
  | true =>
    intro hmem
    rcases List.mem_cons.mp hmem with heq | hmem
    · exact hbase.ne_nonNull inner heq.symm
    · exact hbase.nonNull_notMem_belowRoot inner hmem

/-- Types are faithfully embedded into references.  No two types have one reference.  The
references of types are the chains of lists around a named type, perhaps with an exclusion of null
around the whole, so null is never excluded below the root.  At the root it is excluded exactly if
the type excludes it, and what is left without that is the reference of the nullable type.  The
text of a reference is the text of its type. -/
theorem toReference_faithful :
    (∀ type other : VariableType, type.toReference = other.toReference ↔ type = other) ∧
    (∀ reference : TypeReference, (∃ type : VariableType, type.toReference = reference) ↔
      reference.IsChain ∨ ∃ base : TypeReference, base.IsChain ∧ reference = .nonNull base) ∧
    ∀ type : VariableType,
      (∀ inner, .nonNull inner ∉ type.toReference.belowRoot) ∧
      ((∃ base, type.toReference = .nonNull base) ↔ type.nonNull = true) ∧
      type.toReference.withNull = type.base.toReference ∧
      String.ofList type.toReference.write = type.text := by
  refine ⟨fun type other => toReference_injective.eq_iff,
    fun reference => exists_toReference_eq_iff, ?_⟩
  intro type
  refine ⟨type.nonNull_notMem_belowRoot_toReference, exists_toReference_eq_nonNull_iff,
    type.withNull_toReference, ?_⟩
  rw [write_toReference, text]

/-- Two types with one text and different references. -/
example : (named "[ID]").text = (list "ID").text ∧
    (named "[ID]").toReference ≠ (list "ID").toReference := by decide

end VariableType

end QueryAssembly
