import Mathlib.Data.List.Forall2
import Mathlib.Data.Nat.Find
import QueryAssembly.Proofs.Except
import QueryAssembly.Query

/-!
# First faults

The checks of a build walk through a list and stop at the first place with a fault: an argument
that is not declared, an argument that stands earlier in the list, or a fragment document that
cannot be used.  Two of them carry the names they have met along.

Here the faults are said by place, without a walk: `UndeclaredAt`, `RepeatedAt` and `FaultyAt` tell
what is wrong at the place of the given index, and `First` picks the least of these places.  Each
check finds the first fault in this sense, and finds none exactly if there is none:
`Outline.firstUndeclared?_eq_some_iff`, `firstRepeated?_eq_some_iff`,
`leadingFragments_eq_error_iff` and `leadingFragments_eq_ok_iff`.
-/

namespace QueryAssembly

/-! ### The first place with a fault -/

/-- What is found at the least place where something is found, if `Found i a` says that `a` is found
at the place `i`. -/
def First {α : Type} (Found : Nat → α → Prop) (a : α) : Prop :=
  ∃ i, Found i a ∧ ∀ j < i, ∀ b, ¬Found j b

section First

variable {α : Type} {Found Other : Nat → α → Prop}

/-- Something is found first at the place 0, or nothing is found there and it is found first behind
it. -/
theorem first_iff {a : α} :
    First Found a ↔
      Found 0 a ∨ (∀ b, ¬Found 0 b) ∧ First (fun i => Found (i + 1)) a := by
  constructor
  · rintro ⟨i, hfound, hbefore⟩
    cases i with
    | zero => exact Or.inl hfound
    | succ i =>
      have hzero : ∀ b, ¬Found 0 b := hbefore 0 (Nat.succ_pos i)
      have hbehind : ∀ j < i, ∀ b, ¬Found (j + 1) b :=
        fun j hj => hbefore (j + 1) (Nat.succ_lt_succ hj)
      exact Or.inr ⟨hzero, i, hfound, hbehind⟩
  · rintro (hfound | ⟨hzero, i, hfound, hbefore⟩)
    · exact ⟨0, hfound, by simp⟩
    · refine ⟨i + 1, hfound, ?_⟩
      intro j hj
      cases j with
      | zero => exact hzero
      | succ j => exact hbefore j (Nat.lt_of_succ_lt_succ hj)

theorem First.congr {a : α} (h : ∀ i b, Found i b ↔ Other i b) : First Found a ↔ First Other a := by
  simp only [First, h]

/-- If anything is found, something is found first. -/
theorem exists_first_iff : (∃ a, First Found a) ↔ ∃ i a, Found i a := by
  classical
  constructor
  · rintro ⟨a, i, hfound, -⟩
    exact ⟨i, a, hfound⟩
  · intro h
    obtain ⟨a, hfound⟩ := Nat.find_spec h
    refine ⟨a, Nat.find h, hfound, ?_⟩
    intro j hj b hb
    exact Nat.find_min h hj ⟨b, hb⟩

/-- If nothing is found first, nothing is found anywhere. -/
theorem forall_not_first_iff : (∀ a, ¬First Found a) ↔ ∀ i a, ¬Found i a := by
  have h : (¬∃ a, First Found a) ↔ ¬∃ i a, Found i a := not_congr exists_first_iff
  push Not at h
  exact h

end First

/-! ### Arguments -/

/-- The argument at a place is not declared. -/
def UndeclaredAt (declared arguments : List String) (i : Nat) (argument : String) : Prop :=
  arguments[i]? = some argument ∧ argument ∉ declared

/-- The argument at a place stands at an earlier place too. -/
def RepeatedAt (arguments : List String) (i : Nat) (argument : String) : Prop :=
  arguments[i]? = some argument ∧ argument ∈ arguments.take i

theorem find?_eq_some_iff_first {α : Type} {p : α → Bool} {xs : List α} {x : α} :
    xs.find? p = some x ↔ First (fun i y => xs[i]? = some y ∧ p y = true) x := by
  induction xs with
  | nil => simp [First]
  | cons y xs ih =>
    rw [first_iff]
    simp only [List.getElem?_cons_zero, List.getElem?_cons_succ, Option.some.injEq, ← ih]
    by_cases hy : p y = true
    · simp only [List.find?_cons_of_pos hy, Option.some.injEq]
      grind
    · simp only [List.find?_cons_of_neg hy]
      grind

/-- The check for undeclared arguments finds the first. -/
theorem Outline.firstUndeclared?_eq_some_iff {outline : Outline} {argument : String} :
    outline.firstUndeclared? = some argument ↔
      First (UndeclaredAt outline.vars.names outline.arguments) argument := by
  rw [firstUndeclared?, find?_eq_some_iff_first]
  exact First.congr fun i name => by simp [UndeclaredAt]

/-- A walk that has met some names already stops at the first that is one of them or stands earlier
on the way. -/
theorem firstRepeatedAfter?_eq_some_iff {seen names : List String} {name : String} :
    firstRepeatedAfter? seen names = some name ↔
      First (fun i n => names[i]? = some n ∧ (n ∈ names.take i ∨ n ∈ seen)) name := by
  induction names generalizing seen with
  | nil => simp [firstRepeatedAfter?, First]
  | cons first rest ih =>
    rw [first_iff, firstRepeatedAfter?]
    simp only [List.getElem?_cons_zero, List.getElem?_cons_succ, List.take_zero,
      List.take_succ_cons, Option.some.injEq, List.not_mem_nil, false_or]
    by_cases hseen : first ∈ seen
    · rw [if_pos hseen]
      grind
    · -- A name that repeats the first one has been met when the walk goes on.
      have hmet :
          First (fun i n => rest[i]? = some n ∧ (n ∈ first :: rest.take i ∨ n ∈ seen)) name ↔
            First (fun i n => rest[i]? = some n ∧ (n ∈ rest.take i ∨ n ∈ first :: seen)) name :=
        First.congr fun i n => by simp only [List.mem_cons]; grind
      rw [if_neg hseen, ih, hmet]
      grind

/-- The check for repeated arguments finds the first. -/
theorem firstRepeated?_eq_some_iff {arguments : List String} {argument : String} :
    firstRepeated? arguments = some argument ↔ First (RepeatedAt arguments) argument := by
  rw [firstRepeated?, firstRepeatedAfter?_eq_some_iff]
  exact First.congr fun i name => by simp [RepeatedAt]

/-! ### Fragment documents -/

namespace Document

/-- The document starts with the given fragment. -/
def LeadsWith (document : Document) (fragment : Fragment) : Prop :=
  document.definitions.head? = some (.fragment fragment)

/-- The name of the fragment that a document starts with, if it starts with one. -/
def leadingName? (document : Document) : Option String :=
  match document.definitions with
  | .fragment fragment :: _ => some fragment.name
  | _ => none

/-- What is wrong with a document at the place of the given index, behind documents that start with
fragments of the given names. -/
inductive FaultAfter (earlier : List String) (index : Nat) : Document → BuildError → Prop where
  /-- The document defines nothing. -/
  | empty : FaultAfter earlier index ⟨[]⟩ (.emptyDocument index)
  /-- The document starts with an operation. -/
  | operation (operation : Operation) (rest : List Definition) :
      FaultAfter earlier index ⟨.operation operation :: rest⟩ (.leadingOperation index)
  /-- The document starts with a fragment of a name that an earlier one has. -/
  | repeated {fragment : Fragment} (rest : List Definition)
      (mem_earlier : fragment.name ∈ earlier) :
      FaultAfter earlier index ⟨.fragment fragment :: rest⟩ (.duplicateFragment fragment.name)

variable {document : Document} {fragment : Fragment} {earlier : List String} {index : Nat}
  {error : BuildError}

theorem leadingFragment_eq_ok_iff :
    document.leadingFragment index = .ok fragment ↔ document.LeadsWith fragment := by
  obtain ⟨definitions⟩ := document
  rcases definitions with _ | ⟨_ | _, _⟩ <;> simp [leadingFragment, LeadsWith]

theorem rightUnique_leadsWith : Relator.RightUnique LeadsWith := by
  intro document fragment other h hother
  have heq : some (Definition.fragment fragment) = some (.fragment other) := h.symm.trans hother
  exact Definition.fragment.inj (Option.some.inj heq)

theorem LeadsWith.leadingName?_eq (h : document.LeadsWith fragment) :
    document.leadingName? = some fragment.name := by
  obtain ⟨definitions⟩ := document
  rcases definitions with _ | ⟨_ | _, _⟩ <;> simp_all [leadingName?, LeadsWith]

/-- Of a document that starts with a fragment only the name of that can be wrong. -/
theorem LeadsWith.faultAfter_iff (h : document.LeadsWith fragment) :
    document.FaultAfter earlier index error ↔
      fragment.name ∈ earlier ∧ error = .duplicateFragment fragment.name := by
  obtain ⟨definitions⟩ := document
  obtain ⟨rest, rfl⟩ := List.head?_eq_some_iff.mp h
  constructor
  · rintro ⟨⟩
    exact ⟨by assumption, rfl⟩
  · rintro ⟨hmem, rfl⟩
    exact .repeated rest hmem

/-- A document that starts with no fragment has the fault that the reading of it reports. -/
theorem faultAfter_iff_of_leadingFragment_eq_error {reported : BuildError}
    (h : document.leadingFragment index = .error reported) :
    document.FaultAfter earlier index error ↔ error = reported := by
  obtain ⟨definitions⟩ := document
  rcases definitions with _ | ⟨operation | fragment, rest⟩
  · obtain rfl : BuildError.emptyDocument index = reported := by simpa [leadingFragment] using h
    exact ⟨by rintro ⟨⟩; rfl, by rintro rfl; exact .empty⟩
  · obtain rfl : BuildError.leadingOperation index = reported := by
      simpa [leadingFragment] using h
    exact ⟨by rintro ⟨⟩; rfl, by rintro rfl; exact .operation operation rest⟩
  · simp [leadingFragment] at h

/-- A document with which nothing is wrong starts with a fragment of a new name. -/
theorem exists_leadsWith_of_faultless (h : ∀ error, ¬document.FaultAfter earlier index error) :
    ∃ fragment, document.LeadsWith fragment ∧ fragment.name ∉ earlier := by
  obtain ⟨definitions⟩ := document
  rcases definitions with _ | ⟨operation | fragment, rest⟩
  · exact absurd .empty (h _)
  · exact absurd (.operation operation rest) (h _)
  · refine ⟨fragment, rfl, ?_⟩
    intro hmem
    exact h _ (.repeated rest hmem)

theorem FaultAfter.congr {other : List String} (h : ∀ name, name ∈ earlier ↔ name ∈ other) :
    document.FaultAfter earlier index error ↔ document.FaultAfter other index error := by
  constructor
  · rintro (_ | _ | ⟨rest, hmem⟩)
    · exact .empty
    · exact .operation _ _
    · exact .repeated rest ((h _).mp hmem)
  · rintro (_ | _ | ⟨rest, hmem⟩)
    · exact .empty
    · exact .operation _ _
    · exact .repeated rest ((h _).mpr hmem)

end Document

/-- A walk at the given index that has met the given names finds a fault so many documents on. -/
def FaultyFrom (index : Nat) (seen : List String) (documents : List Document) (i : Nat)
    (error : BuildError) : Prop :=
  ∃ document, documents[i]? = some document ∧
    document.FaultAfter ((documents.take i).filterMap Document.leadingName? ++ seen) (index + i)
      error

/-- Something is wrong with the document at a place. -/
def FaultyAt (documents : List Document) (i : Nat) (error : BuildError) : Prop :=
  ∃ document, documents[i]? = some document ∧
    document.FaultAfter ((documents.take i).filterMap Document.leadingName?) i error

section Walk

variable {index : Nat} {seen : List String} {document : Document} {documents : List Document}
  {error : BuildError} {fragments : List Fragment}

theorem faultyFrom_zero_iff :
    FaultyFrom index seen (document :: documents) 0 error ↔
      document.FaultAfter seen index error := by
  simp [FaultyFrom]

/-- Behind a fragment the walk is one document on and has met one name more. -/
theorem Document.LeadsWith.faultyFrom_succ_iff {fragment : Fragment}
    (h : document.LeadsWith fragment) (i : Nat) :
    FaultyFrom index seen (document :: documents) (i + 1) error ↔
      FaultyFrom (index + 1) (fragment.name :: seen) documents i error := by
  have hindex : index + (i + 1) = index + 1 + i := by omega
  simp only [FaultyFrom, List.getElem?_cons_succ, List.take_succ_cons, hindex,
    List.filterMap_cons_some h.leadingName?_eq]
  refine exists_congr fun other => and_congr_right fun _ => ?_
  -- The walk keeps the names in another order, which makes no difference to what is wrong.
  refine Document.FaultAfter.congr ?_
  intro name
  simp only [List.mem_append, List.mem_cons]
  tauto

theorem leadingFragmentsFrom_cons_of_error (h : document.leadingFragment index = .error error) :
    leadingFragmentsFrom index seen (document :: documents) = .error error := by
  rw [leadingFragmentsFrom, h]
  rfl

theorem leadingFragmentsFrom_cons_of_mem {fragment : Fragment} (h : document.LeadsWith fragment)
    (hseen : fragment.name ∈ seen) :
    leadingFragmentsFrom index seen (document :: documents) =
      .error (.duplicateFragment fragment.name) := by
  have hok : document.leadingFragment index = .ok fragment :=
    Document.leadingFragment_eq_ok_iff.mpr h
  rw [leadingFragmentsFrom, hok]
  exact if_pos hseen

theorem leadingFragmentsFrom_cons_of_not_mem {fragment : Fragment}
    (h : document.LeadsWith fragment) (hseen : fragment.name ∉ seen) :
    leadingFragmentsFrom index seen (document :: documents) =
      (leadingFragmentsFrom (index + 1) (fragment.name :: seen) documents).map (fragment :: ·) := by
  have hok : document.leadingFragment index = .ok fragment :=
    Document.leadingFragment_eq_ok_iff.mpr h
  rw [leadingFragmentsFrom, hok]
  refine (if_neg hseen).trans ?_
  cases leadingFragmentsFrom (index + 1) (fragment.name :: seen) documents <;> rfl

/-- One step of a walk that stops: it stops at the document, or behind a fragment of a name not met
before. -/
theorem leadingFragmentsFrom_cons_eq_error_iff :
    leadingFragmentsFrom index seen (document :: documents) = .error error ↔
      document.FaultAfter seen index error ∨
        ∃ fragment, document.LeadsWith fragment ∧ fragment.name ∉ seen ∧
          leadingFragmentsFrom (index + 1) (fragment.name :: seen) documents = .error error := by
  cases hleading : document.leadingFragment index with
  | error reported =>
    rw [leadingFragmentsFrom_cons_of_error hleading,
      Document.faultAfter_iff_of_leadingFragment_eq_error hleading]
    constructor
    · intro h
      exact .inl (Except.error.inj h).symm
    · rintro (rfl | ⟨fragment, hleads, -⟩)
      · rfl
      · rw [Document.leadingFragment_eq_ok_iff.mpr hleads] at hleading
        cases hleading
  | ok fragment =>
    have hleads : document.LeadsWith fragment := Document.leadingFragment_eq_ok_iff.mp hleading
    rw [hleads.faultAfter_iff]
    by_cases hseen : fragment.name ∈ seen
    · rw [leadingFragmentsFrom_cons_of_mem hleads hseen]
      constructor
      · intro h
        exact .inl ⟨hseen, (Except.error.inj h).symm⟩
      · rintro (⟨-, rfl⟩ | ⟨other, hother, hnew, -⟩)
        · rfl
        · obtain rfl := Document.rightUnique_leadsWith hleads hother
          exact absurd hseen hnew
    · rw [leadingFragmentsFrom_cons_of_not_mem hleads hseen, Except.map_eq_error_iff]
      constructor
      · intro h
        exact .inr ⟨fragment, hleads, hseen, h⟩
      · rintro (⟨hmem, -⟩ | ⟨other, hother, -, h⟩)
        · exact absurd hmem hseen
        · obtain rfl := Document.rightUnique_leadsWith hleads hother
          exact h

/-- The walk over the documents stops at the first fault. -/
theorem leadingFragmentsFrom_eq_error_iff :
    leadingFragmentsFrom index seen documents = .error error ↔
      First (FaultyFrom index seen documents) error := by
  induction documents generalizing index seen with
  | nil => simp [leadingFragmentsFrom, First, FaultyFrom]
  | cons document rest ih =>
    rw [leadingFragmentsFrom_cons_eq_error_iff, first_iff]
    simp only [faultyFrom_zero_iff]
    refine or_congr Iff.rfl ?_
    constructor
    · rintro ⟨fragment, hleads, hseen, hwalk⟩
      refine ⟨?_, ?_⟩
      · intro other hfault
        exact hseen (hleads.faultAfter_iff.mp hfault).1
      · rw [First.congr fun i _ => hleads.faultyFrom_succ_iff i]
        exact ih.mp hwalk
    · rintro ⟨hfaultless, hfirst⟩
      obtain ⟨fragment, hleads, hseen⟩ := Document.exists_leadsWith_of_faultless hfaultless
      rw [First.congr fun i _ => hleads.faultyFrom_succ_iff i] at hfirst
      exact ⟨fragment, hleads, hseen, ih.mpr hfirst⟩

/-- One step of a walk that comes to the end: it meets a fragment of a name not met before. -/
theorem leadingFragmentsFrom_cons_eq_ok_iff :
    leadingFragmentsFrom index seen (document :: documents) = .ok fragments ↔
      ∃ fragment others, fragments = fragment :: others ∧ document.LeadsWith fragment ∧
        fragment.name ∉ seen ∧
          leadingFragmentsFrom (index + 1) (fragment.name :: seen) documents = .ok others := by
  cases hleading : document.leadingFragment index with
  | error reported =>
    rw [leadingFragmentsFrom_cons_of_error hleading]
    constructor
    · rintro ⟨⟩
    · rintro ⟨fragment, others, -, hleads, -⟩
      rw [Document.leadingFragment_eq_ok_iff.mpr hleads] at hleading
      cases hleading
  | ok fragment =>
    have hleads : document.LeadsWith fragment := Document.leadingFragment_eq_ok_iff.mp hleading
    by_cases hseen : fragment.name ∈ seen
    · rw [leadingFragmentsFrom_cons_of_mem hleads hseen]
      constructor
      · rintro ⟨⟩
      · rintro ⟨other, others, -, hother, hnew, -⟩
        obtain rfl := Document.rightUnique_leadsWith hleads hother
        exact absurd hseen hnew
    · rw [leadingFragmentsFrom_cons_of_not_mem hleads hseen, Except.map_eq_ok_iff]
      constructor
      · rintro ⟨others, hothers, rfl⟩
        exact ⟨fragment, others, rfl, hleads, hseen, hothers⟩
      · rintro ⟨other, others, rfl, hother, -, hothers⟩
        obtain rfl := Document.rightUnique_leadsWith hleads hother
        exact ⟨others, hothers, rfl⟩

/-- Names are distinct and new if the first is new and the others are distinct, new and different
from it. -/
theorem nodup_names_cons_iff {fragment : Fragment} {others : List Fragment} :
    ((fragment :: others).map Fragment.name).Nodup ∧
        (∀ other ∈ fragment :: others, other.name ∉ seen) ↔
      fragment.name ∉ seen ∧ (others.map Fragment.name).Nodup ∧
        ∀ other ∈ others, other.name ∉ fragment.name :: seen := by
  simp only [List.map_cons, List.nodup_cons, List.mem_map, List.mem_cons, forall_eq_or_imp, not_or,
    not_exists, not_and, forall_and]
  tauto

/-- A walk that comes to the end has met one fragment in each document, and no name twice. -/
theorem leadingFragmentsFrom_eq_ok_iff :
    leadingFragmentsFrom index seen documents = .ok fragments ↔
      List.Forall₂ Document.LeadsWith documents fragments ∧
        (fragments.map Fragment.name).Nodup ∧ ∀ fragment ∈ fragments, fragment.name ∉ seen := by
  induction documents generalizing index seen fragments with
  | nil =>
    rw [List.forall₂_nil_left_iff, leadingFragmentsFrom, Except.ok.injEq]
    constructor
    · rintro rfl
      simp
    · rintro ⟨rfl, -⟩
      rfl
  | cons document rest ih =>
    rw [leadingFragmentsFrom_cons_eq_ok_iff, List.forall₂_cons_left_iff]
    constructor
    · rintro ⟨fragment, others, rfl, hleads, hseen, hothers⟩
      obtain ⟨hall, hnames⟩ := ih.mp hothers
      exact ⟨⟨fragment, others, hleads, hall, rfl⟩, nodup_names_cons_iff.mpr ⟨hseen, hnames⟩⟩
    · rintro ⟨⟨fragment, others, hleads, hall, rfl⟩, hnames⟩
      obtain ⟨hseen, hnames⟩ := nodup_names_cons_iff.mp hnames
      exact ⟨fragment, others, rfl, hleads, hseen, ih.mpr ⟨hall, hnames⟩⟩

end Walk

/-- Fragment documents are refused with their first fault. -/
theorem leadingFragments_eq_error_iff {documents : List Document} {error : BuildError} :
    leadingFragments documents = .error error ↔ First (FaultyAt documents) error := by
  rw [leadingFragments, leadingFragmentsFrom_eq_error_iff]
  exact First.congr fun i reported => by simp [FaultyFrom, FaultyAt]

/-- Fragment documents are accepted if each starts with a fragment and these have distinct names. -/
theorem leadingFragments_eq_ok_iff {documents : List Document} {fragments : List Fragment} :
    leadingFragments documents = .ok fragments ↔
      List.Forall₂ Document.LeadsWith documents fragments ∧
        (fragments.map Fragment.name).Nodup := by
  rw [leadingFragments, leadingFragmentsFrom_eq_ok_iff]
  simp

/-- Fragment documents are accepted if there is no fault in them. -/
theorem leadingFragments_eq_ok_iff_forall_not_faultyAt {documents : List Document}
    {fragments : List Fragment} :
    leadingFragments documents = .ok fragments ↔
      (∀ i error, ¬FaultyAt documents i error) ∧
        List.Forall₂ Document.LeadsWith documents fragments := by
  constructor
  · intro h
    refine ⟨?_, (leadingFragments_eq_ok_iff.mp h).1⟩
    intro i error hfault
    obtain ⟨first, hfirst⟩ := exists_first_iff.mpr ⟨i, error, hfault⟩
    rw [leadingFragments_eq_error_iff.mpr hfirst] at h
    cases h
  · rintro ⟨hfaultless, hleads⟩
    cases h : leadingFragments documents with
    | error error =>
      obtain ⟨i, hfault, -⟩ := leadingFragments_eq_error_iff.mp h
      exact absurd hfault (hfaultless i error)
    | ok others =>
      have hothers := (leadingFragments_eq_ok_iff.mp h).1
      rw [Document.rightUnique_leadsWith.forall₂ hothers hleads]

end QueryAssembly
