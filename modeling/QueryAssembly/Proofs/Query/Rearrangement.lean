import Mathlib.Data.List.FinRange
import Mathlib.Data.List.Perm.Basic
import Mathlib.Logic.Equiv.Fin.Rotate
import QueryAssembly.Proofs.Query.Consistency
import QueryAssembly.Proofs.Query.Contents
import QueryAssembly.Proofs.Query.EmptySelection

/-!
# Builds of rearranged configurations

The arguments, the variables and the fragment documents of a configuration are given in an order,
and the checks of a build walk along it and stop at the first fault.  Which fault is met first may
depend on the order, but whether there is one does not.  And the order of what is built is the order
of what is given, each part by itself: the declarations follow the variables, the arguments of the
entry field the list of them, and the spreads and the definitions of fragments the documents.

An order is taken for a permutation of places.  `RearrangedBy σ xs ys` says that the row `ys` has at
the place `i` what `xs` has at the place `σ i`.  It is kept by maps, which carries it from the rows
of a configuration to the rows of a document.

Main statement: `Configuration.build_rearranged`.
-/

namespace QueryAssembly

/-! ### Rows in another order -/

/-- The second row is the first in another order: at each place it has what the first row has at the
place that the permutation says. -/
structure RearrangedBy {α : Type} {n : ℕ} (σ : Equiv.Perm (Fin n)) (xs ys : List α) : Prop where
  length_left : xs.length = n
  length_right : ys.length = n
  getElem?_eq : ∀ i : Fin n, ys[(i : ℕ)]? = xs[(σ i : ℕ)]?

/-- A row in another order. -/
def rearrange {α : Type} (xs : List α) (σ : Equiv.Perm (Fin xs.length)) : List α :=
  List.ofFn fun i => xs.get (σ i)

section Rows

variable {α β : Type} {n : ℕ} {σ : Equiv.Perm (Fin n)} {xs ys : List α}

theorem rearrangedBy_rearrange (xs : List α) (σ : Equiv.Perm (Fin xs.length)) :
    RearrangedBy σ xs (rearrange xs σ) where
  length_left := rfl
  length_right := List.length_ofFn
  getElem?_eq := by
    intro i
    simp [rearrange]

/-- In another order a row has the same elements, each as often. -/
theorem rearrange_perm (xs : List α) (σ : Equiv.Perm (Fin xs.length)) :
    (rearrange xs σ).Perm xs := by
  have hperm : (rearrange xs σ).Perm (List.ofFn xs.get) := σ.ofFn_comp_perm xs.get
  rwa [List.ofFn_get] at hperm

namespace RearrangedBy

/-- What is made of each element is in the same order as the elements. -/
theorem map (h : RearrangedBy σ xs ys) (f : α → β) : RearrangedBy σ (xs.map f) (ys.map f) where
  length_left := by rw [List.length_map, h.length_left]
  length_right := by rw [List.length_map, h.length_right]
  getElem?_eq := by
    intro i
    rw [List.getElem?_map, List.getElem?_map, h.getElem?_eq]

/-- Elements that can be told from what is made of them are in the same order as that. -/
theorem of_map {f : α → β} (hf : Function.Injective f)
    (h : RearrangedBy σ (xs.map f) (ys.map f)) : RearrangedBy σ xs ys where
  length_left := by rw [← h.length_left, List.length_map]
  length_right := by rw [← h.length_right, List.length_map]
  getElem?_eq := by
    intro i
    have hi := h.getElem?_eq i
    rw [List.getElem?_map, List.getElem?_map] at hi
    exact Option.map_injective hf hi

end RearrangedBy

end Rows

/-! ### Configurations in another order -/

/-- The variables in another order. -/
def Variables.rearranged (vars : Variables) (σ : Equiv.Perm (Fin vars.entries.length)) :
    Variables where
  entries := rearrange vars.entries σ
  nodup_names := ((rearrange_perm vars.entries σ).map Prod.fst).nodup_iff.mpr vars.nodup_names

namespace Configuration

/-- Orders for the variables, the arguments and the fragment documents of a configuration. -/
structure Rearrangement (configuration : Configuration) where
  vars : Equiv.Perm (Fin configuration.vars.entries.length)
  arguments : Equiv.Perm (Fin configuration.effectiveArguments.length)
  fragments : Equiv.Perm (Fin configuration.fragments.length)

/-- The configuration in another order.  It lists its arguments, since by default they would follow
the variables. -/
def rearranged (configuration : Configuration) (σ : configuration.Rearrangement) :
    Configuration where
  name := configuration.name
  vars := configuration.vars.rearranged σ.vars
  entry :=
    { configuration.entry with
      arguments := some (rearrange configuration.effectiveArguments σ.arguments) }
  fragments := rearrange configuration.fragments σ.fragments

/-- The parts of the second of two documents are those of the first in another order.  What the
entry field selects is what the transform makes of the spreads in that order, so without a transform
it is these spreads. -/
structure Rearrangement.Parts {configuration : Configuration} (σ : configuration.Rearrangement)
    (operation otherOperation : Operation) (entry otherEntry : Field)
    (fragments otherFragments : List Fragment) : Prop where
  name_eq : otherOperation.name = operation.name
  entryName_eq : otherEntry.name = entry.name
  vars_rearranged :
    RearrangedBy σ.vars operation.variableDefinitions otherOperation.variableDefinitions
  arguments_rearranged : RearrangedBy σ.arguments entry.arguments otherEntry.arguments
  fragments_rearranged : RearrangedBy σ.fragments fragments otherFragments
  spreads_rearranged :
    RearrangedBy σ.fragments (spreadsOf fragments).items (spreadsOf otherFragments).items
  selectionSet_eq :
    entry.selectionSet = configuration.effectiveTransform.apply (spreadsOf fragments)
  otherSelectionSet_eq :
    otherEntry.selectionSet = configuration.effectiveTransform.apply (spreadsOf otherFragments)

/-- The second document is the first in another order: each consists of an operation, with an entry
field as its only selection, and of fragments, and these parts are rearranged. -/
def Rearrangement.Relates {configuration : Configuration} (σ : configuration.Rearrangement)
    (document other : Document) : Prop :=
  ∃ operation otherOperation entry otherEntry fragments otherFragments,
    document.definitions = .operation operation :: fragments.map .fragment ∧
    other.definitions = .operation otherOperation :: otherFragments.map .fragment ∧
    operation.selectionSet.items = [.field entry] ∧
    otherOperation.selectionSet.items = [.field otherEntry] ∧
    σ.Parts operation otherOperation entry otherEntry fragments otherFragments

end Configuration

/-! ### Fragment documents -/

section Fragments

variable {documents others : List Document} {fragments otherFragments : List Fragment}

/-- Whether fragment documents are accepted does not depend on their order. -/
theorem exists_leadingFragments_of_perm (hperm : others.Perm documents)
    (h : leadingFragments documents = .ok fragments) :
    ∃ otherFragments, leadingFragments others = .ok otherFragments ∧
      otherFragments.Perm fragments := by
  obtain ⟨hleads, hnodup⟩ := leadingFragments_eq_ok_iff.mp h
  obtain ⟨otherFragments, hotherLeads, hfragments⟩ := List.perm_comp_forall₂ hperm hleads
  have hotherNodup : (otherFragments.map Fragment.name).Nodup :=
    (hfragments.map Fragment.name).nodup_iff.mpr hnodup
  exact ⟨otherFragments, leadingFragments_eq_ok_iff.mpr ⟨hotherLeads, hotherNodup⟩, hfragments⟩

/-- The leading fragments of documents are in the order of the documents. -/
theorem rearrangedBy_leadingFragments {n : ℕ} {σ : Equiv.Perm (Fin n)}
    (hdocuments : RearrangedBy σ documents others)
    (h : leadingFragments documents = .ok fragments)
    (hother : leadingFragments others = .ok otherFragments) :
    RearrangedBy σ fragments otherFragments := by
  have hfirst := hdocuments.map fun document => document.definitions.head?
  rw [← Document.forall₂_leadsWith_iff.mp (leadingFragments_eq_ok_iff.mp h).1,
    ← Document.forall₂_leadsWith_iff.mp (leadingFragments_eq_ok_iff.mp hother).1] at hfirst
  refine hfirst.of_map ?_
  intro fragment other heq
  exact Definition.fragment.inj (Option.some.inj heq)

end Fragments

namespace Configuration

/-! ### Acceptance -/

variable {configuration : Configuration} {document other : Document}

/-- A build succeeds if the arguments are in order, the fragments are accepted, and the transform
leaves something to select. -/
theorem build_eq_ok_iff_argumentsInOrder :
    configuration.build = .ok document ↔
      configuration.ArgumentsInOrder ∧
        ∃ fragments, leadingFragments configuration.fragments = .ok fragments ∧
          (configuration.selectionsOf fragments).items ≠ [] ∧
            document = configuration.buildOutline.document (configuration.selectionsOf fragments)
              fragments := by
  rw [build_eq_ok_iff, argumentError?_buildOutline_eq_none_iff, Outline.assemble_eq_ok_iff]
  simp only [transformed_buildOutline]

/-- Whether a reshaping leaves anything to select does not depend on the order of the fragments. -/
theorem items_selectionsOf_eq_nil_iff_of_perm (h : IsReshaping configuration.entry.transform)
    {fragments others : List Fragment} (hperm : fragments.Perm others) :
    (configuration.selectionsOf fragments).items = [] ↔
      (configuration.selectionsOf others).items = [] := by
  have hnil : fragments = [] ↔ others = [] := by
    rw [← List.length_eq_zero_iff, hperm.length_eq, List.length_eq_zero_iff]
  have hspreads : (spreadsOf fragments).items = [] ↔ (spreadsOf others).items = [] := by
    rw [items_spreadsOf_eq_nil_iff, items_spreadsOf_eq_nil_iff, hnil]
  rw [selectionsOf, selectionsOf, effectiveTransform]
  rcases h with hnone | ⟨reshape, hsome⟩
  · rw [hnone]
    exact hspreads
  · have hitems (selections : SelectionSet) : (reshape.transform.apply selections).items = [] ↔
        selections.items = [] ∧ reshape.prependedFields = [] :=
      reshape.items_apply_eq_nil_iff selections
    rw [hsome, Option.getD_some, hitems, hitems, hspreads]

/-- Fragment documents that leave something to select do so in every order. -/
theorem exists_fragments_of_perm (h : IsReshaping configuration.entry.transform)
    {documents others : List Document} (hperm : others.Perm documents)
    (haccepted : ∃ fragments, leadingFragments documents = .ok fragments ∧
      (configuration.selectionsOf fragments).items ≠ []) :
    ∃ fragments, leadingFragments others = .ok fragments ∧
      (configuration.selectionsOf fragments).items ≠ [] := by
  obtain ⟨fragments, hfragments, hitems⟩ := haccepted
  obtain ⟨otherFragments, hothers, hpermFragments⟩ :=
    exists_leadingFragments_of_perm hperm hfragments
  refine ⟨otherFragments, hothers, ?_⟩
  rwa [ne_eq, items_selectionsOf_eq_nil_iff_of_perm h hpermFragments]

theorem exists_build_eq_ok_iff :
    (∃ document, configuration.build = .ok document) ↔
      configuration.ArgumentsInOrder ∧
        ∃ fragments, leadingFragments configuration.fragments = .ok fragments ∧
          (configuration.selectionsOf fragments).items ≠ [] := by
  simp only [build_eq_ok_iff_argumentsInOrder]
  constructor
  · rintro ⟨_, hvalid, fragments, hfragments, hitems, -⟩
    exact ⟨hvalid, fragments, hfragments, hitems⟩
  · rintro ⟨hvalid, fragments, hfragments, hitems⟩
    exact ⟨_, hvalid, fragments, hfragments, hitems, rfl⟩

variable (σ : configuration.Rearrangement)

/-- Whether the arguments are in order does not depend on theirs nor on that of the variables. -/
theorem argumentsInOrder_rearranged :
    (configuration.rearranged σ).ArgumentsInOrder ↔ configuration.ArgumentsInOrder := by
  have harguments : (configuration.rearranged σ).effectiveArguments.Perm
      configuration.effectiveArguments := rearrange_perm _ σ.arguments
  have hnames : (configuration.rearranged σ).vars.names.Perm configuration.vars.names :=
    (rearrange_perm configuration.vars.entries σ.vars).map Prod.fst
  rw [ArgumentsInOrder, ArgumentsInOrder, harguments.nodup_iff]
  simp only [harguments.mem_iff, hnames.mem_iff]

/-- A configuration is accepted in one order if it is in another. -/
theorem exists_build_rearranged_iff (h : IsReshaping configuration.entry.transform) :
    (∃ other, (configuration.rearranged σ).build = .ok other) ↔
      ∃ document, configuration.build = .ok document := by
  have hperm : (configuration.rearranged σ).fragments.Perm configuration.fragments :=
    rearrange_perm configuration.fragments σ.fragments
  rw [exists_build_eq_ok_iff, exists_build_eq_ok_iff, argumentsInOrder_rearranged]
  refine and_congr_right fun _ => ⟨?_, ?_⟩
  · exact exists_fragments_of_perm h hperm.symm
  · exact exists_fragments_of_perm h hperm

/-! ### Documents -/

/-- The documents of a configuration in two orders have their parts in these orders. -/
theorem relates_of_build (hbuild : configuration.build = .ok document)
    (hother : (configuration.rearranged σ).build = .ok other) : σ.Relates document other := by
  obtain ⟨-, fragments, hfragments, -, rfl⟩ := build_eq_ok_iff_argumentsInOrder.mp hbuild
  obtain ⟨-, otherFragments, hothers, -, rfl⟩ := build_eq_ok_iff_argumentsInOrder.mp hother
  have hrearranged : RearrangedBy σ.fragments fragments otherFragments :=
    rearrangedBy_leadingFragments (rearrangedBy_rearrange _ σ.fragments) hfragments hothers
  have hvars : RearrangedBy σ.vars configuration.vars.definitions
      (configuration.vars.rearranged σ.vars).definitions :=
    (rearrangedBy_rearrange _ σ.vars).map _
  have harguments : RearrangedBy σ.arguments (forwardingArguments configuration.effectiveArguments)
      (forwardingArguments (rearrange configuration.effectiveArguments σ.arguments)) :=
    (rearrangedBy_rearrange _ σ.arguments).map _
  refine ⟨_, _, _, _, fragments, otherFragments, rfl, rfl, rfl, rfl, ?_⟩
  exact
    { name_eq := rfl
      entryName_eq := rfl
      vars_rearranged := hvars
      arguments_rearranged := harguments
      fragments_rearranged := hrearranged
      spreads_rearranged := hrearranged.map _
      selectionSet_eq := rfl
      otherSelectionSet_eq := rfl }

/-- Acceptance does not depend on order, with a reshaping as the transform or with none.  The parts
of the document are in the order of what they are made of: the declarations in that of the
variables, the arguments of the entry field in that of their list, and the spreads and the fragments
in that of the fragment documents. -/
theorem build_rearranged (configuration : Configuration) (σ : configuration.Rearrangement)
    (h : IsReshaping configuration.entry.transform) :
    ((∃ other, (configuration.rearranged σ).build = .ok other) ↔
      ∃ document, configuration.build = .ok document) ∧
    ∀ document other, configuration.build = .ok document →
      (configuration.rearranged σ).build = .ok other → σ.Relates document other := by
  refine ⟨exists_build_rearranged_iff σ h, ?_⟩
  intro document other hbuild hother
  exact relates_of_build σ hbuild hother

/-- Three fragments below a field, next to one that is prepended, with two of three variables
forwarded. -/
def offers : Configuration where
  name := "Offers"
  vars := .ofList [("after", .named "ID"), ("first", .named "Int"), ("region", .list "String")]
  entry :=
    { name := "offers"
      arguments := some ["region", "after"]
      transform := some (Reshape.andThen (.moveUnder ["nodes"])
        (.prependFields ["totalCount"])).transform }
  fragments :=
    [⟨[.fragment { name := "Price", condition := "Offer" }]⟩,
      ⟨[.fragment { name := "Seller", condition := "Offer" }, .operation { kind := .mutation }]⟩,
      ⟨[.fragment { name := "Stock", condition := "Offer" }]⟩]

/-- The variables are turned around, the arguments change places, and the first fragment document
goes to the end. -/
def offersMoved : offers.Rearrangement where
  vars := (Fin.revPerm : Equiv.Perm (Fin 3))
  arguments := (Equiv.swap 0 1 : Equiv.Perm (Fin 2))
  fragments := (finRotate 3 : Equiv.Perm (Fin 3))

theorem build_rearranged_offers :
    IsReshaping offers.entry.transform ∧
      ∃ document other, offers.build = .ok document ∧
        (offers.rearranged offersMoved).build = .ok other ∧
          offersMoved.Relates document other := by
  have hreshaping : IsReshaping offers.entry.transform := .inr ⟨_, rfl⟩
  obtain ⟨document, hbuild⟩ : ∃ document, offers.build = .ok document := ⟨_, rfl⟩
  obtain ⟨haccepted, hrelates⟩ := build_rearranged offers offersMoved hreshaping
  obtain ⟨other, hother⟩ := haccepted.mpr ⟨document, hbuild⟩
  exact ⟨hreshaping, document, other, hbuild, hother, hrelates document other hbuild hother⟩

end Configuration

end QueryAssembly
