import Mathlib.Data.List.Basic
import QueryAssembly.Proofs.VariableType.Acceptance

/-!
# What is wrong with a text that is not a type

A text can be wrong in several ways at once, and the reader, which takes the pairs of brackets off
one at a time and looks for faults at each of them, reports one of them.  Which one, can be said
without the reader.  The exclamation mark at the end comes off first (`Text.unmark`) and then all
pairs of brackets (`Text.peel`), and the number of pairs and the core that is left decide
(`TypeFault.ofCore?`); only a second exclamation mark at the end of the text counts before that
(`VariableType.diagnosis`).

The two orders agree since a text that ends in an exclamation mark is in no brackets: the mark at
the end of an element is seen when the brackets around it come off, and the peeling stops there.

Main statement: `VariableType.ofText_eq_error_iff_diagnosis`.
-/

namespace QueryAssembly

open Text

namespace Text

variable {cs inner : List Char}

/-! ### Peeling -/

/-- What stands in the brackets that a text starts and ends with. -/
def unbracket? (cs : List Char) : Option (List Char) :=
  if 2 ≤ cs.length ∧ cs.head? = some '[' ∧ cs.getLast? = some ']' then some cs.tail.dropLast
  else none

/-- A text that starts with another character than an opening bracket is in no brackets. -/
theorem unbracket?_eq_none_of_head? (h : cs.head? ≠ some '[') : unbracket? cs = none :=
  if_neg fun hbrackets => h hbrackets.2.1

/-- A text that ends in another character than a closing bracket is in no brackets. -/
theorem unbracket?_eq_none_of_getLast? (h : cs.getLast? ≠ some ']') : unbracket? cs = none :=
  if_neg fun hbrackets => h hbrackets.2.2

/-- Behind an opening bracket its counterpart has to stand at the end. -/
theorem unbracket?_cons (rest : List Char) : unbracket? ('[' :: rest) = dropLast? ']' rest := by
  unfold unbracket? dropLast?
  cases rest with
  | nil => simp
  | cons c rest => simp

theorem unbracket?_eq_some_iff : unbracket? cs = some inner ↔ cs = '[' :: (inner ++ [']']) := by
  constructor
  · intro h
    have hhead : cs.head? = some '[' := by
      by_contra hhead
      rw [unbracket?_eq_none_of_head? hhead] at h
      exact Option.some_ne_none inner h.symm
    obtain ⟨rest, rfl⟩ := List.head?_eq_some_iff.mp hhead
    rw [unbracket?_cons] at h
    rw [dropLast?_eq_some_iff.mp h]
  · rintro rfl
    rw [unbracket?_cons, dropLast?_eq_some_iff]

/-- The number of pairs of brackets around the core of a text, and the core.  The text is trimmed,
and again after each pair. -/
def peel (cs : List Char) : Nat × List Char :=
  match _h : unbracket? (trim cs) with
  | some inner => ((peel inner).1 + 1, (peel inner).2)
  | none => (0, trim cs)
termination_by cs.length
decreasing_by
  all_goals
    have htrim := length_trim_le cs
    rw [unbracket?_eq_some_iff.mp _h] at htrim
    simp only [List.length_cons, List.length_append, List.length_nil] at htrim
    omega

theorem peel_of_brackets (h : trim cs = '[' :: (inner ++ [']'])) :
    peel cs = ((peel inner).1 + 1, (peel inner).2) := by
  have hsome : unbracket? (trim cs) = some inner := unbracket?_eq_some_iff.mpr h
  rw [peel]
  split
  next found hfound =>
    obtain rfl : found = inner := Option.some.inj (hfound.symm.trans hsome)
    rfl
  next hnone => simp [hsome] at hnone

theorem peel_of_core (h : unbracket? (trim cs) = none) : peel cs = (0, trim cs) := by
  rw [peel]
  split
  next found hfound => simp [h] at hfound
  next => rfl

/-- The core is the whole text, trimmed, if no brackets are around it. -/
theorem peel_snd_of_fst_eq_zero (h : (peel cs).1 = 0) : (peel cs).2 = trim cs := by
  cases hbrackets : unbracket? (trim cs) with
  | none => rw [peel_of_core hbrackets]
  | some inner =>
    rw [peel_of_brackets (unbracket?_eq_some_iff.mp hbrackets)] at h
    exact absurd h (Nat.succ_ne_zero _)

/-! ### Marks -/

/-- The mark at the end of a text is what trimming leaves there. -/
theorem endsMarked_iff : endsMarked cs = true ↔ (trim cs).getLast? = some '!' := by
  rw [endsMarked, decide_eq_true_iff]
  constructor
  · intro hlast
    obtain ⟨front, hfront⟩ := List.getLast?_eq_some_iff.mp hlast
    rw [← trim_trimEnd, hfront, trim_append_singleton not_isBlank_exclamationMark,
      List.getLast?_concat]
  · intro hlast
    obtain ⟨front, hfront⟩ := List.getLast?_eq_some_iff.mp hlast
    obtain ⟨before, after, -, hafter, hwhole⟩ := exists_eq_append_trim cs
    rw [hwhole, hfront, trimEnd_append_isBlank hafter, ← List.append_assoc,
      trimEnd_append_singleton not_isBlank_exclamationMark, List.getLast?_concat]

/-- A text without the mark that it ends in, if it does. -/
def unmark (cs : List Char) : List Char :=
  if cs.getLast? = some '!' then cs.dropLast else cs

theorem unmark_concat (front : List Char) : unmark (front ++ ['!']) = front := by
  simp [unmark]

theorem unmark_of_getLast?_ne (h : cs.getLast? ≠ some '!') : unmark cs = cs :=
  if_neg h

/-- The number of pairs of brackets around the core of a text that may end in a mark, and the
core. -/
def coreOf (cs : List Char) : Nat × List Char :=
  peel (unmark (trim cs))

end Text

/-! ### The fault of a core -/

/-- What is wrong with a core inside so many pairs of brackets, if anything is. -/
def TypeFault.ofCore? (pairs : Nat) (core : List Char) : Option TypeFault :=
  if 1 ≤ pairs ∧ core.getLast? = some '!' then some .nonNullElement
  else if core = [] then some .missingName
  else if core.head? = some '[' ∨ core.getLast? = some ']' then some .unbalancedBrackets
  else if isName core = false then some (.invalidName (String.ofList core))
  else none

/-- One pair of brackets more makes no difference, except for a mark that had none around it. -/
theorem TypeFault.ofCore?_succ {pairs : Nat} {core : List Char}
    (h : pairs = 0 → core.getLast? ≠ some '!') : ofCore? (pairs + 1) core = ofCore? pairs core := by
  have hmark : (1 ≤ pairs + 1 ∧ core.getLast? = some '!') ↔
      (1 ≤ pairs ∧ core.getLast? = some '!') := by
    refine and_congr_left fun hlast => ?_
    have hpairs : pairs ≠ 0 := fun hzero => h hzero hlast
    omega
  simp only [ofCore?, hmark]

namespace NullableType

variable {cs core : List Char} {fault : TypeFault}

/-- Outside brackets, and without one at its start, a core has the fault that the reader finds. -/
theorem readName_eq_error_iff (h : core.head? ≠ some '[') :
    readName core = .error fault ↔ TypeFault.ofCore? 0 core = some fault := by
  have hpairs : ¬(1 ≤ 0 ∧ core.getLast? = some '!') := by simp
  unfold readName TypeFault.ofCore?
  rw [if_neg hpairs]
  simp only [h, false_or]
  by_cases hnil : core = []
  · rw [if_pos hnil, if_pos hnil, Except.error.injEq, Option.some.injEq]
  rw [if_neg hnil, if_neg hnil]
  by_cases hclosing : core.getLast? = some ']'
  · rw [if_pos hclosing, if_pos hclosing, Except.error.injEq, Option.some.injEq]
  rw [if_neg hclosing, if_neg hclosing]
  cases isName core <;> simp

/-- The fault that the reader of nullable types reports is that of the core. -/
theorem read_eq_error_iff :
    read cs = .error fault ↔ TypeFault.ofCore? (peel cs).1 (peel cs).2 = some fault := by
  -- The cases are those of the reader: no closing bracket, a marked element, an element to be read,
  -- and a core.
  induction cs using read.induct generalizing fault with
  | case1 cs rest htrim hrest =>
    have hnone : unbracket? (trim cs) = none := by rw [htrim, unbracket?_cons, hrest]
    rw [read_of_open htrim hrest, peel_of_core hnone, htrim]
    simp [TypeFault.ofCore?]
  | case2 cs rest htrim element hrest hmarked =>
    obtain rfl : rest = element ++ [']'] := dropLast?_eq_some_iff.mp hrest
    have hlast : (trim element).getLast? = some '!' := endsMarked_iff.mp hmarked
    have hnone : unbracket? (trim element) = none :=
      unbracket?_eq_none_of_getLast? (by simp [hlast])
    rw [read_of_brackets htrim, if_pos hmarked, peel_of_brackets htrim, peel_of_core hnone]
    simp [TypeFault.ofCore?, hlast]
  | case3 cs rest htrim element hrest hmarked ih =>
    obtain rfl : rest = element ++ [']'] := dropLast?_eq_some_iff.mp hrest
    have hcore : (peel element).1 = 0 → (peel element).2.getLast? ≠ some '!' := by
      intro hzero
      rw [peel_snd_of_fst_eq_zero hzero]
      exact endsMarked_iff.not.mp hmarked
    rw [read_of_brackets htrim, if_neg hmarked, Except.map_eq_error_iff, ih, peel_of_brackets htrim,
      TypeFault.ofCore?_succ hcore]
  | case4 cs hcore =>
    have hhead : (trim cs).head? ≠ some '[' := by
      intro hhead
      obtain ⟨rest, hrest⟩ := List.head?_eq_some_iff.mp hhead
      exact hcore rest hrest
    rw [read_eq_readName hcore, peel_of_core (unbracket?_eq_none_of_head? hhead),
      readName_eq_error_iff hhead]

end NullableType

/-! ### Types of variables -/

namespace VariableType

variable {cs : List Char} {fault : TypeFault}

/-- What is wrong with a text for the type of a variable, if anything is.  The mark at its end
belongs to the whole type and is off before the peeling starts. -/
def diagnosis (cs : List Char) : Option TypeFault :=
  if (trim cs).getLast? = some '!' ∧ (trimEnd (unmark (trim cs))).getLast? = some '!' then
    some .nestedNonNull
  else TypeFault.ofCore? (coreOf cs).1 (coreOf cs).2

/-- The reader of the types of variables reports what the diagnosis says. -/
theorem read_eq_error_iff_diagnosis : read cs = .error fault ↔ diagnosis cs = some fault := by
  cases hdrop : dropLast? '!' (trim cs) with
  | none =>
    have hlast : (trim cs).getLast? ≠ some '!' := by
      intro hlast
      simp [dropLast?, hlast] at hdrop
    have hread : NullableType.read cs = NullableType.read (trim cs) :=
      NullableType.read_congr (trim_trim cs).symm
    rw [read_of_unmarked hdrop, Except.map_eq_error_iff, hread, NullableType.read_eq_error_iff,
      diagnosis, coreOf, unmark_of_getLast?_ne hlast, if_neg fun htwice => hlast htwice.1]
  | some base =>
    have htrim : trim cs = base ++ ['!'] := dropLast?_eq_some_iff.mp hdrop
    rw [read_of_mark htrim, diagnosis, coreOf, htrim, unmark_concat, List.getLast?_concat]
    by_cases hmarked : (trimEnd base).getLast? = some '!'
    · have hends : endsMarked base = true := decide_eq_true hmarked
      rw [if_pos hends, if_pos ⟨rfl, hmarked⟩, Except.error.injEq, Option.some.injEq]
    · have hends : endsMarked base ≠ true := fun hends => hmarked (of_decide_eq_true hends)
      rw [if_neg hends, if_neg fun htwice => hmarked htwice.2, Except.map_eq_error_iff,
        NullableType.read_eq_error_iff]

/-- The reader of types from strings rejects the texts that have a diagnosis, for that fault and no
other, and the error holds the text as it was given. -/
theorem ofText_eq_error_iff_diagnosis (text : String) (error : TypeError) :
    ofText text = .error error ↔ error.text = text ∧ diagnosis text.toList = some error.fault := by
  rw [ofText, Except.mapError_eq_error_iff]
  constructor
  · rintro ⟨fault, hread, rfl⟩
    exact ⟨rfl, read_eq_error_iff_diagnosis.mp hread⟩
  · rintro ⟨rfl, hdiagnosis⟩
    exact ⟨error.fault, read_eq_error_iff_diagnosis.mpr hdiagnosis, rfl⟩

/-- Each of these texts is wrong in more than one way. -/
example : (["[[ID!]", "[]]", "[", "! !", "[ ! ]"].map fun text => diagnosis text.toList) =
    [some .nonNullElement, some .unbalancedBrackets, some .unbalancedBrackets,
      some .nestedNonNull, some .nonNullElement] := by cbv

end VariableType

end QueryAssembly
