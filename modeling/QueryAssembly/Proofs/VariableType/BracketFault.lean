import Mathlib.Data.List.Basic
import QueryAssembly.Proofs.Text.Brackets
import QueryAssembly.Proofs.VariableType.Diagnosis

/-!
# When brackets are blamed

The reader does not count brackets.  It takes the pairs of them off, and if then the core has a
bracket at one end and no counterpart at the other (`Text.OneSided`), it reports unbalanced
brackets.

Each pair that comes off leaves the balance as it is, so the brackets of a text are balanced exactly
if those of its core are balanced inside the pairs (`Text.balanced_iff_coreOf`).  Of a core with a
bracket at one end only this may well be true, where a word or a further pair stands beside a
complete pair, as in `[ID] x` or `[[A]][B]`.  These are the texts in which the reader blames
brackets that are balanced (`Text.StrayBesideBrackets`).  There are none among the texts that have
their brackets at the ends, with nothing but blanks and marks beside them (`Text.BracketsAtEnds`).

Main statement: `VariableType.unbalancedBrackets_iff_not_strayBesideBrackets`.
-/

namespace QueryAssembly

namespace Text

variable {cs ds core : List Char}

/-! ### Cores -/

theorem unbracket?_peel (cs : List Char) : unbracket? (peel cs).2 = none := by
  induction cs using peel.induct with
  | case1 cs inner h ih => rwa [peel_of_brackets (unbracket?_eq_some_iff.mp h)]
  | case2 cs h => rwa [peel_of_core h]

theorem trim_peel (cs : List Char) : trim (peel cs).2 = (peel cs).2 := by
  induction cs using peel.induct with
  | case1 cs inner h ih => rwa [peel_of_brackets (unbracket?_eq_some_iff.mp h)]
  | case2 cs h => rw [peel_of_core h, trim_trim]

theorem unmark_infix_self (cs : List Char) : unmark cs <:+: cs := by
  unfold unmark
  split
  · exact (List.dropLast_prefix cs).isInfix
  · exact List.infix_refl cs

/-- The core is a part of the text. -/
theorem peel_infix_self (cs : List Char) : (peel cs).2 <:+: cs := by
  induction cs using peel.induct with
  | case1 cs inner h ih =>
    have htrim : trim cs = '[' :: (inner ++ [']']) := unbracket?_eq_some_iff.mp h
    have hinner : inner <:+: trim cs := ⟨['['], [']'], by rw [htrim]; rfl⟩
    rw [peel_of_brackets htrim]
    exact ih.trans (hinner.trans (trim_infix_self cs))
  | case2 cs h =>
    rw [peel_of_core h]
    exact trim_infix_self cs

theorem coreOf_infix_self (cs : List Char) : (coreOf cs).2 <:+: cs :=
  (peel_infix_self _).trans ((unmark_infix_self _).trans (trim_infix_self cs))

/-! ### Balance of cores -/

/-- Taking pairs of brackets off keeps the balance. -/
theorem balancedWithin_peel {pairs : Nat} :
    BalancedWithin (pairs + (peel cs).1) (peel cs).2 ↔ BalancedWithin pairs cs := by
  induction cs using peel.induct generalizing pairs with
  | case1 cs inner h ih =>
    have htrim : trim cs = '[' :: (inner ++ [']']) := unbracket?_eq_some_iff.mp h
    have hpairs : pairs + ((peel inner).1 + 1) = pairs + 1 + (peel inner).1 := by omega
    rw [peel_of_brackets htrim, hpairs, ih, ← balancedWithin_bracket_iff, ← htrim]
    exact balancedWithin_congr (brackets_trim cs)
  | case2 cs h =>
    rw [peel_of_core h]
    exact balancedWithin_congr (brackets_trim cs)

theorem brackets_unmark (cs : List Char) : brackets (unmark cs) = brackets cs := by
  unfold unmark
  split
  · next hlast =>
    obtain ⟨front, rfl⟩ := List.getLast?_eq_some_iff.mp hlast
    have hmark : brackets ['!'] = [] := rfl
    rw [List.dropLast_concat, brackets_append, hmark, List.append_nil]
  · rfl

/-- The brackets of a text are balanced exactly if those of its core are, inside the pairs. -/
theorem balanced_iff_coreOf : Balanced cs ↔ BalancedWithin (coreOf cs).1 (coreOf cs).2 := by
  have hbrackets : brackets (unmark (trim cs)) = brackets cs :=
    (brackets_unmark (trim cs)).trans (brackets_trim cs)
  rw [← balancedWithin_zero_iff, ← balancedWithin_congr hbrackets, ← balancedWithin_peel,
    Nat.zero_add, coreOf]

/-! ### Brackets at one end -/

/-- A core has a bracket at one of its ends and at the other neither its counterpart nor a mark,
which would count first. -/
def OneSided (core : List Char) : Prop :=
  (core.head? = some '[' ∧ core.getLast? ≠ some ']' ∧ core.getLast? ≠ some '!') ∨
    (core.head? ≠ some '[' ∧ core.getLast? = some ']')

/-- What is in no brackets has no closing bracket at its end if it starts with an opening one. -/
theorem getLast?_ne_of_unbracket?_eq_none (h : unbracket? core = none)
    (hhead : core.head? = some '[') : core.getLast? ≠ some ']' := by
  intro hlast
  obtain ⟨rest, rfl⟩ := List.head?_eq_some_iff.mp hhead
  rw [unbracket?_cons] at h
  cases hrest : rest.getLast? with
  | none =>
    obtain rfl : rest = [] := List.getLast?_eq_none_iff.mp hrest
    exact absurd hlast (by decide)
  | some last =>
    have hlast : last = ']' := by simpa [List.getLast?_cons, hrest] using hlast
    simp [dropLast?, hrest, hlast] at h

theorem oneSided_iff (h : unbracket? core = none) :
    OneSided core ↔
      core.getLast? ≠ some '!' ∧ (core.head? = some '[' ∨ core.getLast? = some ']') := by
  constructor
  · rintro (⟨hhead, -, hmark⟩ | ⟨-, hclosing⟩)
    · exact ⟨hmark, .inl hhead⟩
    · exact ⟨by simp [hclosing], .inr hclosing⟩
  · rintro ⟨hmark, hend⟩
    by_cases hhead : core.head? = some '['
    · exact .inl ⟨hhead, getLast?_ne_of_unbracket?_eq_none h hhead, hmark⟩
    · exact .inr ⟨hhead, hend.resolve_left hhead⟩

/-- Something stray stands beside the brackets of a text.  The core has a bracket at one end only,
and yet all the brackets of the core are balanced inside the pairs. -/
structure StrayBesideBrackets (cs : List Char) : Prop where
  oneSided : OneSided (coreOf cs).2
  balancedWithin : BalancedWithin (coreOf cs).1 (coreOf cs).2

/-! ### Brackets at the ends -/

/-- Nothing but opening brackets and blanks stands in front of an opening bracket, and nothing but
closing brackets, marks and blanks behind a closing one. -/
structure BracketsAtEnds (cs : List Char) : Prop where
  opening : ∀ front behind, cs = front ++ '[' :: behind → ∀ c ∈ front, c = '[' ∨ isBlank c = true
  closing : ∀ front behind, cs = front ++ ']' :: behind →
    ∀ c ∈ behind, c = ']' ∨ c = '!' ∨ isBlank c = true

theorem BracketsAtEnds.of_isInfix (h : BracketsAtEnds cs) (hpart : ds <:+: cs) :
    BracketsAtEnds ds := by
  obtain ⟨before, after, rfl⟩ := hpart
  constructor
  · rintro front behind rfl c hc
    exact h.opening (before ++ front) (behind ++ after) (by simp) c (by simp [hc])
  · rintro front behind rfl c hc
    exact h.closing (before ++ front) (behind ++ after) (by simp) c (by simp [hc])

/-- With brackets at the ends only, and as many opening as closing ones, there are brackets at both
ends or at none. -/
theorem BracketsAtEnds.not_oneSided (h : BracketsAtEnds core) (htrim : trim core = core)
    (hmatched : core.count ']' = core.count '[') : ¬OneSided core := by
  have hmem : '[' ∈ core ↔ ']' ∈ core := by
    rw [← List.count_pos_iff, ← List.count_pos_iff, hmatched]
  rintro (⟨hhead, hclosing, hmark⟩ | ⟨hhead, hclosing⟩)
  · -- Behind a closing bracket that is not the last character comes the last one.
    obtain ⟨front, behind, rfl⟩ := List.append_of_mem (hmem.mp (List.mem_of_mem_head? hhead))
    rcases List.eq_nil_or_concat behind with rfl | ⟨middle, last, rfl⟩
    · exact hclosing List.getLast?_concat
    · have hsplit : front ++ ']' :: middle.concat last = (front ++ ']' :: middle) ++ [last] := by
        simp
      rw [hsplit] at htrim hclosing hmark
      have hsolid : isBlank last = false := not_isBlank_of_trim_concat htrim
      rcases h.closing front _ rfl last (by simp) with rfl | rfl | hblank
      · exact hclosing List.getLast?_concat
      · exact hmark List.getLast?_concat
      · simp [hsolid] at hblank
  · -- In front of an opening bracket that is not the first character comes the first one.
    obtain ⟨front, behind, rfl⟩ := List.append_of_mem (hmem.mpr (List.mem_of_getLast? hclosing))
    cases front with
    | nil => exact hhead rfl
    | cons first middle =>
      have hsolid : isBlank first = false := not_isBlank_of_trim_cons htrim
      rcases h.opening _ behind rfl first (by simp) with rfl | hblank
      · exact hhead rfl
      · simp [hsolid] at hblank

/-- Nothing stray stands beside brackets at the ends. -/
theorem BracketsAtEnds.not_strayBesideBrackets (h : BracketsAtEnds cs) :
    ¬StrayBesideBrackets cs := by
  intro hstray
  have hcore : BracketsAtEnds (coreOf cs).2 := h.of_isInfix (coreOf_infix_self cs)
  exact hcore.not_oneSided (trim_peel _) hstray.balancedWithin.matched hstray.oneSided

end Text

open Text

/-! ### The blame -/

/-- A core is blamed for its brackets if one of them is at an end and there is no mark to count
first. -/
theorem TypeFault.ofCore?_eq_unbalancedBrackets_iff {pairs : Nat} {core : List Char} :
    ofCore? pairs core = some .unbalancedBrackets ↔
      ¬(1 ≤ pairs ∧ core.getLast? = some '!') ∧
        (core.head? = some '[' ∨ core.getLast? = some ']') := by
  unfold ofCore?
  split_ifs with hmark hnil hend hname
  · simp [hmark]
  · simp [hnil]
  · exact iff_of_true rfl ⟨hmark, hend⟩
  · simp [hend]
  · simp [hend]

namespace VariableType

variable {cs : List Char}

/-- A second mark at the end of a text is a mark at the end of a core without brackets around it. -/
theorem marked_twice_iff :
    ((trim cs).getLast? = some '!' ∧ (trimEnd (unmark (trim cs))).getLast? = some '!') ↔
      (coreOf cs).1 = 0 ∧ (coreOf cs).2.getLast? = some '!' := by
  have hmarked : (trimEnd (unmark (trim cs))).getLast? = some '!' ↔
      (trim (unmark (trim cs))).getLast? = some '!' := by
    rw [← endsMarked_iff, endsMarked, decide_eq_true_iff]
  rw [hmarked]
  constructor
  · rintro ⟨-, hlast⟩
    have hnone : unbracket? (trim (unmark (trim cs))) = none :=
      unbracket?_eq_none_of_getLast? (by simp [hlast])
    rw [coreOf, peel_of_core hnone]
    exact ⟨rfl, hlast⟩
  · rintro ⟨hzero, hlast⟩
    rw [coreOf, peel_snd_of_fst_eq_zero hzero] at hlast
    refine ⟨?_, hlast⟩
    by_contra hwhole
    rw [unmark_of_getLast?_ne hwhole, trim_trim] at hlast
    exact hwhole hlast

/-- The brackets of a text are blamed exactly if its core has one of them at one end only. -/
theorem diagnosis_eq_unbalancedBrackets_iff :
    diagnosis cs = some .unbalancedBrackets ↔ OneSided (coreOf cs).2 := by
  have hcore : unbracket? (coreOf cs).2 = none := unbracket?_peel _
  rw [diagnosis, oneSided_iff hcore]
  by_cases hmark : (coreOf cs).2.getLast? = some '!'
  · -- A mark counts first, twice at the end of the text or at the end of an element.
    by_cases hzero : (coreOf cs).1 = 0
    · rw [if_pos (marked_twice_iff.mpr ⟨hzero, hmark⟩)]
      simp [hmark]
    · rw [if_neg fun htwice => hzero (marked_twice_iff.mp htwice).1,
        TypeFault.ofCore?_eq_unbalancedBrackets_iff]
      simp [hmark, Nat.one_le_iff_ne_zero, hzero]
  · rw [if_neg fun htwice => hmark (marked_twice_iff.mp htwice).2,
      TypeFault.ofCore?_eq_unbalancedBrackets_iff]
    simp [hmark]

theorem ofText_eq_unbalancedBrackets_iff {text whole : String} :
    ofText text = .error ⟨whole, .unbalancedBrackets⟩ ↔
      text = whole ∧ OneSided (coreOf text.toList).2 := by
  rw [ofText, Except.mapError_eq_error_iff]
  constructor
  · rintro ⟨fault, hread, herror⟩
    obtain ⟨rfl, rfl⟩ := TypeError.mk.inj herror
    exact ⟨rfl, diagnosis_eq_unbalancedBrackets_iff.mp (read_eq_error_iff_diagnosis.mp hread)⟩
  · rintro ⟨rfl, hsided⟩
    exact ⟨_, read_eq_error_iff_diagnosis.mpr (diagnosis_eq_unbalancedBrackets_iff.mpr hsided), rfl⟩

/-- A text that is rejected for unbalanced brackets has unbalanced brackets unless something stray
stands beside them, and whenever this is so, brackets are blamed that are balanced.  Nothing of the
kind happens to a text with its brackets at the ends. -/
theorem unbalancedBrackets_iff_not_strayBesideBrackets (text : String) :
    (∀ whole, ofText text = .error ⟨whole, .unbalancedBrackets⟩ →
      (Unbalanced text.toList ↔ ¬StrayBesideBrackets text.toList)) ∧
    (StrayBesideBrackets text.toList →
      ofText text = .error ⟨text, .unbalancedBrackets⟩ ∧ Balanced text.toList) ∧
    (BracketsAtEnds text.toList → ¬StrayBesideBrackets text.toList) := by
  refine ⟨?_, ?_, BracketsAtEnds.not_strayBesideBrackets⟩
  · intro whole hblamed
    obtain ⟨-, hsided⟩ := ofText_eq_unbalancedBrackets_iff.mp hblamed
    rw [unbalanced_iff_not_balanced, balanced_iff_coreOf]
    exact not_congr ⟨fun hbalanced => ⟨hsided, hbalanced⟩, fun hstray => hstray.balancedWithin⟩
  · intro hstray
    exact ⟨ofText_eq_unbalancedBrackets_iff.mpr ⟨rfl, hstray.oneSided⟩,
      balanced_iff_coreOf.mpr hstray.balancedWithin⟩

/-- Two brackets are opened and one is closed, so the blame is right and nothing is stray. -/
theorem unbalancedBrackets_iff_not_strayBesideBrackets_unclosed :
    ofText "[[ID]" = .error ⟨"[[ID]", .unbalancedBrackets⟩ ∧ Unbalanced "[[ID]".toList ∧
      ¬StrayBesideBrackets "[[ID]".toList := by
  have hblamed : ofText "[[ID]" = .error ⟨"[[ID]", .unbalancedBrackets⟩ := by decide +kernel
  have hunbalanced : Unbalanced "[[ID]".toList := .inr (by decide)
  obtain ⟨hright, -, -⟩ := unbalancedBrackets_iff_not_strayBesideBrackets "[[ID]"
  exact ⟨hblamed, hunbalanced, (hright _ hblamed).mp hunbalanced⟩

/-- A word behind a complete pair of brackets has the reader blame the pair. -/
theorem unbalancedBrackets_of_word_behind_brackets :
    ofText "[ID] x" = .error ⟨"[ID] x", .unbalancedBrackets⟩ ∧ ¬Unbalanced "[ID] x".toList := by
  refine ⟨by decide +kernel, ?_⟩
  have hname : Balanced "ID".toList := balanced_of_notMem (by decide) (by decide)
  have hword : Balanced " x".toList := balanced_of_notMem (by decide) (by decide)
  have htext : "[ID] x".toList = '[' :: ("ID".toList ++ [']']) ++ " x".toList := by decide
  rw [unbalanced_iff_not_balanced, htext, not_not]
  exact hname.bracket.append hword

end VariableType

end QueryAssembly
