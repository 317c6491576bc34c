import QueryAssembly.Proofs.Text.Trimming

/-!
# Balanced brackets

The square brackets of a text are balanced if there are as many closing as opening ones, and in no
part that the text starts with there are more closing ones.

Part of a text may hold the counterparts of brackets outside of it.  `BalancedWithin` says that the
brackets of a part are balanced as it stands inside so many pairs of brackets, so that a pair can be
taken off a text and the balance still be seen (`balancedWithin_bracket_iff`).  What stands between
the brackets is of no account (`balancedWithin_congr`).
-/

namespace QueryAssembly.Text

/-- Every closing bracket of a text has its opening one before it, and none is left open. -/
structure Balanced (cs : List Char) : Prop where
  covered : ∀ front, front <+: cs → front.count ']' ≤ front.count '['
  matched : cs.count ']' = cs.count '['

/-- A text without brackets is balanced. -/
theorem balanced_of_notMem {cs : List Char} (hopening : '[' ∉ cs) (hclosing : ']' ∉ cs) :
    Balanced cs where
  covered := by
    intro front hfront
    have hnone : ']' ∉ front := fun hmem => hclosing (hfront.subset hmem)
    rw [List.count_eq_zero_of_not_mem hnone]
    exact Nat.zero_le _
  matched := by
    rw [List.count_eq_zero_of_not_mem hopening, List.count_eq_zero_of_not_mem hclosing]

theorem Blanks.balanced {blanks : List Char} (h : Blanks blanks) : Balanced blanks :=
  balanced_of_notMem (h.notMem not_isBlank_openingBracket) (h.notMem not_isBlank_closingBracket)

/-- Two balanced texts one after the other are balanced. -/
theorem Balanced.append {cs ds : List Char} (hcs : Balanced cs) (hds : Balanced ds) :
    Balanced (cs ++ ds) where
  covered := by
    intro front hfront
    obtain ⟨rest, hrest⟩ := hfront
    rcases List.append_eq_append_iff.mp hrest with ⟨part, hpart, -⟩ | ⟨part, rfl, hpart⟩
    · exact hcs.covered front ⟨part, hpart.symm⟩
    · have hpart := hds.covered part ⟨rest, hpart.symm⟩
      have hwhole := hcs.matched
      simp only [List.count_append]
      omega
  matched := by
    rw [List.count_append, List.count_append, hcs.matched, hds.matched]

/-- A balanced text in brackets is balanced. -/
theorem Balanced.bracket {cs : List Char} (h : Balanced cs) :
    Balanced ('[' :: (cs ++ [']'])) where
  covered := by
    intro front hfront
    rcases List.prefix_cons_iff.mp hfront with rfl | ⟨part, rfl, hpart⟩
    · simp
    · have hle : part.count ']' ≤ part.count '[' + 1 := by
        rcases List.prefix_concat_iff.mp hpart with rfl | hpart
        · have hmatched := h.matched
          simp [hmatched]
        · have hcovered := h.covered part hpart
          omega
      simpa using hle
  matched := by
    have hmatched := h.matched
    simp [hmatched]

/-- Some part that the text starts with has more closing than opening brackets, or the whole has
different numbers of them. -/
def Unbalanced (cs : List Char) : Prop :=
  (∃ front, front <+: cs ∧ front.count '[' < front.count ']') ∨ cs.count '[' ≠ cs.count ']'

theorem unbalanced_iff_not_balanced {cs : List Char} : Unbalanced cs ↔ ¬Balanced cs := by
  constructor
  · rintro (⟨front, hfront, hlt⟩ | hne) h
    · exact Nat.not_le_of_lt hlt (h.covered front hfront)
    · exact hne h.matched.symm
  · intro h
    by_cases hfront : ∃ front, front <+: cs ∧ front.count '[' < front.count ']'
    · exact .inl hfront
    · refine .inr fun hmatched => h ⟨?_, hmatched.symm⟩
      intro front hprefix
      exact Nat.le_of_not_lt fun hlt => hfront ⟨front, hprefix, hlt⟩

/-! ### Inside further brackets -/

/-- The brackets of a text are balanced as it stands inside so many pairs of brackets, which some of
its closing and opening brackets may be the counterparts of. -/
structure BalancedWithin (pairs : Nat) (cs : List Char) : Prop where
  covered : ∀ front, front <+: cs → front.count ']' ≤ front.count '[' + pairs
  matched : cs.count ']' = cs.count '['

section BalancedWithin

variable {pairs : Nat} {cs ds : List Char}

theorem balancedWithin_zero_iff : BalancedWithin 0 cs ↔ Balanced cs :=
  ⟨fun h => ⟨h.covered, h.matched⟩, fun h => ⟨h.covered, h.matched⟩⟩

/-- A pair of brackets counts the same around a text as at its ends. -/
theorem balancedWithin_bracket_iff :
    BalancedWithin pairs ('[' :: (cs ++ [']'])) ↔ BalancedWithin (pairs + 1) cs := by
  constructor
  · intro h
    refine ⟨?_, by simpa using h.matched⟩
    intro front hfront
    have hpart : '[' :: front <+: '[' :: (cs ++ [']']) :=
      List.cons_prefix_cons.mpr ⟨rfl, hfront.trans (List.prefix_append cs [']'])⟩
    have hcovered := h.covered _ hpart
    simp only [List.count_cons_self, List.count_cons_of_ne (by decide : '[' ≠ ']')] at hcovered
    omega
  · intro h
    refine ⟨?_, by simpa using h.matched⟩
    intro front hfront
    rcases List.prefix_cons_iff.mp hfront with rfl | ⟨part, rfl, hpart⟩
    · simp
    · have hle : part.count ']' ≤ part.count '[' + (pairs + 1) := by
        rcases List.prefix_concat_iff.mp hpart with rfl | hpart
        · have hmatched := h.matched
          simp [hmatched]
        · exact h.covered part hpart
      simp only [List.count_cons_self, List.count_cons_of_ne (by decide : '[' ≠ ']')]
      omega

/-- The brackets of a text without what stands between them. -/
def brackets (cs : List Char) : List Char :=
  cs.filter fun c => c == '[' || c == ']'

theorem brackets_append (cs ds : List Char) : brackets (cs ++ ds) = brackets cs ++ brackets ds :=
  List.filter_append cs ds

theorem Blanks.brackets_eq_nil {blanks : List Char} (h : Blanks blanks) : brackets blanks = [] := by
  rw [brackets, List.filter_eq_nil_iff]
  intro c hc hbracket
  rcases Bool.or_eq_true_iff.mp hbracket with hopening | hclosing
  · exact h.notMem not_isBlank_openingBracket (eq_of_beq hopening ▸ hc)
  · exact h.notMem not_isBlank_closingBracket (eq_of_beq hclosing ▸ hc)

theorem brackets_trim (cs : List Char) : brackets (trim cs) = brackets cs := by
  obtain ⟨before, after, hbefore, hafter, hcs⟩ := exists_eq_append_trim cs
  have hall : brackets (before ++ trim cs ++ after) = brackets (trim cs) := by
    rw [brackets_append, brackets_append, hbefore.brackets_eq_nil, hafter.brackets_eq_nil,
      List.nil_append, List.append_nil]
  rw [← hcs] at hall
  exact hall.symm

theorem count_openingBracket_brackets (cs : List Char) :
    (brackets cs).count '[' = cs.count '[' :=
  List.count_filter (by decide)

theorem count_closingBracket_brackets (cs : List Char) :
    (brackets cs).count ']' = cs.count ']' :=
  List.count_filter (by decide)

/-- Only the brackets of a text count. -/
theorem balancedWithin_brackets_iff :
    BalancedWithin pairs (brackets cs) ↔ BalancedWithin pairs cs := by
  have hmatched : (brackets cs).count ']' = (brackets cs).count '[' ↔
      cs.count ']' = cs.count '[' := by
    rw [count_closingBracket_brackets, count_openingBracket_brackets]
  constructor
  · intro h
    refine ⟨?_, hmatched.mp h.matched⟩
    intro front hfront
    have hcovered := h.covered (brackets front) (hfront.filter _)
    rwa [count_closingBracket_brackets, count_openingBracket_brackets] at hcovered
  · intro h
    refine ⟨?_, hmatched.mpr h.matched⟩
    intro front hfront
    obtain ⟨part, hpart, rfl⟩ := List.prefix_filter_iff.mp hfront
    have hcovered := h.covered part hpart
    rwa [← count_closingBracket_brackets, ← count_openingBracket_brackets] at hcovered

/-- Texts with the same brackets are balanced alike. -/
theorem balancedWithin_congr (h : brackets cs = brackets ds) :
    BalancedWithin pairs cs ↔ BalancedWithin pairs ds := by
  rw [← balancedWithin_brackets_iff, h, balancedWithin_brackets_iff]

end BalancedWithin

end QueryAssembly.Text
