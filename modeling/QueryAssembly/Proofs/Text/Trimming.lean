import QueryAssembly.Text

/-!
# Where trimming stops

Trimming stops at the first character from either side that is not blank.  The characters that mean
something in the text of a type are none of them blank: brackets, the exclamation mark, and the
characters of names.

Main statement: `trim_append_append`, that trimming finds a text between blanks again if it neither
starts nor ends with one.
-/

namespace QueryAssembly.Text

/-! ### Characters that are not blank -/

theorem not_isBlank_openingBracket : isBlank '[' = false := by decide

theorem not_isBlank_closingBracket : isBlank ']' = false := by decide

theorem not_isBlank_exclamationMark : isBlank '!' = false := by decide

/-- The characters of names lie between the blanks of ASCII and those beyond it. -/
theorem isBlank_eq_false_of_isNameContinue {c : Char} (h : isNameContinue c = true) :
    isBlank c = false := by
  have hrange : '0' ≤ c ∧ c ≤ 'z' := by
    rw [isNameContinue_iff, isNameStart_iff] at h
    rcases h with (rfl | ⟨hlow, hhigh⟩ | ⟨hlow, hhigh⟩) | ⟨hlow, hhigh⟩
    · decide
    · exact ⟨Char.le_trans (by decide) hlow, Char.le_trans hhigh (by decide)⟩
    · exact ⟨Char.le_trans (by decide) hlow, hhigh⟩
    · exact ⟨hlow, Char.le_trans hhigh (by decide)⟩
  have hlow : 0x30 ≤ c.toNat := hrange.1
  have hhigh : c.toNat ≤ 0x7A := hrange.2
  simp only [isBlank, blankRanges, List.any_cons, List.any_nil, Bool.or_false, Bool.or_eq_false_iff,
    Bool.and_eq_false_iff, decide_eq_false_iff_not]
  omega

theorem Blanks.append {front back : List Char} (hfront : Blanks front) (hback : Blanks back) :
    Blanks (front ++ back) := by
  intro c hc
  rcases List.mem_append.mp hc with hc | hc
  · exact hfront c hc
  · exact hback c hc

/-- No blank is a given character that is not blank. -/
theorem Blanks.notMem {blanks : List Char} (h : Blanks blanks) {c : Char}
    (hc : isBlank c = false) : c ∉ blanks := by
  intro hmem
  rw [h c hmem] at hc
  exact absurd hc (by decide)

/-! ### Texts with solid ends -/

theorem trimStart_cons {c : Char} (hc : isBlank c = false) (cs : List Char) :
    trimStart (c :: cs) = c :: cs := by
  simp [trimStart, hc]

theorem trimEnd_append_singleton {c : Char} (hc : isBlank c = false) (cs : List Char) :
    trimEnd (cs ++ [c]) = cs ++ [c] := by
  simp [trimEnd, hc]

/-- A text that ends solidly has the same end wherever trimming starts. -/
theorem trimStart_append_singleton {c : Char} (hc : isBlank c = false) (cs : List Char) :
    trimStart (cs ++ [c]) = trimStart cs ++ [c] := by
  induction cs with
  | nil => exact trimStart_cons hc []
  | cons first rest ih =>
    by_cases hfirst : isBlank first = true
    · simpa [trimStart, hfirst] using ih
    · rw [Bool.not_eq_true] at hfirst
      rw [List.cons_append, trimStart_cons hfirst, trimStart_cons hfirst, List.cons_append]

theorem trim_append_singleton {c : Char} (hc : isBlank c = false) (cs : List Char) :
    trim (cs ++ [c]) = trimStart cs ++ [c] := by
  rw [trim, trimStart_append_singleton hc, trimEnd_append_singleton hc]

/-- Trimming leaves a text as it is if no blank stands at an end of it. -/
theorem trim_eq_self {cs : List Char} (hhead : ∀ c ∈ cs.head?, isBlank c = false)
    (hlast : ∀ c ∈ cs.getLast?, isBlank c = false) : trim cs = cs := by
  rcases List.eq_nil_or_concat cs with rfl | ⟨front, last, rfl⟩
  · rfl
  · have hlast : isBlank last = false := hlast last (by simp)
    rw [List.concat_eq_append] at hhead ⊢
    rw [trim_append_singleton hlast]
    cases front with
    | nil => rfl
    | cons first rest => rw [trimStart_cons (hhead first rfl)]

/-- Trimming takes away the blanks around a text, and nothing more if no blank stands at an end of
it. -/
theorem trim_append_append {before cs after : List Char} (hbefore : Blanks before)
    (hafter : Blanks after) (hhead : ∀ c ∈ cs.head?, isBlank c = false)
    (hlast : ∀ c ∈ cs.getLast?, isBlank c = false) : trim (before ++ cs ++ after) = cs := by
  rw [trim_append_isBlank hafter, trim_isBlank_append hbefore, trim_eq_self hhead hlast]

/-- Trimming the start first makes no difference. -/
theorem trim_trimStart (cs : List Char) : trim (trimStart cs) = trim cs := by
  obtain ⟨blanks, hblanks, heq⟩ := exists_eq_append_trimStart cs
  calc trim (trimStart cs) = trim (blanks ++ trimStart cs) := (trim_isBlank_append hblanks _).symm
    _ = trim cs := by rw [← heq]

/-- Trimming the end first makes no difference. -/
theorem trim_trimEnd (cs : List Char) : trim (trimEnd cs) = trim cs := by
  obtain ⟨blanks, hblanks, heq⟩ := exists_eq_trimEnd_append cs
  calc trim (trimEnd cs) = trim (trimEnd cs ++ blanks) := (trim_append_isBlank hblanks _).symm
    _ = trim cs := by rw [← heq]

/-- Trimming a second time makes no difference. -/
theorem trim_trim (cs : List Char) : trim (trim cs) = trim cs := by
  calc trim (trim cs) = trim (trimStart cs) := trim_trimEnd _
    _ = trim cs := trim_trimStart cs

/-- What trimming leaves as it is starts with no blank. -/
theorem not_isBlank_of_trim_cons {c : Char} {cs : List Char} (h : trim (c :: cs) = c :: cs) :
    isBlank c = false := by
  cases hc : isBlank c with
  | false => rfl
  | true =>
    have hblanks : Blanks [c] := by simpa [Blanks] using hc
    have htrim : trim cs = c :: cs := (trim_isBlank_append hblanks cs).symm.trans h
    have hlength := length_trim_le cs
    rw [htrim, List.length_cons] at hlength
    exact absurd hlength (Nat.not_succ_le_self _)

/-- What trimming leaves as it is ends with no blank. -/
theorem not_isBlank_of_trim_concat {c : Char} {cs : List Char}
    (h : trim (cs ++ [c]) = cs ++ [c]) : isBlank c = false := by
  cases hc : isBlank c with
  | false => rfl
  | true =>
    have hblanks : Blanks [c] := by simpa [Blanks] using hc
    have htrim : trim cs = cs ++ [c] := (trim_append_isBlank hblanks cs).symm.trans h
    have hlength := length_trim_le cs
    rw [htrim, List.length_append, List.length_singleton] at hlength
    exact absurd hlength (Nat.not_succ_le_self _)

/-- What trimming leaves is a part of the text. -/
theorem trim_infix_self (cs : List Char) : trim cs <:+: cs := by
  obtain ⟨before, after, -, -, hcs⟩ := exists_eq_append_trim cs
  exact ⟨before, after, hcs.symm⟩

theorem mem_of_mem_trimEnd {c : Char} {cs : List Char} (h : c ∈ trimEnd cs) : c ∈ cs := by
  obtain ⟨blanks, -, heq⟩ := exists_eq_trimEnd_append cs
  rw [heq]
  exact List.mem_append_left blanks h

theorem mem_of_mem_trim {c : Char} {cs : List Char} (h : c ∈ trim cs) : c ∈ cs := by
  obtain ⟨before, after, -, -, heq⟩ := exists_eq_append_trim cs
  rw [heq]
  exact List.mem_append_left after (List.mem_append_right before h)

/-- The characters of a name are not blank. -/
theorem isBlank_eq_false_of_mem {name : List Char} (h : isName name = true) {c : Char}
    (hc : c ∈ name) : isBlank c = false :=
  isBlank_eq_false_of_isNameContinue (isNameContinue_of_mem h hc)

/-- A name is found again between blanks. -/
theorem trim_isName {before name after : List Char} (hbefore : Blanks before)
    (hname : isName name = true) (hafter : Blanks after) :
    trim (before ++ name ++ after) = name := by
  have hhead : ∀ c ∈ name.head?, isBlank c = false := by
    intro c hc
    exact isBlank_eq_false_of_mem hname (List.mem_of_mem_head? hc)
  have hlast : ∀ c ∈ name.getLast?, isBlank c = false := by
    intro c hc
    exact isBlank_eq_false_of_mem hname (List.mem_of_mem_getLast? hc)
  exact trim_append_append hbefore hafter hhead hlast

end QueryAssembly.Text
