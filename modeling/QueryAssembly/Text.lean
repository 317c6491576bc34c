/-!
# Characters and texts

What the texts of types are made of, and what the reader of them takes apart.

The characters that may stand around the parts of a type text without meaning anything are those
with the Unicode property `White_Space`.  `blankRanges` lists them, `isBlank` tests for one, and
`trimStart`, `trimEnd` and `trim` take the runs of them off the ends of a text.  `dropLast?` takes
one given character off the end of a text.

A name starts with a Latin letter or an underscore and goes on with Latin letters, digits and
underscores: `/[_A-Za-z][_0-9A-Za-z]*/`.  The rule admits ASCII characters alone, so the ASCII
classes of `Char` decide it.

The main statements are `exists_eq_append_trim`, that trimming takes blanks off the two ends and
nothing else, `trim_isBlank_append` with `trim_append_isBlank`, that the blanks around a text
have no influence on what is left, and `isName_iff`, which texts are names.
-/

namespace QueryAssembly.Text

/-! ### Definitions -/

/-- The code points of the property `White_Space`, as inclusive ranges in increasing order. -/
def blankRanges : List (Nat × Nat) :=
  [(0x09, 0x0D), (0x20, 0x20), (0x85, 0x85), (0xA0, 0xA0), (0x1680, 0x1680), (0x2000, 0x200A),
    (0x2028, 0x2029), (0x202F, 0x202F), (0x205F, 0x205F), (0x3000, 0x3000)]

/-- A character is blank if its code point lies in one of the `blankRanges`. -/
def isBlank (c : Char) : Bool :=
  blankRanges.any fun range => range.1 ≤ c.toNat && c.toNat ≤ range.2

/-- A run of blank characters, perhaps empty. -/
def Blanks (cs : List Char) : Prop :=
  ∀ c ∈ cs, isBlank c = true

/-- A text without the blanks it starts with. -/
def trimStart (cs : List Char) : List Char :=
  cs.dropWhile isBlank

/-- A text without the blanks it ends with. -/
def trimEnd (cs : List Char) : List Char :=
  (cs.reverse.dropWhile isBlank).reverse

/-- A text without the blanks at its two ends. -/
def trim (cs : List Char) : List Char :=
  trimEnd (trimStart cs)

/-- A text without its last character, if that is the given one. -/
def dropLast? (last : Char) (cs : List Char) : Option (List Char) :=
  if cs.getLast? = some last then some cs.dropLast else none

/-- A name may start with a Latin letter or an underscore. -/
def isNameStart (c : Char) : Bool :=
  c == '_' || c.isAlpha

/-- A name may go on with a Latin letter, a digit or an underscore. -/
def isNameContinue (c : Char) : Bool :=
  c == '_' || c.isAlphanum

/-- A text is a name if it is not empty and its characters stand where a name may have them. -/
def isName : List Char → Bool
  | [] => false
  | c :: rest => isNameStart c && rest.all isNameContinue

/-! ### Blanks and trimming -/

/-- There are twenty-five blank characters. -/
example : (blankRanges.map fun range => range.2 + 1 - range.1).sum = 25 := rfl

theorem length_trimStart_le (cs : List Char) : (trimStart cs).length ≤ cs.length :=
  (List.dropWhile_sublist isBlank).length_le

theorem length_trimEnd_le (cs : List Char) : (trimEnd cs).length ≤ cs.length := by
  simpa [trimEnd] using (List.dropWhile_sublist isBlank (l := cs.reverse)).length_le

theorem length_trim_le (cs : List Char) : (trim cs).length ≤ cs.length :=
  Nat.le_trans (length_trimEnd_le _) (length_trimStart_le cs)

/-- Blanks in front of a text do not change what trimming leaves of it. -/
theorem trimStart_isBlank_append {blanks : List Char} (h : Blanks blanks)
    (cs : List Char) : trimStart (blanks ++ cs) = trimStart cs := by
  induction blanks with
  | nil => rfl
  | cons b rest ih =>
    have hb : isBlank b = true := h b (by simp)
    simpa [trimStart, List.dropWhile_cons, hb] using ih fun c hc => h c (by simp [hc])

/-- Blanks behind a text do not change what trimming its end leaves of it. -/
theorem trimEnd_append_isBlank {blanks : List Char} (h : Blanks blanks)
    (cs : List Char) : trimEnd (cs ++ blanks) = trimEnd cs := by
  have hreverse : Blanks blanks.reverse := by simpa [Blanks] using h
  simpa [trimStart, trimEnd] using trimStart_isBlank_append hreverse cs.reverse

/-- A text is what trimming its start leaves, behind a run of blanks. -/
theorem exists_eq_append_trimStart (cs : List Char) :
    ∃ blanks, Blanks blanks ∧ cs = blanks ++ trimStart cs :=
  ⟨cs.takeWhile isBlank, fun _ hc => List.all_eq_true.mp List.all_takeWhile _ hc,
    (List.takeWhile_append_dropWhile).symm⟩

/-- A text is what trimming its end leaves, in front of a run of blanks. -/
theorem exists_eq_trimEnd_append (cs : List Char) :
    ∃ blanks, Blanks blanks ∧ cs = trimEnd cs ++ blanks := by
  obtain ⟨blanks, hblanks, heq⟩ := exists_eq_append_trimStart cs.reverse
  refine ⟨blanks.reverse, by simpa [Blanks] using hblanks, ?_⟩
  have := congrArg List.reverse heq
  simpa [trimEnd, trimStart] using this

/-- A text is what trimming leaves of it between two runs of blanks. -/
theorem exists_eq_append_trim (cs : List Char) :
    ∃ before after, Blanks before ∧ Blanks after ∧
      cs = before ++ trim cs ++ after := by
  obtain ⟨before, hbefore, hstart⟩ := exists_eq_append_trimStart cs
  obtain ⟨after, hafter, hend⟩ := exists_eq_trimEnd_append (trimStart cs)
  refine ⟨before, after, hbefore, hafter, ?_⟩
  rw [List.append_assoc, trim, ← hend, ← hstart]

/-- Blanks in front of a text do not change what trimming leaves of it. -/
theorem trim_isBlank_append {blanks : List Char} (h : Blanks blanks)
    (cs : List Char) : trim (blanks ++ cs) = trim cs := by
  rw [trim, trimStart_isBlank_append h, trim]

/-- Blanks behind a text do not change what trimming leaves of it. -/
theorem trim_append_isBlank {blanks : List Char} (h : Blanks blanks)
    (cs : List Char) : trim (cs ++ blanks) = trim cs := by
  have hnil : blanks.dropWhile isBlank = [] := by
    simpa [trimStart] using trimStart_isBlank_append h []
  by_cases hcs : cs.dropWhile isBlank = []
  · simp [trim, trimStart, List.dropWhile_append, hcs, hnil]
  · have hstart : trimStart (cs ++ blanks) = trimStart cs ++ blanks := by
      simp [trimStart, List.dropWhile_append, hcs]
    rw [trim, hstart, trimEnd_append_isBlank h, trim]

/-! ### Last characters -/

/-- The last character can be dropped from the texts that are some text with that character behind
it, and that text is left. -/
theorem dropLast?_eq_some_iff {last : Char} {cs rest : List Char} :
    dropLast? last cs = some rest ↔ cs = rest ++ [last] := by
  constructor
  · intro h
    simp only [dropLast?, Option.ite_none_right_eq_some, Option.some.injEq] at h
    obtain ⟨hlast, rfl⟩ := h
    obtain ⟨front, rfl⟩ := List.getLast?_eq_some_iff.mp hlast
    simp
  · rintro rfl
    simp [dropLast?]

/-! ### Names -/

/-- A name may start with the underscore and the Latin letters, of both cases. -/
theorem isNameStart_iff {c : Char} :
    isNameStart c = true ↔ c = '_' ∨ ('A' ≤ c ∧ c ≤ 'Z') ∨ ('a' ≤ c ∧ c ≤ 'z') := by
  have hupper : c.isUpper = true ↔ 'A' ≤ c ∧ c ≤ 'Z' := decide_eq_true_iff
  have hlower : c.isLower = true ↔ 'a' ≤ c ∧ c ≤ 'z' :=
    Bool.and_eq_true_iff.trans (and_congr decide_eq_true_iff decide_eq_true_iff)
  have halpha : c.isAlpha = true ↔ c.isUpper = true ∨ c.isLower = true := Bool.or_eq_true_iff
  rw [isNameStart, Bool.or_eq_true_iff, beq_iff_eq, halpha, hupper, hlower]

/-- A name may go on with what it may start with and with the digits. -/
theorem isNameContinue_iff {c : Char} :
    isNameContinue c = true ↔ isNameStart c = true ∨ ('0' ≤ c ∧ c ≤ '9') := by
  have hdigit : c.isDigit = true ↔ '0' ≤ c ∧ c ≤ '9' :=
    Bool.and_eq_true_iff.trans (and_congr decide_eq_true_iff decide_eq_true_iff)
  have halphanum : c.isAlphanum = true ↔ c.isAlpha = true ∨ c.isDigit = true :=
    Bool.or_eq_true_iff
  rw [isNameContinue, isNameStart, Bool.or_eq_true_iff, Bool.or_eq_true_iff, halphanum, hdigit,
    or_assoc]

/-- The names are the texts of `/[_A-Za-z][_0-9A-Za-z]*/`. -/
theorem isName_iff {cs : List Char} :
    isName cs = true ↔ ∃ first rest, cs = first :: rest ∧
      (first = '_' ∨ ('A' ≤ first ∧ first ≤ 'Z') ∨ ('a' ≤ first ∧ first ≤ 'z')) ∧
        ∀ c ∈ rest, (c = '_' ∨ ('A' ≤ c ∧ c ≤ 'Z') ∨ ('a' ≤ c ∧ c ≤ 'z')) ∨
          ('0' ≤ c ∧ c ≤ '9') := by
  cases cs with
  | nil => simp [isName]
  | cons c rest =>
    rw [isName, Bool.and_eq_true_iff, List.all_eq_true]
    simp only [isNameContinue_iff, isNameStart_iff, List.cons.injEq]
    constructor
    · rintro ⟨hfirst, hrest⟩
      exact ⟨c, rest, ⟨rfl, rfl⟩, hfirst, hrest⟩
    · rintro ⟨_, _, ⟨rfl, rfl⟩, hfirst, hrest⟩
      exact ⟨hfirst, hrest⟩

/-- Every character of a name may stand inside a name. -/
theorem isNameContinue_of_mem {cs : List Char} (h : isName cs = true) {c : Char} (hc : c ∈ cs) :
    isNameContinue c = true := by
  cases cs with
  | nil => simp at hc
  | cons first rest =>
    simp only [isName, Bool.and_eq_true, List.all_eq_true] at h
    rcases List.mem_cons.mp hc with rfl | hrest
    · exact isNameContinue_iff.mpr (.inl h.1)
    · exact h.2 c hrest

end QueryAssembly.Text
