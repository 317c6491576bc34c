import Mathlib.Data.List.Basic
import QueryAssembly.Proofs.Text.Brackets
import QueryAssembly.VariableType.Basic

/-!
# The grammar of type texts

Which texts stand for which types, said without a reader.  With W for any run of blanks,

* a name between blanks, `W name W`, stands for the named type of that name;
* a text that stands for a type, in brackets between blanks, `W [ text ] W`, stands for the lists of
  that type;
* a text that stands for a nullable type stands for that type as the type of a variable, and with an
  exclamation mark and blanks behind it, `text ! W`, for that type without null.

Looked at from outside, an exclamation mark stands only at the very end of such a text
(`Text.MarkedAtEnd`), its brackets are balanced (`Text.Balanced`), and between the opening brackets
and the closing ones there is one name and nothing else (`Text.NamedOnce`).
-/

namespace QueryAssembly

open Text

/-! ### Grammar -/

/-- The texts that stand for a nullable type. -/
inductive NullableType.WrittenAs : NullableType → List Char → Prop where
  | named {name : String} {before after : List Char} (isName_name : isName name.toList = true)
      (blanks_before : Blanks before) (blanks_after : Blanks after) :
      WrittenAs (.named name) (before ++ name.toList ++ after)
  | list {element : NullableType} {text before after : List Char}
      (writtenAs_element : WrittenAs element text)
      (blanks_before : Blanks before) (blanks_after : Blanks after) :
      WrittenAs (.list element) (before ++ '[' :: (text ++ ']' :: after))

/-- The texts that stand for the type of a variable. -/
inductive VariableType.WrittenAs : VariableType → List Char → Prop where
  | nullable {base : NullableType} {text : List Char} (writtenAs_base : base.WrittenAs text) :
      WrittenAs ⟨base, false⟩ text
  | nonNull {base : NullableType} {text after : List Char} (writtenAs_base : base.WrittenAs text)
      (blanks_after : Blanks after) :
      WrittenAs ⟨base, true⟩ (text ++ '!' :: after)

/-! ### What it admits -/

namespace Text

/-- Behind every exclamation mark of a text there are only blanks, so there is at most one. -/
def MarkedAtEnd (cs : List Char) : Prop :=
  ∀ front behind, cs = front ++ '!' :: behind → Blanks behind

/-- A text is a name between opening brackets in front of it and closing brackets, perhaps with an
exclamation mark, behind it, all of them with blanks in between. -/
def NamedOnce (cs : List Char) : Prop :=
  ∃ opening name closing, cs = opening ++ name ++ closing ∧ isName name = true ∧
    (∀ c ∈ opening, c = '[' ∨ isBlank c = true) ∧
      ∀ c ∈ closing, c = ']' ∨ c = '!' ∨ isBlank c = true

/-- No name has a bracket or an exclamation mark in it. -/
theorem notMem_of_isName {name : List Char} (h : isName name = true) {c : Char}
    (hc : isNameContinue c = false) : c ∉ name := by
  intro hmem
  rw [isNameContinue_of_mem h hmem] at hc
  exact absurd hc (by decide)

theorem NamedOnce.append {cs before after : List Char} (h : NamedOnce cs)
    (hbefore : ∀ c ∈ before, c = '[' ∨ isBlank c = true)
    (hafter : ∀ c ∈ after, c = ']' ∨ c = '!' ∨ isBlank c = true) :
    NamedOnce (before ++ cs ++ after) := by
  obtain ⟨opening, name, closing, rfl, hname, hopening, hclosing⟩ := h
  refine ⟨before ++ opening, name, closing ++ after, by simp, hname, ?_, ?_⟩
  · intro c hc
    rcases List.mem_append.mp hc with hc | hc
    · exact hbefore c hc
    · exact hopening c hc
  · intro c hc
    rcases List.mem_append.mp hc with hc | hc
    · exact hclosing c hc
    · exact hafter c hc

end Text

namespace NullableType.WrittenAs

variable {type : NullableType} {text : List Char}

/-- Further blanks in front of a text change nothing. -/
theorem blanks_append (h : type.WrittenAs text) {blanks : List Char} (hblanks : Blanks blanks) :
    type.WrittenAs (blanks ++ text) := by
  cases h with
  | @named name before after hname hbefore hafter =>
    simpa using named hname (hblanks.append hbefore) hafter
  | @list element text before after helement hbefore hafter =>
    simpa using list helement (hblanks.append hbefore) hafter

/-- No text for a nullable type has an exclamation mark in it. -/
theorem notMem (h : type.WrittenAs text) : '!' ∉ text := by
  induction h with
  | named hname hbefore hafter =>
    have hmark : '!' ∉ _ := notMem_of_isName hname (by decide)
    simp [hmark, hbefore.notMem not_isBlank_exclamationMark,
      hafter.notMem not_isBlank_exclamationMark]
  | list _ hbefore hafter ih =>
    simp [ih, hbefore.notMem not_isBlank_exclamationMark,
      hafter.notMem not_isBlank_exclamationMark]

theorem balanced (h : type.WrittenAs text) : Balanced text := by
  induction h with
  | named hname hbefore hafter =>
    have hnamed : Balanced _ := balanced_of_notMem (notMem_of_isName hname (by decide))
      (notMem_of_isName hname (by decide))
    exact (hbefore.balanced.append hnamed).append hafter.balanced
  | list _ hbefore hafter ih =>
    simpa using (hbefore.balanced.append ih.bracket).append hafter.balanced

theorem namedOnce (h : type.WrittenAs text) : NamedOnce text := by
  induction h with
  | @named name before after hname hbefore hafter =>
    exact ⟨before, name.toList, after, rfl, hname, fun c hc => .inr (hbefore c hc),
      fun c hc => .inr (.inr (hafter c hc))⟩
  | @list element text before after _ hbefore hafter ih =>
    have hwhole : NamedOnce ((before ++ ['[']) ++ text ++ (']' :: after)) := by
      refine ih.append ?_ ?_
      · intro c hc
        rcases List.mem_append.mp hc with hc | hc
        · exact .inr (hbefore c hc)
        · exact .inl (List.mem_singleton.mp hc)
      · intro c hc
        rcases List.mem_cons.mp hc with hc | hc
        · exact .inl hc
        · exact .inr (.inr (hafter c hc))
    simpa using hwhole

end NullableType.WrittenAs

namespace VariableType.WrittenAs

variable {type : VariableType} {text : List Char}

theorem markedAtEnd (h : type.WrittenAs text) : MarkedAtEnd text := by
  cases h with
  | nullable hbase =>
    rintro front behind rfl
    exact absurd hbase.notMem (by simp)
  | @nonNull base text after hbase hafter =>
    intro front behind heq
    have hafter' : '!' ∉ after := hafter.notMem not_isBlank_exclamationMark
    obtain ⟨-, -, rfl⟩ := (List.append_cons_inj_of_notMem hbase.notMem hafter').mp heq
    exact hafter

theorem balanced (h : type.WrittenAs text) : Balanced text := by
  cases h with
  | nullable hbase => exact hbase.balanced
  | @nonNull base text after hbase hafter =>
    have hmark : Balanced ['!'] := balanced_of_notMem (by simp) (by simp)
    simpa using (hbase.balanced.append hmark).append hafter.balanced

theorem namedOnce (h : type.WrittenAs text) : NamedOnce text := by
  cases h with
  | nullable hbase => exact hbase.namedOnce
  | @nonNull base text after hbase hafter =>
    have hwhole : NamedOnce ([] ++ text ++ ('!' :: after)) := by
      refine hbase.namedOnce.append (by simp) ?_
      intro c hc
      rcases List.mem_cons.mp hc with hc | hc
      · exact .inr (.inl hc)
      · exact .inr (.inr (hafter c hc))
    simpa using hwhole

end VariableType.WrittenAs

end QueryAssembly
