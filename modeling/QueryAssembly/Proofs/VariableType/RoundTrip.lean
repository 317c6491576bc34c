import QueryAssembly.Proofs.VariableType.Acceptance

/-!
# Writing types and reading them back

A type has one written form, `VariableType.text`, and many texts stand for it.  The written form is
read back as the type exactly if the innermost name of the type is a name, and it is what every text
for the type comes to once its blanks are gone.  So blanks are all that texts for one type differ
in.

Both facts are read off the grammar: it has the written form of a type with a name inside
(`VariableType.writtenAs_write`), it has texts for no other types
(`VariableType.WrittenAs.isName_innermostName`), and a text that it has for a type is the written
form with blanks added (`VariableType.WrittenAs.withoutBlanks_eq`).

Main statement: `VariableType.ofText_text_inverse_up_to_blanks`.
-/

namespace QueryAssembly

namespace Text

/-! ### Texts without blanks -/

/-- A text without its blanks, wherever they stand. -/
def withoutBlanks (cs : List Char) : List Char :=
  cs.filter fun c => !isBlank c

@[simp] theorem withoutBlanks_append (cs ds : List Char) :
    withoutBlanks (cs ++ ds) = withoutBlanks cs ++ withoutBlanks ds :=
  List.filter_append cs ds

theorem withoutBlanks_cons {c : Char} (hc : isBlank c = false) (cs : List Char) :
    withoutBlanks (c :: cs) = c :: withoutBlanks cs := by
  simp [withoutBlanks, hc]

theorem Blanks.withoutBlanks_eq {blanks : List Char} (h : Blanks blanks) :
    withoutBlanks blanks = [] := by
  simpa [withoutBlanks, List.filter_eq_nil_iff, Blanks] using h

/-- There are no blanks in a name. -/
theorem withoutBlanks_of_isName {name : List Char} (h : isName name = true) :
    withoutBlanks name = name := by
  rw [withoutBlanks, List.filter_eq_self]
  intro c hc
  rw [isBlank_eq_false_of_mem h hc, Bool.not_false]

end Text

open Text

/-! ### Written forms in the grammar -/

namespace NullableType

variable {type : NullableType} {text : List Char}

/-- The grammar has the written form of a type with a name inside. -/
theorem writtenAs_write (h : isName type.innermostName.toList = true) :
    type.WrittenAs type.write := by
  have hblanks : Blanks [] := by simp [Blanks]
  induction type with
  | named name =>
    have hwritten : WrittenAs (.named name) ([] ++ name.toList ++ []) := .named h hblanks hblanks
    simpa [write] using hwritten
  | list element ih =>
    have hwritten : WrittenAs (.list element) ([] ++ '[' :: (element.write ++ ']' :: [])) :=
      .list (ih h) hblanks hblanks
    exact hwritten

/-- The grammar has texts only for types with a name inside. -/
theorem WrittenAs.isName_innermostName (h : type.WrittenAs text) :
    isName type.innermostName.toList = true := by
  induction h with
  | named hname => exact hname
  | list _ _ _ ih => exact ih

/-- What the grammar adds to the written form of a type is blanks. -/
theorem WrittenAs.withoutBlanks_eq (h : type.WrittenAs text) :
    withoutBlanks text = type.write := by
  induction h with
  | @named name before after hname hbefore hafter =>
    rw [withoutBlanks_append, withoutBlanks_append, hbefore.withoutBlanks_eq,
      hafter.withoutBlanks_eq, withoutBlanks_of_isName hname, write, List.nil_append,
      List.append_nil]
  | @list element text before after _ hbefore hafter ih =>
    rw [withoutBlanks_append, withoutBlanks_cons not_isBlank_openingBracket, withoutBlanks_append,
      withoutBlanks_cons not_isBlank_closingBracket, hbefore.withoutBlanks_eq,
      hafter.withoutBlanks_eq, ih, write, List.nil_append]

end NullableType

namespace VariableType

variable {type other : VariableType} {text : List Char}

/-- The grammar has the written form of a type with a name inside. -/
theorem writtenAs_write (h : isName type.base.innermostName.toList = true) :
    type.WrittenAs type.write := by
  obtain ⟨base, nonNull⟩ := type
  have hbase : base.WrittenAs base.write := NullableType.writtenAs_write h
  cases nonNull with
  | false => exact .nullable hbase
  | true => exact .nonNull hbase (by simp [Blanks])

/-- The grammar has texts only for types with a name inside. -/
theorem WrittenAs.isName_innermostName (h : type.WrittenAs text) :
    isName type.base.innermostName.toList = true := by
  cases h with
  | nullable hbase => exact hbase.isName_innermostName
  | nonNull hbase => exact hbase.isName_innermostName

/-- What the grammar adds to the written form of a type is blanks. -/
theorem WrittenAs.withoutBlanks_eq (h : type.WrittenAs text) :
    withoutBlanks text = type.write := by
  cases h with
  | nullable hbase => exact hbase.withoutBlanks_eq
  | nonNull hbase hafter =>
    rw [withoutBlanks_append, withoutBlanks_cons not_isBlank_exclamationMark,
      hbase.withoutBlanks_eq, hafter.withoutBlanks_eq]
    rfl

/-! ### Reading written forms -/

/-- The written form of a type is read back if there is a name inside. -/
theorem ofText_text_iff (type : VariableType) :
    ofText type.text = .ok type ↔ isName type.base.innermostName.toList = true := by
  rw [ofText_eq_ok_iff, text, String.toList_ofList]
  exact ⟨WrittenAs.isName_innermostName, writtenAs_write⟩

/-- A text that is read as a type is the written form of the type, but for blanks. -/
theorem text_eq_of_ofText {text : String} (h : ofText text = .ok type) :
    type.text = String.ofList (withoutBlanks text.toList) := by
  rw [(ofText_eq_ok_iff.mp h).withoutBlanks_eq, VariableType.text]

/-- Of types with names inside, no two have one written form. -/
theorem eq_of_text_eq (htype : isName type.base.innermostName.toList = true)
    (hother : isName other.base.innermostName.toList = true) (h : type.text = other.text) :
    type = other := by
  have hread : ofText type.text = .ok type := (ofText_text_iff type).mpr htype
  have hreadOther : ofText other.text = .ok other := (ofText_text_iff other).mpr hother
  rw [h, hreadOther] at hread
  exact (Except.ok.inj hread).symm

/-- Writing and reading are inverse to each other up to blanks.  The written form of a type is read
back as the type exactly if there is a name inside.  A text that is read as a type is the written
form of the type once its blanks are gone.  And so two texts are read as one type exactly if they
differ in their blanks alone. -/
theorem ofText_text_inverse_up_to_blanks :
    (∀ type : VariableType,
      ofText type.text = .ok type ↔ isName type.base.innermostName.toList = true) ∧
    (∀ text type, ofText text = .ok type →
      type.text = String.ofList (withoutBlanks text.toList)) ∧
    ∀ text other type otherType, ofText text = .ok type → ofText other = .ok otherType →
      (type = otherType ↔ withoutBlanks text.toList = withoutBlanks other.toList) := by
  refine ⟨ofText_text_iff, fun text type => text_eq_of_ofText, ?_⟩
  intro text other type otherType htype hother
  have htext := text_eq_of_ofText htype
  have hotherText := text_eq_of_ofText hother
  constructor
  · rintro rfl
    exact String.ofList_injective (htext.symm.trans hotherText)
  · intro heq
    refine eq_of_text_eq (ofText_eq_ok_iff.mp htype).isName_innermostName
      (ofText_eq_ok_iff.mp hother).isName_innermostName ?_
    rw [htext, hotherText, heq]

/-- A named type may print like another type, and then it is the other one that is read back. -/
example : ofText (named "[ID]!").text = .ok (withoutNull (list "ID")) := by cbv

end VariableType

end QueryAssembly
