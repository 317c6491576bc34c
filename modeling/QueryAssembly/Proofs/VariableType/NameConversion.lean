import QueryAssembly.Proofs.VariableType.RoundTrip

/-!
# Reading a text and taking it for a name

Two ways lead from a text to a type.  `VariableType.ofText` reads the text, and
`VariableType.ofName` takes it for the name of a type, brackets, marks, blanks and all.  They come
to the same type for names alone.

The reader finds a named type where a name stands between blanks (`ofText_eq_ok_named_iff`), and
then its name is the text without these blanks.  It is the text itself only if there are none.

Main statement: `VariableType.ofText_eq_ok_ofName_iff_isName`.
-/

namespace QueryAssembly

open Text

/-- The texts for a named type are its name between blanks. -/
theorem NullableType.writtenAs_named_iff {name : String} {cs : List Char} :
    (NullableType.named name).WrittenAs cs ↔ trim cs = name.toList ∧ isName name.toList = true := by
  constructor
  · intro h
    cases h with
    | named hname hbefore hafter => exact ⟨trim_isName hbefore hname hafter, hname⟩
  · rintro ⟨htrim, hname⟩
    obtain ⟨before, after, hbefore, hafter, hcs⟩ := exists_eq_append_trim cs
    rw [hcs, htrim]
    exact .named hname hbefore hafter

namespace VariableType

/-- The texts for a type with null are those for its base. -/
theorem writtenAs_ofNullable_iff {base : NullableType} {cs : List Char} :
    (ofNullable base).WrittenAs cs ↔ base.WrittenAs cs := by
  constructor
  · intro h
    cases h with
    | nullable hbase => exact hbase
  · exact .nullable

/-- A text is read as a named type exactly if it comes to the name by trimming. -/
theorem ofText_eq_ok_named_iff {text name : String} :
    ofText text = .ok (named name) ↔
      trim text.toList = name.toList ∧ isName name.toList = true := by
  have hbase : named name = ofNullable (.named name) := rfl
  rw [ofText_eq_ok_iff, hbase, writtenAs_ofNullable_iff, NullableType.writtenAs_named_iff]

/-- Reading a text and taking it for a name come to the same type exactly if the text is a name.
Any other text the reader rejects, or it finds another type there. -/
theorem ofText_eq_ok_ofName_iff_isName (text : String) :
    (ofText text = .ok (ofName text) ↔ isName text.toList = true) ∧
      (isName text.toList = false →
        (∃ error, ofText text = .error error) ∨
          ∃ type, ofText text = .ok type ∧ type ≠ ofName text) := by
  have hiff : ofText text = .ok (ofName text) ↔ isName text.toList = true := by
    rw [ofName, ofText_eq_ok_named_iff]
    refine ⟨fun h => h.2, fun hname => ⟨?_, hname⟩⟩
    have hnil : Blanks [] := by simp [Blanks]
    simpa using trim_isName hnil hname hnil
  refine ⟨hiff, fun hname => ?_⟩
  cases hread : ofText text with
  | error error => exact .inl ⟨error, rfl⟩
  | ok type =>
    refine .inr ⟨type, rfl, ?_⟩
    rintro rfl
    rw [hiff.mp hread] at hname
    exact absurd hname (by decide)

/-- Reading leaves the blanks out of a name. -/
example : (ofText " ID", ofName " ID") = (.ok (named "ID"), named " ID") := by cbv

end VariableType

end QueryAssembly
