import Mathlib.Data.List.Basic
import QueryAssembly.VariableType.Reader
import QueryAssembly.Proofs.Except
import QueryAssembly.Proofs.VariableType.Grammar

/-!
# The reader accepts the grammar

The reader takes a text apart from both ends, a pair of brackets at a time, and trims it anew at
each of them.  It accepts a text for a type if and only if the grammar has that text for that type.

Main statements: `NullableType.read_eq_ok_iff_writtenAs` and, for the types of variables,
`VariableType.ofText_eq_ok_iff_writtenAs`.
-/

namespace QueryAssembly

open Text

/-! ### What trimming leaves decides -/

/-- A text without exclamation marks does not end in one. -/
theorem Text.endsMarked_eq_false {cs : List Char} (h : '!' ∉ cs) : endsMarked cs = false := by
  rw [endsMarked, decide_eq_false_iff_not]
  intro hlast
  exact h (mem_of_mem_trimEnd (List.mem_of_getLast? hlast))

namespace NullableType

variable {cs ds : List Char} {type : NullableType}

/-- A text that does not start with a bracket has to be a name. -/
theorem read_eq_readName (h : ∀ rest, trim cs ≠ '[' :: rest) : read cs = readName (trim cs) := by
  rw [read]
  split
  next rest htrim => exact absurd htrim (h rest)
  next => rfl

/-- A text in brackets is read by what stands between them. -/
theorem read_of_brackets {element : List Char} (h : trim cs = '[' :: (element ++ [']'])) :
    read cs = if endsMarked element then .error .nonNullElement
      else (read element).map .list := by
  rw [read]
  split
  next rest htrim =>
    obtain rfl : rest = element ++ [']'] := (List.cons.inj (htrim.symm.trans h)).2
    have hdrop : dropLast? ']' (element ++ [']']) = some element :=
      dropLast?_eq_some_iff.mpr rfl
    split
    next hnone => simp [hdrop] at hnone
    next inner hsome =>
      obtain rfl : inner = element := by simpa [hdrop] using hsome.symm
      rfl
  next hcore => exact absurd h (hcore _)

/-- An opening bracket needs its counterpart at the end. -/
theorem read_of_open {rest : List Char} (h : trim cs = '[' :: rest)
    (hrest : dropLast? ']' rest = none) : read cs = .error .unbalancedBrackets := by
  rw [read]
  split
  next inner htrim =>
    obtain rfl : inner = rest := (List.cons.inj (htrim.symm.trans h)).2
    split
    next => rfl
    next hsome => simp [hrest] at hsome
  next hcore => exact absurd h (hcore _)

/-- Two texts that trimming makes the same are read the same. -/
theorem read_congr (h : trim cs = trim ds) : read cs = read ds := by
  by_cases hcore : ∀ rest, trim ds ≠ '[' :: rest
  · rw [read_eq_readName hcore, read_eq_readName (h ▸ hcore), h]
  · push Not at hcore
    obtain ⟨rest, hds⟩ := hcore
    have hcs : trim cs = '[' :: rest := h.trans hds
    cases hrest : dropLast? ']' rest with
    | none => rw [read_of_open hds hrest, read_of_open hcs hrest]
    | some element =>
      obtain rfl : rest = element ++ [']'] := dropLast?_eq_some_iff.mp hrest
      rw [read_of_brackets hds, read_of_brackets hcs]

/-! ### Nullable types -/

/-- A core is read as the named type of a name, and only if it is one. -/
theorem readName_eq_ok_iff {core : List Char} :
    readName core = .ok type ↔ isName core = true ∧ type = .named (String.ofList core) := by
  constructor
  · intro h
    unfold readName at h
    split_ifs at h with hnil hclosing hname
    exact ⟨hname, (Except.ok.inj h).symm⟩
  · rintro ⟨hname, rfl⟩
    have hnil : core ≠ [] := by
      rintro rfl
      exact absurd hname (by decide)
    have hclosing : core.getLast? ≠ some ']' := by
      intro hlast
      exact notMem_of_isName hname (by decide) (List.mem_of_getLast? hlast)
    rw [readName, if_neg hnil, if_neg hclosing, if_pos hname]

/-- The reader accepts nothing that the grammar does not have. -/
theorem writtenAs_of_read_eq_ok (h : read cs = .ok type) : type.WrittenAs cs := by
  -- The cases are those of the reader: no closing bracket, a marked element, an element to be read,
  -- and a core.
  induction cs using read.induct generalizing type with
  | case1 cs rest htrim hrest =>
    rw [read_of_open htrim hrest] at h
    exact absurd h (by simp)
  | case2 cs rest htrim element hrest hmarked =>
    obtain rfl : rest = element ++ [']'] := dropLast?_eq_some_iff.mp hrest
    rw [read_of_brackets htrim, if_pos hmarked] at h
    exact absurd h (by simp)
  | case3 cs rest htrim element hrest hmarked ih =>
    obtain rfl : rest = element ++ [']'] := dropLast?_eq_some_iff.mp hrest
    rw [read_of_brackets htrim, if_neg hmarked, Except.map_eq_ok_iff] at h
    obtain ⟨inner, hinner, rfl⟩ := h
    obtain ⟨before, after, hbefore, hafter, hcs⟩ := exists_eq_append_trim cs
    rw [hcs, htrim]
    simpa using WrittenAs.list (ih hinner) hbefore hafter
  | case4 cs hcore =>
    rw [read_eq_readName hcore, readName_eq_ok_iff] at h
    obtain ⟨hname, rfl⟩ := h
    obtain ⟨before, after, hbefore, hafter, hcs⟩ := exists_eq_append_trim cs
    have hwritten : WrittenAs (.named (String.ofList (trim cs)))
        (before ++ (String.ofList (trim cs)).toList ++ after) :=
      .named (by simpa using hname) hbefore hafter
    rw [String.toList_ofList, ← hcs] at hwritten
    exact hwritten

/-- The reader accepts everything that the grammar has. -/
theorem WrittenAs.read_eq_ok (h : type.WrittenAs cs) : read cs = .ok type := by
  induction h with
  | @named name before after hname hbefore hafter =>
    have htrim : trim (before ++ name.toList ++ after) = name.toList :=
      trim_isName hbefore hname hafter
    have hcore : ∀ rest, trim (before ++ name.toList ++ after) ≠ '[' :: rest := by
      intro rest hrest
      have hbracket : name.toList = '[' :: rest := htrim.symm.trans hrest
      exact notMem_of_isName hname (c := '[') (by decide) (by simp [hbracket])
    rw [read_eq_readName hcore, htrim, readName_eq_ok_iff]
    exact ⟨hname, by rw [String.ofList_toList]⟩
  | @list element text before after helement hbefore hafter ih =>
    have htrim : trim (before ++ '[' :: (text ++ ']' :: after)) = '[' :: (text ++ [']']) := by
      have hsolid : trim (before ++ ('[' :: (text ++ [']'])) ++ after) =
          '[' :: (text ++ [']']) := by
        refine trim_append_append hbefore hafter ?_ ?_
        · simp [not_isBlank_openingBracket]
        · rw [← List.cons_append, List.getLast?_concat]
          simp [not_isBlank_closingBracket]
      simpa using hsolid
    have hmarked : endsMarked text = false := endsMarked_eq_false helement.notMem
    rw [read_of_brackets htrim, hmarked, if_neg Bool.false_ne_true, ih]
    rfl

/-- The reader of nullable types accepts the grammar of nullable types. -/
theorem read_eq_ok_iff_writtenAs : read cs = .ok type ↔ type.WrittenAs cs :=
  ⟨writtenAs_of_read_eq_ok, WrittenAs.read_eq_ok⟩

end NullableType

/-! ### Types of variables -/

namespace VariableType

variable {cs : List Char} {type : VariableType}

/-- A text with an exclamation mark at its end is read by what stands in front of it. -/
theorem read_of_mark {base : List Char} (h : trim cs = base ++ ['!']) :
    read cs = if endsMarked base then .error .nestedNonNull
      else (NullableType.read base).map (⟨·, true⟩) := by
  have hdrop : dropLast? '!' (trim cs) = some base := dropLast?_eq_some_iff.mpr h
  rw [read, hdrop]

/-- A text without an exclamation mark at its end is the text of a nullable type. -/
theorem read_of_unmarked (h : dropLast? '!' (trim cs) = none) :
    read cs = (NullableType.read cs).map (⟨·, false⟩) := by
  rw [read, h]

/-- The reader of the types of variables accepts nothing that the grammar does not have. -/
theorem writtenAs_of_read_eq_ok (h : read cs = .ok type) : type.WrittenAs cs := by
  cases hdrop : dropLast? '!' (trim cs) with
  | none =>
    rw [read_of_unmarked hdrop, Except.map_eq_ok_iff] at h
    obtain ⟨base, hbase, rfl⟩ := h
    exact .nullable (NullableType.writtenAs_of_read_eq_ok hbase)
  | some front =>
    have htrim : trim cs = front ++ ['!'] := dropLast?_eq_some_iff.mp hdrop
    rw [read_of_mark htrim] at h
    split_ifs at h with hmarked
    obtain ⟨base, hbase, rfl⟩ := Except.map_eq_ok_iff.mp h
    obtain ⟨before, after, hbefore, hafter, hcs⟩ := exists_eq_append_trim cs
    have hwritten : base.WrittenAs (before ++ front) :=
      (NullableType.writtenAs_of_read_eq_ok hbase).blanks_append hbefore
    rw [hcs, htrim]
    simpa using WrittenAs.nonNull hwritten hafter

/-- The reader of the types of variables accepts everything that the grammar has. -/
theorem WrittenAs.read_eq_ok (h : type.WrittenAs cs) : read cs = .ok type := by
  cases h with
  | @nullable base text hbase =>
    have hdrop : dropLast? '!' (trim cs) = none := by
      rw [Option.eq_none_iff_forall_ne_some]
      intro front hfront
      have hmem : '!' ∈ trim cs := by simp [dropLast?_eq_some_iff.mp hfront]
      exact hbase.notMem (mem_of_mem_trim hmem)
    rw [read_of_unmarked hdrop, hbase.read_eq_ok]
    rfl
  | @nonNull base text after hbase hafter =>
    have htrim : trim (text ++ '!' :: after) = trimStart text ++ ['!'] := by
      have hblanks := trim_append_isBlank hafter (text ++ ['!'])
      rw [trim_append_singleton not_isBlank_exclamationMark] at hblanks
      simpa using hblanks
    -- The blanks in front of the base are gone by now, which the base does not notice.
    have hread : NullableType.read (trimStart text) = .ok base := by
      rw [NullableType.read_congr (trim_trimStart text), hbase.read_eq_ok]
    have hwritten : base.WrittenAs (trimStart text) :=
      NullableType.writtenAs_of_read_eq_ok hread
    rw [read_of_mark htrim, endsMarked_eq_false hwritten.notMem, if_neg Bool.false_ne_true, hread]
    rfl

/-- The reader of types from strings accepts the grammar. -/
theorem ofText_eq_ok_iff {text : String} : ofText text = .ok type ↔ type.WrittenAs text.toList := by
  rw [ofText, Except.mapError_eq_ok_iff]
  exact ⟨writtenAs_of_read_eq_ok, WrittenAs.read_eq_ok⟩

/-- The reader of types from strings accepts exactly the texts of the grammar, each of them for the
type that it stands for.  So an accepted text has no exclamation mark but one at its end, its
brackets are balanced, and it has one name and nothing else inside them. -/
theorem ofText_eq_ok_iff_writtenAs (text : String) (type : VariableType) :
    (ofText text = .ok type ↔ type.WrittenAs text.toList) ∧
      (ofText text = .ok type →
        MarkedAtEnd text.toList ∧ Balanced text.toList ∧ NamedOnce text.toList) := by
  refine ⟨ofText_eq_ok_iff, ?_⟩
  intro h
  have hwritten : type.WrittenAs text.toList := ofText_eq_ok_iff.mp h
  exact ⟨hwritten.markedAtEnd, hwritten.balanced, hwritten.namedOnce⟩

end VariableType

end QueryAssembly
