import Mathlib.Data.List.Basic
import Mathlib.Data.List.Nodup
import Mathlib.Data.List.Forall2
import Mathlib.Data.List.Induction
import QueryAssembly.Proofs.VariableType.Compact

/-!
# What declarations come to

A row of declarations may declare a name more than once.  The first declaration of a name gives it
its place and the last one its type, and the two pull in opposite directions.  `ComesTo` says which
entries are left in the end, and it leaves one answer only (`ComesTo.unique`).

The invariant holds of every part that a row of declarations starts with: a further declaration
carries the entries of the declarations before it to those of the longer row (`ComesTo.declare`).
So it holds of the variables of a whole row (`Variables.comesTo_ofList`), and a JSON object comes
to the same as its members declared one after the other.  All members have to state types, those
that are declared anew later included.

Main statement: `Variables.ofJson?_and_ofList_declaredBy`.
-/

namespace QueryAssembly

/-! ### First places and last types -/

/-- The last declaration of a name gives it the type. -/
def LastType (declarations : List (String × VariableType)) (name : String)
    (type : VariableType) : Prop :=
  ∃ before behind, declarations = before ++ (name, type) :: behind ∧ name ∉ behind.map Prod.fst

/-- The entries that declarations come to. -/
structure ComesTo (declarations entries : List (String × VariableType)) : Prop where
  /-- The names are those declared. -/
  mem_names_iff : ∀ name, name ∈ entries.map Prod.fst ↔ name ∈ declarations.map Prod.fst
  /-- A name stands before another if it is declared for the first time before the other is.  So
  each name stands once. -/
  inOrder : (entries.map Prod.fst).Pairwise fun name other =>
    (declarations.map Prod.fst).idxOf name < (declarations.map Prod.fst).idxOf other
  /-- Each name has the type of its last declaration. -/
  lastType : ∀ entry ∈ entries, LastType declarations entry.1 entry.2

section LastType

variable {declarations : List (String × VariableType)} {name other : String}
  {type otherType : VariableType}

/-- The declaration at the end is the last one of its name. -/
theorem lastType_concat (declarations : List (String × VariableType)) (name : String)
    (type : VariableType) : LastType (declarations ++ [(name, type)]) name type :=
  ⟨declarations, [], rfl, by simp⟩

/-- A declaration of another name makes no difference to the type of a name. -/
theorem LastType.concat (h : LastType declarations name type) (hne : name ≠ other) :
    LastType (declarations ++ [(other, otherType)]) name type := by
  obtain ⟨before, behind, rfl, hbehind⟩ := h
  refine ⟨before, behind ++ [(other, otherType)], by simp, ?_⟩
  simp only [List.map_append, List.map_cons, List.map_nil, List.mem_append, List.mem_singleton]
  exact fun hmem => hmem.elim hbehind hne

/-- The last type of a name is what is found for it from the end on. -/
theorem LastType.lookup_reverse (h : LastType declarations name type) :
    declarations.reverse.lookup name = some type := by
  obtain ⟨before, behind, rfl, hbehind⟩ := h
  have hnone : behind.reverse.lookup name = none := by
    rw [List.lookup_eq_none_iff]
    intro entry hentry
    have hne : name ≠ entry.1 := by
      rintro rfl
      exact hbehind (List.mem_map_of_mem (List.mem_reverse.mp hentry))
    simpa using hne
  rw [List.reverse_append, List.reverse_cons, List.append_assoc, List.lookup_append, hnone]
  simp

end LastType

/-! ### One declaration more -/

/-- The entries after a declaration: the declared one, and those of other names as they were. -/
theorem Variables.mem_declare {name : String} {type : VariableType}
    {entries : List (String × VariableType)} (hnodup : (entries.map Prod.fst).Nodup)
    {entry : String × VariableType} (h : entry ∈ declare name type entries) :
    entry = (name, type) ∨ entry ∈ entries ∧ entry.1 ≠ name := by
  induction entries with
  | nil => exact .inl (List.mem_singleton.mp h)
  | cons first rest ih =>
    obtain ⟨other, held⟩ := first
    obtain ⟨hfresh, hrest⟩ := List.nodup_cons.mp hnodup
    unfold declare at h
    split at h
    next heq =>
      subst heq
      refine (List.mem_cons.mp h).imp id fun hmem => ⟨List.mem_cons_of_mem _ hmem, ?_⟩
      intro hname
      have hheld : entry.1 ∈ rest.map Prod.fst := List.mem_map_of_mem hmem
      exact hfresh (hname ▸ hheld)
    next hne =>
      rcases List.mem_cons.mp h with rfl | hmem
      · exact .inr ⟨List.mem_cons_self, hne⟩
      · exact (ih hrest hmem).imp id fun hold => ⟨List.mem_cons_of_mem _ hold.1, hold.2⟩

namespace ComesTo

variable {declarations entries others : List (String × VariableType)}

/-- Each name stands once. -/
theorem nodup_names (h : ComesTo declarations entries) : (entries.map Prod.fst).Nodup :=
  h.inOrder.imp fun hlt heq => by simp [heq] at hlt

/-- The names keep their order when a further name is declared. -/
theorem inOrder_concat (h : ComesTo declarations entries) (name : String) :
    (entries.map Prod.fst).Pairwise fun first second =>
      (declarations.map Prod.fst ++ [name]).idxOf first <
        (declarations.map Prod.fst ++ [name]).idxOf second := by
  refine h.inOrder.imp_of_mem ?_
  intro first second hfirst hsecond hlt
  have hfirst := (h.mem_names_iff first).mp hfirst
  have hsecond := (h.mem_names_iff second).mp hsecond
  rwa [List.idxOf_append_of_mem hfirst, List.idxOf_append_of_mem hsecond]

/-- A further declaration carries the entries of the declarations before it on. -/
theorem declare (h : ComesTo declarations entries) (name : String) (type : VariableType) :
    ComesTo (declarations ++ [(name, type)]) (Variables.declare name type entries) where
  mem_names_iff := by
    intro sought
    have hold := h.mem_names_iff sought
    rw [Variables.map_fst_declare, List.map_append, List.mem_append, ← hold]
    split
    next hmem =>
      have hknown : sought = name → sought ∈ entries.map Prod.fst := fun heq => heq ▸ hmem
      rw [List.map_cons, List.map_nil, List.mem_singleton]
      exact ⟨.inl, fun h => h.elim id hknown⟩
    next => rw [List.mem_append, List.map_cons, List.map_nil]
  inOrder := by
    have hkept := h.inOrder_concat name
    rw [Variables.map_fst_declare, List.map_append]
    split
    next => exact hkept
    next hnew =>
      refine List.pairwise_append.mpr ⟨hkept, List.pairwise_singleton _ _, ?_⟩
      intro first hfirst last hlast
      obtain rfl := List.mem_singleton.mp hlast
      have hfirst := (h.mem_names_iff first).mp hfirst
      have hlast : last ∉ declarations.map Prod.fst :=
        fun hmem => hnew ((h.mem_names_iff last).mpr hmem)
      have hbefore := List.idxOf_lt_length_of_mem hfirst
      -- A new name is declared for the first time behind all that is declared so far.
      have hbehind : (declarations.map Prod.fst ++ [last]).idxOf last =
          (declarations.map Prod.fst).length + [last].idxOf last :=
        List.idxOf_append_of_notMem hlast
      rw [List.map_cons, List.map_nil, List.idxOf_append_of_mem hfirst, hbehind]
      omega
  lastType := by
    intro entry hentry
    rcases Variables.mem_declare h.nodup_names hentry with rfl | ⟨hold, hne⟩
    · exact lastType_concat declarations name type
    · exact (h.lastType entry hold).concat hne

/-- Declarations come to no two rows of entries. -/
theorem unique (h : ComesTo declarations entries) (hother : ComesTo declarations others) :
    entries = others := by
  have hperm : (entries.map Prod.fst).Perm (others.map Prod.fst) := by
    refine (List.perm_ext_iff_of_nodup h.nodup_names hother.nodup_names).mpr fun name => ?_
    rw [h.mem_names_iff, hother.mem_names_iff]
  have hnames : entries.map Prod.fst = others.map Prod.fst := by
    refine hperm.eq_of_pairwise ?_ h.inOrder hother.inOrder
    intro name other _ _ hlt hgt
    exact absurd hlt (Nat.lt_asymm hgt)
  have htypes : ∀ {row : List (String × VariableType)}, ComesTo declarations row →
      row.map (fun entry => (entry.1, some entry.2)) =
        (row.map Prod.fst).map fun name => (name, declarations.reverse.lookup name) := by
    intro row hrow
    rw [List.map_map]
    refine List.map_congr_left fun entry hentry => ?_
    rw [Function.comp_apply, (hrow.lastType entry hentry).lookup_reverse]
  have hinjective : Function.Injective fun entry : String × VariableType =>
      (entry.1, some entry.2) := by
    rintro ⟨name, type⟩ ⟨other, otherType⟩ heq
    simpa using heq
  refine List.map_injective_iff.mpr hinjective ?_
  rw [htypes h, htypes hother, hnames]

end ComesTo

/-! ### Rows of declarations -/

namespace Variables

theorem ofList_concat (declarations : List (String × VariableType))
    (declaration : String × VariableType) :
    ofList (declarations ++ [declaration]) =
      (ofList declarations).insert declaration.1 declaration.2 := by
  rw [ofList, List.foldl_append]
  rfl

/-- Declarations made one after the other come to the variables of the row. -/
theorem comesTo_ofList (declarations : List (String × VariableType)) :
    ComesTo declarations (ofList declarations).entries := by
  -- Along the row, since the last type of a name changes with what is behind.
  induction declarations using List.reverseRecOn with
  | nil => exact ⟨fun _ => Iff.rfl, List.Pairwise.nil, fun _ hmem => absurd hmem List.not_mem_nil⟩
  | append_singleton declarations declaration ih =>
    rw [ofList_concat]
    exact ih.declare declaration.1 declaration.2

/-- The variables are those that the declarations come to: so are the entries, the definitions and
the names that are forwarded if no list is given. -/
structure DeclaredBy (vars : Variables) (declarations : List (String × VariableType)) : Prop where
  comesTo : ComesTo declarations vars.entries
  definitions_eq : vars.definitions.map (fun definition => (definition.name, definition.type)) =
    vars.entries.map fun entry => (entry.1, entry.2.toReference)
  forwarded_eq : vars.forwarded none = vars.entries.map Prod.fst

theorem declaredBy_iff_comesTo {vars : Variables} {declarations : List (String × VariableType)} :
    vars.DeclaredBy declarations ↔ ComesTo declarations vars.entries := by
  refine ⟨DeclaredBy.comesTo, fun h => ⟨h, ?_, rfl⟩⟩
  rw [definitions, List.map_map]
  rfl

/-- The variables of a row of declarations are those that it comes to, and no others are. -/
theorem declaredBy_iff_eq_ofList {vars : Variables} {declarations : List (String × VariableType)} :
    vars.DeclaredBy declarations ↔ vars = ofList declarations := by
  rw [declaredBy_iff_comesTo]
  constructor
  · intro h
    exact Variables.ext (h.unique (comesTo_ofList declarations))
  · rintro rfl
    exact comesTo_ofList declarations

/-! ### JSON objects -/

/-- A member of an object states a declaration of its name. -/
def States (member : String × Json) (declaration : String × VariableType) : Prop :=
  declaration.1 = member.1 ∧ declaration.2.StatedBy member.2

theorem declarationOf?_eq_some_iff {member : String × Json}
    {declaration : String × VariableType} :
    declarationOf? member = some declaration ↔ States member declaration := by
  obtain ⟨name, type⟩ := declaration
  unfold declarationOf? States
  rw [Option.map_eq_some_iff]
  constructor
  · rintro ⟨stated, hstated, heq⟩
    obtain ⟨rfl, rfl⟩ := Prod.mk.inj heq
    exact ⟨rfl, VariableType.ofJson?_eq_some_iff.mp hstated⟩
  · rintro ⟨rfl, hstated⟩
    exact ⟨type, VariableType.ofJson?_eq_some_iff.mpr hstated, rfl⟩

/-- The members of an object are taken for declarations one by one. -/
theorem mapM_declarationOf?_eq_some_iff {members : List (String × Json)}
    {declarations : List (String × VariableType)} :
    members.mapM declarationOf? = some declarations ↔
      List.Forall₂ States members declarations := by
  induction members generalizing declarations with
  | nil =>
    rw [List.forall₂_nil_left_iff, List.mapM_nil]
    exact ⟨fun h => (Option.some.inj h).symm, fun h => h ▸ rfl⟩
  | cons member members ih =>
    rw [List.mapM_cons, List.forall₂_cons_left_iff]
    constructor
    · intro h
      obtain ⟨declaration, hdeclaration, h⟩ := Option.bind_eq_some_iff.mp h
      obtain ⟨rest, hrest, h⟩ := Option.bind_eq_some_iff.mp h
      exact ⟨declaration, rest, declarationOf?_eq_some_iff.mp hdeclaration, ih.mp hrest,
        (Option.some.inj h).symm⟩
    · rintro ⟨declaration, rest, hdeclaration, hrest, rfl⟩
      rw [declarationOf?_eq_some_iff.mpr hdeclaration, ih.mpr hrest]
      rfl

/-- An object with a member that states no type is refused, and no other is. -/
theorem mapM_declarationOf?_eq_none_iff {members : List (String × Json)} :
    members.mapM declarationOf? = none ↔
      ∃ member ∈ members, ∀ type : VariableType, ¬type.StatedBy member.2 := by
  have hmember : ∀ member : String × Json,
      declarationOf? member = none ↔ ∀ type : VariableType, ¬type.StatedBy member.2 := by
    intro member
    rw [declarationOf?, Option.map_eq_none_iff, Option.eq_none_iff_forall_ne_some]
    exact forall_congr' fun type => not_congr VariableType.ofJson?_eq_some_iff
  induction members with
  | nil => simp
  | cons member members ih =>
    have hcons : (member :: members).mapM declarationOf? = none ↔
        declarationOf? member = none ∨ members.mapM declarationOf? = none := by
      rw [List.mapM_cons]
      cases declarationOf? member <;> cases members.mapM declarationOf? <;> simp
    rw [hcons, List.exists_mem_cons_iff]
    exact or_congr (hmember member) ih

/-- Repeated declarations keep the first place and the last type of a name.  An object is refused
exactly if one of its members states no type, be it declared anew later or not.  Else it comes to
the variables that its members declare, in the order of first declarations and with the types of
the last, and so does a row of declarations made one after the other; the definitions and the names
forwarded by default are the same. -/
theorem ofJson?_and_ofList_declaredBy :
    (∀ members, ofJson? (.object members) = none ↔
      ∃ member ∈ members, ∀ type : VariableType, ¬type.StatedBy member.2) ∧
    (∀ members vars, ofJson? (.object members) = some vars ↔
      ∃ declarations, List.Forall₂ States members declarations ∧ vars.DeclaredBy declarations) ∧
    ∀ declarations vars, ofList declarations = vars ↔ vars.DeclaredBy declarations := by
  refine ⟨?_, ?_, ?_⟩
  · intro members
    rw [ofJson?, Option.map_eq_none_iff, mapM_declarationOf?_eq_none_iff]
  · intro members vars
    rw [ofJson?, Option.map_eq_some_iff]
    refine exists_congr fun declarations => and_congr mapM_declarationOf?_eq_some_iff ?_
    rw [declaredBy_iff_eq_ofList, eq_comm]
  · intro declarations vars
    rw [declaredBy_iff_eq_ofList, eq_comm]

/-- A name that is declared three times, at first and in the end with different types. -/
example : (ofJson? (.object [("id", .string "ID"), ("first", .string "Int"),
    ("id", .array [.string "ID"]), ("id", .array [.string "String", .string "!"])])).map entries =
      some [("id", (VariableType.named "String").withoutNull), ("first", .named "Int")] := rfl

end Variables

end QueryAssembly
