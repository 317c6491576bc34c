import QueryAssembly.Text
import QueryAssembly.VariableType.Basic

/-!
# Reading variable types

`VariableType.ofText` reads a type from its text.  Blanks may stand at both ends of the text, around
every bracket and in front of the exclamation mark, which only the whole type may have.

A text is read from the outside in.  An exclamation mark at the end is taken off first, then one
pair of brackets after the other, until what is left has to be a name.  The first thing found wrong
on this way is the fault of the text, and the error holds the fault with the whole text as it was
given.
-/

namespace QueryAssembly

open Text

/-! ### Faults -/

/-- What is wrong with a text that is not the text of a type. -/
inductive TypeFault where
  /-- Two exclamation marks at the end of the text. -/
  | nestedNonNull
  /-- An exclamation mark at the end of the element of a list. -/
  | nonNullElement
  /-- Nothing where a name should be. -/
  | missingName
  /-- A bracket without its counterpart. -/
  | unbalancedBrackets
  /-- Something other than a name where a name should be. -/
  | invalidName (found : String)
deriving DecidableEq, Inhabited

/-- The failure to read a text as a type. -/
structure TypeError where
  /-- The whole text, as it was given. -/
  text : String
  fault : TypeFault
deriving DecidableEq, Inhabited

/-- The wording of a failure to read a type. -/
def TypeError.message (error : TypeError) : String :=
  let text := error.text
  match error.fault with
  | .nestedNonNull => s!"Type notation `{text}` applies non-null (`!`) more than once."
  | .nonNullElement =>
    s!"Type notation `{text}` marks a list element as non-null. Only the outer-most type may be " ++
      "non-null."
  | .missingName => s!"No type name was found in type notation `{text}`."
  | .unbalancedBrackets => s!"Type notation `{text}` has unbalanced list brackets."
  | .invalidName found =>
    s!"Invalid type name `{found}` in type notation `{text}`. Type names must match " ++
      "/[_A-Za-z][_0-9A-Za-z]*/."

/-! ### The reader -/

/-- Whether a text ends in an exclamation mark, blanks behind it left aside. -/
def Text.endsMarked (cs : List Char) : Bool :=
  (trimEnd cs).getLast? = some '!'

/-- Reads the core of a type, a text without blanks at its ends that starts with no opening
bracket. -/
def NullableType.readName (core : List Char) : Except TypeFault NullableType :=
  if core = [] then .error .missingName
  else if core.getLast? = some ']' then .error .unbalancedBrackets
  else if isName core then .ok (.named (String.ofList core))
  else .error (.invalidName (String.ofList core))

/-- Reads a nullable type.  In a text that starts with a bracket, the counterpart at its end is
missed first, then an exclamation mark at the end of the element, and then what is wrong inside. -/
def NullableType.read (cs : List Char) : Except TypeFault NullableType :=
  match _hcs : trim cs with
  | '[' :: rest =>
    match _hrest : dropLast? ']' rest with
    | none => .error .unbalancedBrackets
    | some element =>
      if endsMarked element then .error .nonNullElement
      else (NullableType.read element).map .list
  | core => NullableType.readName core
termination_by cs.length
decreasing_by
  have htrim := length_trim_le cs
  rw [_hcs, dropLast?_eq_some_iff.mp _hrest] at htrim
  simp only [List.length_cons, List.length_append, List.length_nil] at htrim
  omega

/-- Reads the type of a variable.  A second exclamation mark at the end counts before anything that
is wrong in front of it. -/
def VariableType.read (cs : List Char) : Except TypeFault VariableType :=
  match dropLast? '!' (trim cs) with
  | some base =>
    if endsMarked base then .error .nestedNonNull
    else (NullableType.read base).map (⟨·, true⟩)
  | none => (NullableType.read cs).map (⟨·, false⟩)

/-- Reads the type of a variable from a string. -/
def VariableType.ofText (text : String) : Except TypeError VariableType :=
  (VariableType.read text.toList).mapError (⟨text, ·⟩)

end QueryAssembly
