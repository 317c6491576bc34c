import QueryAssembly.Compact
import QueryAssembly.Query
import QueryAssembly.VariableType.Reader

/-!
# Sessions

A session edits a configuration step by step, builds from it and makes templates of it.  It holds
the configuration and the template made last.

A step that fails leaves the session as it was.  A template is a snapshot: it keeps the outline it
was made of, and later edits do not reach it.
-/

namespace QueryAssembly

/-- A configuration under edit, with the template made last. -/
structure Session where
  configuration : Configuration := {}
  template : Option Template := none
deriving Inhabited

namespace Session

/-- What a session can be told to do. -/
inductive Step where
  /-- Names the operation. -/
  | name (name : String)
  /-- Declares a variable with the type that a JSON value states. -/
  | declare (name : String) (type : Json)
  /-- Declares a variable with the type that a text states. -/
  | declareText (name : String) (text : String)
  /-- Forgets all variables. -/
  | clearVariables
  /-- Starts the entry field anew, without listed arguments and without transform. -/
  | entry (name : String)
  /-- Lists the arguments of the entry field. -/
  | listArguments (names : List String)
  /-- Gives the entry field a transform. -/
  | setTransform (transform : Transform)
  /-- Adds a fragment document behind the others. -/
  | addFragment (document : Document)
  /-- Forgets all fragment documents. -/
  | clearFragments
  /-- Builds the document of the configuration. -/
  | build
  /-- Makes a template of the configuration. -/
  | makeTemplate
  /-- Shows the outline of the template. -/
  | showTemplate
  /-- Builds a document from the template: for the given fragment documents, or else for those of
  the configuration. -/
  | select (documents : Option (List Document))
deriving Inhabited

/-- What a session answers to a step. -/
inductive Answer where
  | configuration (configuration : Configuration)
  | outline (outline : Outline)
  | document (document : Document)
deriving Inhabited

/-- Why a step fails. -/
inductive Failure where
  /-- The JSON value states no type. -/
  | statesNoType
  /-- The text states no type. -/
  | badTypeText (error : TypeError)
  /-- The query cannot be built. -/
  | cannotBuild (error : BuildError)
  /-- No template has been made. -/
  | noTemplate
deriving DecidableEq, Inhabited

/-- Edits the configuration and answers it. -/
def edit (session : Session) (change : Configuration → Configuration) : Answer × Session :=
  let configuration := change session.configuration
  (.configuration configuration, { session with configuration })

/-- Edits the entry field and answers the configuration. -/
def editEntry (session : Session) (change : Entry → Entry) : Answer × Session :=
  session.edit fun configuration => { configuration with entry := change configuration.entry }

/-- Declares a variable and answers the configuration. -/
def declare (session : Session) (name : String) (type : VariableType) : Answer × Session :=
  session.edit fun configuration =>
    { configuration with vars := configuration.vars.insert name type }

/-- The template made last. -/
def currentTemplate (session : Session) : Except Failure Template :=
  match session.template with
  | some template => .ok template
  | none => .error .noTemplate

/-- Takes a step that may fail: the answer and the session after it. -/
def attempt (session : Session) : Step → Except Failure (Answer × Session)
  | .name name => .ok (session.edit fun configuration => { configuration with name })
  | .declare name value =>
    match VariableType.ofJson? value with
    | some type => .ok (session.declare name type)
    | none => .error .statesNoType
  | .declareText name text =>
    match VariableType.ofText text with
    | .ok type => .ok (session.declare name type)
    | .error error => .error (.badTypeText error)
  | .clearVariables =>
    .ok (session.edit fun configuration => { configuration with vars := .empty })
  | .entry name => .ok (session.editEntry fun _ => { name })
  | .listArguments names =>
    .ok (session.editEntry fun entry => { entry with arguments := some names })
  | .setTransform transform =>
    .ok (session.editEntry fun entry => { entry with transform := some transform })
  | .addFragment document =>
    .ok (session.edit fun configuration =>
      { configuration with fragments := configuration.fragments ++ [document] })
  | .clearFragments =>
    .ok (session.edit fun configuration => { configuration with fragments := [] })
  | .build => do
    let document ← session.configuration.build.mapError .cannotBuild
    return (.document document, session)
  | .makeTemplate => do
    let outline := session.configuration.templateOutline
    let template ← (Template.ofOutline outline).mapError .cannotBuild
    return (.outline template.outline, { session with template := some template })
  | .showTemplate => do
    let template ← session.currentTemplate
    return (.outline template.outline, session)
  | .select documents => do
    let template ← session.currentTemplate
    let documents := documents.getD session.configuration.fragments
    let document ← (template.select documents).mapError .cannotBuild
    return (.document document, session)

/-- Takes a step: the answer or the failure, and the session after it. -/
def step (session : Session) (step : Step) : Except Failure Answer × Session :=
  match session.attempt step with
  | .ok (answer, next) => (.ok answer, next)
  | .error failure => (.error failure, session)

/-- The session after a run of steps. -/
def run (session : Session) (steps : List Step) : Session :=
  steps.foldl (fun session step => (session.step step).2) session

/-- What a session answers to each step of a run. -/
def answers (session : Session) : List Step → List (Except Failure Answer)
  | [] => []
  | first :: rest => (session.step first).1 :: answers (session.step first).2 rest

end Session

end QueryAssembly
