import Mustache.Cache
import Mustache.Partials
import Mustache.Scope
import Mustache.Settings
import Mustache.Sink

/-!
Rendering a tree against a scope. Sections and partials nest no deeper than a fixed
number of levels, counted down as `room`; partials among them no deeper than the
settings permit. What was written before an error stays written. How names are looked
up and how the texts of partials are compiled are parameters: a render goes by what the
scopes remember and by the trees that are kept.
-/

namespace Mustache

def nestingLimit : Nat := 500

structure RenderState where
  sink : Sink
  scopes : Scopes
  journal : Journal
  cache : Cache

abbrev Rendering := EStateM Error RenderState

abbrev Lookup := Nat → String → Rendering Value

abbrev Compile := String → Rendering (List Node)

/-- Renders nodes with so many partials open, in the scope of the given number. -/
abbrev Body := Nat → Nat → List Node → Rendering Unit

namespace Rendering

theorem bind_apply {ε σ α β : Type} (action : EStateM ε σ α) (next : α → EStateM ε σ β)
    (state : σ) :
    (action >>= next) state =
      match action state with
      | .ok value behind => next value behind
      | .error error behind => .error error behind := by
  change EStateM.bind action next state = _
  rw [EStateM.bind]
  cases action state <;> rfl

def nestedTooDeep : Error :=
  Error.ofDetail .recursionLimitExceeded
    ("sections and partials nested deeper than " ++ toString nestingLimit ++ " levels")

def partialsTooDeep (name : String) : Error :=
  Error.ofDetail .recursionLimitExceeded
    ("partial \x60" ++ name ++ "\x60 exceeds maximum recursion limits")

def write (piece : String) : Rendering Unit := fun state =>
  match state.sink.write piece with
  | (sink, true) => .ok () { state with sink }
  | (sink, false) => .error Error.outputFull { state with sink }

def writeAll : List String → Rendering Unit
  | [] => pure ()
  | piece :: rest => do
      write piece
      writeAll rest

def writeEscaped (escaped : Escaped) : Rendering Unit := do
  writeAll escaped.pieces
  if escaped.gaveUp then throw Error.formatting

/-- The lookup that fills the memos of the scopes and answers from them. -/
def lookup : Lookup := fun scope name state =>
  let (value, scopes, journal) := Scopes.lookup name state.scopes scope state.journal
  .ok value { state with scopes, journal }

def loadPartial (source : Partials) (name : String) : Rendering (Option String) := fun state =>
  match source.load name state.journal with
  | (.ok found, journal) => .ok found { state with journal }
  | (.error error, journal) => .error error { state with journal }

def compileBy (compiler : Compiler) (settings : Settings) : Compile := fun source state =>
  match compiler settings.delimiters source state.cache with
  | (.ok nodes, cache) => .ok nodes { state with cache }
  | (.error error, cache) => .error error { state with cache }

/-- Compiling that goes by the trees kept, and keeps a new one. -/
def parse (settings : Settings) : Compile := compileBy Cache.parse settings

/-- Runs a body in a new scope, which is gone afterwards. -/
def within (parent : Nat) (view : Value) (body : Nat → Rendering Unit) : Rendering Unit :=
  fun state =>
    match body state.scopes.length { state with scopes := state.scopes.push parent view } with
    | .ok () behind => .ok () { behind with scopes := behind.scopes.tail }
    | .error error behind => .error error { behind with scopes := behind.scopes.tail }

def enter : Option Body → Rendering Body
  | some inner => pure inner
  | none => throw nestedTooDeep

def renderItems (scope : Nat) (body : Nat → Rendering Unit) : List Value → Rendering Unit
  | [] => pure ()
  | item :: rest => do
      within scope item body
      renderItems scope body rest

section Nodes

variable (find : Lookup) (compile : Compile) (settings : Settings) (source : Option Partials)

/-- A section is rendered once for each item of a list, and once for any other true value. -/
def renderSection (inner : Option Body) (opened scope : Nat) (name : String)
    (children : List Node) : Rendering Unit := do
  let value ← find scope name
  if value.isTrue then
    let body ← enter inner
    if value.isList then
      renderItems scope (fun child => body opened child children) (value.items?.getD [])
    else if settings.opensObjectScopes then
      within scope value fun child => body opened child children
    else body opened scope children

/-- An inverted section is rendered where its section has nothing to render. -/
def renderInverted (inner : Option Body) (opened scope : Nat) (name : String)
    (children : List Node) : Rendering Unit := do
  let value ← find scope name
  if !value.isTrue || value.isEmptyList then
    let body ← enter inner
    body opened scope children

/-- A partial is rendered in the scope of its tag. -/
def renderPartial (inner : Option Body) (opened scope : Nat) (name : String) :
    Rendering Unit := do
  match source with
  | none => pure ()
  | some source =>
      match ← loadPartial source name with
      | none => pure ()
      | some text =>
          if settings.partialLimit ≤ opened then throw (partialsTooDeep name)
          let nodes ← compile text
          let body ← enter inner
          body (opened + 1) scope nodes

def renderNode (inner : Option Body) (opened scope : Nat) : Node → Rendering Unit
  | .text content _ => write content
  | .escaped name _ => do
      let value ← find scope name
      if !value.isAbsent then writeEscaped (settings.escape value.display)
  | .unescaped name _ => do
      let value ← find scope name
      if !value.isAbsent then write value.display
  | .sectionOf name children _ _ =>
      renderSection find settings inner opened scope name children
  | .invertedOf name children _ _ => renderInverted find inner opened scope name children
  | .inclusion name _ => renderPartial compile settings source inner opened scope name
  | .comment _ _ | .delimiters _ _ => pure ()

def renderNodes (inner : Option Body) (opened scope : Nat) : List Node → Rendering Unit
  | [] => pure ()
  | node :: rest => do
      renderNode find compile settings source inner opened scope node
      renderNodes inner opened scope rest

def runBy : Nat → Body
  | 0 => renderNodes find compile settings source none
  | room + 1 => renderNodes find compile settings source (some (runBy room))

end Nodes

def runWith (find : Lookup) (settings : Settings) (source : Option Partials) : Nat → Body :=
  runBy find (parse settings) settings source

def run (settings : Settings) (source : Option Partials) : Nat → Body :=
  runWith lookup settings source

end Rendering

end Mustache
