import Mustache.Data.Conversion
import Mustache.Rendering

/-!
Sessions: templates compiled and rendered one after another under settings that may
change in between. A session keeps the trees of its templates as long as its
delimiters stay.
-/

namespace Mustache

structure Session where
  settings : Settings
  cache : Cache
  journal : Journal
  registry : Registry

namespace Session

def start (registry : Registry) : Session := ⟨{}, [], [], registry⟩

def parse (source : String) (session : Session) (compiler : Compiler := Cache.parse) :
    Except Error Template × Session :=
  match compiler session.settings.delimiters source session.cache with
  | (.ok nodes, cache) => (.ok ⟨source, nodes⟩, { session with cache })
  | (.error error, cache) => (.error error, { session with cache })

/-- Renders a template in a scope that exists already. -/
def renderIn (template : Template) (partials : Option Partials) (scopes : Scopes) (scope : Nat)
    (sink : Sink) (session : Session) (compiler : Compiler := Cache.parse) :
    Except Error Unit × RenderState × Session :=
  let compile := Rendering.compileBy compiler session.settings
  let run := Rendering.runBy Rendering.lookup compile session.settings partials nestingLimit
  match run 0 scope template.nodes ⟨sink, scopes, session.journal, session.cache⟩ with
  | .ok () state =>
      (.ok (), state, { session with journal := state.journal, cache := state.cache })
  | .error error state =>
      (.error error, state, { session with journal := state.journal, cache := state.cache })

def renderInto (template : Template) (view : Data) (partials : Option Partials) (sink : Sink)
    (session : Session) (compiler : Compiler := Cache.parse) :
    Except Error Unit × Sink × Session :=
  match view.toValue? session.registry with
  | (.error error, registry) => (.error error, sink, { session with registry })
  | (.ok value, registry) =>
      let (result, state, session) :=
        renderIn template partials (Scopes.root value) 0 sink { session with registry } compiler
      (result, state.sink, session)

def render (template : Template) (view : Data) (partials : Option Partials)
    (session : Session) (compiler : Compiler := Cache.parse) : Except Error String × Session :=
  let (result, sink, session) := renderInto template view partials .unbounded session compiler
  (result.map fun _ => sink.string, session)

def forgetTemplates (session : Session) : Session := { session with cache := [] }

/-- Changes the delimiters; the trees made with the old ones are dropped. -/
def setDelimiters (opener closer : String) (session : Session) : Except Error Unit × Session :=
  match Delimiters.ofStrings opener closer with
  | .ok delimiters =>
      (.ok (), ({ session with settings := { session.settings with delimiters } }).forgetTemplates)
  | .error error => (.error error, session)

def setEscape (escape : Escape) (session : Session) : Session :=
  { session with settings := { session.settings with escape } }

def setPartialLimit (limit : Nat) (session : Session) : Session :=
  { session with settings := { session.settings with partialLimit := limit } }

def setOpensObjectScopes (yes : Bool) (session : Session) : Session :=
  { session with settings := { session.settings with opensObjectScopes := yes } }

def inspected (session : Session) : String :=
  "Renderer \x7b syntax: " ++ session.settings.delimiters.inspected ++ ", cached_templates: " ++
    toString session.cache.length ++ ", recursion_limit: " ++
    toString session.settings.partialLimit ++ ", push_object_scopes: " ++
    (if session.settings.opensObjectScopes then "true" else "false") ++ " \x7d"

end Session

/-- A map of fields given by name; what cannot be converted is undefined. -/
def Value.ofFields (registry : Registry) (fields : List (String × Data)) : Value :=
  .map (Members.ofList (fields.map fun field => (field.1, (field.2.toValue registry).1)))

/-- Renders a template against fields given by name in a session of its own. On failure the
message shows the error for inspection. -/
def renderFields (registry : Registry) (source : String) (fields : List (String × Data)) :
    Except String String :=
  let message (error : Error) : String := "failed to render template: " ++ error.inspected
  match (Session.start registry).parse source with
  | (.error error, _) => .error (message error)
  | (.ok template, session) =>
      match session.render template (.ready (Value.ofFields registry fields)) none with
      | (.ok text, _) => .ok text
      | (.error error, _) => .error (message error)

end Mustache
