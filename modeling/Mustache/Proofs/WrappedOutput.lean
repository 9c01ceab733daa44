import Mustache.Session

/-!
Output through a wrapper. Text is formatted in pieces, the items of a list and the commas
between them one by one, and all that formatting tells of a failure is that there was one. The
reason for which a sink refused a piece is kept aside by the wrapper of the sink; the render
ends as it does for any failure of formatting, and the reason replaces the error at its end.
Nodes are rendered in the same way as into the sink itself, but that all they write is formatted.
-/

namespace Mustache

/-- What a sink says when it refuses a piece, and the pieces a text is formatted in. -/
structure Channel where
  reason : Cause
  pieces : String → List String
  join_pieces : ∀ text, String.join (pieces text) = text

/-- What a sink of bounded room says. -/
def Cause.noRoom : Cause := ⟨"no room left in the output", "NoRoom"⟩

/-- A sink of bounded room, and texts each in one piece. -/
def Channel.whole : Channel where
  reason := .noRoom
  pieces text := [text]
  join_pieces _ := by rw [String.join_cons, String.join_nil, String.append_empty]

/-- A sink, and the reason for which it refused a piece. -/
structure Wrapper where
  sink : Sink
  refusal : Option Cause

abbrev Formatting := EStateM Unit Wrapper

namespace Formatting

variable (channel : Channel)

def put (piece : String) : Formatting Unit := fun wrapper =>
  match wrapper.sink.write piece with
  | (sink, true) => .ok () { wrapper with sink }
  | (sink, false) => .error () ⟨sink, some channel.reason⟩

def putAll : List String → Formatting Unit
  | [] => pure ()
  | piece :: rest => do
      put channel piece
      putAll rest

def putText (text : String) : Formatting Unit := putAll channel (channel.pieces text)

mutual

def putValue : Value → Formatting Unit
  | .undefined | .none => pure ()
  | .bool truth => putText channel (if truth then "true" else "false")
  | .unsigned number => putText channel (toString number.toNat)
  | .signed number => putText channel (toString number.toInt)
  | .float number => putText channel (Decimal.plainLayout.text number)
  | .text content => put channel content
  | .list items => putItems 0 items
  | .map _ => put channel "[object]"
  | .object ⟨_, _, _, _, some shown, _⟩ => putText channel shown
  | .object ⟨_, .plain, _, _, Option.none, inspected⟩ => putText channel inspected
  | .object ⟨_, .keyed, _, _, Option.none, _⟩ => put channel "[object]"
  | .object ⟨_, .listed, _, Option.none, Option.none, _⟩ => pure ()
  | .object ⟨_, .listed, _, some items, Option.none, _⟩ => putItems 0 items

/-- Items from the given index on; each but the very first has a comma before it. -/
def putItems : Nat → List Value → Formatting Unit
  | _, [] => pure ()
  | index, item :: rest => do
      if 0 < index then put channel ","
      putValue item
      putItems (index + 1) rest

end

/-- The text of a value, formatted into a sink of its own that takes all. -/
def textOf (value : Value) : String :=
  match putValue channel value ⟨.unbounded, none⟩ with
  | .ok () wrapper | .error () wrapper => wrapper.sink.string

/-- A text is escaped as it is, any other value by what is formatted for it. -/
def putEscaped (escape : Escape) (value : Value) : Formatting Unit := do
  let escaped := escape (value.text?.getD (textOf channel value))
  putAll channel escaped.pieces
  if escaped.gaveUp then throw ()

end Formatting

/-- The state of a render into a wrapped sink. -/
structure WrappedState extends RenderState where
  refusal : Option Cause

abbrev Wrapped := EStateM Error WrappedState

namespace Wrapped

/-- Renders nodes with so many partials open, in the scope of the given number. -/
abbrev Body := Nat → Nat → List Node → Wrapped Unit

/-- A failure of formatting ends the render with an error that tells no more. -/
def formatted (action : Formatting Unit) : Wrapped Unit := fun state =>
  match action ⟨state.sink, state.refusal⟩ with
  | .ok () ⟨sink, refusal⟩ => .ok () { state with sink, refusal }
  | .error () ⟨sink, refusal⟩ => .error Error.formatting { state with sink, refusal }

/-- What writes nothing is done without regard to the wrapper. -/
def aside {α : Type} (action : Rendering α) : Wrapped α := fun state =>
  match action state.toRenderState with
  | .ok value behind => .ok value ⟨behind, state.refusal⟩
  | .error error behind => .error error ⟨behind, state.refusal⟩

def within (parent : Nat) (view : Value) (body : Nat → Wrapped Unit) : Wrapped Unit :=
  fun state =>
    match body state.scopes.length { state with scopes := state.scopes.push parent view } with
    | .ok () behind => .ok () { behind with scopes := behind.scopes.tail }
    | .error error behind => .error error { behind with scopes := behind.scopes.tail }

def enter : Option Body → Wrapped Body
  | some inner => pure inner
  | none => throw Rendering.nestedTooDeep

def renderItems (scope : Nat) (body : Nat → Wrapped Unit) : List Value → Wrapped Unit
  | [] => pure ()
  | item :: rest => do
      within scope item body
      renderItems scope body rest

section Nodes

variable (channel : Channel) (settings : Settings) (source : Option Partials)

def renderSection (inner : Option Body) (opened scope : Nat) (name : String)
    (children : List Node) : Wrapped Unit := do
  let value ← aside (Rendering.lookup scope name)
  if value.isTrue then
    let body ← enter inner
    if value.isList then
      renderItems scope (fun child => body opened child children) (value.items?.getD [])
    else if settings.opensObjectScopes then
      within scope value fun child => body opened child children
    else body opened scope children

def renderInverted (inner : Option Body) (opened scope : Nat) (name : String)
    (children : List Node) : Wrapped Unit := do
  let value ← aside (Rendering.lookup scope name)
  if !value.isTrue || value.isEmptyList then
    let body ← enter inner
    body opened scope children

def renderPartial (inner : Option Body) (opened scope : Nat) (name : String) : Wrapped Unit := do
  match source with
  | none => pure ()
  | some source =>
      match ← aside (Rendering.loadPartial source name) with
      | none => pure ()
      | some text =>
          if settings.partialLimit ≤ opened then throw (Rendering.partialsTooDeep name)
          let nodes ← aside (Rendering.parse settings text)
          let body ← enter inner
          body (opened + 1) scope nodes

def renderNode (inner : Option Body) (opened scope : Nat) : Node → Wrapped Unit
  | .text content _ => formatted (Formatting.put channel content)
  | .escaped name _ => do
      let value ← aside (Rendering.lookup scope name)
      if !value.isAbsent then formatted (Formatting.putEscaped channel settings.escape value)
  | .unescaped name _ => do
      let value ← aside (Rendering.lookup scope name)
      if !value.isAbsent then formatted (Formatting.putValue channel value)
  | .sectionOf name children _ _ => renderSection settings inner opened scope name children
  | .invertedOf name children _ _ => renderInverted inner opened scope name children
  | .inclusion name _ => renderPartial settings source inner opened scope name
  | .comment _ _ | .delimiters _ _ => pure ()

def renderNodes (inner : Option Body) (opened scope : Nat) : List Node → Wrapped Unit
  | [] => pure ()
  | node :: rest => do
      renderNode channel settings source inner opened scope node
      renderNodes inner opened scope rest

def run : Nat → Body
  | 0 => renderNodes channel settings source none
  | room + 1 => renderNodes channel settings source (some (run room))

end Nodes

end Wrapped

def Error.refused (reason : Cause) : Error :=
  (ofDetail .writeFailure "I/O error during rendering").withCause reason

/-- A reason kept aside replaces the error a render ended with. -/
def WrappedState.takeError (state : WrappedState) (original : Error) : Error :=
  match state.refusal with
  | some reason => Error.refused reason
  | none => original

/-- Renders a template into a sink that is wrapped for the time of the render. -/
def Session.renderThrough (channel : Channel) (template : Template) (view : Data)
    (partials : Option Partials) (sink : Sink) (session : Session) :
    Except Error Unit × Sink × Session :=
  match view.toValue? session.registry with
  | (.error error, registry) => (.error error, sink, { session with registry })
  | (.ok value, registry) =>
      let run := Wrapped.run channel session.settings partials nestingLimit
      let start : RenderState := ⟨sink, Scopes.root value, session.journal, session.cache⟩
      match run 0 0 template.nodes ⟨start, none⟩ with
      | .ok () state => (.ok (), state.sink,
          { session with registry, journal := state.journal, cache := state.cache })
      | .error error state => (.error (state.takeError error), state.sink,
          { session with registry, journal := state.journal, cache := state.cache })

namespace Formatting

variable (channel : Channel)

theorem put_empty : put channel "" = pure () := by
  funext wrapper
  simp only [put, Sink.write_empty]
  rfl

/-- Two pieces put are their join put at once. -/
theorem put_append (first second : String) :
    (do put channel first; put channel second) = put channel (first ++ second) := by
  funext wrapper
  rw [Rendering.bind_apply]
  simp only [put, Sink.write_append]
  cases written : wrapper.sink.write first with
  | mk left took => cases took <;> rfl

theorem put_all_eq (pieces : List String) :
    putAll channel pieces = put channel (String.join pieces) := by
  induction pieces with
  | nil => exact (put_empty channel).symm
  | cons piece rest ih => rw [putAll, ih, put_append, String.join_cons]

theorem put_text_eq (text : String) : putText channel text = put channel text := by
  rw [putText, put_all_eq, channel.join_pieces]

/-- What items come to from the given index on. -/
def shownFrom : Nat → List Value → String
  | 0, items => String.intercalate "," (Value.displayEach items)
  | _ + 1, [] => ""
  | _ + 1, item :: rest => "," ++ String.intercalate "," (Value.displayEach (item :: rest))

theorem intercalate_display_each (item : Value) (rest : List Value) (index : Nat) :
    String.intercalate "," (Value.displayEach (item :: rest)) =
      item.display ++ shownFrom (index + 1) rest := by
  cases rest with
  | nil =>
      simp only [Value.displayEach, shownFrom, String.intercalate_singleton, String.append_empty]
  | cons next others =>
      simp only [Value.displayEach, shownFrom, String.intercalate_cons_cons, String.append_assoc]

mutual

theorem put_value_eq : ∀ value : Value, putValue channel value = put channel value.display
  | .undefined | .none => by rw [putValue, Value.display, put_empty]
  | .bool _ | .unsigned _ | .signed _ | .float _ => by rw [putValue, Value.display, put_text_eq]
  | .text _ | .map _ => by rw [putValue, Value.display]
  | .list items => by
      rw [putValue, Value.display, put_items_eq 0 items]
      rfl
  | .object ⟨_, _, _, _, some _, _⟩ | .object ⟨_, .plain, _, _, Option.none, _⟩ => by
      rw [putValue, Value.display, put_text_eq]
  | .object ⟨_, .keyed, _, _, Option.none, _⟩ => by rw [putValue, Value.display]
  | .object ⟨_, .listed, _, Option.none, Option.none, _⟩ => by
      rw [putValue, Value.display, put_empty]
  | .object ⟨_, .listed, _, some items, Option.none, _⟩ => by
      rw [putValue, Value.display, put_items_eq 0 items]
      rfl

theorem put_items_eq : ∀ (index : Nat) (items : List Value),
    putItems channel index items = put channel (shownFrom index items)
  | 0, [] => by
      rw [putItems, shownFrom, Value.displayEach, String.intercalate_nil, put_empty]
  | _ + 1, [] => by rw [putItems, shownFrom, put_empty]
  | 0, item :: rest => by
      rw [putItems, if_neg (Nat.lt_irrefl 0)]
      dsimp only
      rw [put_value_eq item, put_items_eq 1 rest, put_append, shownFrom,
        intercalate_display_each item rest 0]
  | index + 1, item :: rest => by
      rw [putItems, if_pos index.succ_pos, put_value_eq item, put_items_eq (index + 2) rest,
        put_append, put_append, shownFrom, intercalate_display_each item rest (index + 1)]

end

theorem text_of_eq (value : Value) : textOf channel value = value.display := by
  rw [textOf, put_value_eq]
  simp only [put, Sink.unbounded, Sink.write, Sink.string, String.empty_append]

/-- What is escaped is the text of a value, whatever pieces it is formatted in. -/
theorem put_escaped_eq (escape : Escape) (value : Value) :
    putEscaped channel escape value =
      (do
        put channel (escape.written value.display)
        if (escape value.display).gaveUp then throw ()) := by
  have text : value.text?.getD (textOf channel value) = value.display := by
    rw [text_of_eq]
    cases value <;> rfl
  rw [putEscaped, text, put_all_eq, Escape.written]

end Formatting

namespace Wrapped

theorem formatted_bind (action : Formatting Unit) (next : Unit → Formatting Unit) :
    formatted (action >>= next) = formatted action >>= fun done => formatted (next done) := by
  funext state
  rw [Rendering.bind_apply]
  simp only [formatted, Rendering.bind_apply]
  cases action ⟨state.sink, state.refusal⟩ <;> rfl

end Wrapped

end Mustache
