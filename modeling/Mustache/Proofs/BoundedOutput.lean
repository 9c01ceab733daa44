import Mustache.Proofs.Simulation
import Mustache.Proofs.WrappedOutput

/-!
Rendering into a bounded output. Whatever an action of rendering does to its sink is one
write of all the text it emits: a sink that takes all of it makes no other difference, and
a sink that does not takes what fits and stops the rendering. So a bounded output holds
the longest prefix of the unbounded one that fits, and a rendering fails for want of room
exactly when something did not fit, however the text was split into writes. The same is
true, step by step, of a rendering through a wrapper of the sink.
-/

namespace Mustache

namespace Rendering

variable {α β γ δ : Type}

theorem write_append (first second : String) :
    (do write first; write second) = write (first ++ second) := by
  funext state
  rw [bind_apply]
  simp only [write, Sink.write_append]
  cases written : state.sink.write first with
  | mk left took => cases took <;> rfl

/-- Pieces written one by one come to one write of them all. -/
theorem write_all_eq_write_join (pieces : List String) :
    writeAll pieces = write (String.join pieces) := by
  induction pieces with
  | nil =>
      funext state
      simp only [writeAll, String.join_nil, write, Sink.write_empty]
      rfl
  | cons piece rest ih => rw [String.join_cons, writeAll, ih, write_append]

def ended {σ : Type} (outcome : Except Error α) (state : σ) : EStateM.Result Error σ α :=
  match outcome with
  | .ok value => .ok value state
  | .error error => .error error state

/-- Two outcomes that are both good and so related, or the same error. -/
inductive Alike (results : α → β → Prop) : Except Error α → Except Error β → Prop
  | ok {one other} : results one other → Alike results (.ok one) (.ok other)
  | error (error : Error) : Alike results (.error error) (.error error)

/-- Where an action, and what it is through a wrapper, come to when the sink took all of a write,
and where they stop when it did not: the one with the output full, the other with a failure of
formatting and the reason of the sink kept aside. -/
inductive ComeTo (channel : Channel) (outcome : Except Error α) (other : Except Error β)
    (behind : RenderState) : Sink × Bool → EStateM.Result Error RenderState α →
      EStateM.Result Error WrappedState β → Prop
  | taken (left : Sink) :
      ComeTo channel outcome other behind (left, true) (ended outcome { behind with sink := left })
        (ended other ⟨{ behind with sink := left }, none⟩)
  | refused (left : Sink) (stopped : RenderState) :
      ComeTo channel outcome other behind (left, false)
        (.error Error.outputFull { stopped with sink := left })
        (.error Error.formatting ⟨{ stopped with sink := left }, some channel.reason⟩)

variable (channel : Channel)

/-- An action, with what it is through a wrapper, treats its sink as one write of all it emits.
Where the sink takes all of it, both come to outcomes that are alike and the same whatever the
sink. -/
def WritesOnce (results : α → β → Prop) (action : Rendering α) (wrapped : Wrapped β) : Prop :=
  ∀ state : RenderState, ∃ (emitted : String) (outcome : Except Error α)
      (other : Except Error β) (behind : RenderState),
    Alike results outcome other ∧
      ∀ sink : Sink, ComeTo channel outcome other behind (sink.write emitted)
        (action { state with sink }) (wrapped ⟨{ state with sink }, none⟩)

section Steps

variable {channel} {results : α → β → Prop}

theorem writes_once_pure {one : α} {other : β} (related : results one other) :
    WritesOnce channel results (pure one) (pure other) := by
  intro state
  refine ⟨"", .ok one, .ok other, state, .ok related, ?_⟩
  intro sink
  rw [Sink.write_empty]
  exact .taken sink

theorem writes_once_throw (results : α → β → Prop) (error : Error) :
    WritesOnce channel results (throw error) (throw error) := by
  intro state
  refine ⟨"", .error error, .error error, state, .error error, ?_⟩
  intro sink
  rw [Sink.write_empty]
  exact .taken sink

/-- An action that leaves the sink as it is and does not go by it is the same through a wrapper. -/
theorem writes_once_aside {action : Rendering α}
    (silent : ∀ state : RenderState, ∃ (outcome : Except Error α) (behind : RenderState),
      ∀ sink : Sink, action { state with sink } = ended outcome { behind with sink }) :
    WritesOnce channel Eq action (Wrapped.aside action) := by
  intro state
  obtain ⟨outcome, behind, runs⟩ := silent state
  have same : Alike Eq outcome outcome := by
    cases outcome with
    | ok value => exact .ok rfl
    | error error => exact .error error
  refine ⟨"", outcome, outcome, behind, same, ?_⟩
  intro sink
  have wrapped : Wrapped.aside action ⟨{ state with sink }, none⟩ =
      ended outcome ⟨{ behind with sink }, none⟩ := by
    simp only [Wrapped.aside, runs]
    cases outcome <;> rfl
  rw [Sink.write_empty, runs, wrapped]
  exact .taken sink

theorem writes_once_bind {ends : γ → δ → Prop} {action : Rendering α} {wrapped : Wrapped β}
    {next : α → Rendering γ} {wrappedNext : β → Wrapped δ}
    (first : WritesOnce channel results action wrapped)
    (second : ∀ one other, results one other →
      WritesOnce channel ends (next one) (wrappedNext other)) :
    WritesOnce channel ends (action >>= next) (wrapped >>= wrappedNext) := by
  intro state
  obtain ⟨emitted, outcome, other, behind, alike, runs⟩ := first state
  cases alike with
  | error error =>
      refine ⟨emitted, .error error, .error error, behind, .error error, ?_⟩
      intro sink
      have ran := runs sink
      rw [bind_apply, bind_apply]
      generalize sink.write emitted = written, action { state with sink } = result,
        wrapped ⟨{ state with sink }, none⟩ = wrappedResult at ran ⊢
      cases ran with
      | taken left => exact .taken left
      | refused left stopped => exact .refused left stopped
  | ok related =>
      obtain ⟨more, outcome, other, last, alike, runsOn⟩ := second _ _ related behind
      refine ⟨emitted ++ more, outcome, other, last, alike, ?_⟩
      intro sink
      have ran := runs sink
      rw [Sink.write_append, bind_apply, bind_apply]
      generalize sink.write emitted = written, action { state with sink } = result,
        wrapped ⟨{ state with sink }, none⟩ = wrappedResult at ran ⊢
      cases ran with
      | taken left => exact runsOn left
      | refused left stopped => exact .refused left stopped

theorem writes_once_write (piece : String) :
    WritesOnce channel Eq (write piece) (Wrapped.formatted (Formatting.put channel piece)) := by
  intro state
  refine ⟨piece, .ok (), .ok (), state, .ok rfl, ?_⟩
  intro sink
  simp only [write, Wrapped.formatted, Formatting.put]
  cases sink.write piece with
  | mk left took =>
      cases took with
      | true => exact .taken left
      | false => exact .refused left state

theorem writes_once_within (parent : Nat) (view : Value) {body : Nat → Rendering Unit}
    {wrappedBody : Nat → Wrapped Unit}
    (inside : ∀ scope, WritesOnce channel Eq (body scope) (wrappedBody scope)) :
    WritesOnce channel Eq (within parent view body) (Wrapped.within parent view wrappedBody) := by
  intro state
  obtain ⟨emitted, outcome, other, behind, alike, runs⟩ :=
    inside state.scopes.length { state with scopes := state.scopes.push parent view }
  refine ⟨emitted, outcome, other, { behind with scopes := behind.scopes.tail }, alike, ?_⟩
  intro sink
  have ran := runs sink
  simp only [within, Wrapped.within]
  generalize sink.write emitted = written, body _ _ = result,
    wrappedBody _ _ = wrappedResult at ran ⊢
  cases ran with
  | taken left => cases alike <;> exact .taken left
  | refused left stopped =>
      exact .refused left { stopped with scopes := stopped.scopes.tail }

theorem writes_once_escaped (escape : Escape) (value : Value) :
    WritesOnce channel Eq (writeEscaped (escape value.display))
      (Wrapped.formatted (Formatting.putEscaped channel escape value)) := by
  rw [writeEscaped, write_all_eq_write_join, Formatting.put_escaped_eq, Wrapped.formatted_bind]
  apply writes_once_bind (writes_once_write _)
  intro _ _ _
  split
  · exact writes_once_throw Eq Error.formatting
  · exact writes_once_pure rfl

theorem writes_once_shown (value : Value) :
    WritesOnce channel Eq (write value.display)
      (Wrapped.formatted (Formatting.putValue channel value)) := by
  rw [Formatting.put_value_eq]
  exact writes_once_write value.display

theorem writes_once_lookup (scope : Nat) (name : String) :
    WritesOnce channel Eq (lookup scope name) (Wrapped.aside (lookup scope name)) := by
  apply writes_once_aside
  intro state
  let found := Scopes.lookup name state.scopes scope state.journal
  exact ⟨.ok found.1, { state with scopes := found.2.1, journal := found.2.2 }, fun _ => rfl⟩

theorem writes_once_load_partial (source : Partials) (name : String) :
    WritesOnce channel Eq (loadPartial source name)
      (Wrapped.aside (loadPartial source name)) := by
  apply writes_once_aside
  intro state
  cases loaded : source.load name state.journal with
  | mk found journal =>
      refine ⟨found, { state with journal }, ?_⟩
      intro sink
      simp only [loadPartial, loaded]
      cases found <;> rfl

theorem writes_once_parse (settings : Settings) (text : String) :
    WritesOnce channel Eq (parse settings text) (Wrapped.aside (parse settings text)) := by
  apply writes_once_aside
  intro state
  cases parsed : state.cache.parse settings.delimiters text with
  | mk nodes cache =>
      refine ⟨nodes, { state with cache }, ?_⟩
      intro sink
      simp only [parse, compileBy, parsed]
      cases nodes <;> rfl

end Steps

/-- Bodies that write once, wherever they are rendered. -/
def BodiesWriteOnce (channel : Channel) (body : Body) (wrapped : Wrapped.Body) : Prop :=
  ∀ opened scope nodes, WritesOnce channel Eq (body opened scope nodes) (wrapped opened scope nodes)

section Nodes

variable {channel : Channel} {settings : Settings} {source : Option Partials}
  {inner : Option Body} {wrappedInner : Option Wrapped.Body}
  (inside : Option.Rel (BodiesWriteOnce channel) inner wrappedInner) (opened scope : Nat)

theorem writes_once_items {body : Nat → Rendering Unit} {wrappedBody : Nat → Wrapped Unit}
    (each : ∀ child, WritesOnce channel Eq (body child) (wrappedBody child)) (items : List Value) :
    WritesOnce channel Eq (renderItems scope body items)
      (Wrapped.renderItems scope wrappedBody items) := by
  induction items with
  | nil => exact writes_once_pure rfl
  | cons item rest ih =>
      apply writes_once_bind (writes_once_within scope item each)
      intro _ _ _
      exact ih

include inside

theorem writes_once_enter :
    WritesOnce channel (BodiesWriteOnce channel) (enter inner) (Wrapped.enter wrappedInner) := by
  cases inside with
  | none => exact writes_once_throw _ nestedTooDeep
  | some bodies => exact writes_once_pure bodies

theorem writes_once_section (name : String) (children : List Node) :
    WritesOnce channel Eq (renderSection lookup settings inner opened scope name children)
      (Wrapped.renderSection settings wrappedInner opened scope name children) := by
  apply writes_once_bind (writes_once_lookup scope name)
  rintro value _ rfl
  split
  · apply writes_once_bind (writes_once_enter inside)
    intro body wrappedBody bodies
    split
    · exact writes_once_items scope (fun child => bodies opened child children) _
    · split
      · exact writes_once_within scope value fun child => bodies opened child children
      · exact bodies opened scope children
  · exact writes_once_pure rfl

theorem writes_once_inverted (name : String) (children : List Node) :
    WritesOnce channel Eq (renderInverted lookup inner opened scope name children)
      (Wrapped.renderInverted wrappedInner opened scope name children) := by
  apply writes_once_bind (writes_once_lookup scope name)
  rintro value _ rfl
  split
  · apply writes_once_bind (writes_once_enter inside)
    intro body wrappedBody bodies
    exact bodies opened scope children
  · exact writes_once_pure rfl

theorem writes_once_partial (name : String) :
    WritesOnce channel Eq (renderPartial (parse settings) settings source inner opened scope name)
      (Wrapped.renderPartial settings source wrappedInner opened scope name) := by
  unfold renderPartial Wrapped.renderPartial
  cases source with
  | none => exact writes_once_pure rfl
  | some holder =>
      apply writes_once_bind (writes_once_load_partial holder name)
      rintro found _ rfl
      cases found with
      | none => exact writes_once_pure rfl
      | some text =>
          -- past the limit of partials nothing is parsed or entered
          have goesOn : WritesOnce channel Eq
              (do
                let nodes ← parse settings text
                let body ← enter inner
                body (opened + 1) scope nodes)
              (do
                let nodes ← Wrapped.aside (parse settings text)
                let body ← Wrapped.enter wrappedInner
                body (opened + 1) scope nodes) := by
            apply writes_once_bind (writes_once_parse settings text)
            rintro nodes _ rfl
            apply writes_once_bind (writes_once_enter inside)
            intro body wrappedBody bodies
            exact bodies (opened + 1) scope nodes
          dsimp only
          split
          · apply writes_once_bind (writes_once_throw Eq _)
            intro _ _ _
            exact goesOn
          · exact goesOn

theorem writes_once_node (node : Node) :
    WritesOnce channel Eq
      (renderNode lookup (parse settings) settings source inner opened scope node)
      (Wrapped.renderNode channel settings source wrappedInner opened scope node) := by
  cases node with
  | text content _ => exact writes_once_write content
  | escaped name _ =>
      apply writes_once_bind (writes_once_lookup scope name)
      rintro value _ rfl
      split
      · exact writes_once_escaped settings.escape value
      · exact writes_once_pure rfl
  | unescaped name _ =>
      apply writes_once_bind (writes_once_lookup scope name)
      rintro value _ rfl
      split
      · exact writes_once_shown value
      · exact writes_once_pure rfl
  | sectionOf name children _ _ => exact writes_once_section inside opened scope name children
  | invertedOf name children _ _ => exact writes_once_inverted inside opened scope name children
  | inclusion name _ => exact writes_once_partial inside opened scope name
  | comment _ _ | delimiters _ _ => exact writes_once_pure rfl

theorem writes_once_nodes (nodes : List Node) :
    WritesOnce channel Eq
      (renderNodes lookup (parse settings) settings source inner opened scope nodes)
      (Wrapped.renderNodes channel settings source wrappedInner opened scope nodes) := by
  induction nodes with
  | nil => exact writes_once_pure rfl
  | cons node rest ih =>
      apply writes_once_bind (writes_once_node inside opened scope node)
      intro _ _ _
      exact ih

end Nodes

/-- A whole render writes once, however deep it may go. -/
theorem run_writes_once (channel : Channel) (settings : Settings) (source : Option Partials)
    (room : Nat) :
    BodiesWriteOnce channel (run settings source room)
      (Wrapped.run channel settings source room) := by
  induction room with
  | zero => exact writes_once_nodes .none
  | succ room ih => exact writes_once_nodes (.some ih)

end Rendering

namespace Session

variable (channel : Channel) (template : Template) (view : Data) (partials : Option Partials)
  (session : Session)

/-- What a render comes to after one write of all it emits, if the sink refuses for a reason. -/
def afterWrite (reason : Cause) (emitted : String) (outcome : Except Error Unit) (sink : Sink) :
    Except Error Unit × Sink :=
  match sink.write emitted with
  | (left, true) => (outcome, left)
  | (left, false) => (.error (Error.refused reason), left)

theorem after_write_of_room (reason : Cause) (emitted : String) (outcome : Except Error Unit)
    (room : Nat) :
    afterWrite reason emitted outcome (.ofRoom room) =
      (if (Sink.utf8 emitted).size ≤ room then outcome else .error (Error.refused reason),
        .bounded (room - (Sink.utf8 emitted).size) ((Sink.utf8 emitted).take room)) := by
  simp only [afterWrite, Sink.ofRoom, Sink.write, Array.empty_append]
  by_cases fits : (Sink.utf8 emitted).size ≤ room
  · simp only [fits, decide_true, if_true]
  · simp only [fits, decide_false, if_false]

/-- A render into a sink, and the same through a wrapper, whatever the reasons of the sink and the
pieces of texts, are one write of the same text. -/
theorem render_writes_once :
    ∃ emitted outcome, ∀ sink,
      let ran := session.renderInto template view partials sink
      (ran.1, ran.2.1) = afterWrite .noRoom emitted outcome sink ∧
        session.renderThrough channel template view partials sink =
          ((afterWrite channel.reason emitted outcome sink).1, ran.2) := by
  cases converted : view.toValue? session.registry with
  | mk found registry =>
      cases found with
      | error error =>
          refine ⟨"", .error error, ?_⟩
          intro sink
          simp only [renderInto, renderThrough, converted, afterWrite, Sink.write_empty]
          exact ⟨trivial, trivial⟩
      | ok value =>
          have writes := Rendering.run_writes_once channel session.settings partials nestingLimit
            0 0 template.nodes
          obtain ⟨emitted, outcome, other, behind, alike, runs⟩ :=
            writes ⟨.unbounded, Scopes.root value, session.journal, session.cache⟩
          refine ⟨emitted, outcome, ?_⟩
          intro sink
          have ran := runs sink
          simp only [Rendering.run, Rendering.runWith, Rendering.parse] at ran
          simp only [renderInto, renderIn, renderThrough, converted, afterWrite]
          generalize sink.write emitted = written, Rendering.runBy _ _ _ _ _ _ _ _ _ = result,
            Wrapped.run _ _ _ _ _ _ _ _ = wrappedResult at ran ⊢
          cases ran with
          | taken left => cases alike <;> exact ⟨rfl, rfl⟩
          | refused left stopped => exact ⟨rfl, rfl⟩

/-- A wrapper makes no difference to what a render comes to: the reason it keeps aside is the cause
of the error that a write without it would fail with. -/
theorem render_through_eq_render_into
    (reason : channel.reason = .noRoom) (sink : Sink) :
    session.renderThrough channel template view partials sink =
      session.renderInto template view partials sink := by
  obtain ⟨emitted, outcome, runs⟩ := render_writes_once channel template view partials session
  obtain ⟨ran, through⟩ := runs sink
  rw [through, reason, ← ran]

/-- What is put into a bounded output, and what the render comes to there, by what it puts into an
unbounded one. -/
theorem render_within_room (room : Nat) :
    let free := session.renderInto template view partials .unbounded
    let bounded := session.renderInto template view partials (.ofRoom room)
    let output := Sink.utf8 free.2.1.string
    (bounded.1, bounded.2.1) =
        (if output.size ≤ room then free.1 else .error Error.outputFull,
          .bounded (room - output.size) (output.take room)) ∧
      session.renderThrough channel template view partials .unbounded = free ∧
      session.renderThrough channel template view partials (.ofRoom room) =
        (if output.size ≤ room then free.1 else .error (Error.refused channel.reason),
          bounded.2) := by
  intro free bounded output
  obtain ⟨emitted, outcome, runs⟩ := render_writes_once channel template view partials session
  obtain ⟨ranFreely, throughFreely⟩ := runs .unbounded
  obtain ⟨ran, through⟩ := runs (.ofRoom room)
  have freely : (free.1, free.2.1) = (outcome, .text ("" ++ emitted)) := ranFreely
  obtain ⟨freeEnd, freeSink⟩ := Prod.mk.inj freely
  have emits : output = Sink.utf8 emitted := by
    simp only [output, freeSink, Sink.string, String.empty_append]
  refine ⟨?_, ?_, ?_⟩
  · rw [emits, freeEnd]
    exact ran.trans (after_write_of_room _ emitted outcome room)
  · rw [throughFreely]
    exact Prod.ext freeEnd.symm rfl
  · rw [through, after_write_of_room, emits, freeEnd]

end Session

/-- Rendering into a bounded output leaves the longest prefix that fits of what the same rendering
puts into an unbounded one. With room for all of it the result is the same, and without room the
result is a failed write with the refusal as its cause; pieces count together, not one by one. The
same is true through a wrapper that keeps the refusal aside while formatting fails without a cause,
whatever the refusal and whatever pieces the texts of values are formatted in. -/
theorem bounded_output_is_prefix (template : Template) (view : Data)
    (partials : Option Partials) (session : Session) (room : Nat) :
    let free := session.renderInto template view partials .unbounded
    let bounded := session.renderInto template view partials (.ofRoom room)
    let output := Sink.utf8 free.2.1.string
    (session.render template view partials).1 = free.1.map (fun _ => free.2.1.string) ∧
      bounded.2.1.bytes = output.take room ∧
      (output.size ≤ room → bounded.1 = free.1) ∧
      (room < output.size → ∃ error, bounded.1 = .error error ∧ error.kind = .writeFailure ∧
        error.cause = some ⟨"no room left in the output", "NoRoom"⟩) ∧
      (∀ pieces, Rendering.writeAll pieces = Rendering.write (String.join pieces)) ∧
      ∀ channel : Channel,
        session.renderThrough channel template view partials .unbounded = free ∧
          session.renderThrough channel template view partials (.ofRoom room) =
            (if output.size ≤ room then free.1 else .error (Error.refused channel.reason),
              bounded.2) := by
  intro free bounded output
  have within (channel : Channel) :=
    session.render_within_room channel template view partials room
  obtain ⟨roomyEnd, roomySink⟩ := Prod.mk.inj (within Channel.whole).1
  refine ⟨rfl, ?_, ?_, ?_, Rendering.write_all_eq_write_join, ?_⟩
  · rw [roomySink]
    rfl
  · intro fits
    rw [roomyEnd, if_pos fits]
  · intro exceeds
    refine ⟨Error.outputFull, ?_, rfl, rfl⟩
    rw [roomyEnd, if_neg (Nat.not_le.2 exceeds)]
  · intro channel
    exact (within channel).2

end Mustache
