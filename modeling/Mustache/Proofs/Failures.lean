import Mustache.Proofs.Containers
import Mustache.Proofs.Inlining
import Mustache.Proofs.Nesting

/-!
What can make a render fail. Names that lead nowhere and values of whatever kind are nothing out
of the way. Without partials a compiled tree fails only where its sink or its escape does; the
levels a render may be nested in never run out, since sections are compiled no deeper.
-/

namespace Mustache

namespace Node

theorem Shallow.under {room : Nat} {nodes : List Node} (shallow : Shallow room nodes)
    {node : Node} (among : node ∈ nodes) (holdsOthers : node.isSection = true) :
    ∃ level, room = level + 1 ∧ Shallow level node.children := by
  have here : 1 ≤ room := by
    have alone := shallow [node] (.last among)
    rw [List.countP_cons_of_pos holdsOthers] at alone
    omega
  refine ⟨room - 1, by omega, ?_⟩
  intro path way
  have deeper := shallow (node :: path) (.down among way)
  rw [List.countP_cons_of_pos holdsOthers] at deeper
  omega

/-- Rendering the nodes asks for no partial: there is no source of any, or no tag of one. -/
def AsksNone (source : Option Partials) (nodes : List Node) : Prop :=
  source = none ∨ ∀ entry ∈ entriesOfAll nodes, entry.kind ≠ .inclusion

theorem AsksNone.under {source : Option Partials} {nodes : List Node}
    (asksNone : AsksNone source nodes) {node : Node} (among : node ∈ nodes) :
    AsksNone source node.children := by
  apply asksNone.imp_right
  intro noneListed entry listed
  exact noneListed entry ((children_sublist_of_mem among).subset listed)

theorem AsksNone.no_inclusion {source : Option Partials} {nodes : List Node} {name : String}
    {span : Span} (asksNone : AsksNone source nodes) (among : .inclusion name span ∈ nodes) :
    source = none := by
  apply asksNone.resolve_right
  intro noneListed
  apply noneListed (leafListed .inclusion name span)
  · apply (entries_sublist_of_mem among).subset
    exact List.mem_singleton_self _
  · rfl

theorem shallow_of_source {delimiters : Delimiters} {source : String} {nodes : List Node}
    (parses : Node.ofSource delimiters source = .ok nodes) : Shallow sectionLimit nodes := by
  unfold Node.ofSource at parses
  split at parses
  · contradiction
  next tokens made =>
    have whole := Token.of_source_eq_ok_iff.1 made
    have room : LeavesRoom [] [] := Shallow.nil _
    obtain ⟨nested, nests, _, shallow⟩ :=
      nest_from_lists .nil (Token.balanced_of_text whole) room
    have same : nested = nodes := by
      rw [Node.nest, nests] at parses
      exact Except.ok.inj parses
    rwa [same] at shallow

end Node

namespace Rendering

/-- From a sink that fits the action comes to one that fits, or to an error that is expected. -/
def Ends (fits : Sink → Prop) (expected : Error → Prop) {α : Type} (action : Rendering α) : Prop :=
  ∀ state, fits state.sink →
    match action state with
    | .ok _ behind => fits behind.sink
    | .error error _ => expected error

section Ends

variable {fits : Sink → Prop} {expected : Error → Prop}

theorem ends_pure {α : Type} (value : α) : Ends fits expected (pure value) :=
  fun _ fitting => fitting

theorem ends_bind {α β : Type} {action : Rendering α} {next : α → Rendering β}
    (first : Ends fits expected action) (thenNext : ∀ value, Ends fits expected (next value)) :
    Ends fits expected (action >>= next) := by
  intro state fitting
  have ended := first state fitting
  rw [bind_apply]
  cases ran : action state with
  | ok value behind =>
      rw [ran] at ended
      exact thenNext value behind ended
  | error error behind =>
      rw [ran] at ended
      exact ended

theorem ends_within {parent : Nat} {view : Value} {body : Nat → Rendering Unit}
    (inside : ∀ scope, Ends fits expected (body scope)) :
    Ends fits expected (within parent view body) := by
  intro state fitting
  let pushed : RenderState := { state with scopes := state.scopes.push parent view }
  have ended := inside state.scopes.length pushed fitting
  unfold within
  cases ran : body state.scopes.length pushed with
  | ok value behind =>
      rw [ran] at ended
      exact ended
  | error error behind =>
      rw [ran] at ended
      exact ended

theorem ends_items {scope : Nat} {body : Nat → Rendering Unit}
    (inside : ∀ child, Ends fits expected (body child)) (items : List Value) :
    Ends fits expected (renderItems scope body items) := by
  induction items with
  | nil => exact ends_pure ()
  | cons item rest ih => exact ends_bind (ends_within inside) fun _ => ih

/-- Looking a name up does not fail, whatever it leads to. -/
theorem ends_lookup (scope : Nat) (name : String) : Ends fits expected (lookup scope name) :=
  fun _ fitting => fitting

section Nodes

variable {compile : Compile} {settings : Settings} {source : Option Partials} {opened : Nat}

theorem ends_section {body : Body} {children : List Node}
    (inside : ∀ child, Ends fits expected (body opened child children)) (scope : Nat)
    (name : String) :
    Ends fits expected (renderSection lookup settings (some body) opened scope name children) := by
  apply ends_bind (ends_lookup scope name)
  intro value
  by_cases holds : value.isTrue
  · rw [if_pos holds, enter, pure_bind]
    split
    · exact ends_items inside _
    · split
      · exact ends_within inside
      · exact inside scope
  · rw [if_neg holds]
    exact ends_pure ()

theorem ends_inverted {body : Body} {children : List Node}
    (inside : ∀ child, Ends fits expected (body opened child children)) (scope : Nat)
    (name : String) :
    Ends fits expected (renderInverted lookup (some body) opened scope name children) := by
  apply ends_bind (ends_lookup scope name)
  intro value
  split
  · rw [enter, pure_bind]
    exact inside scope
  · exact ends_pure ()

/-- What writing can come to is all that a node can come to, if its children have a level to be
rendered at. -/
theorem ends_node (writes : ∀ piece, Ends fits expected (write piece))
    (escapes : ∀ text, Ends fits expected (writeEscaped (settings.escape text)))
    {inner : Option Body} {node : Node}
    (inside : node.isSection = true →
      ∃ body, inner = some body ∧ ∀ child, Ends fits expected (body opened child node.children))
    (asksNone : ∀ name span, node = .inclusion name span → source = none) (scope : Nat) :
    Ends fits expected (renderNode lookup compile settings source inner opened scope node) := by
  cases node with
  | text content span => exact writes content
  | escaped name span =>
      apply ends_bind (ends_lookup scope name)
      intro value
      split
      · exact escapes value.display
      · exact ends_pure ()
  | unescaped name span =>
      apply ends_bind (ends_lookup scope name)
      intro value
      split
      · exact writes value.display
      · exact ends_pure ()
  | sectionOf name children closing span =>
      obtain ⟨body, rfl, rendered⟩ := inside rfl
      exact ends_section rendered scope name
  | invertedOf name children closing span =>
      obtain ⟨body, rfl, rendered⟩ := inside rfl
      exact ends_inverted rendered scope name
  | inclusion name span =>
      obtain rfl := asksNone name span rfl
      exact ends_pure ()
  | comment content span | delimiters content span => exact ends_pure ()

theorem ends_nodes {inner : Option Body} {scope : Nat} {nodes : List Node}
    (each : ∀ node ∈ nodes,
      Ends fits expected (renderNode lookup compile settings source inner opened scope node)) :
    Ends fits expected (renderNodes lookup compile settings source inner opened scope nodes) := by
  induction nodes with
  | nil => exact ends_pure ()
  | cons node rest ih =>
      obtain ⟨first, others⟩ := List.forall_mem_cons.1 each
      exact ends_bind first fun _ => ih others

/-- A tree that asks for no partial is rendered with no more levels than its sections take. -/
theorem ends_run (writes : ∀ piece, Ends fits expected (write piece))
    (escapes : ∀ text, Ends fits expected (writeEscaped (settings.escape text)))
    {room : Nat} {nodes : List Node} (shallow : Node.Shallow room nodes)
    (asksNone : Node.AsksNone source nodes) (scope : Nat) :
    Ends fits expected (runBy lookup compile settings source room opened scope nodes) := by
  induction room using Nat.strongRecOn generalizing nodes scope with
  | ind room ih =>
      rw [run_by_eq_render_nodes]
      apply ends_nodes
      intro node among
      refine ends_node writes escapes ?_ ?_ scope
      · intro holdsOthers
        obtain ⟨level, rfl, below⟩ := shallow.under among holdsOthers
        exact ⟨_, rfl, ih level level.lt_succ_self below (asksNone.under among)⟩
      · rintro name span rfl
        exact asksNone.no_inclusion among

end Nodes

theorem ends_write_escaped (writes : ∀ piece, Ends fits expected (write piece))
    {escaped : Escaped} (givesUp : escaped.gaveUp = true → expected Error.formatting) :
    Ends fits expected (writeEscaped escaped) := by
  have allWritten (pieces : List String) : Ends fits expected (writeAll pieces) := by
    induction pieces with
    | nil => exact ends_pure ()
    | cons piece rest ih => exact ends_bind (writes piece) fun _ => ih
  apply ends_bind (allWritten escaped.pieces)
  intro _
  split
  · exact fun _ _ => givesUp ‹_›
  · exact ends_pure ()

end Ends

/-- Whatever the sink and the escape, they alone can fail. -/
theorem run_fails_in_output (compile : Compile) (settings : Settings) {source : Option Partials}
    {room : Nat} {nodes : List Node} (shallow : Node.Shallow room nodes)
    (asksNone : Node.AsksNone source nodes) (opened scope : Nat) :
    Ends (fun _ => True) (fun error => error = Error.outputFull ∨ error = Error.formatting)
      (runBy lookup compile settings source room opened scope nodes) := by
  have writes (piece : String) : Ends (fun _ => True)
      (fun error => error = Error.outputFull ∨ error = Error.formatting) (write piece) := by
    intro state _
    unfold write
    cases state.sink.write piece with
    | mk sink tookAll =>
        cases tookAll with
        | true => trivial
        | false => exact .inl rfl
  refine ends_run writes ?_ shallow asksNone scope
  intro text
  exact ends_write_escaped writes fun _ => .inr rfl

/-- A text takes all that is written, so that nothing fails if the escape never does. -/
theorem run_to_text_succeeds (compile : Compile) {settings : Settings} {source : Option Partials}
    (neverGivesUp : ∀ text, (settings.escape text).gaveUp = false) {room : Nat}
    {nodes : List Node} (shallow : Node.Shallow room nodes)
    (asksNone : Node.AsksNone source nodes) (opened scope : Nat) (written : String) :
    Ends (fun sink => ∃ added, sink = .text (written ++ added)) (fun _ => False)
      (runBy lookup compile settings source room opened scope nodes) := by
  have writes (piece : String) :
      Ends (fun sink => ∃ added, sink = .text (written ++ added)) (fun _ => False)
        (write piece) := by
    rintro state ⟨added, holding⟩
    rw [write, holding]
    exact ⟨added ++ piece, by rw [← String.append_assoc]⟩
  refine ends_run writes ?_ shallow asksNone scope
  intro text
  refine ends_write_escaped writes ?_
  simp [neverGivesUp]

end Rendering

theorem Node.Shallow.mono {room more : Nat} {nodes : List Node} (shallow : Shallow room nodes)
    (enough : room ≤ more) : Shallow more nodes :=
  fun path way => (shallow path way).trans enough

theorem Session.render_in_to_text (session : Session)
    (neverGivesUp : ∀ text, (session.settings.escape text).gaveUp = false) {nodes : List Node}
    (shallow : Node.Shallow nestingLimit nodes) (source : String) (scopes : Scopes) (scope : Nat) :
    let rendered := session.renderIn ⟨source, nodes⟩ none scopes scope .unbounded
    rendered.1 = .ok () ∧ ∃ text, rendered.2.1.sink = .text text := by
  have ended := Rendering.run_to_text_succeeds (Rendering.compileBy Cache.parse session.settings)
    neverGivesUp shallow (.inl rfl) 0 scope "" ⟨.unbounded, scopes, session.journal,
      session.cache⟩ ⟨"", rfl⟩
  unfold Session.renderIn
  split at ended
  next ran =>
    obtain ⟨text, holding⟩ := ended
    simp only [ran]
    exact ⟨trivial, _, holding⟩
  · contradiction

theorem Session.render_to_text (session : Session)
    (neverGivesUp : ∀ text, (session.settings.escape text).gaveUp = false) {nodes : List Node}
    (shallow : Node.Shallow nestingLimit nodes) (source : String) (value : Value) :
    ∃ text, (session.render ⟨source, nodes⟩ (.ready value) none).1 = .ok text := by
  have converted := Data.ready_to_value value session.registry
  cases conversion : (Data.ready value).toValue? session.registry with
  | mk result registry =>
      obtain rfl : result = .ok value := by rwa [conversion] at converted
      have rendered := render_in_to_text { session with registry } neverGivesUp shallow source
        (Scopes.root value) 0
      obtain ⟨succeeded, text, holding⟩ := rendered
      unfold Session.render Session.renderInto
      simp only [conversion, succeeded, holding]
      exact ⟨text, rfl⟩

/-- Missing and odd data is never an error. Without partials a template that compiles renders to a
text against any value and in any scope, if its escape never gives up. Under whatever settings,
and even if levels were no more than the sections permitted, only the sink and the escape can make
it fail, so that it never runs out of levels. -/
theorem rendering_without_partials_succeeds (session : Session) {source : String}
    {nodes : List Node}
    (parses : Node.ofSource session.settings.delimiters source = .ok nodes) :
    Node.Shallow sectionLimit nodes ∧
      ((∀ text, (session.settings.escape text).gaveUp = false) →
        (∀ (scopes : Scopes) (scope : Nat),
          let rendered := session.renderIn ⟨source, nodes⟩ none scopes scope .unbounded
          rendered.1 = .ok () ∧ ∃ text, rendered.2.1.sink = .text text) ∧
        ∀ value, ∃ text, (session.render ⟨source, nodes⟩ (.ready value) none).1 = .ok text) ∧
      ∀ partials, Node.AsksNone partials nodes → ∀ room, sectionLimit ≤ room →
        ∀ compile opened scope state error behind,
          Rendering.runBy Rendering.lookup compile session.settings partials room opened scope nodes
              state = .error error behind →
            error = Error.outputFull ∨ error = Error.formatting := by
  have shallow := Node.shallow_of_source parses
  refine ⟨shallow, ?_, ?_⟩
  · intro neverGivesUp
    have permitted : Node.Shallow nestingLimit nodes := shallow.mono (by decide)
    constructor
    · exact session.render_in_to_text neverGivesUp permitted source
    · exact session.render_to_text neverGivesUp permitted source
  · intro partials asksNone room enough compile opened scope state error behind failed
    have ended := Rendering.run_fails_in_output compile session.settings (shallow.mono enough)
      asksNone opened scope state trivial
    rw [failed] at ended
    exact ended

theorem odd_members_render_to_text :
    let source := "\x7b\x7ba.b.c\x7d\x7d\x7b\x7b#n\x7d\x7d\x7b\x7bgone\x7d\x7d\x7b\x7b/n\x7d\x7d\x7b\x7b>p\x7d\x7d"
    let nodes : List Node := [.escaped "a.b.c" ⟨0, 9⟩,
      .sectionOf "n" [.escaped "gone" ⟨15, 23⟩] 23 ⟨9, 29⟩, .inclusion "p" ⟨29, 35⟩]
    let value : Value := .map [("a", .bool true), ("n", .list [.none, .unsigned 0, .text ""])]
    Node.ofSource .braces source = .ok nodes ∧ (∀ text, (Escape.html text).gaveUp = false) ∧
      ∃ text, ((Session.start (.start "")).render ⟨source, nodes⟩ (.ready value) none).1 = .ok text := by
  intro source nodes value
  have parses : Node.ofSource .braces source = .ok nodes := by cbv
  have neverGivesUp (text : String) : (Escape.html text).gaveUp = false := rfl
  have renders := rendering_without_partials_succeeds (Session.start (.start "")) parses
  exact ⟨parses, neverGivesUp, (renders.2.1 neverGivesUp).2 value⟩

end Mustache
