import Mustache.Proofs.BoundedOutput
import Mustache.Proofs.HtmlText
import Mustache.Proofs.Inlining
import Mustache.Proofs.Nesting
import Mustache.Proofs.PlainLookup
import Mustache.Proofs.Visits

/-!
Output without markup. If a template and the partials it loads escape all they interpolate, and
their own texts have nothing to be escaped, then no value can put markup into the output: every
piece that is written makes no markup. Only the partials that a render comes to matter; what else
their source has may be as it likes.
-/

namespace Mustache

/-- Everything interpolated is escaped, and texts have none of the characters that make markup. -/
def Node.AllEscaped (nodes : List Node) : Prop :=
  ∀ entry ∈ entriesOfAll nodes, entry.kind ≠ .unescaped ∧
    (entry.kind = .text → ∀ c ∈ entry.value.toList, c ∉ Escape.marks)

theorem Node.AllEscaped.under {nodes : List Node} (escaped : AllEscaped nodes) {node : Node}
    (among : node ∈ nodes) : AllEscaped node.children :=
  fun entry listed => escaped entry ((children_sublist_of_mem among).subset listed)

theorem Node.all_escaped_cons {node : Node} {nodes : List Node} :
    AllEscaped (node :: nodes) ↔ AllEscaped [node] ∧ AllEscaped nodes := by
  simp only [AllEscaped, entriesOfAll, List.append_nil, List.forall_mem_append]

/-- The text of the partial that is loaded at a visit. -/
def Visit.loaded? (source : Option Partials) (visit : Visit) : Option String :=
  match visit.node, source with
  | .inclusion name _, some source =>
      match Rendering.loadPartial source name visit.state with
      | .ok found _ => found
      | .error _ _ => none
  | _, _ => none

/-- What is loaded is what the source has under some name. -/
theorem Visit.answered_of_loaded {answer : String → Except Error (Option String)} {visit : Visit}
    {text : String} (loaded : visit.loaded? (some (.function answer)) = some text) :
    ∃ name, answer name = .ok (some text) := by
  unfold loaded? at loaded
  split at loaded
  next name span source shape held =>
    cases held
    refine ⟨name, ?_⟩
    unfold Rendering.loadPartial Partials.load at loaded
    cases answered : answer name with
    | error error => simp [answered] at loaded
    | ok found => simp_all
  · cases loaded

/-- A partial loaded at the visit has all it interpolates escaped, if it compiles. -/
def Visit.LoadsEscaped (settings : Settings) (source : Option Partials) (visit : Visit) : Prop :=
  ∀ text, visit.loaded? source = some text →
    ∀ nodes, Node.ofSource settings.delimiters text = .ok nodes → Node.AllEscaped nodes

/-- The output so far makes no markup, and the trees kept are those of their texts. -/
structure RenderState.Clean (settings : Settings) (state : RenderState) : Prop where
  output : ∃ text, state.sink = .text text ∧ Escape.Inert text.toList
  coherent : state.cache.Coherent settings.delimiters

namespace Rendering

open Course (after followed ofItems ofSection ofInverted ofPartial ofNode ofNodes ofRunBy)

/-- From clean states the action comes to clean ones, if what is loaded on its course is
escaped. -/
def KeepsClean (settings : Settings) (source : Option Partials) (course : Course)
    (action : Rendering Unit) : Prop :=
  ∀ state, state.Clean settings →
    (∀ visit ∈ course state, visit.LoadsEscaped settings source) →
      (behind (action state)).Clean settings

section Steps

variable {settings : Settings} {source : Option Partials}

theorem keeps_clean_pure : KeepsClean settings source Course.ended (pure ()) :=
  fun _ clean _ => clean

theorem keeps_clean_write {piece : String} (inert : Escape.Inert piece.toList) :
    KeepsClean settings source Course.ended (write piece) := by
  intro state clean _
  obtain ⟨⟨text, holding, without⟩, coherent⟩ := clean
  rw [write, holding]
  refine ⟨⟨text ++ piece, rfl, ?_⟩, coherent⟩
  rw [String.toList_append]
  exact without.append inert

theorem keeps_clean_write_escaped (text : String) :
    KeepsClean settings source Course.ended (writeEscaped (Escape.html text)) := by
  have once : writeEscaped (Escape.html text) = write (Escape.written Escape.html text) := by
    simp only [writeEscaped, write_all_eq_write_join, Escape.html, Bool.false_eq_true, if_false,
      bind_pure_unit]
    rfl
  rw [once]
  exact keeps_clean_write (Escape.inert_written_html text)

/-- What comes behind an action goes on from a clean state with the visits that are left. -/
theorem clean_after {α : Type} {action : Rendering α} {course : α → Course}
    {next : α → Rendering Unit} {state : RenderState}
    (fails : ∀ error between, action state = .error error between → between.Clean settings)
    (goesOn : ∀ value between, action state = .ok value between →
      between.Clean settings ∧ KeepsClean settings source (course value) (next value))
    (loads : ∀ visit ∈ after action course state, visit.LoadsEscaped settings source) :
    (behind ((action >>= next) state)).Clean settings := by
  rw [bind_apply]
  simp only [after] at loads
  cases ran : action state with
  | error error between => exact fails error between ran
  | ok value between =>
      rw [ran] at loads
      obtain ⟨clean, keeps⟩ := goesOn value between ran
      exact keeps between clean loads

theorem keeps_clean_lookup (scope : Nat) (name : String) {course : Value → Course}
    {next : Value → Rendering Unit}
    (goesOn : ∀ value, KeepsClean settings source (course value) (next value)) :
    KeepsClean settings source (after (lookup scope name) course) (lookup scope name >>= next) := by
  intro state clean loads
  refine clean_after ?_ ?_ loads
  · intro error between ran
    cases ran
  · intro value between ran
    cases ran
    exact ⟨⟨clean.output, clean.coherent⟩, goesOn _⟩

theorem keeps_clean_enter {inner : Option Body} {course : Body → Course}
    {next : Body → Rendering Unit}
    (goesOn : ∀ body, inner = some body → KeepsClean settings source (course body) (next body)) :
    KeepsClean settings source (after (enter inner) course) (enter inner >>= next) := by
  intro state clean loads
  refine clean_after ?_ ?_ loads
  · intro error between ran
    cases inner <;> cases ran
    exact clean
  · intro body between ran
    cases inner <;> cases ran
    exact ⟨clean, goesOn body rfl⟩

theorem clean_of_load_partial {holder : Partials} {name : String} {state between : RenderState}
    (clean : state.Clean settings) (ran : behind (loadPartial holder name state) = between) :
    between.Clean settings := by
  unfold loadPartial at ran
  split at ran <;> cases ran <;> exact ⟨clean.output, clean.coherent⟩

/-- A text that is escaped if it compiles compiles to nodes that are. -/
theorem keeps_clean_compile {text : String}
    (escaped : ∀ nodes, Node.ofSource settings.delimiters text = .ok nodes →
      Node.AllEscaped nodes)
    {course : List Node → Course} {next : List Node → Rendering Unit}
    (goesOn : ∀ nodes, Node.AllEscaped nodes →
      KeepsClean settings source (course nodes) (next nodes)) :
    KeepsClean settings source (after (parse settings text) course)
      (parse settings text >>= next) := by
  intro state clean loads
  obtain ⟨same, coherent⟩ := clean.coherent.parse text
  refine clean_after ?_ ?_ loads
  · intro error between ran
    unfold parse compileBy at ran
    split at ran
    · cases ran
    next parsed =>
      cases ran
      rw [parsed] at coherent
      exact ⟨clean.output, coherent⟩
  · intro nodes between ran
    unfold parse compileBy at ran
    split at ran
    next parsed =>
      cases ran
      rw [parsed] at same coherent
      exact ⟨⟨clean.output, coherent⟩, goesOn nodes (escaped nodes same.symm)⟩
    · cases ran

theorem keeps_clean_followed {course next : Course} {action others : Rendering Unit}
    (begins : KeepsClean settings source course action)
    (goesOn : KeepsClean settings source next others) :
    KeepsClean settings source (followed course action next) (action >>= fun _ => others) := by
  intro state clean loads
  obtain ⟨first, later⟩ := List.forall_mem_append.1 loads
  have between := begins state clean first
  refine clean_after ?_ ?_ later
  · intro error failed ran
    rwa [ran] at between
  · intro value passed ran
    rw [ran] at between
    exact ⟨between, goesOn⟩

theorem keeps_clean_within (parent : Nat) (view : Value) {course : Nat → Course}
    {body : Nat → Rendering Unit}
    (inside : ∀ scope, KeepsClean settings source (course scope) (body scope)) :
    KeepsClean settings source (Course.within parent view course) (within parent view body) := by
  intro state clean loads
  let pushed : RenderState := { state with scopes := state.scopes.push parent view }
  have kept := inside state.scopes.length pushed ⟨clean.output, clean.coherent⟩ loads
  unfold within
  cases ran : body state.scopes.length pushed with
  | ok value between =>
      rw [ran] at kept
      exact ⟨kept.output, kept.coherent⟩
  | error error between =>
      rw [ran] at kept
      exact ⟨kept.output, kept.coherent⟩

theorem keeps_clean_items (scope : Nat) {course : Nat → Course} {body : Nat → Rendering Unit}
    (inside : ∀ child, KeepsClean settings source (course child) (body child))
    (items : List Value) :
    KeepsClean settings source (ofItems scope body course items)
      (renderItems scope body items) := by
  induction items with
  | nil => exact keeps_clean_pure
  | cons item rest ih => exact keeps_clean_followed (keeps_clean_within scope item inside) ih

end Steps

section Levels

variable {settings : Settings} {source : Option Partials} {below : BodyCourse}
  {inner : Option Body}

/-- What there is below renders escaped nodes cleanly, with however many partials open. -/
def BelowKeepsClean (settings : Settings) (source : Option Partials) (below : BodyCourse)
    (inner : Option Body) : Prop :=
  ∀ body, inner = some body → ∀ opened scope nodes, Node.AllEscaped nodes →
    KeepsClean settings source (below opened scope nodes) (body opened scope nodes)

variable (inside : BelowKeepsClean settings source below inner) (opened scope : Nat)

include inside

theorem keeps_clean_section (name : String) {children : List Node}
    (escaped : Node.AllEscaped children) :
    KeepsClean settings source
      (ofSection lookup settings inner below opened scope name children)
      (renderSection lookup settings inner opened scope name children) := by
  apply keeps_clean_lookup
  intro value
  split
  · apply keeps_clean_enter
    intro body among
    have renders (child : Nat) := inside body among opened child children escaped
    split
    · exact keeps_clean_items scope renders _
    · split
      · exact keeps_clean_within scope value renders
      · exact renders scope
  · exact keeps_clean_pure

theorem keeps_clean_inverted (name : String) {children : List Node}
    (escaped : Node.AllEscaped children) :
    KeepsClean settings source (ofInverted lookup inner below opened scope name children)
      (renderInverted lookup inner opened scope name children) := by
  apply keeps_clean_lookup
  intro value
  split
  · apply keeps_clean_enter
    intro body among
    exact inside body among opened scope children escaped
  · exact keeps_clean_pure

/-- A partial is rendered cleanly from a state in which it is found to be escaped. -/
theorem keeps_clean_partial (nesting : Nat) (name : String) (span : Span) :
    KeepsClean settings source
      (fun state => ⟨.inclusion name span, opened, nesting, scope, state⟩ ::
        ofPartial (parse settings) settings source inner below opened scope name state)
      (renderPartial (parse settings) settings source inner opened scope name) := by
  intro state clean loads
  obtain ⟨here, later⟩ := List.forall_mem_cons.1 loads
  cases source with
  | none => exact clean
  | some holder =>
      have loaded : Visit.loaded? (some holder) ⟨.inclusion name span, opened, nesting, scope, state⟩ =
          match loadPartial holder name state with
          | .ok found _ => found
          | .error _ _ => none := rfl
      unfold renderPartial
      refine clean_after ?_ ?_ later
      · intro error between ran
        exact clean_of_load_partial clean (by rw [ran]; rfl)
      · intro found between ran
        refine ⟨clean_of_load_partial clean (by rw [ran]; rfl), ?_⟩
        cases found with
        | none => exact keeps_clean_pure
        | some text =>
            have escaped := here text (by rw [loaded, ran])
            by_cases full : settings.partialLimit ≤ opened
            · simp only [if_pos full]
              exact fun _ clean _ => clean
            · simp only [if_neg full]
              apply keeps_clean_compile escaped
              intro nodes nodesEscaped
              apply keeps_clean_enter
              intro body among
              exact inside body among (opened + 1) scope nodes nodesEscaped

/-- A node that loads nothing is rendered as what is below its visit. -/
theorem keeps_clean_node (escapes : settings.escape = Escape.html) (nesting : Nat) {node : Node}
    (escaped : Node.AllEscaped [node]) :
    KeepsClean settings source
      (ofNode lookup (parse settings) settings source inner below nesting opened scope node)
      (renderNode lookup (parse settings) settings source inner opened scope node) := by
  have belowVisit {course : Course} {action : Rendering Unit}
      (keeps : KeepsClean settings source course action) :
      KeepsClean settings source
        (fun state => ⟨node, opened, nesting, scope, state⟩ :: course state) action := by
    intro state clean loads
    exact keeps state clean (List.forall_mem_cons.1 loads).2
  have childrenEscaped := escaped.under (List.mem_singleton_self node)
  cases node with
  | text content span =>
      obtain ⟨-, plain⟩ := escaped _ List.mem_cons_self
      exact belowVisit (keeps_clean_write (Escape.inert_of_not_marks (plain rfl)))
  | escaped name span =>
      have interpolates : KeepsClean settings source
          (after (lookup scope name) fun _ => Course.ended)
          (renderNode lookup (parse settings) settings source inner opened scope
            (.escaped name span)) := by
        apply keeps_clean_lookup
        intro value
        split
        · rw [escapes]
          exact keeps_clean_write_escaped value.display
        · exact keeps_clean_pure
      intro state clean _
      apply interpolates state clean
      intro visit among
      cases among
  | unescaped name span => exact absurd rfl (escaped _ List.mem_cons_self).1
  | sectionOf name children closing span =>
      exact belowVisit (keeps_clean_section inside opened scope name childrenEscaped)
  | invertedOf name children closing span =>
      exact belowVisit (keeps_clean_inverted inside opened scope name childrenEscaped)
  | inclusion name span => exact keeps_clean_partial inside opened scope nesting name span
  | comment content span | delimiters content span => exact belowVisit keeps_clean_pure

theorem keeps_clean_nodes (escapes : settings.escape = Escape.html) (nesting : Nat)
    {nodes : List Node} (escaped : Node.AllEscaped nodes) :
    KeepsClean settings source
      (ofNodes lookup (parse settings) settings source inner below nesting opened scope nodes)
      (renderNodes lookup (parse settings) settings source inner opened scope nodes) := by
  induction nodes with
  | nil => exact keeps_clean_pure
  | cons node rest ih =>
      obtain ⟨first, others⟩ := Node.all_escaped_cons.1 escaped
      exact keeps_clean_followed (keeps_clean_node inside opened scope escapes nesting first)
        (ih others)

omit inside

theorem run_keeps_clean (escapes : settings.escape = Escape.html) (room nesting opened scope : Nat)
    {nodes : List Node} (escaped : Node.AllEscaped nodes) :
    KeepsClean settings source (Course.ofRun settings source room nesting opened scope nodes)
      (run settings source room opened scope nodes) := by
  induction room generalizing nesting opened scope nodes with
  | zero =>
      apply keeps_clean_nodes _ opened scope escapes nesting escaped
      rintro body ⟨⟩
  | succ room ih =>
      apply keeps_clean_nodes _ opened scope escapes nesting escaped
      rintro body ⟨⟩
      exact fun opened scope nodes escaped => ih (nesting + 1) opened scope escaped

end Levels

end Rendering

namespace Session

/-- The visits of a render in a scope that exists already. -/
def visits (template : Template) (source : Option Partials) (scopes : Scopes) (scope : Nat)
    (session : Session) : List Visit :=
  Course.ofRun session.settings source nestingLimit 0 0 scope template.nodes
    ⟨.unbounded, scopes, session.journal, session.cache⟩

theorem render_in_state (template : Template) (source : Option Partials) (scopes : Scopes)
    (scope : Nat) (sink : Sink) (session : Session) :
    (session.renderIn template source scopes scope sink).2.1 =
      Rendering.behind (Rendering.run session.settings source nestingLimit 0 scope template.nodes
        ⟨sink, scopes, session.journal, session.cache⟩) := by
  unfold renderIn Rendering.run Rendering.runWith Rendering.parse
  dsimp only
  split <;> simp only [*, Rendering.behind]

theorem render_in_keeps_clean (session : Session)
    (coherent : session.cache.Coherent session.settings.delimiters)
    (escapes : session.settings.escape = Escape.html) {template : Template}
    (escaped : Node.AllEscaped template.nodes) {source : Option Partials} {scopes : Scopes}
    {scope : Nat}
    (loads : ∀ visit ∈ session.visits template source scopes scope,
      visit.LoadsEscaped session.settings source) :
    Escape.Inert
      (session.renderIn template source scopes scope .unbounded).2.1.sink.string.toList := by
  have start : RenderState.Clean session.settings
      ⟨.unbounded, scopes, session.journal, session.cache⟩ :=
    ⟨⟨"", rfl, Escape.inert_of_not_marks (by simp)⟩, coherent⟩
  have clean := Rendering.run_keeps_clean escapes nestingLimit 0 0 scope escaped _ start loads
  obtain ⟨text, holding, inert⟩ := clean.output
  rw [render_in_state, holding]
  exact inert

end Session

/-- Values cannot put markup into the output. Whatever a session has been used for, if it escapes
for HTML, and the template and the partials loaded along the way have everything interpolated
escaped and nothing in their texts that makes markup, then what is written makes none, in a render
that fails as well. -/
theorem escaped_output_makes_no_markup (registry : Registry) (operations : List Operation)
    {template : Template} (escaped : Node.AllEscaped template.nodes) (source : Option Partials) :
    let session := (Operation.performAll operations (.start registry)).2
    session.settings.escape = Escape.html →
      (∀ scopes scope,
        (∀ visit ∈ session.visits template source scopes scope,
          visit.LoadsEscaped session.settings source) →
        Escape.Inert
          (session.renderIn template source scopes scope .unbounded).2.1.sink.string.toList) ∧
      ∀ view value text, (view.toValue? session.registry).1 = .ok value →
        (∀ visit ∈ session.visits template source (.root value) 0,
          visit.LoadsEscaped session.settings source) →
        (session.render template view source).1 = .ok text → Escape.Inert text.toList := by
  intro session escapes
  have coherent := Operation.perform_all_coherent registry operations
  constructor
  · intro scopes scope loads
    exact session.render_in_keeps_clean coherent escapes escaped loads
  · intro view value text converts loads rendered
    cases conversion : view.toValue? session.registry with
    | mk result registry =>
        obtain rfl : result = .ok value := by rwa [conversion] at converts
        let converted : Session := { session with registry }
        let state := (converted.renderIn template source (.root value) 0 .unbounded).2.1
        have inert : Escape.Inert state.sink.string.toList :=
          converted.render_in_keeps_clean coherent escapes escaped loads
        unfold Session.render Session.renderInto at rendered
        simp only [conversion] at rendered
        change Except.map (fun _ => state.sink.string) _ = .ok text at rendered
        cases ended : (converted.renderIn template source (.root value) 0 .unbounded).1 with
        | error error =>
            rw [ended] at rendered
            cases rendered
        | ok finished =>
            rw [ended] at rendered
            cases rendered
            exact inert

theorem scripts_come_out_as_text :
    let session : Session := .start (.start "")
    let text := "\x7b\x7b#xs\x7d\x7d\x7b\x7b.\x7d\x7d\x7b\x7b/xs\x7d\x7d"
    let source : Option Partials := some (.ofList [("p", text)])
    let template : Template := ⟨"\x7b\x7bname\x7d\x7d: \x7b\x7b>p\x7d\x7d",
      [.escaped "name" ⟨0, 8⟩, .text ": " ⟨8, 10⟩, .inclusion "p" ⟨10, 16⟩]⟩
    let value : Value :=
      .map [("name", .text "<script>"), ("xs", .list [.text "a&b", .text "\x27"])]
    let output := "&lt;script&gt;: a&amp;b&#39;"
    Node.AllEscaped template.nodes ∧ session.settings.escape = Escape.html ∧
      ((Data.ready value).toValue? session.registry).1 = .ok value ∧
      (∀ visit ∈ session.visits template source (.root value) 0,
        visit.LoadsEscaped session.settings source) ∧
      (session.render template (.ready value) source).1 = .ok output ∧
      Escape.Inert output.toList := by
  intro session text source template value output
  have escaped : Node.AllEscaped template.nodes := by
    simp [Node.AllEscaped, Node.entriesOfAll, Node.entries, Node.leafListed, template, Escape.marks]
  have loads : ∀ visit, Visit.LoadsEscaped session.settings source visit := by
    intro visit found loaded nodes parses
    obtain ⟨name, answered⟩ := Visit.answered_of_loaded loaded
    obtain ⟨before, after, held, _⟩ := List.lookup_eq_some_iff.1 (Except.ok.inj answered)
    have among : (name, found) ∈ [("p", text)] := by simp [held]
    obtain ⟨rfl, rfl⟩ := Prod.mk.inj (List.mem_singleton.1 among)
    have compiles : Node.ofSource .braces text =
        .ok [.sectionOf "xs" [.escaped "." ⟨7, 12⟩] 12 ⟨0, 19⟩] := by cbv
    cases Except.ok.inj (compiles.symm.trans parses)
    simp [Node.AllEscaped, Node.entriesOfAll, Node.entries, Node.leafListed]
  have rendered : (session.render template (.ready value) source).1 = .ok output := by
    simp only [session, text, source, template, value, output]
    set_option maxRecDepth 2000 in cbv
  have converts := Data.ready_to_value value session.registry
  have safe := (escaped_output_makes_no_markup (.start "") [] escaped source rfl).2 (.ready value)
    value output converts (fun visit _ => loads visit) rendered
  exact ⟨escaped, rfl, converts, fun visit _ => loads visit, rendered, safe⟩

end Mustache
