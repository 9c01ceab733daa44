import Mathlib
import Mustache.Rendering

/-!
The nodes a render comes to, in the order in which it comes to them. Each visit tells how many
partials are open, how many sections and partials the node is nested in, and the state the node
is rendered from. Nothing is visited behind an error.
-/

namespace Mustache

structure Visit where
  node : Node
  opened : Nat
  nesting : Nat
  scope : Nat
  state : RenderState

/-- The visits of a piece of a render, by the state it starts from. -/
abbrev Course := RenderState → List Visit

/-- The visits of a body. -/
abbrev BodyCourse := Nat → Nat → List Node → Course

namespace Course

open Rendering

def ended : Course := fun _ => []

/-- The visits of what follows an action that has none of its own. -/
def after {α : Type} (action : Rendering α) (next : α → Course) : Course := fun state =>
  match action state with
  | .ok value behind => next value behind
  | .error _ _ => []

/-- The visits of an action, then those of what follows it. -/
def followed (course : Course) (action : Rendering Unit) (next : Course) : Course := fun state =>
  course state ++ after action (fun _ => next) state

def within (parent : Nat) (view : Value) (course : Nat → Course) : Course := fun state =>
  course state.scopes.length { state with scopes := state.scopes.push parent view }

def ofItems (scope : Nat) (body : Nat → Rendering Unit) (course : Nat → Course) :
    List Value → Course
  | [] => ended
  | item :: rest =>
      followed (within scope item course) (Rendering.within scope item body)
        (ofItems scope body course rest)

section Nodes

variable (find : Lookup) (compile : Compile) (settings : Settings) (source : Option Partials)

def ofSection (inner : Option Body) (below : BodyCourse) (opened scope : Nat) (name : String)
    (children : List Node) : Course :=
  after (find scope name) fun value =>
    if value.isTrue then
      after (enter inner) fun body =>
        if value.isList then
          ofItems scope (fun child => body opened child children)
            (fun child => below opened child children) (value.items?.getD [])
        else if settings.opensObjectScopes then
          within scope value fun child => below opened child children
        else below opened scope children
    else ended

def ofInverted (inner : Option Body) (below : BodyCourse) (opened scope : Nat) (name : String)
    (children : List Node) : Course :=
  after (find scope name) fun value =>
    if !value.isTrue || value.isEmptyList then
      after (enter inner) fun _ => below opened scope children
    else ended

def ofPartial (inner : Option Body) (below : BodyCourse) (opened scope : Nat) (name : String) :
    Course :=
  match source with
  | none => ended
  | some source =>
      after (loadPartial source name) fun found =>
        match found with
        | none => ended
        | some text =>
            if settings.partialLimit ≤ opened then ended
            else
              after (compile text) fun nodes =>
                after (enter inner) fun _ => below (opened + 1) scope nodes

/-- The visit to a node itself, then the visits below it. -/
def ofNode (inner : Option Body) (below : BodyCourse) (nesting opened scope : Nat) (node : Node) :
    Course := fun state =>
  ⟨node, opened, nesting, scope, state⟩ ::
    match node with
    | .sectionOf name children _ _ =>
        ofSection find settings inner below opened scope name children state
    | .invertedOf name children _ _ => ofInverted find inner below opened scope name children state
    | .inclusion name _ => ofPartial compile settings source inner below opened scope name state
    | .text _ _ | .escaped _ _ | .unescaped _ _ | .comment _ _ | .delimiters _ _ => []

def ofNodes (inner : Option Body) (below : BodyCourse) (nesting opened scope : Nat) :
    List Node → Course
  | [] => ended
  | node :: rest =>
      followed (ofNode find compile settings source inner below nesting opened scope node)
        (renderNode find compile settings source inner opened scope node)
        (ofNodes inner below nesting opened scope rest)

/-- The visits of a run that starts nested as deep as told. -/
def ofRunBy : (room nesting : Nat) → BodyCourse
  | 0, nesting => ofNodes find compile settings source none (fun _ _ _ => ended) nesting
  | room + 1, nesting =>
      ofNodes find compile settings source (some (runBy find compile settings source room))
        (ofRunBy room (nesting + 1)) nesting

end Nodes

def ofRun (settings : Settings) (source : Option Partials) (room nesting : Nat) : BodyCourse :=
  ofRunBy lookup (parse settings) settings source room nesting

/-- All visits are of a kind, whatever state the course starts from. -/
def Holds (course : Course) (kind : Visit → Prop) : Prop :=
  ∀ state, ∀ visit ∈ course state, kind visit

section Holds

variable {kind : Visit → Prop}

theorem holds_ended : ended.Holds kind := by
  intro state visit among
  cases among

theorem holds_after {α : Type} {action : Rendering α} {next : α → Course}
    (nextHolds : ∀ value, (next value).Holds kind) : (after action next).Holds kind := by
  intro state
  simp only [after]
  cases action state with
  | ok value behind => exact nextHolds value behind
  | error error behind => simp

theorem holds_followed {course next : Course} {action : Rendering Unit}
    (holds : course.Holds kind) (nextHolds : next.Holds kind) :
    (followed course action next).Holds kind := by
  intro state visit among
  rcases List.mem_append.1 among with inside | behind
  · exact holds state visit inside
  · exact holds_after (fun _ => nextHolds) state visit behind

theorem holds_within {parent : Nat} {view : Value} {course : Nat → Course}
    (holds : ∀ scope, (course scope).Holds kind) : (within parent view course).Holds kind :=
  fun _ => holds _ _

theorem holds_items {scope : Nat} {body : Nat → Rendering Unit} {course : Nat → Course}
    (holds : ∀ child, (course child).Holds kind) (items : List Value) :
    (ofItems scope body course items).Holds kind := by
  induction items with
  | nil => exact holds_ended
  | cons item rest ih => exact holds_followed (holds_within holds) ih

variable {find : Lookup} {compile : Compile} {settings : Settings} {source : Option Partials}
  {inner : Option Body} {below : BodyCourse} {nesting opened scope : Nat}

theorem holds_section (inside : ∀ child nodes, (below opened child nodes).Holds kind)
    (name : String) (children : List Node) :
    (ofSection find settings inner below opened scope name children).Holds kind := by
  apply holds_after
  intro value
  split
  · apply holds_after
    intro body
    split
    · exact holds_items (fun child => inside child children) _
    · split
      · exact holds_within fun child => inside child children
      · exact inside scope children
  · exact holds_ended

theorem holds_inverted (inside : ∀ child nodes, (below opened child nodes).Holds kind)
    (name : String) (children : List Node) :
    (ofInverted find inner below opened scope name children).Holds kind := by
  apply holds_after
  intro value
  split
  · exact holds_after fun _ => inside scope children
  · exact holds_ended

theorem holds_partial (inside : opened < settings.partialLimit →
      ∀ child nodes, (below (opened + 1) child nodes).Holds kind) (name : String) :
    (ofPartial compile settings source inner below opened scope name).Holds kind := by
  unfold ofPartial
  cases source with
  | none => exact holds_ended
  | some source =>
      apply holds_after
      intro found
      cases found with
      | none => exact holds_ended
      | some text =>
          dsimp only
          split
          · exact holds_ended
          next belowLimit =>
            apply holds_after
            intro nodes
            exact holds_after fun _ => inside (not_le.1 belowLimit) scope nodes

theorem holds_nodes (here : ∀ node state, kind ⟨node, opened, nesting, scope, state⟩)
    (inside : ∀ child nodes, (below opened child nodes).Holds kind)
    (insidePartial : opened < settings.partialLimit →
      ∀ child nodes, (below (opened + 1) child nodes).Holds kind) (nodes : List Node) :
    (ofNodes find compile settings source inner below nesting opened scope nodes).Holds kind := by
  induction nodes with
  | nil => exact holds_ended
  | cons node rest ih =>
      apply holds_followed _ ih
      intro state visit among
      rcases List.mem_cons.1 among with rfl | deeper
      · exact here node state
      · cases node with
        | sectionOf name children _ _ => exact holds_section inside name children state visit deeper
        | invertedOf name children _ _ =>
            exact holds_inverted inside name children state visit deeper
        | inclusion name _ => exact holds_partial insidePartial name state visit deeper
        | _ => cases deeper

end Holds

section Counts

variable {find : Lookup} {compile : Compile} {settings : Settings} {source : Option Partials}

/-- What is true of the counts where a run starts, and stays true on the way into a section or
into a partial that the limit lets through, is true of the counts at every visit. -/
theorem of_run_by_counts {counts : (room nesting opened : Nat) → Prop}
    (intoSection : ∀ {room nesting opened}, counts (room + 1) nesting opened →
      counts room (nesting + 1) opened)
    (intoPartial : ∀ {room nesting opened}, counts (room + 1) nesting opened →
      opened < settings.partialLimit → counts room (nesting + 1) (opened + 1))
    {room nesting opened : Nat} (start : counts room nesting opened) (scope : Nat)
    (nodes : List Node) :
    (ofRunBy find compile settings source room nesting opened scope nodes).Holds
      fun visit => ∃ room, counts room visit.nesting visit.opened := by
  induction room generalizing nesting opened scope nodes with
  | zero =>
      rw [ofRunBy]
      apply holds_nodes
      · exact fun _ _ => ⟨0, start⟩
      · exact fun _ _ => holds_ended
      · exact fun _ _ _ => holds_ended
  | succ room ih =>
      rw [ofRunBy]
      apply holds_nodes
      · exact fun _ _ => ⟨room + 1, start⟩
      · exact ih (intoSection start)
      · exact fun letThrough => ih (intoPartial start letThrough)

/-- A render visits nodes no deeper than there is room for, and partials open one by one. -/
theorem of_run_bounded (scope : Nat) (nodes : List Node) (state : RenderState) :
    ∀ visit ∈ ofRun settings source nestingLimit 0 0 scope nodes state,
      visit.opened ≤ visit.nesting ∧ visit.nesting ≤ nestingLimit ∧
        visit.opened ≤ settings.partialLimit := by
  let counts (room nesting opened : Nat) : Prop :=
    nesting + room = nestingLimit ∧ opened ≤ nesting ∧ opened ≤ settings.partialLimit
  have intoSection {room nesting opened : Nat} (here : counts (room + 1) nesting opened) :
      counts room (nesting + 1) opened := by
    simp only [counts] at here ⊢
    omega
  have intoPartial {room nesting opened : Nat} (here : counts (room + 1) nesting opened)
      (letThrough : opened < settings.partialLimit) :
      counts room (nesting + 1) (opened + 1) := by
    simp only [counts] at here ⊢
    omega
  have start : counts nestingLimit 0 0 := by simp [counts]
  intro visit among
  obtain ⟨room, held⟩ := of_run_by_counts intoSection intoPartial start scope nodes state visit
    among
  simp only [counts] at held
  omega

end Counts

end Course

end Mustache
