import Mustache.Proofs.RememberedNames
import Mustache.Proofs.Visits

/-!
Sections and inverted sections of one name. They decide by different questions whether to evaluate
what they hold, and the answers fit: where the one evaluates nothing the other evaluates it once,
in the scope of its tag, and else not at all. It makes no difference which of the two comes first
and what comes between them, as long as the scope stays: the second goes by the value the first has
found, whatever the objects would answer by then.
-/

namespace Mustache

namespace Scopes

/-- The scopes are still there and remember what they did. -/
structure Recalls (start scopes : Scopes) : Prop where
  length : start.length ≤ scopes.length
  kept : ∀ {name number value}, start.remembered? name number = some value →
    scopes.remembered? name number = some value

theorem Recalls.refl (scopes : Scopes) : scopes.Recalls scopes := ⟨le_rfl, id⟩

theorem Recalls.trans {start between scopes : Scopes} (first : start.Recalls between)
    (second : between.Recalls scopes) : start.Recalls scopes :=
  ⟨first.length.trans second.length, fun known => second.kept (first.kept known)⟩

theorem recalls_lookup (name : String) (scopes : Scopes) (number : Nat) (journal : Journal) :
    scopes.Recalls (scopes.lookup name number journal).2.1 :=
  ⟨(length_lookup name scopes number journal).ge,
    fun known => lookup_keeps_remembered known number journal⟩

theorem remembered_push {name : String} {scopes : Scopes} {number : Nat} {value : Value}
    (known : scopes.remembered? name number = some value) (scope : Scope) :
    remembered? name (scope :: scopes) number = some value := by
  have below := lt_length_of_remembered known
  rw [remembered_cons, if_neg (by omega), known]

/-- A new scope remembers nothing. -/
theorem remembered_of_push {name : String} {scopes : Scopes} {parent number : Nat}
    {view value : Value} (known : (scopes.push parent view).remembered? name number = some value) :
    scopes.remembered? name number = some value := by
  rw [push, remembered_cons] at known
  split at known
  · cases known
  · exact known

theorem recalls_push (scopes : Scopes) (parent : Nat) (view : Value) :
    scopes.Recalls (scopes.push parent view) :=
  ⟨Nat.le_succ _, fun known => remembered_push known _⟩

/-- When the newest scope is left, the scopes that were there before it are still there. -/
theorem Recalls.tail {start scopes : Scopes} (recalls : start.Recalls scopes)
    (inner : start.length < scopes.length) : start.Recalls scopes.tail := by
  cases scopes with
  | nil => cases inner
  | cons newest older =>
      rw [List.length_cons] at inner
      have length : start.length ≤ older.length := Nat.le_of_lt_succ inner
      refine ⟨length, fun known => ?_⟩
      have below := lt_length_of_remembered known
      have kept := recalls.kept known
      rwa [remembered_cons, if_neg (by omega)] at kept

end Scopes

namespace Rendering

theorem lockstep_lookup_recalling {start : Scopes} (scope : Nat) (name : String) :
    Lockstep (Together (Same start.Recalls)) Eq (lookup scope name) (lookup scope name) := by
  intro state other states
  cases eq_of_same states
  have looked := Scopes.recalls_lookup name state.scopes scope state.journal
  exact .ok rfl ⟨rfl, rfl, rfl, states.fits.2.trans looked⟩

theorem lockstep_within_recalling {start : Scopes} (parent : Nat) (view : Value)
    {body other : Nat → Rendering Unit}
    (inside : ∀ start scope, Lockstep (Together (Same (Scopes.Recalls start))) Eq (body scope)
      (other scope)) :
    Lockstep (Together (Same start.Recalls)) Eq (within parent view body)
      (within parent view other) := by
  apply lockstep_within_same _ _ (inside (start.push parent view))
  · intro scopes recalls
    exact ⟨Nat.succ_le_succ recalls.length, fun known =>
      Scopes.remembered_push (recalls.kept (Scopes.remembered_of_push known)) _⟩
  · intro scopes recalls
    have pushed := (Scopes.recalls_push start parent view).trans recalls
    exact pushed.tail (Nat.lt_of_succ_le recalls.length)

def recallingSimulation (settings : Settings) (source : Option Partials) :
    Simulation settings source lookup lookup (parse settings) (parse settings) where
  permits _ := True
  serves _ := True
  linked := Eq
  relates results first second :=
    ∀ start, Lockstep (Together (Same (Scopes.Recalls start))) results first second
  children_permitted _ _ _ := trivial
  linking := Value.linking_eq
  pure_related related _ := lockstep_pure related
  throw_related _ error _ := lockstep_throw error
  bind_related begins goesOn start :=
    lockstep_bind (begins start) fun one other related => goesOn one other related start
  text_related _ _ := lockstep_write _
  escaped_related linked _ := by
    rw [linked]
    exact lockstep_write_escaped _
  unescaped_related _ linked _ := by
    rw [linked]
    exact lockstep_write _
  find_related _ _ scope _ := lockstep_lookup_recalling scope _
  load_related _ _ _ := by simpa using lockstep_load_same _ _
  parse_related _ _ := by simpa using lockstep_parse settings _
  within_related parent linked inside _ := by
    rw [← linked]
    exact lockstep_within_recalling parent _ fun start scope => inside scope start

variable (settings : Settings) (source : Option Partials)

/-- What sections are rendered with so many levels down; at the limit there is nothing. -/
def inner? (nesting : Nat) : Option Body :=
  match nestingLimit - nesting with
  | 0 => none
  | room + 1 => some (run settings source room)

/-- Renders a tag that is nested so deep. -/
def renderTag (nesting opened scope : Nat) (tag : Node) : Rendering Unit :=
  renderNode lookup (parse settings) settings source (inner? settings source nesting) opened scope
    tag

theorem recalls_of_lockstep {action : Rendering Unit} {state : RenderState}
    (steps : ∀ start, Lockstep (Together (Same (Scopes.Recalls start))) Eq action action) :
    state.scopes.Recalls (behind (action state)).scopes := by
  have ran := steps state.scopes state state ⟨rfl, rfl, rfl, Scopes.Recalls.refl _⟩
  generalize action state = finished at ran ⊢
  cases ran with
  | ok _ states => exact states.fits.2
  | error _ states => exact states.fits.2

theorem run_recalls (room opened scope : Nat) (nodes : List Node) (state : RenderState) :
    state.scopes.Recalls (behind (run settings source room opened scope nodes state)).scopes :=
  recalls_of_lockstep
    ((recallingSimulation settings source).run_related room opened scope nodes fun _ _ => trivial)

theorem tag_recalls (nesting opened scope : Nat) (tag : Node) (state : RenderState) :
    state.scopes.Recalls
      (behind (renderTag settings source nesting opened scope tag state)).scopes := by
  let sim := recallingSimulation settings source
  have inside : Option.Rel sim.Bodies (inner? settings source nesting)
      (inner? settings source nesting) := by
    unfold inner?
    split
    · exact .none
    · exact .some (sim.run_related _)
  exact recalls_of_lockstep (sim.node_related inside opened scope trivial)

end Rendering

namespace Scopes

/-- Scopes that others have become: scopes were opened, names looked up, templates rendered, and
scopes left again that were not there at the beginning. What objects have been asked otherwise is
open each time. -/
inductive Continued (begun : Scopes) : Scopes → Prop
  | begin : Continued begun begun
  | push {scopes : Scopes} (continued : Continued begun scopes) (parent : Nat) (view : Value) :
      Continued begun (scopes.push parent view)
  | lookup {scopes : Scopes} (continued : Continued begun scopes) (name : String) (number : Nat)
      (journal : Journal) : Continued begun (scopes.lookup name number journal).2.1
  | render {scopes : Scopes} (continued : Continued begun scopes) (settings : Settings)
      (source : Option Partials) (room opened number : Nat) (nodes : List Node) (sink : Sink)
      (journal : Journal) (cache : Cache) :
      Continued begun (Rendering.behind (Rendering.run settings source room opened number nodes
        ⟨sink, scopes, journal, cache⟩)).scopes
  | leave {scopes : Scopes} (continued : Continued begun scopes)
      (inner : begun.length < scopes.length) : Continued begun scopes.tail

theorem recalls_of_continued {begun scopes : Scopes} (continued : begun.Continued scopes) :
    begun.Recalls scopes := by
  induction continued with
  | begin => exact .refl begun
  | push _ parent view ih => exact ih.trans (recalls_push _ parent view)
  | lookup _ name number journal ih => exact ih.trans (recalls_lookup name _ number journal)
  | render _ settings source room opened number nodes sink journal cache ih =>
      exact ih.trans (Rendering.run_recalls settings source room opened number nodes
        ⟨sink, _, journal, cache⟩)
  | leave _ inner ih => exact ih.tail inner

end Scopes

namespace RenderState

/-- The value that a lookup from the state finds. -/
def found (name : String) (scope : Nat) (state : RenderState) : Value :=
  (state.scopes.lookup name scope state.journal).1

/-- The state behind the lookup. -/
def looked (name : String) (scope : Nat) (state : RenderState) : RenderState :=
  let (_, scopes, journal) := state.scopes.lookup name scope state.journal
  { state with scopes, journal }

variable {name : String} {scope : Nat} {state : RenderState}

theorem looked_remembers (inside : scope < state.scopes.length) :
    (state.looked name scope).scopes.remembered? name scope = some (state.found name scope) :=
  Scopes.lookup_remembers inside state.journal

theorem found_of_remembered {value : Value}
    (known : state.scopes.remembered? name scope = some value) :
    state.found name scope = value ∧ state.looked name scope = state := by
  have answered := (Scopes.lookup_of_remembered known state.journal).1
  simp only [found, looked, answered, and_self]

end RenderState

namespace Rendering

variable {name : String} {scope : Nat} {state : RenderState}

theorem bind_lookup {α : Type} (next : Value → Rendering α) :
    (lookup scope name >>= next) state = next (state.found name scope) (state.looked name scope) :=
  rfl

/-- A tag that begins with a lookup does the same when the lookup has been made before. -/
theorem bind_lookup_again {α : Type} (inside : scope < state.scopes.length)
    (next : Value → Rendering α) :
    (lookup scope name >>= next) (state.looked name scope) =
      (lookup scope name >>= next) state := by
  have remembered : (state.looked name scope).scopes.remembered? name scope =
      some (state.found name scope) := RenderState.looked_remembers inside
  obtain ⟨sameValue, sameState⟩ := RenderState.found_of_remembered remembered
  rw [bind_lookup, bind_lookup, sameValue, sameState]

end Rendering

/-- A value for which a section has nothing to evaluate. -/
def Value.idle (value : Value) : Bool := !value.isTrue || value.isEmptyList

/-- A list is empty if it has no items to go through, for an object also if it names none. -/
theorem Value.is_empty_list_iff {value : Value} :
    value.isEmptyList = true ↔ value.isList = true ∧ value.items?.getD [] = [] := by
  cases value with
  | list items => simp [isEmptyList, isList, items?]
  | object entity =>
      obtain ⟨id, role, answer, items, shown, inspected⟩ := entity
      by_cases listed : role = .listed
      · cases items <;> simp [isEmptyList, isList, items?, listed]
      · simp [isEmptyList, isList, listed]
  | _ => simp [isEmptyList, isList]

namespace Course

open Rendering

/-- One evaluation of what the tag holds. -/
def once (tag : Node) (nesting : Nat) : BodyCourse := fun opened scope _ state =>
  [⟨tag, opened, nesting, scope, state⟩]

section Performs

variable (body : Body) (tag : Node) (children : List Node) (nesting opened scope : Nat)

/-- Evaluations of what a tag holds, and what they come to from the state they begin with: each is
a run of the body, in the scope as it is, or in a new scope that is left behind it for the next
one. There is no evaluation behind one that fails. -/
inductive Performs : RenderState → List Visit → EStateM.Result Error RenderState Unit → Prop
  | nothing (state : RenderState) : Performs state [] (.ok () state)
  | here (state : RenderState) :
      Performs state (once tag nesting opened scope children state)
        (body opened scope children state)
  | inside (view : Value) (state : RenderState) :
      Performs state
        (within scope view (fun child => once tag nesting opened child children) state)
        (Rendering.within scope view (fun child => body opened child children) state)
  | next (view : Value) {state between : RenderState} {visits : List Visit}
      {result : EStateM.Result Error RenderState Unit}
      (ran : Rendering.within scope view (fun child => body opened child children) state =
        .ok () between)
      (rest : Performs between visits result) :
      Performs state
        (within scope view (fun child => once tag nesting opened child children) state ++ visits)
        result

variable {body tag children nesting opened scope}

theorem performs_items (items : List Value) (state : RenderState) :
    Performs body tag children nesting opened scope state
      (ofItems scope (fun child => body opened child children)
        (fun child => once tag nesting opened child children) items state)
      (renderItems scope (fun child => body opened child children) items state) := by
  induction items generalizing state with
  | nil => exact .nothing state
  | cons item rest ih =>
      rw [ofItems, followed, after, renderItems, bind_apply]
      cases ran : Rendering.within scope item (fun child => body opened child children) state with
      | ok _ between => exact .next item ran (ih between)
      | error error behind =>
          have failed : Performs body tag children nesting opened scope state _ _ :=
            .inside item state
          rw [ran] at failed
          simpa using failed

theorem Performs.eq_of_none {state : RenderState}
    {result : EStateM.Result Error RenderState Unit}
    (performs : Performs body tag children nesting opened scope state [] result) :
    result = .ok () state := by
  generalize none : ([] : List Visit) = visits at performs
  cases performs with
  | nothing => rfl
  | here | inside => cases none
  | next => cases none

end Performs

section Evaluations

variable (settings : Settings) (source : Option Partials) (nesting opened scope : Nat)

/-- The evaluations of what a section or an inverted section holds, in order, each with the scope
and the state it starts from. -/
def evaluations (tag : Node) : Course :=
  match tag with
  | .sectionOf name children _ _ =>
      ofSection lookup settings (inner? settings source nesting) (once tag (nesting + 1)) opened
        scope name children
  | .invertedOf name children _ _ =>
      ofInverted lookup (inner? settings source nesting) (once tag (nesting + 1)) opened scope name
        children
  | .text _ _ | .escaped _ _ | .unescaped _ _ | .inclusion _ _ | .comment _ _ | .delimiters _ _ =>
      ended

variable {settings source nesting}

theorem exists_inner (shallow : nesting < nestingLimit) :
    ∃ body, inner? settings source nesting = some body := by
  obtain ⟨room, same⟩ := Nat.exists_eq_succ_of_ne_zero (Nat.sub_ne_zero_of_lt shallow)
  exact ⟨run settings source room, by rw [inner?, same]⟩

theorem after_lookup (name : String) (scope : Nat) (next : Value → Course) (state : RenderState) :
    after (lookup scope name) next state =
      next (state.found name scope) (state.looked name scope) := rfl

theorem after_enter (body : Body) (next : Body → Course) (state : RenderState) :
    after (enter (some body)) next state = next body state := rfl

variable {opened scope} {name : String} {children : List Node} {closing : Nat} {span : Span}
  {state : RenderState}

theorem evaluations_of_inverted (shallow : nesting < nestingLimit) :
    let tag := Node.invertedOf name children closing span
    evaluations settings source nesting opened scope tag state =
      if (state.found name scope).idle then
        [⟨tag, opened, nesting + 1, scope, state.looked name scope⟩]
      else [] := by
  intro tag
  obtain ⟨body, inside⟩ : ∃ body, inner? settings source nesting = some body :=
    exists_inner shallow
  simp only [tag, evaluations, ofInverted, after_lookup, inside]
  split
  next idle => exact (if_pos idle).symm
  next busy => exact (if_neg busy).symm

theorem evaluations_of_section (shallow : nesting < nestingLimit) :
    evaluations settings source nesting opened scope (.sectionOf name children closing span)
        state = [] ↔
      (state.found name scope).idle = true := by
  obtain ⟨body, inside⟩ : ∃ body, inner? settings source nesting = some body :=
    exists_inner shallow
  simp only [evaluations, ofSection, after_lookup, inside, Value.idle, Bool.or_eq_true,
    Bool.not_eq_true', Value.is_empty_list_iff]
  generalize state.found name scope = value
  split
  next holds =>
    simp only [after_enter, holds]
    split
    next list =>
      simp only [list]
      cases value.items?.getD [] <;> simp [ofItems, ended, followed, within, once]
    next single =>
      simp only [single]
      split <;> simp [within, once]
  next fails => simp [ended, fails]

/-- A section is rendered as the evaluations of what it holds come to, behind the lookup. -/
theorem performs_section {body : Body} (inside : inner? settings source nesting = some body) :
    let tag := Node.sectionOf name children closing span
    Performs body tag children (nesting + 1) opened scope (state.looked name scope)
      (evaluations settings source nesting opened scope tag state)
      (renderTag settings source nesting opened scope tag state) := by
  intro tag
  simp only [tag, evaluations, ofSection, after_lookup, renderTag, renderNode, renderSection,
    bind_lookup, inside]
  generalize state.found name scope = value, state.looked name scope = behind
  cases value.isTrue with
  | false => exact .nothing behind
  | true =>
      cases value.isList with
      | true => exact performs_items _ behind
      | false =>
          cases settings.opensObjectScopes with
          | true => exact .inside value behind
          | false => exact .here behind

/-- An inverted section is rendered as what it evaluates is, and else only looks its name up. -/
theorem render_inverted {body : Body} (inside : inner? settings source nesting = some body)
    (shallow : nesting < nestingLimit) :
    let tag := Node.invertedOf name children closing span
    renderTag settings source nesting opened scope tag state =
      match evaluations settings source nesting opened scope tag state with
      | [] => .ok () (state.looked name scope)
      | visit :: _ => body visit.opened visit.scope children visit.state := by
  intro tag
  rw [evaluations_of_inverted shallow, renderTag, renderNode, renderInverted, bind_lookup, inside]
  cases idle : (state.found name scope).idle with
  | true | false =>
      rw [Value.idle] at idle
      rw [idle]
      rfl

end Evaluations

end Course

section Context

open Rendering

variable (settings : Settings) (source : Option Partials) (nesting opened scope : Nat)

/-- The states that two tags are rendered from in the scope: one state for both, or that of the
second behind the first, with what came of the scopes meanwhile and whatever the objects have been
asked. The left state is that of the left tag. -/
inductive SameContext (left right : Node) : RenderState → RenderState → Prop
  | together (state : RenderState) : SameContext left right state state
  | leftFirst {state later : RenderState} (inside : scope < state.scopes.length)
      (continued : (behind (renderTag settings source nesting opened scope left
        state)).scopes.Continued later.scopes) : SameContext left right state later
  | rightFirst {state later : RenderState} (inside : scope < state.scopes.length)
      (continued : (behind (renderTag settings source nesting opened scope right
        state)).scopes.Continued later.scopes) : SameContext left right later state

variable {settings source nesting opened scope} {name : String}

/-- Behind a tag that asks for a name, the name has the value the tag has found. -/
theorem found_behind_tag {tag : Node} (asks : tag.asks? = some name) {state later : RenderState}
    (inside : scope < state.scopes.length)
    (continued : (behind (renderTag settings source nesting opened scope tag
      state)).scopes.Continued later.scopes) :
    later.found name scope = state.found name scope := by
  have again : renderTag settings source nesting opened scope tag (state.looked name scope) =
      renderTag settings source nesting opened scope tag state := by
    cases tag with
    | escaped | unescaped | sectionOf | invertedOf =>
        cases asks
        exact bind_lookup_again inside _
    | _ => cases asks
  have rendered := tag_recalls settings source nesting opened scope tag (state.looked name scope)
  rw [again] at rendered
  have recalls := rendered.trans (Scopes.recalls_of_continued continued)
  exact (RenderState.found_of_remembered
    (recalls.kept (RenderState.looked_remembers inside))).1

theorem SameContext.found_eq {left right : Node} (asks : left.asks? = some name)
    (rightAsks : right.asks? = some name) {first second : RenderState}
    (context : SameContext settings source nesting opened scope left right first second) :
    second.found name scope = first.found name scope := by
  cases context with
  | together => rfl
  | leftFirst inside continued => exact found_behind_tag asks inside continued
  | rightFirst inside continued => exact (found_behind_tag rightAsks inside continued).symm

/-- A section and an inverted section of one name, in one context and less deep than the limit:
the inverted section evaluates what it holds once, in the scope as it is, exactly if the section
evaluates it not at all, and otherwise not at all. These are the evaluations the tags are rendered
by: behind the lookup, the section is rendered as its evaluations come to one after the other, and
the inverted section as its only one. A tag that evaluates nothing only looks its name up. -/
theorem inverted_section_is_the_complement (shallow : nesting < nestingLimit)
    (children : List Node) (closing other : Nat) (span otherSpan : Span)
    {first second : RenderState}
    (context : SameContext settings source nesting opened scope
      (.sectionOf name children closing span) (.invertedOf name children other otherSpan)
      first second) :
    let plain := Node.sectionOf name children closing span
    let inverted := Node.invertedOf name children other otherSpan
    let times := Course.evaluations settings source nesting opened scope
    let rendered := renderTag settings source nesting opened scope
    (times inverted second =
        [⟨inverted, opened, nesting + 1, scope, second.looked name scope⟩] ↔
      times plain first = []) ∧
    (times plain first ≠ [] → times inverted second = []) ∧
    (times plain first = [] → rendered plain first = .ok () (first.looked name scope)) ∧
    ∃ body, inner? settings source nesting = some body ∧
      Course.Performs body plain children (nesting + 1) opened scope (first.looked name scope)
        (times plain first) (rendered plain first) ∧
      rendered inverted second =
        match times inverted second with
        | [] => .ok () (second.looked name scope)
        | visit :: _ => body visit.opened visit.scope children visit.state := by
  intro plain inverted times rendered
  have sameValue := context.found_eq rfl rfl
  have never : times plain first = [] ↔ (first.found name scope).idle = true :=
    Course.evaluations_of_section shallow
  have decided : times inverted second = if (second.found name scope).idle then
      [⟨inverted, opened, nesting + 1, scope, second.looked name scope⟩] else [] :=
    Course.evaluations_of_inverted shallow
  have complement : (times inverted second =
        [⟨inverted, opened, nesting + 1, scope, second.looked name scope⟩] ↔
      times plain first = []) ∧ (times plain first ≠ [] → times inverted second = []) := by
    rw [decided, never, sameValue]
    cases idle : (first.found name scope).idle with
    | true =>
        have nothing := never.2 idle
        simp [nothing]
    | false => simp
  obtain ⟨body, inside⟩ : ∃ body, inner? settings source nesting = some body :=
    Course.exists_inner shallow
  have performs : Course.Performs body plain children (nesting + 1) opened scope
      (first.looked name scope) (times plain first) (rendered plain first) :=
    Course.performs_section inside
  refine ⟨complement.1, complement.2, fun nothing => ?_, body, inside, performs,
    Course.render_inverted inside shallow⟩
  rw [nothing] at performs
  exact performs.eq_of_none

end Context

/-- The object has an empty list when the section asks for it, and would have something true when
the inverted section does, behind a scope that was opened and left. The inverted section goes by
the list. -/
theorem fickle_list_is_empty_for_both :
    let answer (history : List String) (key : String) : Option Value :=
      if key = "n" then some (if history = [] then .list [] else .bool true) else none
    let fickle : Value := .object ⟨1, .keyed, answer, none, none, "Fickle"⟩
    let plain := Node.sectionOf "n" [.text "none" ⟨6, 10⟩] 10 ⟨0, 16⟩
    let inverted := Node.invertedOf "n" [.text "none" ⟨6, 10⟩] 26 ⟨16, 32⟩
    let first : RenderState := ⟨.unbounded, Scopes.root fickle, [], []⟩
    let middle := Rendering.behind (Rendering.renderTag {} none 0 0 0 plain first)
    let second : RenderState := { middle with scopes := (middle.scopes.push 0 (.text "a")).tail }
    let times := Course.evaluations {} none 0 0 0
    0 < nestingLimit ∧ SameContext {} none 0 0 0 plain inverted first second ∧
      (fickle.member "n" second.journal).1 = some (.bool true) ∧
      times plain first = [] ∧
      times inverted second = [⟨inverted, 0, 1, 0, second.looked "n" 0⟩] := by
  intro answer fickle plain inverted first middle second times
  have shallow : 0 < nestingLimit := by decide
  have context : SameContext {} none 0 0 0 plain inverted first second :=
    .leftFirst (by decide) (.leave (.push .begin 0 (.text "a")) (Nat.lt_succ_self _))
  have now : (fickle.member "n" second.journal).1 = some (.bool true) := by cbv
  have never : times plain first = [] := by cbv
  have complement := inverted_section_is_the_complement shallow _ _ _ _ _ context
  exact ⟨shallow, context, now, never, complement.1.2 never⟩

end Mustache
