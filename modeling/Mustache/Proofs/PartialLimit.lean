import Mustache.Proofs.Visits

/-!
What the limit of partials does to a render. A render under a lower limit goes along with the one
under a higher limit up to the first partial that exists and is asked for with as many partials
open as the lower limit permits; there it fails. If there is no such partial, the two are the
same. The same comparison tells what becomes of a render that has more room and fewer partials
open from the start.
-/

namespace Mustache

/-- The partial that is asked for at a visit, if it exists, and the state once it is loaded. -/
def Visit.asked? (source : Option Partials) (visit : Visit) : Option (String × RenderState) :=
  match visit.node, source with
  | .inclusion name _, some source =>
      match Rendering.loadPartial source name visit.state with
      | .ok (some _) behind => some (name, behind)
      | _ => none
  | _, _ => none

/-- The same for a visit with as many partials open as a limit permits. -/
def Visit.refused? (source : Option Partials) (limit : Nat) (visit : Visit) :
    Option (String × RenderState) :=
  if visit.opened = limit then visit.asked? source else none

namespace Rendering

open Course (after followed ended ofItems ofSection ofInverted ofPartial ofNode ofNodes ofRunBy)

/-- How a result under a limit comes out beside a result without, given the first partial that
the limit refuses. Where room may be short, it may also have run out. -/
inductive Cut {α : Type} (short : Prop) : Option (String × RenderState) →
    EStateM.Result Error RenderState α → EStateM.Result Error RenderState α → Prop
  | whole (result) : Cut short none result result
  | refused (name : String) (asked : RenderState) (scopes : Scopes) (result) :
      Cut short (some (name, asked)) (.error (partialsTooDeep name) { asked with scopes }) result
  | nested (isShort : short) (refused) (state : RenderState) (result) :
      Cut short refused (.error nestedTooDeep state) result

/-- The first action does what the second does up to the first refused partial of its course. -/
def CutBy (source : Option Partials) (limit : Nat) (short : Prop) {α : Type} (course : Course)
    (first second : Rendering α) : Prop :=
  ∀ state, Cut short ((course state).findSome? (·.refused? source limit)) (first state)
    (second state)

section Steps

variable {source : Option Partials} {limit : Nat} {short : Prop} {α β : Type}

theorem cut_by_same (action : Rendering α) : CutBy source limit short ended action action :=
  fun _ => .whole _

theorem cut_by_after (action : Rendering α) {next : α → Course} {first second : α → Rendering β}
    (goesOn : ∀ value, CutBy source limit short (next value) (first value) (second value)) :
    CutBy source limit short (after action next) (action >>= first) (action >>= second) := by
  intro state
  rw [bind_apply, bind_apply]
  simp only [after]
  cases action state with
  | ok value behind => exact goesOn value behind
  | error error behind => exact .whole _

theorem cut_by_followed {course next : Course} {first second : Rendering Unit}
    {firstNext secondNext : Rendering α} (begins : CutBy source limit short course first second)
    (goesOn : CutBy source limit short next firstNext secondNext) :
    CutBy source limit short (followed course second next) (first >>= fun _ => firstNext)
      (second >>= fun _ => secondNext) := by
  intro state
  have begun := begins state
  rw [bind_apply, bind_apply]
  simp only [followed, after, List.findSome?_append]
  generalize (course state).findSome? (·.refused? source limit) = refused, first state = ran,
    second state = other at begun ⊢
  cases begun with
  | whole =>
      cases ran with
      | ok value behind => simpa only [Option.none_or] using goesOn behind
      | error error behind => exact .whole _
  | refused name asked scopes _ => exact .refused name asked scopes _
  | nested isShort _ behind _ => exact .nested isShort _ behind _

theorem cut_by_within (parent : Nat) (view : Value) {course : Nat → Course}
    {first second : Nat → Rendering Unit}
    (inside : ∀ scope, CutBy source limit short (course scope) (first scope) (second scope)) :
    CutBy source limit short (Course.within parent view course) (within parent view first)
      (within parent view second) := by
  intro state
  have ran := inside state.scopes.length { state with scopes := state.scopes.push parent view }
  simp only [within, Course.within]
  generalize (course _ _).findSome? (·.refused? source limit) = refused, first _ _ = finished,
    second _ _ = finishedOther at ran ⊢
  cases ran with
  | whole => exact .whole _
  | refused name asked scopes _ => exact .refused name asked scopes.tail _
  | nested isShort _ behind _ => exact .nested isShort _ _ _

theorem cut_by_items (scope : Nat) {course : Nat → Course} {first second : Nat → Rendering Unit}
    (inside : ∀ child, CutBy source limit short (course child) (first child) (second child))
    (items : List Value) :
    CutBy source limit short (ofItems scope second course items) (renderItems scope first items)
      (renderItems scope second items) := by
  induction items with
  | nil => exact cut_by_same _
  | cons item rest ih => exact cut_by_followed (cut_by_within scope item inside) ih

/-- A node that asks for no partial is not refused. -/
theorem cut_by_visit {course : Course} {node : Node} {opened nesting scope : Nat}
    {first second : Rendering α}
    (unasked : ∀ state, Visit.asked? source ⟨node, opened, nesting, scope, state⟩ = none)
    (ran : CutBy source limit short course first second) :
    CutBy source limit short
      (fun state => ⟨node, opened, nesting, scope, state⟩ :: course state) first second := by
  intro state
  have unrefused : Visit.refused? source limit ⟨node, opened, nesting, scope, state⟩ = none := by
    simp only [Visit.refused?, unasked, ite_self]
  rw [List.findSome?_cons, unrefused]
  exact ran state

end Steps

section Levels

variable {find : Lookup} {compile : Compile} {settings : Settings} {source : Option Partials}
  {limit shift generous : Nat} {short : Prop}

/-- Bodies that have more partials open by the shift are cut by a limit higher by the shift. -/
def BodiesCut (source : Option Partials) (limit shift : Nat) (short : Prop) (below : BodyCourse)
    (first second : Body) : Prop :=
  ∀ opened ≤ limit, ∀ scope nodes,
    CutBy source limit short (below opened scope nodes) (first (opened + shift) scope nodes)
      (second opened scope nodes)

/-- What there is below a level: no room on either side, too little of it on the first side
alone, or bodies of which the first are cut. -/
inductive Inside (source : Option Partials) (limit shift : Nat) (short : Prop)
    (below : BodyCourse) : Option Body → Option Body → Prop
  | closed : Inside source limit shift short below none none
  | cramped (isShort : short) (body : Body) :
      Inside source limit shift short below none (some body)
  | deeper {first second : Body} (bodies : BodiesCut source limit shift short below first second) :
      Inside source limit shift short below (some first) (some second)

variable {below : BodyCourse} {first second : Option Body}

theorem cut_by_enter (inside : Inside source limit shift short below first second) {α : Type}
    {next : Body → Course} {firstNext secondNext : Body → Rendering α}
    (goesOn : ∀ body other, BodiesCut source limit shift short below body other →
      CutBy source limit short (next other) (firstNext body) (secondNext other)) :
    CutBy source limit short (after (enter second) next) (enter first >>= firstNext)
      (enter second >>= secondNext) := by
  cases inside with
  | closed => exact fun _ => .whole _
  | cramped isShort body => exact fun state => .nested isShort _ state _
  | deeper bodies => exact goesOn _ _ bodies

variable (inside : Inside source limit shift short below first second)

include inside

/-- A partial that is not refused is compiled and rendered on both sides. -/
theorem cut_by_included {opened : Nat} (belowLimit : opened < limit) (scope : Nat)
    (text : String) :
    CutBy source limit short
      (after (compile text) fun nodes =>
        after (enter second) fun _ => below (opened + 1) scope nodes)
      (do
        let nodes ← compile text
        let body ← enter first
        body (opened + shift + 1) scope nodes)
      (do
        let nodes ← compile text
        let body ← enter second
        body (opened + 1) scope nodes) := by
  apply cut_by_after
  intro nodes
  apply cut_by_enter inside
  intro body other bodies
  rw [Nat.add_right_comm]
  exact bodies (opened + 1) belowLimit scope nodes

variable {opened : Nat} (withinLimit : opened ≤ limit) (scope : Nat)

include withinLimit

theorem cut_by_section (name : String) (children : List Node) :
    CutBy source limit short
      (ofSection find { settings with partialLimit := generous } second below opened scope name
        children)
      (renderSection find { settings with partialLimit := limit + shift } first (opened + shift)
        scope name children)
      (renderSection find { settings with partialLimit := generous } second opened scope name
        children) := by
  apply cut_by_after
  intro value
  split
  · apply cut_by_enter inside
    intro body other bodies
    split
    · exact cut_by_items scope (fun child => bodies opened withinLimit child children) _
    · split
      · exact cut_by_within scope value fun child => bodies opened withinLimit child children
      · exact bodies opened withinLimit scope children
  · exact cut_by_same _

theorem cut_by_inverted (name : String) (children : List Node) :
    CutBy source limit short (ofInverted find second below opened scope name children)
      (renderInverted find first (opened + shift) scope name children)
      (renderInverted find second opened scope name children) := by
  apply cut_by_after
  intro value
  split
  · apply cut_by_enter inside
    intro body other bodies
    exact bodies opened withinLimit scope children
  · exact cut_by_same _

theorem cut_by_partial (enough : limit ≤ generous) (nesting : Nat) (name : String) (span : Span) :
    CutBy source limit short
      (fun state => ⟨.inclusion name span, opened, nesting, scope, state⟩ ::
        ofPartial compile { settings with partialLimit := generous } source second below opened
          scope name state)
      (renderPartial compile { settings with partialLimit := limit + shift } source first
        (opened + shift) scope name)
      (renderPartial compile { settings with partialLimit := generous } source second opened
        scope name) := by
  cases source with
  | none => exact cut_by_visit (fun _ => rfl) (cut_by_same _)
  | some holder =>
      intro state
      have visited : Visit.refused? holder limit
          ⟨.inclusion name span, opened, nesting, scope, state⟩ =
            if opened = limit then
              match loadPartial holder name state with
              | .ok (some _) behind => some (name, behind)
              | _ => none
            else none := rfl
      simp only [List.findSome?_cons, visited, renderPartial, ofPartial, bind_apply, after]
      cases loadPartial holder name state with
      | error error behind =>
          simp only [ite_self]
          exact .whole _
      | ok found behind =>
          cases found with
          | none =>
              simp only [ite_self]
              exact .whole _
          | some text =>
              by_cases full : opened = limit
              · have reached : limit + shift ≤ opened + shift := by omega
                simp only [if_pos full, if_pos reached]
                exact .refused name behind behind.scopes _
              · have belowLimit : opened < limit := by omega
                have letThrough : ¬limit + shift ≤ opened + shift := by omega
                have letThroughToo : ¬generous ≤ opened := by omega
                simp only [if_neg full, if_neg letThrough, if_neg letThroughToo]
                exact cut_by_included inside belowLimit scope text behind

theorem cut_by_node (enough : limit ≤ generous) (nesting : Nat) (node : Node) :
    CutBy source limit short
      (ofNode find compile { settings with partialLimit := generous } source second below nesting
        opened scope node)
      (renderNode find compile { settings with partialLimit := limit + shift } source first
        (opened + shift) scope node)
      (renderNode find compile { settings with partialLimit := generous } source second opened
        scope node) := by
  cases node with
  | sectionOf name children _ _ =>
      exact cut_by_visit (fun _ => rfl)
        (cut_by_section inside withinLimit scope name children)
  | invertedOf name children _ _ =>
      exact cut_by_visit (fun _ => rfl)
        (cut_by_inverted inside withinLimit scope name children)
  | inclusion name span => exact cut_by_partial inside withinLimit scope enough nesting name span
  | _ => exact cut_by_visit (fun _ => rfl) (cut_by_same _)

theorem cut_by_nodes (enough : limit ≤ generous) (nesting : Nat) (nodes : List Node) :
    CutBy source limit short
      (ofNodes find compile { settings with partialLimit := generous } source second below nesting
        opened scope nodes)
      (renderNodes find compile { settings with partialLimit := limit + shift } source first
        (opened + shift) scope nodes)
      (renderNodes find compile { settings with partialLimit := generous } source second opened
        scope nodes) := by
  induction nodes with
  | nil => exact cut_by_same _
  | cons node rest ih =>
      exact cut_by_followed (cut_by_node inside withinLimit scope enough nesting node) ih

omit inside withinLimit

theorem bodies_cut (enough : limit ≤ generous) {room more : Nat} (nesting : Nat)
    (roomLeft : room ≤ more) (cramped : room < more → short) :
    BodiesCut source limit shift short
      (ofRunBy find compile { settings with partialLimit := generous } source more nesting)
      (runBy find compile { settings with partialLimit := limit + shift } source room)
      (runBy find compile { settings with partialLimit := generous } source more) := by
  -- on the room of the first run; the second, which may have more, goes down along with it
  induction room generalizing more nesting with
  | zero =>
      intro opened withinLimit scope nodes
      cases more with
      | zero => exact cut_by_nodes .closed withinLimit scope enough nesting nodes
      | succ more =>
          have isShort : short := cramped (Nat.succ_pos more)
          exact cut_by_nodes (.cramped isShort _) withinLimit scope enough nesting nodes
  | succ room ih =>
      intro opened withinLimit scope nodes
      cases more with
      | zero => cases roomLeft
      | succ more =>
          have bodies := ih (nesting + 1) (Nat.le_of_succ_le_succ roomLeft)
            fun fewer => cramped (Nat.succ_lt_succ fewer)
          exact cut_by_nodes (.deeper bodies) withinLimit scope enough nesting nodes

end Levels

/-- The run under a limit beside the run under a higher one. -/
theorem run_cut (settings : Settings) (source : Option Partials) {limit generous : Nat}
    (enough : limit ≤ generous) (room scope : Nat) (nodes : List Node) (state : RenderState) :
    Cut False
      ((Course.ofRun { settings with partialLimit := generous } source room 0 0 scope nodes
        state).findSome? (·.refused? source limit))
      (run { settings with partialLimit := limit } source room 0 scope nodes state)
      (run { settings with partialLimit := generous } source room 0 scope nodes state) := by
  have bodies : BodiesCut source limit 0 False
      (Course.ofRun { settings with partialLimit := generous } source room 0)
      (run { settings with partialLimit := limit } source room)
      (run { settings with partialLimit := generous } source room) :=
    bodies_cut enough 0 le_rfl fun fewer => absurd fewer (lt_irrefl room)
  exact bodies 0 (Nat.zero_le limit) scope nodes state

/-- What succeeds goes the same way where there is room for a level more and a partial less is
open. -/
theorem run_with_more_room {settings : Settings} {source : Option Partials}
    {room opened scope : Nat} {nodes : List Node} {state behind : RenderState}
    (letThrough : opened < settings.partialLimit)
    (ran : run settings source room (opened + 1) scope nodes state = .ok () behind) :
    run settings source (room + 1) opened scope nodes state = .ok () behind := by
  obtain ⟨limit, limited⟩ : ∃ limit, settings.partialLimit = limit + 1 :=
    ⟨settings.partialLimit - 1, by omega⟩
  have sameSettings : settings = { settings with partialLimit := limit + 1 } := by rw [← limited]
  have bodies : BodiesCut source limit 1 True (Course.ofRun settings source (room + 1) 0)
      (run settings source room) (run settings source (room + 1)) := by
    rw [sameSettings]
    exact bodies_cut limit.le_succ 0 room.le_succ fun _ => trivial
  have cut := bodies opened (by omega) scope nodes state
  rw [ran] at cut
  generalize (Course.ofRun settings source (room + 1) 0 opened scope nodes state).findSome? _ =
    refused, run settings source (room + 1) opened scope nodes state = other at cut ⊢
  cases cut
  rfl

theorem unreached_limit_refuses_nothing (settings : Settings) (source : Option Partials)
    (scope : Nat) (nodes : List Node) (state : RenderState) {limit : Nat}
    (beyond : nestingLimit < limit) :
    (Course.ofRun settings source nestingLimit 0 0 scope nodes state).findSome?
      (·.refused? source limit) = none := by
  rw [List.findSome?_eq_none_iff]
  intro visit among
  have bounds := Course.of_run_bounded scope nodes state visit among
  exact if_neg (by omega)

/-- The limit of partials is exact, and there is no other trace of it. Beside a run whose limit is
beyond reach, the run under any limit is the same unless some partial that exists is asked for
with as many partials open as the limit permits. Then it fails at the first such partial, right
after that one is loaded. What does not fail so under a limit is the same under any higher one. -/
theorem partial_limit_is_exact (settings : Settings) (source : Option Partials) (scope : Nat)
    (nodes : List Node) (state : RenderState) {generous : Nat} (beyond : nestingLimit < generous)
    (limit : Nat) :
    let outcome (limit : Nat) :=
      run { settings with partialLimit := limit } source nestingLimit 0 scope nodes state
    let visits := Course.ofRun { settings with partialLimit := generous } source nestingLimit 0 0
      scope nodes state
    (∀ visit ∈ visits, visit.opened < generous) ∧
      (match visits.findSome? (·.refused? source limit) with
        | none => outcome limit = outcome generous
        | some (name, asked) =>
            ∃ scopes, outcome limit = .error (partialsTooDeep name) { asked with scopes }) ∧
      ∀ higher, limit ≤ higher →
        (∀ error behind, outcome limit = .error error behind →
          error.kind ≠ .recursionLimitExceeded) →
        outcome higher = outcome limit := by
  intro outcome visits
  refine ⟨?_, ?_, ?_⟩
  · intro visit among
    have bounds := Course.of_run_bounded scope nodes state visit among
    omega
  · rcases le_total limit generous with lower | higher
    · have cut : Cut False (visits.findSome? (·.refused? source limit)) (outcome limit)
          (outcome generous) := run_cut settings source lower nestingLimit scope nodes state
      generalize visits.findSome? (·.refused? source limit) = refused, outcome limit = limited,
        outcome generous = unlimited at cut ⊢
      cases cut with
      | whole => rfl
      | refused name asked scopes _ => exact ⟨scopes, rfl⟩
      | nested impossible => cases impossible
    · -- both limits are beyond reach
      have cut : Cut False _ (outcome generous) (outcome limit) :=
        run_cut settings source higher nestingLimit scope nodes state
      rw [unreached_limit_refuses_nothing _ source scope nodes state beyond] at cut
      have nothing := unreached_limit_refuses_nothing { settings with partialLimit := generous }
        source scope nodes state (beyond.trans_le higher)
      simp only [visits, nothing]
      generalize outcome generous = unlimited, outcome limit = limited at cut ⊢
      cases cut with
      | whole => rfl
      | nested impossible => cases impossible
  · intro higher above otherKind
    have cut : Cut False _ (outcome limit) (outcome higher) :=
      run_cut settings source above nestingLimit scope nodes state
    generalize (Course.ofRun _ source nestingLimit 0 0 scope nodes state).findSome? _ = refused,
      outcome limit = limited, outcome higher = unlimited at cut otherKind ⊢
    cases cut with
    | whole => rfl
    | refused name asked scopes _ => exact absurd rfl (otherKind _ _ rfl)
    | nested impossible => cases impossible

theorem missing_partials_do_not_count :
    let source : Option Partials := some (.ofList [("a", "1\x7b\x7b>b\x7d\x7d"), ("b", "2")])
    let span : Span := ⟨0, 0⟩
    let nodes : List Node := [.inclusion "gone" span, .inclusion "a" span]
    let state : RenderState := ⟨.unbounded, .root (.map []), [], []⟩
    let outcome (limit : Nat) :=
      run { partialLimit := limit } source nestingLimit 0 0 nodes state
    nestingLimit < 501 ∧ (∃ asked, outcome 1 = .error (partialsTooDeep "b") asked) ∧
      (∃ behind, outcome 2 = .ok () behind ∧ behind.sink = .text "12") ∧ outcome 7 = outcome 2 := by
  intro source span nodes state outcome
  have beyond : nestingLimit < 501 := by decide
  have refused : ((Course.ofRun { partialLimit := 501 } source nestingLimit 0 0 0 nodes
      state).findSome? (·.refused? source 1)).map Prod.fst = some "b" := by
    simp only [source, nodes, state, span]
    set_option maxRecDepth 2000 in cbv
  obtain ⟨⟨_, asked⟩, refused, rfl⟩ := Option.map_eq_some_iff.1 refused
  have passes : ∃ behind, outcome 2 = .ok () behind ∧ behind.sink = .text "12" := by
    simp only [outcome, source, nodes, state, span]
    refine ⟨_, by set_option maxRecDepth 2000 in cbv, rfl⟩
  obtain ⟨behind, passed, written⟩ := passes
  have fails := (partial_limit_is_exact {} source 0 nodes state beyond 1).2.1
  simp only [refused] at fails
  obtain ⟨scopes, failed⟩ := fails
  have noError (error : Error) (after : RenderState) (failed : outcome 2 = .error error after) :
      error.kind ≠ .recursionLimitExceeded := by
    rw [passed] at failed
    cases failed
  have higher := (partial_limit_is_exact {} source 0 nodes state beyond 2).2.2 7 (by decide)
    noError
  exact ⟨beyond, ⟨_, failed⟩, ⟨behind, passed, written⟩, higher⟩

end Rendering

end Mustache
