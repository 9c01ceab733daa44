import Mathlib
import Mustache.Rendering

/-!
Rendering in steps. A machine renders a template with a stack of what is left to do. It counts
the sections and partials it is in with numbers of 64 bits, and nothing else keeps it from going
deeper. Still every machine comes to an end, the one the render comes to, and until then its
counters stay within the limits.
-/

namespace Mustache

/-- How many partials a node is rendered in, and how many sections and partials together. -/
structure Depth where
  partials : UInt64
  nesting : UInt64
  deriving DecidableEq, Repr

namespace Depth

def start : Depth := ⟨0, 0⟩

/-- The sum of two counters, unless it takes more than 64 bits. -/
def plus? (counter more : UInt64) : Option UInt64 :=
  if counter.toNat + more.toNat < UInt64.size then some (counter + more) else none

def deeper? (isPartial : Bool) (depth : Depth) : Option Depth :=
  match plus? depth.partials isPartial.toUInt64, plus? depth.nesting 1 with
  | some partials, some nesting => some ⟨partials, nesting⟩
  | _, _ => none

/-- The depth inside a section or partial, none where a counter overflows. -/
def enter (isPartial : Bool) (depth : Depth) : Rendering (Option Depth) :=
  if nestingLimit ≤ depth.nesting.toNat then throw Rendering.nestedTooDeep
  else pure (depth.deeper? isPartial)

theorem plus_eq_some {counter more : UInt64}
    (fits : counter.toNat + more.toNat < UInt64.size) :
    ∃ sum, plus? counter more = some sum ∧ sum.toNat = counter.toNat + more.toNat := by
  refine ⟨counter + more, if_pos fits, ?_⟩
  rw [UInt64.toNat_add]
  exact Nat.mod_eq_of_lt fits

/-- Counters that are in order do not overflow where there is room for a level more. -/
theorem deeper_eq_some {depth : Depth} (isPartial : Bool)
    (room : depth.nesting.toNat < nestingLimit)
    (inOrder : depth.partials.toNat ≤ depth.nesting.toNat) :
    ∃ inside, depth.deeper? isPartial = some inside ∧
      inside.nesting.toNat = depth.nesting.toNat + 1 ∧
      inside.partials.toNat = depth.partials.toNat + isPartial.toNat := by
  have few : nestingLimit + 1 < UInt64.size := by decide
  have counted : isPartial.toUInt64.toNat = isPartial.toNat := by cases isPartial <;> rfl
  have atMostOne := isPartial.toNat_le
  have partialsFit : depth.partials.toNat + isPartial.toUInt64.toNat < UInt64.size := by omega
  have nestingFits : depth.nesting.toNat + (1 : UInt64).toNat < UInt64.size := by
    rw [UInt64.toNat_one]
    omega
  obtain ⟨partials, addedPartials, partialsEq⟩ := plus_eq_some partialsFit
  obtain ⟨nesting, addedNesting, nestingEq⟩ := plus_eq_some nestingFits
  refine ⟨⟨partials, nesting⟩, ?_, nestingEq, ?_⟩
  · simp only [deeper?, addedPartials, addedNesting]
  · rw [partialsEq, counted]

-- the counter that is full is told from one that starts again
example : deeper? false ⟨0, 0xFFFFFFFFFFFFFFFF⟩ = none := by decide

/-- The counters are in order and within the limits. -/
structure Bounded (limit : Nat) (depth : Depth) : Prop where
  in_order : depth.partials.toNat ≤ depth.nesting.toNat
  nesting_le : depth.nesting.toNat ≤ nestingLimit
  partials_le : depth.partials.toNat ≤ limit

end Depth

inductive Frame
  /-- Nodes that are left to render. -/
  | nodes (depth : Depth) (scope : Nat) (nodes : List Node)
  /-- Items that children are left to be rendered for, each in a new scope. -/
  | items (depth : Depth) (scope : Nat) (children : List Node) (items : List Value)
  /-- The newest scope is left. -/
  | leaving

def Frame.depth? : Frame → Option Depth
  | .nodes depth _ _ | .items depth _ _ _ => some depth
  | .leaving => none

def Frame.Bounded (limit : Nat) (frame : Frame) : Prop :=
  ∀ depth ∈ frame.depth?, depth.Bounded limit

theorem Frame.bounded_of_depth {limit : Nat} {frame : Frame} {depth : Depth}
    (carried : frame.depth? = some depth) (bounded : depth.Bounded limit) :
    frame.Bounded limit := by
  intro other held
  rw [carried] at held
  cases held
  exact bounded

inductive Machine
  | running (frames : List Frame) (state : RenderState)
  | failing (error : Error) (frames : List Frame) (state : RenderState)
  | overflowed

namespace Machine

open Rendering

section Steps

variable (find : Lookup) (compile : Compile) (settings : Settings) (source : Option Partials)

def openSection (depth : Depth) (scope : Nat) (name : String) (children : List Node) :
    Rendering (Option (List Frame)) := do
  let value ← find scope name
  if value.isTrue then
    let inside ← depth.enter false
    return inside.map fun inside =>
      if value.isList then [.items inside scope children (value.items?.getD [])]
      else if settings.opensObjectScopes then [.items inside scope children [value]]
      else [.nodes inside scope children]
  else return some []

def openInverted (depth : Depth) (scope : Nat) (name : String) (children : List Node) :
    Rendering (Option (List Frame)) := do
  let value ← find scope name
  if !value.isTrue || value.isEmptyList then
    let inside ← depth.enter false
    return inside.map fun inside => [.nodes inside scope children]
  else return some []

def openPartial (depth : Depth) (scope : Nat) (name : String) :
    Rendering (Option (List Frame)) := do
  match source with
  | none => return some []
  | some source =>
      match ← loadPartial source name with
      | none => return some []
      | some text =>
          if settings.partialLimit ≤ depth.partials.toNat then throw (partialsTooDeep name)
          let nodes ← compile text
          let inside ← depth.enter true
          return inside.map fun inside => [.nodes inside scope nodes]

/-- Renders what a node puts out itself, and gives the frames for what is below it; none where a
counter overflows. -/
def openNode (depth : Depth) (scope : Nat) : Node → Rendering (Option (List Frame))
  | .sectionOf name children _ _ => openSection find settings depth scope name children
  | .invertedOf name children _ _ => openInverted find depth scope name children
  | .inclusion name _ => openPartial compile settings source depth scope name
  | leaf => do
      renderNode find compile settings source none 0 scope leaf
      return some []

/-- One step, if any is left. An error takes the frames down and leaves their scopes. -/
def step : Machine → Option Machine
  | .running [] _ | .failing _ [] _ | .overflowed => none
  | .running (.nodes _ _ [] :: frames) state => some (.running frames state)
  | .running (.nodes depth scope (node :: rest) :: frames) state =>
      let behind := .nodes depth scope rest :: frames
      match openNode find compile settings source depth scope node state with
      | .ok (some opened) state => some (.running (opened ++ behind) state)
      | .ok none _ => some .overflowed
      | .error error state => some (.failing error behind state)
  | .running (.items _ _ _ [] :: frames) state => some (.running frames state)
  | .running (.items depth scope children (item :: rest) :: frames) state =>
      some (.running
        (.nodes depth state.scopes.length children :: .leaving ::
          .items depth scope children rest :: frames)
        { state with scopes := state.scopes.push scope item })
  | .running (.leaving :: frames) state =>
      some (.running frames { state with scopes := state.scopes.tail })
  | .failing error (.leaving :: frames) state =>
      some (.failing error frames { state with scopes := state.scopes.tail })
  | .failing error (_ :: frames) state => some (.failing error frames state)

def Steps (before after : Machine) : Prop :=
  step find compile settings source before = some after

abbrev Reaches : Machine → Machine → Prop :=
  Relation.ReflTransGen (Steps find compile settings source)

end Steps

def frames : Machine → List Frame
  | .running frames _ | .failing _ frames _ => frames
  | .overflowed => []

def start (scope : Nat) (nodes : List Node) (state : RenderState) : Machine :=
  .running [.nodes .start scope nodes] state

/-- The machine that has come to a result with so many frames left. -/
def settled (frames : List Frame) : EStateM.Result Error RenderState Unit → Machine
  | .ok () state => .running frames state
  | .error error state => .failing error frames state

variable {find : Lookup} {compile : Compile} {settings : Settings} {source : Option Partials}

theorem step_settled_nil (result : EStateM.Result Error RenderState Unit) :
    step find compile settings source (settled [] result) = none := by
  cases result <;> rfl

/-! ### The machine does what the render does -/

/-- Whatever is below them, the frames do what the action does. -/
def Performs (find : Lookup) (compile : Compile) (settings : Settings) (source : Option Partials)
    (frames : List Frame) (action : Rendering Unit) : Prop :=
  ∀ (below : List Frame) (state : RenderState),
    Reaches find compile settings source (.running (frames ++ below) state)
      (settled below (action state))

/-- What is opened goes on to do what the action does. -/
def Leads (find : Lookup) (compile : Compile) (settings : Settings) (source : Option Partials)
    (opening : Rendering (Option (List Frame))) (action : Rendering Unit) : Prop :=
  ∀ state,
    match opening state with
    | .ok (some frames) behind =>
        ∀ below, Reaches find compile settings source (.running (frames ++ below) behind)
          (settled below (action state))
    | .ok none _ => False
    | .error error behind => action state = .error error behind

section Performing

theorem performs_nothing : Performs find compile settings source [] (pure ()) :=
  fun _ _ => .refl

theorem leads_pure {frames : List Frame} {action : Rendering Unit}
    (performs : Performs find compile settings source frames action) :
    Leads find compile settings source (pure (some frames)) action :=
  fun state below => performs below state

theorem leads_bind {α : Type} (action : Rendering α)
    {opening : α → Rendering (Option (List Frame))} {next : α → Rendering Unit}
    (goesOn : ∀ value, Leads find compile settings source (opening value) (next value)) :
    Leads find compile settings source (action >>= opening) (action >>= next) := by
  intro state
  rw [bind_apply, bind_apply]
  cases action state with
  | ok value behind => exact goesOn value behind
  | error error behind => rfl

theorem leads_leaf (action : Rendering Unit) :
    Leads find compile settings source (action >>= fun _ => pure (some [])) action := by
  intro state
  rw [bind_apply]
  cases ran : action state with
  | ok _ behind => exact fun _ => .refl
  | error error behind => rfl

variable {depth : Depth} {scope : Nat} {children : List Node}

/-- In front of more frames a scope is entered for the item and left behind it, on an error too. -/
theorem performs_items {body : Nat → Rendering Unit}
    (inside : ∀ child,
      Performs find compile settings source [.nodes depth child children] (body child))
    (items : List Value) :
    Performs find compile settings source [.items depth scope children items]
      (renderItems scope body items) := by
  induction items with
  | nil => exact fun _ _ => .single rfl
  | cons item rest ih =>
      intro below state
      have entered : Steps find compile settings source
          (.running (.items depth scope children (item :: rest) :: below) state) _ := rfl
      refine .head entered ?_
      have ran := inside state.scopes.length
        (.leaving :: .items depth scope children rest :: below)
        { state with scopes := state.scopes.push scope item }
      refine ran.trans ?_
      rw [renderItems, bind_apply, within]
      cases body state.scopes.length
        { state with scopes := state.scopes.push scope item } with
      | ok _ behind => exact .head rfl (ih below _)
      | error error behind => exact .head rfl (.single rfl)

theorem performs_nodes {inner : Option Body}
    (opens : ∀ node, Leads find compile settings source
      (openNode find compile settings source depth scope node)
      (renderNode find compile settings source inner depth.partials.toNat scope node))
    (nodes : List Node) :
    Performs find compile settings source [.nodes depth scope nodes]
      (renderNodes find compile settings source inner depth.partials.toNat scope nodes) := by
  induction nodes with
  | nil => exact fun _ _ => .single rfl
  | cons node rest ih =>
      intro below state
      have led := opens node state
      have stepped : step find compile settings source
          (.running (.nodes depth scope (node :: rest) :: below) state) =
            match openNode find compile settings source depth scope node state with
            | .ok (some opened) state =>
                some (.running (opened ++ .nodes depth scope rest :: below) state)
            | .ok none _ => some .overflowed
            | .error error state => some (.failing error (.nodes depth scope rest :: below) state) :=
        rfl
      rw [renderNodes, bind_apply]
      cases opened : openNode find compile settings source depth scope node state with
      | error error behind =>
          rw [opened] at led stepped
          rw [led]
          exact .head stepped (.single rfl)
      | ok openedFrames behind =>
          cases openedFrames with
          | none =>
              rw [opened] at led
              cases led
          | some frames =>
              rw [opened] at led stepped
              refine .head stepped ((led (.nodes depth scope rest :: below)).trans ?_)
              cases renderNode find compile settings source inner depth.partials.toNat scope node
                state with
              | ok _ after => exact ih below after
              | error error after => exact .single rfl

/-- What there is below a depth: nothing where no level is left, else a body that the machine
performs one level deeper. -/
inductive Below (find : Lookup) (compile : Compile) (settings : Settings)
    (source : Option Partials) (depth : Depth) : Option Body → Prop
  | closed (full : nestingLimit ≤ depth.nesting.toNat) :
      Below find compile settings source depth none
  | deeper {body : Body} (room : depth.nesting.toNat < nestingLimit)
      (performs : ∀ inside : Depth, inside.nesting.toNat = depth.nesting.toNat + 1 →
        inside.partials.toNat ≤ inside.nesting.toNat → ∀ scope nodes,
          Performs find compile settings source [.nodes inside scope nodes]
            (body inside.partials.toNat scope nodes)) :
      Below find compile settings source depth (some body)

variable {inner : Option Body} (below : Below find compile settings source depth inner)
  (inOrder : depth.partials.toNat ≤ depth.nesting.toNat)

include below inOrder

/-- Entering is refused by both where no level is left, and else leads one level deeper. -/
theorem leads_enter (isPartial : Bool) {frames : Depth → List Frame}
    {next : Body → Rendering Unit}
    (goesOn : ∀ (body : Body) (inside : Depth),
      inside.partials.toNat = depth.partials.toNat + isPartial.toNat →
      (∀ scope nodes, Performs find compile settings source [.nodes inside scope nodes]
        (body inside.partials.toNat scope nodes)) →
      Performs find compile settings source (frames inside) (next body)) :
    Leads find compile settings source
      (do
        let inside ← depth.enter isPartial
        return inside.map frames)
      (enter inner >>= next) := by
  cases below with
  | closed full =>
      simp only [Depth.enter, if_pos full]
      exact fun _ => rfl
  | deeper room performs =>
      obtain ⟨inside, entered, nestingEq, partialsEq⟩ :=
        Depth.deeper_eq_some isPartial room inOrder
      have atMostOne := isPartial.toNat_le
      have stillInOrder : inside.partials.toNat ≤ inside.nesting.toNat := by omega
      simp only [Depth.enter, if_neg (Nat.not_le.2 room), entered]
      apply leads_pure
      apply goesOn _ inside partialsEq
      exact performs inside nestingEq stillInOrder

theorem leads_section (name : String) (children : List Node) :
    Leads find compile settings source (openSection find settings depth scope name children)
      (renderSection find settings inner depth.partials.toNat scope name children) := by
  apply leads_bind
  intro value
  split
  · apply leads_enter below inOrder false
    intro body inside same performs
    rw [same, Bool.toNat_false, Nat.add_zero] at performs
    split
    · apply performs_items
      exact fun child => performs child children
    · split
      · -- a view of its own is the only item
        have performed : Performs find compile settings source
            [.items inside scope children [value]]
            (renderItems scope (fun child => body depth.partials.toNat child children) [value]) :=
          performs_items (fun child => performs child children) [value]
        rwa [renderItems, renderItems, bind_pure_unit] at performed
      · exact performs scope children
  · exact leads_pure performs_nothing

theorem leads_inverted (name : String) (children : List Node) :
    Leads find compile settings source (openInverted find depth scope name children)
      (renderInverted find inner depth.partials.toNat scope name children) := by
  apply leads_bind
  intro value
  split
  · apply leads_enter below inOrder false
    intro body inside same performs
    rw [same, Bool.toNat_false, Nat.add_zero] at performs
    exact performs scope children
  · exact leads_pure performs_nothing

theorem leads_partial (name : String) :
    Leads find compile settings source (openPartial compile settings source depth scope name)
      (renderPartial compile settings source inner depth.partials.toNat scope name) := by
  unfold openPartial renderPartial
  cases source with
  | none => exact leads_pure performs_nothing
  | some holder =>
      apply leads_bind
      intro found
      cases found with
      | none => exact leads_pure performs_nothing
      | some text =>
          dsimp only
          split
          · exact fun _ => rfl
          · apply leads_bind
            intro nodes
            apply leads_enter below inOrder true
            intro body inside same performs
            rw [same, Bool.toNat_true] at performs
            exact performs scope nodes

theorem leads_node (node : Node) :
    Leads find compile settings source (openNode find compile settings source depth scope node)
      (renderNode find compile settings source inner depth.partials.toNat scope node) := by
  cases node with
  | sectionOf name children _ _ => exact leads_section below inOrder name children
  | invertedOf name children _ _ => exact leads_inverted below inOrder name children
  | inclusion name _ => exact leads_partial below inOrder name
  | text | escaped | unescaped | comment | delimiters => exact leads_leaf _

end Performing

/-- The machine renders nodes as the render does that has the same levels left. -/
theorem performs_run (room : Nat) {depth : Depth}
    (inOrder : depth.partials.toNat ≤ depth.nesting.toNat)
    (left : depth.nesting.toNat + room = nestingLimit) (scope : Nat) (nodes : List Node) :
    Performs find compile settings source [.nodes depth scope nodes]
      (runBy find compile settings source room depth.partials.toNat scope nodes) := by
  induction room generalizing depth scope nodes with
  | zero =>
      have full : nestingLimit ≤ depth.nesting.toNat := by omega
      exact performs_nodes (leads_node (.closed full) inOrder) nodes
  | succ room ih =>
      have openLevel : depth.nesting.toNat < nestingLimit := by omega
      apply performs_nodes
      apply leads_node _ inOrder
      apply Below.deeper openLevel
      intro inside nestingEq stillInOrder scope nodes
      exact ih stillInOrder (by omega) scope nodes

/-! ### The counters stay within the limits -/

/-- What is opened, if no error stops it, are frames with counters within the limits. -/
def Sound (limit : Nat) (opening : Rendering (Option (List Frame))) : Prop :=
  ∀ state opened behind, opening state = .ok opened behind →
    ∃ frames, opened = some frames ∧ ∀ frame ∈ frames, frame.Bounded limit

section Bounds

variable {limit : Nat}

theorem sound_pure {frames : List Frame} (bounded : ∀ frame ∈ frames, frame.Bounded limit) :
    Sound limit (pure (some frames)) := by
  intro state opened behind ran
  cases ran
  exact ⟨frames, rfl, bounded⟩

theorem sound_nothing : Sound limit (pure (some [])) := by
  apply sound_pure
  simp

theorem sound_throw {α : Type} (error : Error) (opening : α → Rendering (Option (List Frame))) :
    Sound limit (throw error >>= opening) := by
  intro state opened behind ran
  cases ran

theorem sound_bind {α : Type} (action : Rendering α)
    {opening : α → Rendering (Option (List Frame))} (sound : ∀ value, Sound limit (opening value)) :
    Sound limit (action >>= opening) := by
  intro state opened behind ran
  rw [bind_apply] at ran
  cases begun : action state with
  | ok value between =>
      rw [begun] at ran
      exact sound value between opened behind ran
  | error error between =>
      rw [begun] at ran
      cases ran

variable {depth : Depth} (bounded : depth.Bounded limit)

include bounded

/-- The guard of the nesting and that of the partials bound the counters inside. -/
theorem sound_enter (isPartial : Bool)
    (letThrough : depth.partials.toNat + isPartial.toNat ≤ limit) {frames : Depth → List Frame}
    (carry : ∀ inside, ∀ frame ∈ frames inside, frame.depth? = some inside) :
    Sound limit (do
      let inside ← depth.enter isPartial
      return inside.map frames) := by
  unfold Depth.enter
  by_cases full : nestingLimit ≤ depth.nesting.toNat
  · rw [if_pos full]
    exact sound_throw nestedTooDeep _
  · have openLevel := not_le.1 full
    obtain ⟨inside, entered, nestingEq, partialsEq⟩ :=
      Depth.deeper_eq_some isPartial openLevel bounded.in_order
    have inOrder := bounded.in_order
    have atMostOne := isPartial.toNat_le
    have insideBounded : inside.Bounded limit := ⟨by omega, by omega, by omega⟩
    rw [if_neg full, entered]
    apply sound_pure
    intro frame among
    exact Frame.bounded_of_depth (carry inside frame among) insideBounded

theorem sound_section (scope : Nat) (name : String) (children : List Node) :
    Sound limit (openSection find settings depth scope name children) := by
  apply sound_bind
  intro value
  split
  · apply sound_enter bounded false bounded.partials_le
    intro inside frame among
    split at among
    · rw [List.mem_singleton.1 among, Frame.depth?]
    · split at among
      · rw [List.mem_singleton.1 among, Frame.depth?]
      · rw [List.mem_singleton.1 among, Frame.depth?]
  · exact sound_nothing

theorem sound_inverted (scope : Nat) (name : String) (children : List Node) :
    Sound limit (openInverted find depth scope name children) := by
  apply sound_bind
  intro value
  split
  · apply sound_enter bounded false bounded.partials_le
    intro inside frame among
    rw [List.mem_singleton.1 among, Frame.depth?]
  · exact sound_nothing

theorem sound_partial (scope : Nat) (name : String) (same : settings.partialLimit = limit) :
    Sound limit (openPartial compile settings source depth scope name) := by
  unfold openPartial
  cases source with
  | none => exact sound_nothing
  | some holder =>
      apply sound_bind
      intro found
      cases found with
      | none => exact sound_nothing
      | some text =>
          dsimp only
          split
          · exact sound_throw _ _
          next letThrough =>
            have belowLimit : depth.partials.toNat + true.toNat ≤ limit := by
              rw [Bool.toNat_true]
              omega
            apply sound_bind
            intro nodes
            apply sound_enter bounded true belowLimit
            intro inside frame among
            rw [List.mem_singleton.1 among, Frame.depth?]

theorem sound_node (scope : Nat) (same : settings.partialLimit = limit) (node : Node) :
    Sound limit (openNode find compile settings source depth scope node) := by
  cases node with
  | sectionOf name children _ _ => exact sound_section bounded scope name children
  | invertedOf name children _ _ => exact sound_inverted bounded scope name children
  | inclusion name _ => exact sound_partial bounded scope name same
  | text | escaped | unescaped | comment | delimiters => exact sound_bind _ fun _ => sound_nothing

end Bounds

/-- None of the counters has overflowed, and those of all frames are within the limits. -/
def Within (limit : Nat) : Machine → Prop
  | .running frames _ | .failing _ frames _ => ∀ frame ∈ frames, frame.Bounded limit
  | .overflowed => False

theorem within_start (limit scope : Nat) (nodes : List Node) (state : RenderState) :
    (start scope nodes state).Within limit := by
  have bounded : Depth.start.Bounded limit := by
    constructor <;> simp [Depth.start]
  intro frame among
  rw [List.mem_singleton.1 among]
  exact Frame.bounded_of_depth rfl bounded

/-- A step keeps the counters within the limits. -/
theorem within_step {before after : Machine} (within : before.Within settings.partialLimit)
    (stepped : Steps find compile settings source before after) :
    after.Within settings.partialLimit := by
  unfold Steps at stepped
  cases before with
  | overflowed => cases within
  | failing error frames state =>
      cases frames with
      | nil => cases stepped
      | cons frame frames =>
          have below := (List.forall_mem_cons.1 within).2
          cases frame with
          | leaving | nodes | items =>
              cases stepped
              exact below
  | running frames state =>
      cases frames with
      | nil => cases stepped
      | cons frame frames =>
          obtain ⟨own, below⟩ := List.forall_mem_cons.1 within
          cases frame with
          | leaving =>
              cases stepped
              exact below
          | items depth scope children items =>
              cases items with
              | nil =>
                  cases stepped
                  exact below
              | cons item rest =>
                  have bounded := own depth rfl
                  have leavingBounded : Frame.leaving.Bounded settings.partialLimit := by
                    rintro _ ⟨⟩
                  cases stepped
                  simp only [Within, List.forall_mem_cons]
                  exact ⟨Frame.bounded_of_depth rfl bounded, leavingBounded,
                    Frame.bounded_of_depth rfl bounded, below⟩
          | nodes depth scope nodes =>
              cases nodes with
              | nil =>
                  cases stepped
                  exact below
              | cons node rest =>
                  have bounded := own depth rfl
                  have behind : ∀ frame ∈ .nodes depth scope rest :: frames,
                      frame.Bounded settings.partialLimit :=
                    List.forall_mem_cons.2 ⟨Frame.bounded_of_depth rfl bounded, below⟩
                  have sound : Sound settings.partialLimit
                      (openNode find compile settings source depth scope node) :=
                    sound_node bounded scope rfl node
                  simp only [step] at stepped
                  split at stepped
                  next opened between ran =>
                    obtain ⟨_, same, openedBounded⟩ := sound _ _ _ ran
                    cases same
                    cases stepped
                    exact List.forall_mem_append.2 ⟨openedBounded, behind⟩
                  next between ran =>
                    obtain ⟨_, same, _⟩ := sound _ _ _ ran
                    cases same
                  next error between ran =>
                    cases stepped
                    exact behind

theorem within_of_reaches {before after : Machine} (within : before.Within settings.partialLimit)
    (reaches : Reaches find compile settings source before after) :
    after.Within settings.partialLimit := by
  induction reaches with
  | refl => exact within
  | tail _ stepped ih => exact within_step ih stepped

/-- A machine that reaches one with no step left takes no run for ever. -/
theorem acc_of_reaches {before last : Machine}
    (reaches : Reaches find compile settings source before last)
    (ended : step find compile settings source last = none) :
    Acc (fun after before => Steps find compile settings source before after) before := by
  induction reaches using Relation.ReflTransGen.head_induction_on with
  | refl =>
      apply Acc.intro
      intro after stepped
      rw [Steps, ended] at stepped
      cases stepped
  | head stepped _ ih =>
      apply Acc.intro
      intro other steppedToo
      obtain rfl : _ = other := Option.some.inj (stepped.symm.trans steppedToo)
      exact ih

end Machine

/-- Every render comes to an end within the limits, whatever the lookups answer and whatever the
texts of partials compile to, ever new partials and those that include themselves among them. A
machine that only counts what it is in takes no endless run. It ends with what the render gives,
be it the output or an error. On the way no counter overflows, no node is nested deeper than
permitted, and no more partials are open than the limit of partials and that of the nesting. -/
theorem renders_end_within_limits (find : Lookup) (compile : Compile) (settings : Settings)
    (source : Option Partials) (scope : Nat) (nodes : List Node) (state : RenderState) :
    let start := Machine.start scope nodes state
    let result := Rendering.runBy find compile settings source nestingLimit 0 scope nodes state
    let steps := Machine.Steps find compile settings source
    let reaches := Machine.Reaches find compile settings source
    Acc (fun after before => steps before after) start ∧
      reaches start (Machine.settled [] result) ∧
      ∀ machine, reaches start machine → machine ≠ .overflowed ∧
        ∀ frame ∈ machine.frames, ∀ depth ∈ frame.depth?,
          depth.nesting.toNat ≤ nestingLimit ∧
            depth.partials.toNat ≤ min settings.partialLimit nestingLimit := by
  intro start result steps reaches
  have ends : reaches start (Machine.settled [] result) :=
    Machine.performs_run nestingLimit
      (show Depth.start.partials.toNat ≤ Depth.start.nesting.toNat from le_rfl) rfl scope nodes []
      state
  refine ⟨Machine.acc_of_reaches ends (Machine.step_settled_nil result), ends, ?_⟩
  intro machine reached
  have within := Machine.within_of_reaches
    (Machine.within_start settings.partialLimit scope nodes state) reached
  cases machine with
  | overflowed => cases within
  | running frames _ | failing _ frames _ =>
      refine ⟨by simp, ?_⟩
      intro frame among depth held
      have bounded := within frame among depth held
      have nestingLe := bounded.nesting_le
      exact ⟨nestingLe, le_min bounded.partials_le (bounded.in_order.trans nestingLe)⟩

end Mustache
