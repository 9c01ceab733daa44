import Mathlib
import Mustache.Rendering

/-!
Renders side by side. Two renders of one template differ in how they look names up, in how
they compile partials and in the state they start from. A relation between their actions
that holds of the steps a render is made of, and carries over from step to step, holds of
the renders as a whole.
-/

namespace Mustache

namespace Node

def asks? : Node → Option String
  | .escaped name _ | .unescaped name _ => some name
  | .sectionOf name _ _ _ | .invertedOf name _ _ _ => some name
  | .text _ _ | .inclusion _ _ | .comment _ _ | .delimiters _ _ => none

end Node

/-- Values that stand for each other are of one kind, as far as a render tells kinds apart. -/
structure Value.Linking (linked : Value → Value → Prop) : Prop where
  truth : ∀ {first second}, linked first second → first.isTrue = second.isTrue
  absence : ∀ {first second}, linked first second → first.isAbsent = second.isAbsent
  list : ∀ {first second}, linked first second → first.isList = second.isList
  empty_list : ∀ {first second}, linked first second → first.isEmptyList = second.isEmptyList
  items : ∀ {first second}, linked first second →
    List.Forall₂ linked (first.items?.getD []) (second.items?.getD [])

theorem Value.linking_eq : Value.Linking Eq where
  truth same := by rw [same]
  absence same := by rw [same]
  list same := by rw [same]
  empty_list same := by rw [same]
  items same := by
    rw [same]
    exact List.forall₂_refl _

/-- A relation between the actions of two renders that their steps respect. -/
structure Simulation (settings : Settings) (source : Option Partials)
    (left right : Lookup) (compile other : Compile) where
  /-- The nodes that may come to be rendered. -/
  permits : Node → Prop
  /-- The texts of partials that may come to be parsed. -/
  serves : String → Prop
  /-- The values that stand for each other. -/
  linked : Value → Value → Prop
  /-- The actions that do, with related results. -/
  relates : {α β : Type} → (α → β → Prop) → Rendering α → Rendering β → Prop
  children_permitted : ∀ {node}, permits node → ∀ child ∈ node.children, permits child
  linking : Value.Linking linked
  pure_related : ∀ {α β : Type} {results : α → β → Prop} {first second},
    results first second → relates results (pure first) (pure second)
  throw_related : ∀ {α β : Type} (results : α → β → Prop) (error : Error),
    relates results (throw error) (throw error)
  bind_related : ∀ {α β γ δ : Type} {results : α → β → Prop} {ends : γ → δ → Prop}
    {first second} {firstNext : α → Rendering γ} {secondNext : β → Rendering δ},
    relates results first second →
    (∀ one other, results one other → relates ends (firstNext one) (secondNext other)) →
    relates ends (first >>= firstNext) (second >>= secondNext)
  text_related : ∀ {content span}, permits (.text content span) →
    relates Eq (Rendering.write content) (Rendering.write content)
  escaped_related : ∀ {first second}, linked first second →
    relates Eq (Rendering.writeEscaped (settings.escape first.display))
      (Rendering.writeEscaped (settings.escape second.display))
  unescaped_related : ∀ {name span first second}, permits (.unescaped name span) →
    linked first second →
    relates Eq (Rendering.write first.display) (Rendering.write second.display)
  find_related : ∀ {node name}, permits node → node.asks? = some name → ∀ scope,
    relates linked (left scope name) (right scope name)
  load_related : ∀ {name span holder}, permits (.inclusion name span) → source = some holder →
    relates (fun first second => first = second ∧ ∀ text ∈ first, serves text)
      (Rendering.loadPartial holder name) (Rendering.loadPartial holder name)
  parse_related : ∀ {text}, serves text →
    relates (fun first second => first = second ∧ ∀ node ∈ first, permits node)
      (compile text) (other text)
  within_related : ∀ {first second firstBody secondBody} (parent : Nat), linked first second →
    (∀ scope, relates Eq (firstBody scope) (secondBody scope)) →
    relates Eq (Rendering.within parent first firstBody)
      (Rendering.within parent second secondBody)

namespace Simulation

open Rendering

variable {settings : Settings} {source : Option Partials} {left right : Lookup}
  {compile other : Compile}

def Bodies (sim : Simulation settings source left right compile other) (first second : Body) :
    Prop :=
  ∀ opened scope nodes, (∀ node ∈ nodes, sim.permits node) →
    sim.relates Eq (first opened scope nodes) (second opened scope nodes)

variable (sim : Simulation settings source left right compile other)

theorem skip_related : sim.relates Eq (pure ()) (pure ()) := sim.pure_related rfl

theorem enter_related {bodies : Body → Body → Prop} {first second : Option Body}
    (inside : Option.Rel bodies first second) :
    sim.relates bodies (enter first) (enter second) := by
  cases inside with
  | none => exact sim.throw_related _ nestedTooDeep
  | some inside => exact sim.pure_related inside

theorem items_related (scope : Nat) {first second : Nat → Rendering Unit}
    (inside : ∀ child, sim.relates Eq (first child) (second child))
    {items others : List Value} (linked : List.Forall₂ sim.linked items others) :
    sim.relates Eq (renderItems scope first items) (renderItems scope second others) := by
  induction linked with
  | nil => exact sim.skip_related
  | cons itemLinked _ ih =>
      apply sim.bind_related (sim.within_related scope itemLinked inside)
      intro _ _ _
      exact ih

section Children

variable {first second : Option Body} {opened scope : Nat} {name : String}
  {children others : List Node}
  (inside : Option.Rel (fun body other => ∀ scope,
    sim.relates Eq (body opened scope children) (other opened scope others)) first second)

include inside

theorem section_related {closing : Nat} {span : Span}
    (permitted : sim.permits (.sectionOf name children closing span)) :
    sim.relates Eq (renderSection left settings first opened scope name children)
      (renderSection right settings second opened scope name others) := by
  apply sim.bind_related (sim.find_related permitted rfl scope)
  intro value other linked
  rw [sim.linking.truth linked, sim.linking.list linked]
  split
  · apply sim.bind_related (sim.enter_related inside)
    intro body otherBody bodies
    split
    · exact sim.items_related scope bodies (sim.linking.items linked)
    · split
      · exact sim.within_related scope linked bodies
      · exact bodies scope
  · exact sim.skip_related

theorem inverted_related {closing : Nat} {span : Span}
    (permitted : sim.permits (.invertedOf name children closing span)) :
    sim.relates Eq (renderInverted left first opened scope name children)
      (renderInverted right second opened scope name others) := by
  apply sim.bind_related (sim.find_related permitted rfl scope)
  intro value other linked
  rw [sim.linking.truth linked, sim.linking.empty_list linked]
  split
  · apply sim.bind_related (sim.enter_related inside)
    intro body otherBody bodies
    exact bodies scope
  · exact sim.skip_related

end Children

section Levels

variable {first second : Option Body} (inside : Option.Rel sim.Bodies first second)
  (opened scope : Nat)

include inside

theorem children_related {children : List Node} (below : ∀ child ∈ children, sim.permits child) :
    Option.Rel (fun body other => ∀ scope,
      sim.relates Eq (body opened scope children) (other opened scope children)) first second := by
  cases inside with
  | none => exact .none
  | some bodies => exact .some fun scope => bodies opened scope children below

theorem partial_related {name : String} {span : Span}
    (permitted : sim.permits (.inclusion name span)) :
    sim.relates Eq (renderPartial compile settings source first opened scope name)
      (renderPartial other settings source second opened scope name) := by
  unfold renderPartial
  cases source with
  | none => exact sim.skip_related
  | some holder =>
      apply sim.bind_related (sim.load_related permitted rfl)
      intro found same loaded
      obtain ⟨rfl, served⟩ := loaded
      cases found with
      | none => exact sim.skip_related
      | some text =>
          -- past the limit of partials nothing is parsed or entered
          have goesOn : sim.relates Eq
              (do
                let nodes ← compile text
                let body ← enter first
                body (opened + 1) scope nodes)
              (do
                let nodes ← other text
                let body ← enter second
                body (opened + 1) scope nodes) := by
            apply sim.bind_related (sim.parse_related (served text rfl))
            intro nodes others parsed
            obtain ⟨rfl, below⟩ := parsed
            apply sim.bind_related (sim.enter_related inside)
            intro body otherBody bodies
            exact bodies (opened + 1) scope nodes below
          dsimp only
          split
          · apply sim.bind_related (sim.throw_related Eq _)
            intro _ _ _
            exact goesOn
          · exact goesOn

theorem node_related {node : Node} (permitted : sim.permits node) :
    sim.relates Eq (renderNode left compile settings source first opened scope node)
      (renderNode right other settings source second opened scope node) := by
  cases node with
  | text content _ => exact sim.text_related permitted
  | escaped name _ =>
      apply sim.bind_related (sim.find_related permitted rfl scope)
      intro value other linked
      rw [sim.linking.absence linked]
      split
      · exact sim.escaped_related linked
      · exact sim.skip_related
  | unescaped name _ =>
      apply sim.bind_related (sim.find_related permitted rfl scope)
      intro value other linked
      rw [sim.linking.absence linked]
      split
      · exact sim.unescaped_related permitted linked
      · exact sim.skip_related
  | sectionOf name children _ _ =>
      have below := sim.children_related inside opened (sim.children_permitted permitted)
      exact sim.section_related below permitted
  | invertedOf name children _ _ =>
      have below := sim.children_related inside opened (sim.children_permitted permitted)
      exact sim.inverted_related below permitted
  | inclusion name _ => exact sim.partial_related inside opened scope permitted
  | comment _ _ | delimiters _ _ => exact sim.skip_related

theorem nodes_related {nodes : List Node} (permitted : ∀ node ∈ nodes, sim.permits node) :
    sim.relates Eq (renderNodes left compile settings source first opened scope nodes)
      (renderNodes right other settings source second opened scope nodes) := by
  induction nodes with
  | nil => exact sim.skip_related
  | cons node rest ih =>
      have headPermitted := permitted node List.mem_cons_self
      have restPermitted : ∀ node ∈ rest, sim.permits node := fun node among =>
        permitted node (List.mem_cons_of_mem _ among)
      apply sim.bind_related (sim.node_related inside opened scope headPermitted)
      intro _ _ _
      exact ih restPermitted

end Levels

/-- Renders as a whole are related, however deep they go. -/
theorem run_by_related (room : Nat) :
    sim.Bodies (runBy left compile settings source room)
      (runBy right other settings source room) := by
  induction room with
  | zero =>
      intro opened scope nodes permitted
      exact sim.nodes_related .none opened scope permitted
  | succ room ih =>
      intro opened scope nodes permitted
      exact sim.nodes_related (.some ih) opened scope permitted

theorem run_related
    (sim : Simulation settings source left right (parse settings) (parse settings)) (room : Nat) :
    sim.Bodies (runWith left settings source room) (runWith right settings source room) :=
  sim.run_by_related room

end Simulation

namespace Rendering

variable {α β γ δ : Type}

/-- Two results in step: both good and so related, or the same error. -/
inductive InStep (joined : RenderState → RenderState → Prop) (results : α → β → Prop) :
    EStateM.Result Error RenderState α → EStateM.Result Error RenderState β → Prop
  | ok {one other behind after} : results one other → joined behind after →
      InStep joined results (.ok one behind) (.ok other after)
  | error (error : Error) {behind after} : joined behind after →
      InStep joined results (.error error behind) (.error error after)

def Lockstep (joined : RenderState → RenderState → Prop) (results : α → β → Prop)
    (first : Rendering α) (second : Rendering β) : Prop :=
  ∀ state other, joined state other → InStep joined results (first state) (second other)

section Steps

variable {joined : RenderState → RenderState → Prop} {results : α → β → Prop}

theorem lockstep_pure {one : α} {other : β} (related : results one other) :
    Lockstep joined results (pure one) (pure other) :=
  fun _ _ states => .ok related states

theorem lockstep_throw (error : Error) :
    Lockstep joined results (throw error) (throw error) :=
  fun _ _ states => .error error states

theorem lockstep_bind {ends : γ → δ → Prop} {first : Rendering α} {second : Rendering β}
    {firstNext : α → Rendering γ} {secondNext : β → Rendering δ}
    (begins : Lockstep joined results first second)
    (goesOn : ∀ one other, results one other →
      Lockstep joined ends (firstNext one) (secondNext other)) :
    Lockstep joined ends (first >>= firstNext) (second >>= secondNext) := by
  intro state other states
  have ran := begins state other states
  rw [bind_apply, bind_apply]
  generalize first state = begun, second other = begunOther at ran ⊢
  cases ran with
  | ok related behind => exact goesOn _ _ related _ _ behind
  | error error behind => exact .error error behind

end Steps

/-- States with the same sink whose caches go together and whose scopes fit each other. -/
structure Beside (caches : Cache → Cache → Prop)
    (fits : Scopes × Journal → Scopes × Journal → Prop) (state other : RenderState) : Prop where
  sink : state.sink = other.sink
  cache : caches state.cache other.cache
  fits : fits (state.scopes, state.journal) (other.scopes, other.journal)

/-- States with the same sink and cache whose scopes fit each other. -/
abbrev Together (fits : Scopes × Journal → Scopes × Journal → Prop) :
    RenderState → RenderState → Prop :=
  Beside Eq fits

section Scopes

variable {caches : Cache → Cache → Prop} {fits : Scopes × Journal → Scopes × Journal → Prop}

theorem lockstep_write (piece : String) :
    Lockstep (Beside caches fits) Eq (write piece) (write piece) := by
  intro state other states
  have sameWrite : other.sink.write piece = state.sink.write piece := by rw [states.sink]
  cases written : state.sink.write piece with
  | mk left took =>
      simp only [write, sameWrite, written]
      cases took with
      | true => exact .ok rfl ⟨rfl, states.cache, states.fits⟩
      | false => exact .error _ ⟨rfl, states.cache, states.fits⟩

theorem lockstep_write_all (pieces : List String) :
    Lockstep (Beside caches fits) Eq (writeAll pieces) (writeAll pieces) := by
  induction pieces with
  | nil => exact lockstep_pure rfl
  | cons piece rest ih => exact lockstep_bind (lockstep_write piece) fun _ _ _ => ih

theorem lockstep_write_escaped (escaped : Escaped) :
    Lockstep (Beside caches fits) Eq (writeEscaped escaped) (writeEscaped escaped) := by
  apply lockstep_bind (lockstep_write_all escaped.pieces)
  intro _ _ _
  split
  · exact lockstep_throw Error.formatting
  · exact lockstep_pure rfl

/-- Compilers that agree on the trees, and on whose caches go together again, compile in step. -/
theorem lockstep_compile_by {settings : Settings} {text : String} {compiler other : Compiler}
    (agree : ∀ {cache record}, caches cache record →
      (compiler settings.delimiters text cache).1 = (other settings.delimiters text record).1 ∧
        caches (compiler settings.delimiters text cache).2
          (other settings.delimiters text record).2) :
    Lockstep (Beside caches fits) Eq (compileBy compiler settings text)
      (compileBy other settings text) := by
  intro state second states
  obtain ⟨same, together⟩ := agree states.cache
  simp only [compileBy]
  generalize compiler settings.delimiters text state.cache = compiled,
    other settings.delimiters text second.cache = compiledOther at same together ⊢
  obtain ⟨outcome, cache⟩ := compiled
  obtain ⟨_, record⟩ := compiledOther
  obtain rfl := same
  cases outcome with
  | ok nodes => exact .ok rfl ⟨states.sink, together, states.fits⟩
  | error error => exact .error error ⟨states.sink, together, states.fits⟩

theorem lockstep_parse (settings : Settings) (text : String) :
    Lockstep (Together fits) Eq (parse settings text) (parse settings text) := by
  apply lockstep_compile_by
  intro cache record same
  rw [same]
  exact ⟨rfl, rfl⟩

/-- Scopes that fit with the same journal go on to fit when a partial has been asked for. -/
theorem lockstep_load_partial (holder : Partials) (name : String)
    (sameJournal : ∀ {scopes journal others journals},
      fits (scopes, journal) (others, journals) → journal = journals)
    (journalFits : ∀ {scopes journal others}, fits (scopes, journal) (others, journal) →
      ∀ behind, fits (scopes, behind) (others, behind)) :
    Lockstep (Beside caches fits) Eq (loadPartial holder name) (loadPartial holder name) := by
  intro state other states
  have same := sameJournal states.fits
  have fitting := states.fits
  rw [← same] at fitting
  have goesOn := journalFits fitting
  cases loaded : holder.load name state.journal with
  | mk found behind =>
      simp only [loadPartial, ← same, loaded]
      cases found with
      | ok text => exact .ok rfl ⟨states.sink, states.cache, goesOn behind⟩
      | error error => exact .error error ⟨states.sink, states.cache, goesOn behind⟩

/-- The scopes fit as inner ones while the bodies run, and as before when they are left. -/
theorem lockstep_within {inner : Scopes × Journal → Scopes × Journal → Prop}
    {view other : Value} {body otherBody : Nat → Rendering Unit} (parent : Nat)
    (sameLength : ∀ {scopes journal others journals},
      fits (scopes, journal) (others, journals) → scopes.length = others.length)
    (pushFits : ∀ {scopes journal others journals},
      fits (scopes, journal) (others, journals) →
        inner (scopes.push parent view, journal) (others.push parent other, journals))
    (tailFits : ∀ {scopes journal others journals},
      inner (scopes, journal) (others, journals) →
        fits (scopes.tail, journal) (others.tail, journals))
    (inside : ∀ scope, Lockstep (Beside caches inner) Eq (body scope) (otherBody scope)) :
    Lockstep (Beside caches fits) Eq (within parent view body) (within parent other otherBody) := by
  intro state second states
  have ran := inside state.scopes.length { state with scopes := state.scopes.push parent view }
    { second with scopes := second.scopes.push parent other }
    ⟨states.sink, states.cache, pushFits states.fits⟩
  simp only [within, ← sameLength states.fits]
  generalize body state.scopes.length { state with scopes := state.scopes.push parent view } =
    finished, otherBody state.scopes.length
      { second with scopes := second.scopes.push parent other } = finishedOther at ran ⊢
  cases ran with
  | ok _ behind => exact .ok rfl ⟨behind.sink, behind.cache, tailFits behind.fits⟩
  | error error behind => exact .error error ⟨behind.sink, behind.cache, tailFits behind.fits⟩

end Scopes

/-- The same scopes and journals, and what is to be kept holds of the scopes. -/
def Same (kept : Scopes → Prop) (one other : Scopes × Journal) : Prop := one = other ∧ kept one.1

section Same

variable {kept : Scopes → Prop}

theorem eq_of_same {state other : RenderState} (states : Together (Same kept) state other) :
    state = other := by
  obtain ⟨sink, scopes, journal, cache⟩ := state
  obtain ⟨_, _, _, _⟩ := other
  obtain ⟨⟨⟩, ⟨⟩, ⟨⟩, _⟩ := states
  rfl

theorem lockstep_load_same (holder : Partials) (name : String) :
    Lockstep (Together (Same kept)) Eq (loadPartial holder name) (loadPartial holder name) := by
  apply lockstep_load_partial
  · intro scopes journal others journals fits
    exact congrArg Prod.snd fits.1
  · intro scopes journal others fits behind
    obtain ⟨⟨⟩, holds⟩ := fits
    exact ⟨rfl, holds⟩

/-- What is kept within a new scope follows from what was before, and gives it back behind. -/
theorem lockstep_within_same {inner : Scopes → Prop} {parent : Nat} {view : Value}
    {body otherBody : Nat → Rendering Unit}
    (pushKeeps : ∀ {scopes : Scopes}, kept scopes → inner (scopes.push parent view))
    (tailKeeps : ∀ {scopes : Scopes}, inner scopes → kept scopes.tail)
    (inside : ∀ scope, Lockstep (Together (Same inner)) Eq (body scope) (otherBody scope)) :
    Lockstep (Together (Same kept)) Eq (within parent view body)
      (within parent view otherBody) := by
  apply lockstep_within parent _ _ _ inside
  · intro scopes journal others journals fits
    cases fits.1
    rfl
  · intro scopes journal others journals fits
    obtain ⟨⟨⟩, holds⟩ := fits
    exact ⟨rfl, pushKeeps holds⟩
  · intro scopes journal others journals fits
    obtain ⟨⟨⟩, holds⟩ := fits
    exact ⟨rfl, tailKeeps holds⟩

end Same

end Rendering

end Mustache
