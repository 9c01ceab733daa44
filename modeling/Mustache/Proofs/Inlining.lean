import Mustache.Proofs.CachedSessions
import Mustache.Proofs.Containers
import Mustache.Proofs.PartialLimit

/-!
Partials put in place. The tag of a partial may give way to the nodes of the partial: what was
rendered with the tag is rendered without it and comes to the same output. The nodes then have a
level more of room and a partial less is open, which makes no difference to what succeeds; and
what loading the partial has left behind, a tree that is kept and a name that was asked for, is
not missed.
-/

namespace Mustache

namespace Value

/-- What holds of a value if it holds of the values in it holds of all values. -/
@[elab_as_elim]
theorem induction {motive : Value → Prop} (undefined : motive .undefined) (none : motive .none)
    (bool : ∀ truth, motive (.bool truth)) (unsigned : ∀ number, motive (.unsigned number))
    (signed : ∀ number, motive (.signed number)) (float : ∀ number, motive (.float number))
    (text : ∀ content, motive (.text content))
    (list : ∀ items : List Value, (∀ item ∈ items, motive item) → motive (.list items))
    (map : ∀ members : Members Value, (∀ member ∈ members, motive member.2) →
      motive (.map members))
    (object : ∀ entity : Object Value,
      (∀ history key value, entity.answer history key = some value → motive value) →
      (∀ items, entity.items = some items → ∀ item ∈ items, motive item) →
      motive (.object entity))
    (value : Value) : motive value := by
  -- one motive for each type that values are nested in
  refine @Value.rec motive (fun items => ∀ item ∈ items, motive item)
    (fun members => ∀ member ∈ members, motive member.2) (fun entity => motive (.object entity))
    (fun member => motive member.2) (fun found => ∀ value, found = some value → motive value)
    (fun named => ∀ items, named = some items → ∀ item ∈ items, motive item)
    undefined none bool unsigned signed float text list map (fun _ held => held)
    ?_ ?_ ?_ ?_ ?_ (fun _ _ held => held) ?_ ?_ ?_ ?_ value
  · exact fun _ among => absurd among List.not_mem_nil
  · exact fun _ _ first rest => List.forall_mem_cons.2 ⟨first, rest⟩
  · exact fun _ among => absurd among List.not_mem_nil
  · exact fun _ _ first rest => List.forall_mem_cons.2 ⟨first, rest⟩
  · exact fun _ _ _ _ _ _ answers below => object _ answers below
  · exact fun _ found => nomatch found
  · exact fun _ held _ found => Option.some.inj found ▸ held
  · exact fun _ found => nomatch found
  · exact fun _ held _ found => Option.some.inj found ▸ held

/-- The object is in the value, at any depth. -/
inductive Contains (entity : Object Value) : Value → Prop
  | itself : Contains entity (.object entity)
  | item {items : List Value} {item : Value} (among : item ∈ items)
      (inside : Contains entity item) : Contains entity (.list items)
  | member {members : Members Value} {member : String × Value} (among : member ∈ members)
      (inside : Contains entity member.2) : Contains entity (.map members)
  | answer {other : Object Value} {history : List String} {key : String} {value : Value}
      (answered : other.answer history key = some value) (inside : Contains entity value) :
      Contains entity (.object other)
  | named {other : Object Value} {items : List Value} {item : Value}
      (held : other.items = some items) (among : item ∈ items) (inside : Contains entity item) :
      Contains entity (.object other)

/-- A value stands for itself if its objects of added identities do not go by their history. -/
theorem recast_self {added : Nat → Prop} (value : Value)
    (steady : ∀ entity, value.Contains entity → added entity.id →
      ∀ history key, entity.answer history key = entity.answer [] key) :
    value.Recast added value := by
  induction value using Value.induction with
  | undefined => exact .undefined
  | none => exact .none
  | bool truth => exact .bool truth
  | unsigned number => exact .unsigned number
  | signed number => exact .signed number
  | float number => exact .float number
  | text content => exact .text content
  | list items ih =>
      have below : ∀ item ∈ items, item.Recast added item := fun item among =>
        ih item among fun entity inside => steady entity (.item among inside)
      exact .list rfl (List.forall₂_iff_zip.1 (List.forall₂_same.2 below)).2
  | map members ih =>
      have below : ∀ member ∈ members, member.1 = member.1 ∧ member.2.Recast added member.2 :=
        fun member among =>
          ⟨rfl, ih member among fun entity inside => steady entity (.member among inside)⟩
      exact mapped_recast (List.forall₂_same.2 below)
  | object entity answersIh itemsIh =>
      obtain ⟨id, role, answer, items, shown, inspected⟩ := entity
      have sameAnswer {history histories : List String} (key : String)
          (alike : added id ∨ history = histories) : answer history key = answer histories key := by
        rcases alike with isAdded | rfl
        · have steadyHere := steady _ .itself isAdded
          exact (steadyHere history key).trans (steadyHere histories key).symm
        · rfl
      have below : ∀ item ∈ items.getD [], item.Recast added item := by
        intro item among
        cases items with
        | none => cases among
        | some items =>
            exact itemsIh items rfl item among fun entity inside =>
              steady entity (.named rfl among inside)
      refine .object ?_ ?_ rfl rfl (List.forall₂_iff_zip.1 (List.forall₂_same.2 below)).2
      · intro history histories key alike
        rw [sameAnswer key alike]
      · intro history histories key value other alike answered otherAnswered
        have same := (sameAnswer key alike).symm.trans answered
        obtain rfl := Option.some.inj (otherAnswered.symm.trans same)
        exact answersIh history key other answered fun entity inside =>
          steady entity (.answer answered inside)

end Value

/-- The object is in a view or in a memo. -/
inductive Scope.Contains (entity : Object Value) (scope : Scope) : Prop
  | view (inside : scope.view.Contains entity)
  | memo {entry : String × Value} (among : entry ∈ scope.memo)
      (inside : entry.2.Contains entity)

theorem Scope.recast_self {added : Nat → Prop} {scope : Scope}
    (steady : ∀ entity, scope.Contains entity → added entity.id →
      ∀ history key, entity.answer history key = entity.answer [] key) :
    Scope.Linked (Value.Recast added) scope scope where
  view := scope.view.recast_self fun entity inside => steady entity (.view inside)
  parent := rfl
  memo := by
    apply List.forall₂_same.2
    intro entry among
    exact ⟨rfl, entry.2.recast_self fun entity inside => steady entity (.memo among inside)⟩

namespace Partials

variable {source : Option Partials}

/-- What is answered to the first who asks for a partial. -/
def answer (source : Option Partials) (name : String) : Except Error (Option String) :=
  match source with
  | none => .ok none
  | some holder => (holder.load name []).1

/-- Partials that are the same whatever was asked before. -/
def Pure (source : Option Partials) : Prop :=
  ∀ holder ∈ source, ∀ name journal, (holder.load name journal).1 = answer source name

/-- The identity of the object that is asked for partials, if they come from an object. -/
def Asks (source : Option Partials) (id : Nat) : Prop :=
  ∃ entity : Object Value, source = some (.value (.object entity)) ∧ entity.id = id

theorem load_leaves_others (holder : Partials) (name : String) (journal : Journal) :
    (holder.load name journal).2.AgreeBut (Asks holder) journal := by
  intro id
  cases holder with
  | function answer => exact .inr rfl
  | value holder =>
      rw [load_value]
      cases holder with
      | object entity =>
          by_cases same : id = entity.id
          · exact .inl ⟨entity, rfl, same.symm⟩
          · have apart := journal.history_note entity.id id name
            rw [if_neg same] at apart
            exact .inr apart
      | _ => exact .inr rfl

end Partials

/-- The nodes that the tag of a partial amounts to: none for a partial there is not. -/
inductive Inlined (delimiters : Delimiters) (source : Option Partials) (name : String) :
    List Node → Prop
  | missing (absent : Partials.answer source name = .ok none) :
      Inlined delimiters source name []
  | present {text : String} {nodes : List Node}
      (found : Partials.answer source name = .ok (some text))
      (parsed : Node.ofSource delimiters text = .ok nodes) : Inlined delimiters source name nodes

/-- The second nodes are the first with the tag of one partial, anywhere among them or below
them, replaced by the nodes it amounts to. -/
inductive Inlines (delimiters : Delimiters) (source : Option Partials) :
    List Node → List Node → Prop
  | here {name : String} {inlined : List Node} (amounts : Inlined delimiters source name inlined)
      (span : Span) (rest : List Node) :
      Inlines delimiters source (.inclusion name span :: rest) (inlined ++ rest)
  | later (node : Node) {rest others : List Node} (behind : Inlines delimiters source rest others) :
      Inlines delimiters source (node :: rest) (node :: others)
  | inSection {children others : List Node} (below : Inlines delimiters source children others)
      (name : String) (closing : Nat) (span : Span) (rest : List Node) :
      Inlines delimiters source (.sectionOf name children closing span :: rest)
        (.sectionOf name others closing span :: rest)
  | inInverted {children others : List Node} (below : Inlines delimiters source children others)
      (name : String) (closing : Nat) (span : Span) (rest : List Node) :
      Inlines delimiters source (.invertedOf name children closing span :: rest)
        (.invertedOf name others closing span :: rest)

/-- A text compiles to its tree where the trees kept are those of their texts. -/
theorem Cache.Coherent.parse {delimiters : Delimiters} {cache : Cache}
    (coherent : cache.Coherent delimiters) (text : String) :
    (Cache.parse delimiters text cache).1 = Node.ofSource delimiters text ∧
      (Cache.parse delimiters text cache).2.Coherent delimiters := by
  obtain ⟨same, keeps⟩ := coherent.keeps.parse text
  refine ⟨same.trans ?_, keeps.toCoherent⟩
  rw [Cache.parseAnew]
  cases Node.ofSource delimiters text <;> rfl

namespace Rendering

variable {α β γ δ : Type}

/-- Where the first action succeeds, the second does too. -/
def Carries (joined : RenderState → RenderState → Prop) (results : α → β → Prop)
    (first : Rendering α) (second : Rendering β) : Prop :=
  ∀ state other one behind, joined state other → first state = .ok one behind →
    ∃ two after, second other = .ok two after ∧ results one two ∧ joined behind after

section Steps

variable {joined : RenderState → RenderState → Prop} {results : α → β → Prop}

theorem Lockstep.carries {first : Rendering α} {second : Rendering β}
    (locked : Lockstep joined results first second) : Carries joined results first second := by
  intro state other one behind states ran
  have step := locked state other states
  rw [ran] at step
  generalize second other = finished at step ⊢
  cases step with
  | ok related states => exact ⟨_, _, rfl, related, states⟩

theorem carries_bind {ends : γ → δ → Prop} {first : Rendering α} {second : Rendering β}
    {firstNext : α → Rendering γ} {secondNext : β → Rendering δ}
    (begins : Carries joined results first second)
    (goesOn : ∀ one other, results one other →
      Carries joined ends (firstNext one) (secondNext other)) :
    Carries joined ends (first >>= firstNext) (second >>= secondNext) := by
  intro state other last behind states ran
  rw [bind_apply] at ran ⊢
  cases begun : first state with
  | error error between => simp [begun] at ran
  | ok one between =>
      simp only [begun] at ran
      obtain ⟨two, meanwhile, begunOther, related, states⟩ := begins _ _ _ _ states begun
      simp only [begunOther]
      exact goesOn one two related _ _ _ _ states ran

end Steps

variable {added : Nat → Prop} {caches : Cache → Cache → Prop} {linked : Value → Value → Prop}
  {together : Journal → Journal → Prop}

theorem carries_within {view other : Value} (related : linked view other) (parent : Nat)
    {body otherBody : Nat → Rendering Unit}
    (inside : ∀ scope, Carries (Beside caches (LinkedScopes linked together)) Eq (body scope)
      (otherBody scope)) :
    Carries (Beside caches (LinkedScopes linked together)) Eq (within parent view body)
      (within parent other otherBody) := by
  intro state second one behind states ran
  have pushed : Beside caches (LinkedScopes linked together)
      { state with scopes := state.scopes.push parent view }
      { second with scopes := second.scopes.push parent other } :=
    ⟨states.sink, states.cache, states.fits.push related parent⟩
  simp only [within, ← states.fits.1.length_eq] at ran ⊢
  cases finished : body state.scopes.length
      { state with scopes := state.scopes.push parent view } with
  | error error between => simp [finished] at ran
  | ok value between =>
      obtain ⟨_, after, finishedOther, _, afterStates⟩ :=
        inside _ _ _ _ _ pushed finished
      simp only [finished, EStateM.Result.ok.injEq] at ran
      obtain ⟨_, rfl⟩ := ran
      rw [finishedOther]
      exact ⟨_, _, rfl, trivial, afterStates.sink, afterStates.cache, afterStates.fits.tail⟩

/-- Both caches hold the trees of their sources. -/
def BothCoherent (delimiters : Delimiters) (cache other : Cache) : Prop :=
  cache.Coherent delimiters ∧ other.Coherent delimiters

abbrev Matches (settings : Settings) (added : Nat → Prop) : RenderState → RenderState → Prop :=
  Beside (BothCoherent settings.delimiters)
    (LinkedScopes (Value.Recast added) (Journal.AgreeBut added))

theorem lockstep_parse_coherent {fits : Scopes × Journal → Scopes × Journal → Prop}
    (settings : Settings) (text : String) :
    Lockstep (Beside (BothCoherent settings.delimiters) fits) Eq (parse settings text)
      (parse settings text) := by
  apply lockstep_compile_by
  intro cache record coherent
  have parsed := coherent.1.parse text
  have parsedOther := coherent.2.parse text
  exact ⟨parsed.1.trans parsedOther.1.symm, parsed.2, parsedOther.2⟩

theorem lockstep_load_pure {settings : Settings} {source : Option Partials} {holder : Partials}
    (pureSource : Partials.Pure source) (held : holder ∈ source) (name : String) :
    Lockstep (Matches settings added) Eq (loadPartial holder name) (loadPartial holder name) :=
  lockstep_load_linked fun agree =>
    ⟨(pureSource holder held name _).trans (pureSource holder held name _).symm,
      holder.load_agree agree name⟩

def carrying (settings : Settings) {source : Option Partials} (pureSource : Partials.Pure source) :
    Simulation settings source lookup lookup (parse settings) (parse settings) where
  permits _ := True
  serves _ := True
  linked := Value.Recast (Partials.Asks source)
  relates results first second :=
    Carries (Matches settings (Partials.Asks source)) results first second
  children_permitted _ _ _ := trivial
  linking := Value.Recast.linking
  pure_related related := (lockstep_pure related).carries
  throw_related _ error := (lockstep_throw error).carries
  bind_related := carries_bind
  text_related _ := (lockstep_write _).carries
  escaped_related related := by
    rw [related.display_eq]
    exact (lockstep_write_escaped _).carries
  unescaped_related _ related := by
    rw [related.display_eq]
    exact (lockstep_write _).carries
  find_related _ _ scope :=
    (lockstep_lookup_linked Value.Recast.answering (fun _ _ => trivial) scope).carries
  load_related _ held := by
    simpa using (lockstep_load_pure pureSource (Option.mem_def.2 held) _).carries
  parse_related _ := by simpa using (lockstep_parse_coherent settings _).carries
  within_related parent related inside := carries_within related parent inside

/-- What there is below a level with so much room. -/
def deeper (find : Lookup) (compile : Compile) (settings : Settings) (source : Option Partials) :
    Nat → Option Body
  | 0 => none
  | room + 1 => some (runBy find compile settings source room)

theorem run_by_eq_render_nodes (find : Lookup) (compile : Compile) (settings : Settings)
    (source : Option Partials) (room : Nat) :
    runBy find compile settings source room =
      renderNodes find compile settings source (deeper find compile settings source room) := by
  cases room <;> rfl

theorem run_eq_render_nodes (settings : Settings) (source : Option Partials) (room : Nat) :
    run settings source room = renderNodes lookup (parse settings) settings source
      (deeper lookup (parse settings) settings source room) :=
  run_by_eq_render_nodes lookup (parse settings) settings source room

theorem render_nodes_append (find : Lookup) (compile : Compile) (settings : Settings)
    (source : Option Partials) (inner : Option Body) (opened scope : Nat)
    (nodes others : List Node) :
    renderNodes find compile settings source inner opened scope (nodes ++ others) = (do
      renderNodes find compile settings source inner opened scope nodes
      renderNodes find compile settings source inner opened scope others) := by
  induction nodes with
  | nil => rfl
  | cons node rest ih => rw [List.cons_append, renderNodes, ih, renderNodes, bind_assoc]

/-- What has been done where the tag of a partial has been rendered. -/
theorem render_partial_ok {settings : Settings} {holder : Partials} {name : String}
    {room opened scope : Nat} {state behind : RenderState}
    (ran : renderPartial (parse settings) settings (some holder)
      (deeper lookup (parse settings) settings (some holder) room) opened scope name state =
        .ok () behind) :
    let loaded := holder.load name state.journal
    (loaded.1 = .ok none ∧ behind = { state with journal := loaded.2 }) ∨
      ∃ text nodes cache level, loaded.1 = .ok (some text) ∧ opened < settings.partialLimit ∧
        Cache.parse settings.delimiters text state.cache = (.ok nodes, cache) ∧
        room = level + 1 ∧
        run settings (some holder) level (opened + 1) scope nodes
          { state with journal := loaded.2, cache } = .ok () behind := by
  simp only [renderPartial, bind_apply, loadPartial] at ran
  generalize holder.load name state.journal = loaded at ran ⊢
  obtain ⟨found, journal⟩ := loaded
  cases found with
  | error error => cases ran
  | ok found =>
      cases found with
      | none =>
          cases ran
          exact .inl ⟨rfl, rfl⟩
      | some text =>
          dsimp only at ran
          split at ran
          · cases ran
          next letThrough =>
            simp only [bind_apply, parse, compileBy] at ran
            cases compiled : Cache.parse settings.delimiters text state.cache with
            | mk outcome cache =>
                rw [compiled] at ran
                cases outcome with
                | error error => cases ran
                | ok nodes =>
                    cases room with
                    | zero => cases ran
                    | succ level =>
                        exact .inr ⟨text, nodes, cache, level, rfl, not_le.1 letThrough, compiled,
                          rfl, ran⟩

/-- What the tag of a partial comes to, the nodes it amounts to come to in its place. -/
theorem carries_inlined {settings : Settings} {source : Option Partials}
    (pureSource : Partials.Pure source) {name : String} {inlined : List Node}
    (amounts : Inlined settings.delimiters source name inlined) (span : Span)
    (room opened scope : Nat) :
    Carries (Matches settings (Partials.Asks source)) Eq
      (renderNode lookup (parse settings) settings source
        (deeper lookup (parse settings) settings source room) opened scope (.inclusion name span))
      (run settings source room opened scope inlined) := by
  intro state other one behind states ran
  cases source with
  | none =>
      cases amounts with
      | missing absent =>
          cases ran
          rw [run_eq_render_nodes]
          exact ⟨(), other, rfl, rfl, states⟩
      | present found parsed => cases found
  | some holder =>
      have answered := pureSource holder rfl name state.journal
      have left : (holder.load name state.journal).2.AgreeBut _ other.journal :=
        (Partials.load_leaves_others holder name state.journal).trans states.fits.2
      rcases render_partial_ok ran with ⟨absent, rfl⟩ |
        ⟨text, nodes, cache, level, found, letThrough, compiled, rfl, ran⟩
      · cases amounts with
        | missing _ =>
            rw [run_eq_render_nodes]
            exact ⟨(), other, rfl, rfl, states.sink, states.cache, states.fits.1, left⟩
        | present found _ => cases found.symm.trans (answered.symm.trans absent)
      · have coherent := states.cache.1.parse text
        rw [compiled] at coherent
        cases amounts with
        | missing absent => cases absent.symm.trans (answered.symm.trans found)
        | present foundAgain parsed =>
            cases foundAgain.symm.trans (answered.symm.trans found)
            cases parsed.symm.trans coherent.1.symm
            have sameNodes := (carrying settings pureSource).run_related (level + 1) opened scope
              inlined fun _ _ => trivial
            have joined : Matches settings (Partials.Asks (some holder))
                { state with journal := (holder.load name state.journal).2, cache } other :=
              ⟨states.sink, ⟨coherent.2, states.cache.2⟩, states.fits.1, left⟩
            exact sameNodes _ _ _ _ joined (run_with_more_room letThrough ran)

/-- What a template comes to, it comes to with the nodes of a partial in place of its tag. -/
theorem carries_inlines {settings : Settings} {source : Option Partials}
    (pureSource : Partials.Pure source) {nodes others : List Node}
    (inlines : Inlines settings.delimiters source nodes others) (room opened scope : Nat) :
    Carries (Matches settings (Partials.Asks source)) Eq
      (run settings source room opened scope nodes)
      (run settings source room opened scope others) := by
  let sim := carrying settings pureSource
  have inside (room : Nat) : Option.Rel sim.Bodies
      (deeper lookup (parse settings) settings source room)
      (deeper lookup (parse settings) settings source room) := by
    cases room with
    | zero => exact .none
    | succ level => exact .some (sim.run_related level)
  have sameNodes (room opened scope : Nat) (nodes : List Node) :=
    sim.nodes_related (inside room) opened scope fun node (_ : node ∈ nodes) => trivial
  have sameOutside {children others : List Node}
      (ih : ∀ room opened scope, Carries (Matches settings (Partials.Asks source)) Eq
        (run settings source room opened scope children)
        (run settings source room opened scope others)) (room opened : Nat) :
      Option.Rel (fun body other => ∀ scope,
          sim.relates Eq (body opened scope children) (other opened scope others))
        (deeper lookup (parse settings) settings source room)
        (deeper lookup (parse settings) settings source room) := by
    cases room with
    | zero => exact .none
    | succ level => exact .some (ih level opened)
  induction inlines generalizing room opened scope with
  | here amounts span rest =>
      have placed := carries_inlined pureSource amounts span room opened scope
      rw [run_eq_render_nodes] at placed ⊢
      rw [render_nodes_append]
      exact carries_bind placed fun _ _ _ => sameNodes room opened scope rest
  | later node behind ih =>
      have goesOn := ih room opened scope
      rw [run_eq_render_nodes] at goesOn ⊢
      exact carries_bind (sim.node_related (inside room) opened scope trivial)
        fun _ _ _ => goesOn
  | @inSection children _ _ name closing span rest ih =>
      have permitted : sim.permits (.sectionOf name children closing span) := trivial
      rw [run_eq_render_nodes]
      exact carries_bind (sim.section_related (sameOutside ih room opened) permitted)
        fun _ _ _ => sameNodes room opened scope rest
  | @inInverted children _ _ name closing span rest ih =>
      have permitted : sim.permits (.invertedOf name children closing span) := trivial
      rw [run_eq_render_nodes]
      exact carries_bind (sim.inverted_related (sameOutside ih room opened) permitted)
        fun _ _ _ => sameNodes room opened scope rest

end Rendering

theorem Operation.perform_all_coherent (registry : Registry) (operations : List Operation) :
    let session := (Operation.performAll operations (.start registry)).2
    session.cache.Coherent session.settings.delimiters := by
  have started : (Session.start registry).Alike [] (Session.start registry).bare :=
    ⟨rfl, rfl, rfl, (Cache.coherent_nil _).keeps⟩
  exact (Operation.perform_all_alike started operations).2.keeps.toCoherent

/-- A partial may be put in the place of its tag. Whatever a session has been used for, what it
renders with the tag of a partial, at the top or below sections, it renders with the nodes of the
partial instead, and the output is the same. Partials have to be the same whenever they are asked
for, and an object they come from has to answer the views in the same way. -/
theorem inlining_keeps_output (registry : Registry) (operations : List Operation)
    {source : Option Partials} (pureSource : Partials.Pure source) {scopes : Scopes}
    (steady : ∀ scope ∈ scopes, ∀ entity, scope.Contains entity →
      Partials.Asks source entity.id →
        ∀ history key, entity.answer history key = entity.answer [] key) :
    let session := (Operation.performAll operations (.start registry)).2
    ∀ {nodes others : List Node}, Inlines session.settings.delimiters source nodes others →
      ∀ (room opened scope : Nat) (sink : Sink) (journal : Journal) (behind : RenderState),
        let state : RenderState := ⟨sink, scopes, journal, session.cache⟩
        Rendering.run session.settings source room opened scope nodes state = .ok () behind →
          ∃ after,
            Rendering.run session.settings source room opened scope others state = .ok () after ∧
              after.sink = behind.sink := by
  intro session nodes others inlines room opened scope sink journal behind state ran
  have coherent := Operation.perform_all_coherent registry operations
  have recast : List.Forall₂ (Scope.Linked (Value.Recast (Partials.Asks source))) scopes scopes :=
    List.forall₂_same.2 fun scope among => Scope.recast_self (steady scope among)
  have joined : Rendering.Matches session.settings (Partials.Asks source) state state :=
    ⟨rfl, ⟨coherent, coherent⟩, recast, fun _ => .inr rfl⟩
  obtain ⟨_, after, ranOther, _, states⟩ := Rendering.carries_inlines pureSource inlines room
    opened scope _ _ _ _ joined ran
  exact ⟨after, ranOther, states.sink.symm⟩

theorem recursive_partial_is_inlined_in_a_section :
    let text := "\x7b\x7bn\x7d\x7d\x7b\x7b#items\x7d\x7d\x7b\x7b>p\x7d\x7d\x7b\x7b/items\x7d\x7d"
    let source : Option Partials := some (.ofList [("p", text)])
    let leaf (n : String) : Value := .map [("items", .bool false), ("n", .text n)]
    let view : Value := .map [("items", .list
      [.map [("items", .list [leaf "2", leaf "3"]), ("n", .text "1")], leaf "4"])]
    let nodes : List Node := [.sectionOf "items" [.inclusion "p" ⟨10, 16⟩] 16 ⟨0, 26⟩]
    let others : List Node := [.sectionOf "items"
      [.escaped "n" ⟨0, 5⟩, .sectionOf "items" [.inclusion "p" ⟨15, 21⟩] 21 ⟨5, 31⟩] 16 ⟨0, 26⟩]
    let state : RenderState := ⟨.unbounded, .root view, [], []⟩
    Partials.Pure source ∧ Inlines .braces source nodes others ∧
      (∃ behind, Rendering.run {} source 9 0 0 nodes state = .ok () behind ∧
        behind.sink = .text "1234") ∧
      ∃ after, Rendering.run {} source 9 0 0 others state = .ok () after ∧
        after.sink = .text "1234" := by
  intro text source leaf view nodes others state
  have pureSource : Partials.Pure source := by
    intro holder held name journal
    obtain rfl := Option.some.inj held
    rfl
  have inlines : Inlines .braces source nodes others := by
    have found : Partials.answer source "p" = .ok (some text) := rfl
    have parsed : Node.ofSource .braces text = .ok [.escaped "n" ⟨0, 5⟩,
        .sectionOf "items" [.inclusion "p" ⟨15, 21⟩] 21 ⟨5, 31⟩] := by cbv
    exact .inSection (.here (.present found parsed) ⟨10, 16⟩ []) "items" 16 ⟨0, 26⟩ []
  have rendered : ∃ behind, Rendering.run {} source 9 0 0 nodes state = .ok () behind ∧
      behind.sink = .text "1234" := by
    simp only [source, nodes, state, view, leaf, text]
    refine ⟨_, by cbv, rfl⟩
  obtain ⟨behind, ran, written⟩ := rendered
  have steady : ∀ scope ∈ Scopes.root view, ∀ entity, scope.Contains entity →
      Partials.Asks source entity.id →
        ∀ history key, entity.answer history key = entity.answer [] key := by
    rintro scope _ entity _ ⟨_, held, _⟩
    cases Option.some.inj held
  obtain ⟨after, ranOther, same⟩ := inlining_keeps_output (.start "") [] pureSource steady
    inlines 9 0 0 .unbounded [] behind ran
  exact ⟨pureSource, inlines, ⟨behind, ran, written⟩, after, ranOther, same.trans written⟩

end Mustache
