import Mustache.Proofs.Simulation
import Mustache.Session

/-!
Scopes over values that stand for each other. If the members of such values stand for each other
again, for the keys that are read, then so does what a name is answered with in the scopes, and
the memos of the scopes come to hold such values in their turn. What objects are asked may differ
on the two sides, as far as the journals go together.
-/

namespace Mustache

/-- What two lookups found, and the journals after them. -/
def Answers (linked : Value → Value → Prop) (together : Journal → Journal → Prop)
    (first second : Option Value × Journal) : Prop :=
  Option.Rel linked first.1 second.1 ∧ together first.2 second.2

/-- Values that stand for each other are told apart neither as a whole nor by the members that
are read of them. -/
structure Value.Answering (linked : Value → Value → Prop) (together : Journal → Journal → Prop)
    (reads : String → Prop) : Prop extends Value.Linking linked where
  undefined : linked .undefined .undefined
  member : ∀ {value other journal journals}, linked value other → together journal journals →
    ∀ {key}, reads key →
      Answers linked together (value.member key journal) (other.member key journals)

theorem map_eq_map_iff_linked {α β : Type} {f : α → β} {items others : List α} :
    items.map f = others.map f ↔
      List.Forall₂ (fun item other => f item = f other) items others := by
  rw [← List.forall₂_eq_eq_eq, List.forall₂_map_left_iff, List.forall₂_map_right_iff]

theorem item_linked {linked : Value → Value → Prop} {items others : List Value}
    (related : List.Forall₂ linked items others) (key : String) :
    Option.Rel linked ((index? key).bind fun index => items[index]?)
      ((index? key).bind fun index => others[index]?) := by
  cases index? key with
  | none => exact .none
  | some index =>
      change Option.Rel linked items[index]? others[index]?
      induction related generalizing index with
      | nil => exact .none
      | cons same _ ih =>
          cases index with
          | zero => exact .some same
          | succ index => exact ih index

/-- Entries of the same keys, in the same order, with values that stand for each other. -/
abbrev EntriesLinked (linked : Value → Value → Prop) : Members Value → Members Value → Prop :=
  List.Forall₂ fun entry other => entry.1 = other.1 ∧ linked entry.2 other.2

theorem EntriesLinked.get {linked : Value → Value → Prop} {entries others : Members Value}
    (related : EntriesLinked linked entries others) (key : String) :
    Option.Rel linked (entries.lookup key) (others.lookup key) := by
  induction related with
  | nil => exact .none
  | @cons entry other _ _ same _ ih =>
      obtain ⟨present, kept⟩ := entry
      obtain ⟨_, otherKept⟩ := other
      obtain ⟨rfl, related⟩ := same
      simp only [List.lookup_cons]
      split
      · exact .some related
      · exact ih

theorem EntriesLinked.same_keys {linked : Value → Value → Prop} {entries others : Members Value}
    (related : EntriesLinked linked entries others) (key : String) :
    (entries.get? key).isSome = (others.get? key).isSome := by
  have found : Option.Rel linked (entries.get? key) (others.get? key) := related.get key
  generalize entries.get? key = first, others.get? key = second at found ⊢
  cases found <;> rfl

theorem EntriesLinked.found {linked : Value → Value → Prop} {entries others : Members Value}
    (related : EntriesLinked linked entries others) {key : String} {value other : Value}
    (first : entries.get? key = some value) (second : others.get? key = some other) :
    linked value other := by
  have found : Option.Rel linked (entries.get? key) (others.get? key) := related.get key
  rw [first, second] at found
  cases found with
  | some related => exact related

/-- Scopes alike but for values that stand for each other. -/
structure Scope.Linked (linked : Value → Value → Prop) (scope other : Scope) : Prop where
  view : linked scope.view other.view
  parent : scope.parent = other.parent
  memo : EntriesLinked linked scope.memo other.memo

theorem Scope.Linked.remember {linked : Value → Value → Prop} {scope otherScope : Scope}
    (related : scope.Linked linked otherScope) (name : String) {value other : Value}
    (answers : linked value other) :
    (scope.remember name value).Linked linked (otherScope.remember name other) :=
  ⟨related.view, related.parent, .cons ⟨rfl, answers⟩ related.memo⟩

section Lookups

variable {linked : Value → Value → Prop} {together : Journal → Journal → Prop}
  {reads : String → Prop} (answering : Value.Answering linked together reads)
  {journal journals : Journal}

include answering

theorem Value.Answering.follow {value other : Value} (related : linked value other)
    (agree : together journal journals) {segments : List String}
    (read : ∀ segment ∈ segments, reads segment) :
    Answers linked together (value.follow segments journal) (other.follow segments journals) := by
  induction segments generalizing value other journal journals with
  | nil =>
      simp only [Value.follow, ← answering.absence related]
      split
      · exact ⟨.none, agree⟩
      · exact ⟨.some related, agree⟩
  | cons segment rest ih =>
      obtain ⟨readHere, readBehind⟩ := List.forall_mem_cons.1 read
      have members := answering.member related agree readHere
      simp only [Value.follow, ← answering.absence related]
      split
      · exact ⟨.none, agree⟩
      · generalize value.member segment journal = answered,
          other.member segment journals = answeredOther at members ⊢
        obtain ⟨next, behind⟩ := answered
        obtain ⟨otherNext, behindOther⟩ := answeredOther
        obtain ⟨found, agree⟩ := members
        cases found with
        | none => exact ⟨.none, agree⟩
        | some related => exact ih related agree readBehind

theorem Scope.Linked.resolve {scope otherScope : Scope} (related : scope.Linked linked otherScope)
    (agree : together journal journals) {name : String}
    (read : ∀ segment ∈ segments name, reads segment) :
    Answers linked together (scope.resolve name journal) (otherScope.resolve name journals) := by
  simp only [Scope.resolve]
  split
  · exact ⟨.some related.view, agree⟩
  · exact answering.follow related.view agree read

/-- A lookup answers with values that stand for each other, and leaves scopes that do. -/
theorem Scopes.lookup_linked {scopes others : Scopes}
    (related : List.Forall₂ (Scope.Linked linked) scopes others) (number : Nat)
    (agree : together journal journals) {name : String}
    (read : ∀ segment ∈ segments name, reads segment) :
    let found := scopes.lookup name number journal
    let foundOther := others.lookup name number journals
    linked found.1 foundOther.1 ∧
      List.Forall₂ (Scope.Linked linked) found.2.1 foundOther.2.1 ∧
      together found.2.2 foundOther.2.2 := by
  induction related generalizing number journal journals with
  | nil => exact ⟨answering.undefined, .nil, agree⟩
  | @cons scope otherScope older otherOlder same olderRelated ih =>
      simp only [Scopes.lookup, ← olderRelated.length_eq]
      split
      · have remembered := same.memo.get name
        generalize scope.memo.lookup name = memo, otherScope.memo.lookup name = otherMemo
          at remembered ⊢
        cases remembered with
        | some answers => exact ⟨answers, .cons same olderRelated, agree⟩
        | none =>
            have resolved := same.resolve answering agree read
            generalize scope.resolve name journal = answered,
              otherScope.resolve name journals = answeredOther at resolved ⊢
            obtain ⟨found, behind⟩ := answered
            obtain ⟨foundOther, behindOther⟩ := answeredOther
            obtain ⟨answers, agree⟩ := resolved
            cases answers with
            | some answers =>
                exact ⟨answers, .cons (same.remember name answers) olderRelated, agree⟩
            | none =>
                simp only [← same.parent]
                cases scope.parent with
                | none =>
                    have missed := same.remember name answering.undefined
                    exact ⟨answering.undefined, .cons missed olderRelated, agree⟩
                | some parent =>
                    -- the parent is among the older scopes, so the induction is on these
                    obtain ⟨answers, olderRelated, agree⟩ := ih parent agree
                    exact ⟨answers, .cons (same.remember name answers) olderRelated, agree⟩
      · obtain ⟨answers, olderRelated, agree⟩ := ih number agree
        exact ⟨answers, .cons same olderRelated, agree⟩

end Lookups

namespace Rendering

/-- Scopes alike but for values that stand for each other, and journals that go together. -/
def LinkedScopes (linked : Value → Value → Prop) (together : Journal → Journal → Prop)
    (one other : Scopes × Journal) : Prop :=
  List.Forall₂ (Scope.Linked linked) one.1 other.1 ∧ together one.2 other.2

section Steps

variable {linked : Value → Value → Prop} {together : Journal → Journal → Prop}
  {caches : Cache → Cache → Prop}

theorem LinkedScopes.push {scopes others : Scopes} {journal journals : Journal}
    (fits : LinkedScopes linked together (scopes, journal) (others, journals))
    {view other : Value} (related : linked view other) (parent : Nat) :
    LinkedScopes linked together (scopes.push parent view, journal)
      (others.push parent other, journals) :=
  ⟨.cons ⟨related, rfl, .nil⟩ fits.1, fits.2⟩

theorem LinkedScopes.tail {scopes others : Scopes} {journal journals : Journal}
    (fits : LinkedScopes linked together (scopes, journal) (others, journals)) :
    LinkedScopes linked together (scopes.tail, journal) (others.tail, journals) := by
  obtain ⟨related, agree⟩ := fits
  refine ⟨?_, agree⟩
  cases related with
  | nil => exact .nil
  | cons _ older => exact older

theorem lockstep_lookup_linked {reads : String → Prop}
    (answering : Value.Answering linked together reads) {name : String}
    (read : ∀ segment ∈ segments name, reads segment) (scope : Nat) :
    Lockstep (Beside caches (LinkedScopes linked together)) linked (lookup scope name)
      (lookup scope name) := by
  intro state other states
  obtain ⟨related, agree⟩ := states.fits
  obtain ⟨answers, related, agree⟩ := Scopes.lookup_linked answering related scope agree read
  exact .ok answers ⟨states.sink, states.cache, related, agree⟩

theorem lockstep_load_linked {source : Partials} {name : String}
    (loads : ∀ {journal journals}, together journal journals →
      (source.load name journal).1 = (source.load name journals).1 ∧
        together (source.load name journal).2 (source.load name journals).2) :
    Lockstep (Beside caches (LinkedScopes linked together)) Eq (loadPartial source name)
      (loadPartial source name) := by
  intro state other states
  obtain ⟨related, agree⟩ := states.fits
  obtain ⟨same, agreeBehind⟩ := loads agree
  simp only [loadPartial]
  generalize source.load name state.journal = loaded, source.load name other.journal = loadedOther
    at same agreeBehind ⊢
  obtain ⟨found, behind⟩ := loaded
  obtain ⟨_, behindOther⟩ := loadedOther
  obtain rfl := same
  cases found with
  | ok text => exact .ok rfl ⟨states.sink, states.cache, related, agreeBehind⟩
  | error error => exact .error error ⟨states.sink, states.cache, related, agreeBehind⟩

theorem lockstep_within_linked {view other : Value} (related : linked view other) (parent : Nat)
    {body otherBody : Nat → Rendering Unit}
    (inside : ∀ scope, Lockstep (Beside caches (LinkedScopes linked together)) Eq (body scope)
      (otherBody scope)) :
    Lockstep (Beside caches (LinkedScopes linked together)) Eq (within parent view body)
      (within parent other otherBody) := by
  apply lockstep_within parent _ _ _ inside
  · intro scopes journal others journals fits
    exact fits.1.length_eq
  · intro scopes journal others journals fits
    exact fits.push related parent
  · intro scopes journal others journals fits
    exact fits.tail

end Steps

/-- Results in step keep what the first action is known to give. -/
theorem Lockstep.giving {α β : Type} {joined : RenderState → RenderState → Prop}
    {results : α → β → Prop} {first : Rendering α} {second : Rendering β}
    (locked : Lockstep joined results first second) {good : α → Prop}
    (gives : ∀ {state other one behind}, joined state other → first state = .ok one behind →
      good one) :
    Lockstep joined (fun one other => results one other ∧ good one) first second := by
  intro state other states
  have step := locked state other states
  have given : ∀ one behind, first state = .ok one behind → good one := fun _ _ => gives states
  generalize first state = finished, second other = finishedOther at step given ⊢
  cases step with
  | ok related behind => exact .ok ⟨related, given _ _ rfl⟩ behind
  | error error behind => exact .error error behind

/-- Partials are loaded alike where the journals go together, and leave journals that do. -/
def LoadsAlike (together : Journal → Journal → Prop) (source : Option Partials) : Prop :=
  ∀ holder ∈ source, ∀ name {journal journals}, together journal journals →
    (holder.load name journal).1 = (holder.load name journals).1 ∧
      together (holder.load name journal).2 (holder.load name journals).2

/-- Views whose values stand for each other in all that is read of them make renders that go in
step. -/
def standing (settings : Settings) {source : Option Partials} {linked : Value → Value → Prop}
    {together : Journal → Journal → Prop}
    (answering : Value.Answering linked together fun _ => True)
    (display : ∀ {value other}, linked value other → value.display = other.display)
    (loads : LoadsAlike together source) :
    Simulation settings source lookup lookup (parse settings) (parse settings) where
  permits _ := True
  serves _ := True
  linked := linked
  relates results first second :=
    Lockstep (Together (LinkedScopes linked together)) results first second
  children_permitted _ _ _ := trivial
  linking := answering.toLinking
  pure_related := lockstep_pure
  throw_related _ := lockstep_throw
  bind_related := lockstep_bind
  text_related _ := lockstep_write _
  escaped_related related := by
    rw [display related]
    exact lockstep_write_escaped _
  unescaped_related _ related := by
    rw [display related]
    exact lockstep_write _
  find_related _ _ scope := lockstep_lookup_linked answering (fun _ _ => trivial) scope
  load_related _ held := by
    simpa using lockstep_load_linked (loads _ (Option.mem_def.2 held) _)
  parse_related _ := by simpa using lockstep_parse settings _
  within_related parent related inside := lockstep_within_linked related parent inside

end Rendering

namespace Session

/-- A render in a scope comes to the same where its run and the other are in step. -/
theorem render_in_of_in_step (session other : Session) {template : Template}
    {partials : Option Partials} {scopes others : Scopes} {scope : Nat} {sink : Sink}
    {joined : RenderState → RenderState → Prop}
    (ran : Rendering.InStep joined Eq
      (Rendering.run session.settings partials nestingLimit 0 scope template.nodes
        ⟨sink, scopes, session.journal, session.cache⟩)
      (Rendering.run other.settings partials nestingLimit 0 scope template.nodes
        ⟨sink, others, other.journal, other.cache⟩))
    (sinks : ∀ {state after}, joined state after → state.sink = after.sink) :
    let ran := session.renderIn template partials scopes scope sink
    let ranOther := other.renderIn template partials others scope sink
    ran.1 = ranOther.1 ∧ ran.2.1.sink = ranOther.2.1.sink := by
  simp only [Rendering.run, Rendering.runWith, Rendering.parse] at ran
  simp only [renderIn]
  generalize Rendering.runBy _ _ _ _ _ 0 scope template.nodes
    ⟨sink, scopes, session.journal, session.cache⟩ = finished at ran ⊢
  generalize Rendering.runBy _ _ _ _ _ 0 scope template.nodes
    ⟨sink, others, other.journal, other.cache⟩ = finishedOther at ran ⊢
  cases ran with
  | ok _ states => exact ⟨rfl, sinks states⟩
  | error error states => exact ⟨rfl, sinks states⟩

/-- Views render alike where the values they come to do. -/
theorem render_of_render_in {template : Template} {partials : Option Partials}
    {view otherView : Data} {value other : Value} {session : Session}
    (converts : (view.toValue? session.registry).1 = .ok value)
    (otherConverts : (otherView.toValue? session.registry).1 = .ok other)
    (same : ∀ (registry otherRegistry : Registry) (sink : Sink),
      let ran := { session with registry }.renderIn template partials (.root value) 0 sink
      let ranOther :=
        { session with registry := otherRegistry }.renderIn template partials (.root other) 0 sink
      ran.1 = ranOther.1 ∧ ran.2.1.sink = ranOther.2.1.sink) :
    (session.render template view partials).1 = (session.render template otherView partials).1 ∧
      ∀ sink : Sink,
        let ran := session.renderInto template view partials sink
        let ranOther := session.renderInto template otherView partials sink
        ran.1 = ranOther.1 ∧ ran.2.1 = ranOther.2.1 := by
  have rendersInto (sink : Sink) :
      let ran := session.renderInto template view partials sink
      let ranOther := session.renderInto template otherView partials sink
      ran.1 = ranOther.1 ∧ ran.2.1 = ranOther.2.1 := by
    simp only [renderInto]
    generalize view.toValue? session.registry = converted,
      otherView.toValue? session.registry = otherConverted at converts otherConverts ⊢
    obtain ⟨_, registry⟩ := converted
    obtain ⟨_, otherRegistry⟩ := otherConverted
    obtain rfl := converts
    obtain rfl := otherConverts
    exact same registry otherRegistry sink
  refine ⟨?_, rendersInto⟩
  obtain ⟨outcomes, sinks⟩ := rendersInto .unbounded
  simp only [render]
  rw [outcomes, sinks]

/-- Views render alike where their values stand for each other in all that is read of them. -/
theorem renders_standing {linked : Value → Value → Prop} {together : Journal → Journal → Prop}
    (answering : Value.Answering linked together fun _ => True)
    (display : ∀ {value other}, linked value other → value.display = other.display)
    {value other : Value} (related : linked value other) (session : Session)
    (agree : together session.journal session.journal) (template : Template)
    {partials : Option Partials} (loads : Rendering.LoadsAlike together partials)
    {view otherView : Data} (converts : (view.toValue? session.registry).1 = .ok value)
    (otherConverts : (otherView.toValue? session.registry).1 = .ok other) :
    (session.render template view partials).1 = (session.render template otherView partials).1 ∧
      ∀ sink : Sink,
        let ran := session.renderInto template view partials sink
        let ranOther := session.renderInto template otherView partials sink
        ran.1 = ranOther.1 ∧ ran.2.1 = ranOther.2.1 := by
  apply render_of_render_in converts otherConverts
  intro registry otherRegistry sink
  have roots : List.Forall₂ (Scope.Linked linked) (Scopes.root value) (Scopes.root other) :=
    .cons ⟨related, rfl, .nil⟩ .nil
  have ran := (Rendering.standing session.settings answering display loads).run_related
    nestingLimit 0 0 template.nodes (fun _ _ => trivial)
    ⟨sink, .root value, session.journal, session.cache⟩
    ⟨sink, .root other, session.journal, session.cache⟩ ⟨rfl, rfl, roots, agree⟩
  exact render_in_of_in_step { session with registry } { session with registry := otherRegistry }
    ran fun states => states.sink

end Session

end Mustache
