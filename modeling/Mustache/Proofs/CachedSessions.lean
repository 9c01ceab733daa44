import Mustache.Proofs.Simulation
import Mustache.Session

/-!
Sessions and the trees they keep. A kept tree is the one its source compiles to under the
delimiters in force, whatever was done before. So a session answers as one that compiles every
template anew, and keeps one tree of each source that has compiled since it last dropped them.
-/

namespace Mustache

namespace Cache

/-- Compiles every time. What compiles is put on record, and the record is never gone by. -/
def parseAnew : Compiler := fun delimiters source record =>
  match Node.ofSource delimiters source with
  | .ok nodes => (.ok nodes, (source, nodes) :: record)
  | .error error => (.error error, record)

def sources (cache : Cache) : List String := cache.map Prod.fst

/-- One tree is kept of a source, the one it compiles to. -/
structure Coherent (delimiters : Delimiters) (cache : Cache) : Prop where
  trees : ∀ entry ∈ cache, Node.ofSource delimiters entry.1 = .ok entry.2
  distinct : cache.sources.Nodup

/-- The trees kept are those kept before and those on record since. -/
structure Keeps (delimiters : Delimiters) (before : List String) (cache record : Cache) : Prop
    extends Coherent delimiters cache where
  kept_iff : ∀ source, source ∈ cache.sources ↔ source ∈ before ∨ source ∈ record.sources

theorem coherent_nil (delimiters : Delimiters) : Coherent delimiters [] where
  trees := by simp
  distinct := List.nodup_nil

theorem Coherent.keeps {delimiters : Delimiters} {cache : Cache}
    (coherent : Coherent delimiters cache) : Keeps delimiters cache.sources cache [] where
  toCoherent := coherent
  kept_iff source := by simp [sources]

variable {delimiters : Delimiters} {before : List String} {cache record : Cache}

theorem Keeps.settle (keeps : Keeps delimiters before cache record) :
    Keeps delimiters (record.sources ++ before) cache [] where
  toCoherent := keeps.toCoherent
  kept_iff source := by
    rw [keeps.kept_iff, List.mem_append]
    simp only [sources, List.map_nil, List.not_mem_nil, or_false]
    exact Or.comm

theorem Keeps.length_eq (keeps : Keeps delimiters before cache []) :
    cache.length = before.dedup.length := by
  have same : cache.sources.Perm before.dedup := by
    rw [List.perm_ext_iff_of_nodup keeps.distinct before.nodup_dedup]
    intro source
    simpa [sources] using keeps.kept_iff source
  simpa [sources] using same.length_eq

/-- A source compiles to the tree kept of it, so that going by the trees kept does not show. -/
theorem Keeps.parse (keeps : Keeps delimiters before cache record) (source : String) :
    (Cache.parse delimiters source cache).1 = (parseAnew delimiters source record).1 ∧
      Keeps delimiters before (Cache.parse delimiters source cache).2
        (parseAnew delimiters source record).2 := by
  cases found : cache.lookup source with
  | some nodes =>
      obtain ⟨newer, older, rfl, _⟩ := List.lookup_eq_some_iff.1 found
      have compiles := keeps.trees (source, nodes) (by simp)
      have kept := (keeps.kept_iff source).1 (by simp [sources])
      simp only [Cache.parse, found, parseAnew, compiles]
      refine ⟨trivial, keeps.toCoherent, ?_⟩
      intro other
      rw [keeps.kept_iff]
      by_cases same : other = source
      · subst same
        simpa [sources] using kept
      · simp [sources, same]
  | none =>
      have missing : source ∉ cache.sources := by
        intro kept
        obtain ⟨entry, among, rfl⟩ := List.mem_map.1 kept
        simpa using List.lookup_eq_none_iff.1 found entry among
      cases compiles : Node.ofSource delimiters source with
      | error error =>
          simp only [Cache.parse, found, parseAnew, compiles]
          exact ⟨trivial, keeps⟩
      | ok nodes =>
          simp only [Cache.parse, found, parseAnew, compiles]
          refine ⟨trivial, ⟨?_, List.nodup_cons.2 ⟨missing, keeps.distinct⟩⟩, ?_⟩
          · exact List.forall_mem_cons.2 ⟨compiles, keeps.trees⟩
          · intro other
            have kept := keeps.kept_iff other
            simp only [sources, List.map_cons, List.mem_cons] at kept ⊢
            rw [kept]
            exact or_left_comm

end Cache

namespace Rendering

variable {caches : Cache → Cache → Prop}

theorem lockstep_lookup (scope : Nat) (name : String) :
    Lockstep (Beside caches Eq) Eq (lookup scope name) (lookup scope name) := by
  intro state other states
  obtain ⟨scopes, journal⟩ := Prod.mk.inj states.fits
  simp only [lookup, ← scopes, ← journal]
  exact .ok rfl ⟨states.sink, states.cache, rfl⟩

/-- A render that goes by the trees kept and one that compiles anew, over the same scopes. -/
def keeping (settings : Settings) (source : Option Partials) (before : List String) :
    Simulation settings source lookup lookup (compileBy Cache.parse settings)
      (compileBy Cache.parseAnew settings) where
  permits _ := True
  serves _ := True
  linked := Eq
  relates results first second :=
    Lockstep (Beside (Cache.Keeps settings.delimiters before) Eq) results first second
  children_permitted _ _ _ := trivial
  linking := Value.linking_eq
  pure_related := lockstep_pure
  throw_related _ := lockstep_throw
  bind_related := lockstep_bind
  text_related _ := lockstep_write _
  escaped_related linked := by
    rw [linked]
    exact lockstep_write_escaped _
  unescaped_related _ linked := by
    rw [linked]
    exact lockstep_write _
  find_related _ _ scope := lockstep_lookup scope _
  load_related _ _ := by
    simpa using lockstep_load_partial _ _ (fun fits => (Prod.mk.inj fits).2) fun fits _ => by
      rw [(Prod.mk.inj fits).1]
  parse_related _ := by
    simpa using lockstep_compile_by fun keeps => keeps.parse _
  within_related parent linked inside := by
    rw [linked]
    refine lockstep_within parent ?_ ?_ ?_ inside
    · intro scopes journal others journals fits
      rw [(Prod.mk.inj fits).1]
    · intro scopes journal others journals fits
      cases fits
      rfl
    · intro scopes journal others journals fits
      cases fits
      rfl

end Rendering

/-- What may be done with a session. -/
inductive Operation
  | parse (source : String)
  | render (source : String) (view : Data) (partials : Option Partials)
  | renderInto (template : Template) (view : Data) (partials : Option Partials) (sink : Sink)
  | renderIn (template : Template) (partials : Option Partials) (scopes : Scopes) (scope : Nat)
      (sink : Sink)
  | setDelimiters (opener closer : String)
  | setEscape (escape : Escape)
  | setPartialLimit (limit : Nat)
  | setOpensObjectScopes (yes : Bool)
  | forgetTemplates

inductive Answer
  | template (outcome : Except Error Template)
  | text (outcome : Except Error String)
  | output (outcome : Except Error Unit) (sink : Sink)
  | outputIn (outcome : Except Error Unit) (sink : Sink) (scopes : Scopes)
  | changed (outcome : Except Error Unit)

namespace Session

/-- A session just begun with the settings of this one, at the same journal and registry. -/
def bare (session : Session) : Session := { session with cache := [] }

/-- The session and one that compiles anew: alike but for what they keep. -/
structure Alike (session : Session) (before : List String) (other : Session) : Prop where
  settings : session.settings = other.settings
  journal : session.journal = other.journal
  registry : session.registry = other.registry
  keeps : session.cache.Keeps session.settings.delimiters before other.cache

variable {before : List String} {session other : Session}

theorem Alike.bare (alike : session.Alike before other) : session.bare = other.bare := by
  simp only [Session.bare, alike.settings, alike.journal, alike.registry]

theorem Alike.parse (alike : session.Alike before other) (source : String) :
    (session.parse source).1 = (other.parse source Cache.parseAnew).1 ∧
      (session.parse source).2.Alike before (other.parse source Cache.parseAnew).2 := by
  obtain ⟨settings, cache, journal, registry⟩ := session
  obtain ⟨_, record, _, _⟩ := other
  obtain ⟨⟨⟩, ⟨⟩, ⟨⟩, keeps⟩ := alike
  obtain ⟨same, keeping⟩ := keeps.parse source
  simp only [Session.parse]
  generalize Cache.parse settings.delimiters source cache = parsed,
    Cache.parseAnew settings.delimiters source record = anew at same keeping ⊢
  obtain ⟨outcome, cache⟩ := parsed
  obtain ⟨_, record⟩ := anew
  obtain rfl := same
  cases outcome with
  | ok nodes => exact ⟨rfl, rfl, rfl, rfl, keeping⟩
  | error error => exact ⟨rfl, rfl, rfl, rfl, keeping⟩

theorem Alike.render_in (alike : session.Alike before other) (template : Template)
    (partials : Option Partials) (scopes : Scopes) (scope : Nat) (sink : Sink) :
    let ran := renderIn template partials scopes scope sink session
    let anew := renderIn template partials scopes scope sink other Cache.parseAnew
    ran.1 = anew.1 ∧ ran.2.1.sink = anew.2.1.sink ∧ ran.2.1.scopes = anew.2.1.scopes ∧
      ran.2.2.Alike before anew.2.2 := by
  obtain ⟨settings, cache, journal, registry⟩ := session
  obtain ⟨_, record, _, _⟩ := other
  obtain ⟨⟨⟩, ⟨⟩, ⟨⟩, keeps⟩ := alike
  have ran := (Rendering.keeping settings partials before).run_by_related nestingLimit 0 scope
    template.nodes (fun _ _ => trivial) ⟨sink, scopes, journal, cache⟩
    ⟨sink, scopes, journal, record⟩ ⟨rfl, keeps, rfl⟩
  simp only [renderIn]
  generalize Rendering.runBy _ _ _ _ _ 0 scope template.nodes ⟨sink, scopes, journal, cache⟩ =
    finished at ran ⊢
  generalize Rendering.runBy _ _ _ _ _ 0 scope template.nodes ⟨sink, scopes, journal, record⟩ =
    finishedAnew at ran ⊢
  cases ran with
  | ok _ states =>
      obtain ⟨sinks, keeping, fits⟩ := states
      obtain ⟨sameScopes, sameJournal⟩ := Prod.mk.inj fits
      exact ⟨rfl, sinks, sameScopes, rfl, sameJournal, rfl, keeping⟩
  | error error states =>
      obtain ⟨sinks, keeping, fits⟩ := states
      obtain ⟨sameScopes, sameJournal⟩ := Prod.mk.inj fits
      exact ⟨rfl, sinks, sameScopes, rfl, sameJournal, rfl, keeping⟩

theorem Alike.render_into (alike : session.Alike before other) (template : Template)
    (view : Data) (partials : Option Partials) (sink : Sink) :
    let ran := renderInto template view partials sink session
    let anew := renderInto template view partials sink other Cache.parseAnew
    ran.1 = anew.1 ∧ ran.2.1 = anew.2.1 ∧ ran.2.2.Alike before anew.2.2 := by
  have converted (registry : Registry) :
      Alike { session with registry } before { other with registry } :=
    ⟨alike.settings, alike.journal, rfl, alike.keeps⟩
  simp only [renderInto, ← alike.registry]
  cases view.toValue? session.registry with
  | mk found registry =>
      cases found with
      | error error => exact ⟨rfl, rfl, converted registry⟩
      | ok value =>
          have ran := (converted registry).render_in template partials (.root value) 0 sink
          exact ⟨ran.1, ran.2.1, ran.2.2.2⟩

theorem Alike.render (alike : session.Alike before other) (template : Template) (view : Data)
    (partials : Option Partials) :
    let ran := session.render template view partials
    let anew := other.render template view partials Cache.parseAnew
    ran.1 = anew.1 ∧ ran.2.Alike before anew.2 := by
  have ran := alike.render_into template view partials .unbounded
  simp only [Session.render]
  rw [ran.1, ran.2.1]
  exact ⟨rfl, ran.2.2⟩

/-- A change of the settings that leaves the delimiters leaves the trees valid. -/
theorem Alike.with_settings (alike : session.Alike before other) (change : Settings → Settings)
    (same : ∀ settings, (change settings).delimiters = settings.delimiters) :
    Alike { session with settings := change session.settings } before
      { other with settings := change other.settings } where
  settings := congrArg change alike.settings
  journal := alike.journal
  registry := alike.registry
  keeps := by
    simp only [same]
    exact alike.keeps

theorem Alike.forgotten (alike : session.Alike before other) (change : Settings → Settings) :
    Alike { session with settings := change session.settings, cache := [] } []
      { other with settings := change other.settings, cache := [] } where
  settings := congrArg change alike.settings
  journal := alike.journal
  registry := alike.registry
  keeps := (Cache.coherent_nil _).keeps

end Session

namespace Operation

/-- What the operation answers, and the session after it. -/
def perform (operation : Operation) (session : Session) (compiler : Compiler := Cache.parse) :
    Answer × Session :=
  match operation with
  | .parse source =>
      let (outcome, session) := session.parse source compiler
      (.template outcome, session)
  | .render source view partials =>
      match session.parse source compiler with
      | (.error error, session) => (.text (.error error), session)
      | (.ok template, session) =>
          let (outcome, session) := session.render template view partials compiler
          (.text outcome, session)
  | .renderInto template view partials sink =>
      let (outcome, sink, session) := session.renderInto template view partials sink compiler
      (.output outcome sink, session)
  | .renderIn template partials scopes scope sink =>
      let (outcome, state, session) :=
        session.renderIn template partials scopes scope sink compiler
      (.outputIn outcome state.sink state.scopes, session)
  | .setDelimiters opener closer =>
      let (outcome, session) := session.setDelimiters opener closer
      (.changed outcome, session)
  | .setEscape escape => (.changed (.ok ()), session.setEscape escape)
  | .setPartialLimit limit => (.changed (.ok ()), session.setPartialLimit limit)
  | .setOpensObjectScopes yes => (.changed (.ok ()), session.setOpensObjectScopes yes)
  | .forgetTemplates => (.changed (.ok ()), session.forgetTemplates)

/-- Whether the operation drops the trees kept until then. -/
def startsOver : Operation → Bool
  | .setDelimiters opener closer => (Delimiters.ofStrings opener closer).isOk
  | .forgetTemplates => true
  | _ => false

theorem perform_alike {before : List String} {session other : Session}
    (alike : session.Alike before other) (operation : Operation) :
    let ran := operation.perform session
    let anew := operation.perform other Cache.parseAnew
    ran.1 = anew.1 ∧ ran.2.Alike (if operation.startsOver then [] else before) anew.2 := by
  cases operation with
  | parse source =>
      obtain ⟨same, after⟩ := alike.parse source
      exact ⟨congrArg Answer.template same, after⟩
  | render source view partials =>
      obtain ⟨same, after⟩ := alike.parse source
      simp only [perform]
      generalize session.parse source = parsed, other.parse source Cache.parseAnew = anew
        at same after ⊢
      obtain ⟨outcome, session⟩ := parsed
      obtain ⟨_, other⟩ := anew
      obtain rfl := same
      cases outcome with
      | error error => exact ⟨rfl, after⟩
      | ok template =>
          obtain ⟨same, after⟩ := after.render template view partials
          exact ⟨congrArg Answer.text same, after⟩
  | renderInto template view partials sink =>
      obtain ⟨same, sinks, after⟩ := alike.render_into template view partials sink
      exact ⟨congrArg₂ Answer.output same sinks, after⟩
  | renderIn template partials scopes scope sink =>
      obtain ⟨same, sinks, sameScopes, after⟩ :=
        alike.render_in template partials scopes scope sink
      refine ⟨?_, after⟩
      simp only [perform]
      rw [same, sinks, sameScopes]
  | setDelimiters opener closer =>
      cases installed : Delimiters.ofStrings opener closer with
      | error error =>
          simp only [perform, startsOver, Session.setDelimiters, installed]
          exact ⟨trivial, alike⟩
      | ok delimiters =>
          simp only [perform, startsOver, Session.setDelimiters, installed]
          exact ⟨trivial, alike.forgotten fun settings => { settings with delimiters }⟩
  | setEscape escape =>
      exact ⟨rfl, alike.with_settings (fun settings => { settings with escape }) fun _ => rfl⟩
  | setPartialLimit limit =>
      exact ⟨rfl, alike.with_settings (fun settings => { settings with partialLimit := limit })
        fun _ => rfl⟩
  | setOpensObjectScopes yes =>
      exact ⟨rfl, alike.with_settings
        (fun settings => { settings with opensObjectScopes := yes }) fun _ => rfl⟩
  | forgetTemplates => exact ⟨rfl, alike.forgotten id⟩

/-- The operation where nothing is kept: what it answers, the session after it, and the sources
of the templates and partials that compiled on the way. -/
def performAnew (operation : Operation) (session : Session) : Answer × Session × List String :=
  let (answer, after) := operation.perform session.bare Cache.parseAnew
  (answer, after.bare, after.cache.sources)

def performAll : List Operation → Session → List Answer × Session
  | [], session => ([], session)
  | operation :: rest, session =>
      let (answer, session) := operation.perform session
      let (answers, session) := performAll rest session
      (answer :: answers, session)

/-- The operations where nothing is kept, and what has compiled since trees were last to be
dropped. -/
def performAllAnew :
    List Operation → Session → List String → List Answer × Session × List String
  | [], session, compiled => ([], session, compiled)
  | operation :: rest, session, compiled =>
      let (answer, session, more) := operation.performAnew session
      let since := if operation.startsOver then [] else compiled
      let (answers, session, compiled) := performAllAnew rest session (more ++ since)
      (answer :: answers, session, compiled)

theorem perform_anew_alike {compiled : List String} {session plain : Session}
    (alike : session.Alike compiled plain.bare) (operation : Operation) :
    let ran := operation.perform session
    let anew := operation.performAnew plain
    ran.1 = anew.1 ∧
      ran.2.Alike (anew.2.2 ++ if operation.startsOver then [] else compiled) anew.2.1.bare := by
  obtain ⟨same, after⟩ := operation.perform_alike alike
  exact ⟨same, after.settings, after.journal, after.registry, after.keeps.settle⟩

theorem perform_all_alike {compiled : List String} {session plain : Session}
    (alike : session.Alike compiled plain.bare) (operations : List Operation) :
    let ran := performAll operations session
    let anew := performAllAnew operations plain compiled
    ran.1 = anew.1 ∧ ran.2.Alike anew.2.2 anew.2.1.bare := by
  induction operations generalizing compiled session plain with
  | nil => exact ⟨rfl, alike⟩
  | cons operation rest ih =>
      obtain ⟨same, after⟩ := operation.perform_anew_alike alike
      obtain ⟨answers, last⟩ := ih after
      exact ⟨congrArg₂ List.cons same answers, last⟩

end Operation

-- the tree of "a" goes with the old delimiters, and what does not compile is not kept
example :
    let steps : List Operation :=
      [.parse "a", .setDelimiters "<" ">", .parse "<x>", .parse "<#x>", .parse "<x>", .parse "b"]
    (Operation.performAll steps (.start (.start ""))).2.cache.sources = ["b", "<x>"] ∧
      (Operation.performAllAnew steps (.start (.start "")) []).2.2 = ["b", "<x>", "<x>"] := by
  cbv

end Mustache
