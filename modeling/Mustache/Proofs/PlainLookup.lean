import Mustache.Proofs.Simulation

/-!
Names looked up without a memo. As long as objects answer a key the same every time, what a
scope remembers is what its view and the views around it answer, so it makes no difference
which names were looked up before, from which scopes and in which order, nor what was
rendered in between.
-/

namespace Mustache

namespace Value

/-- A value whose objects, at any depth, answer a key whatever they were asked before. -/
inductive Steady : Value → Prop
  | undefined : Steady .undefined
  | none : Steady .none
  | bool (truth : Bool) : Steady (.bool truth)
  | unsigned (number : UInt64) : Steady (.unsigned number)
  | signed (number : Int64) : Steady (.signed number)
  | float (number : Float) : Steady (.float number)
  | text (content : String) : Steady (.text content)
  | list {items : List Value} (below : ∀ item ∈ items, Steady item) : Steady (.list items)
  | map {members : List (String × Value)} (below : ∀ member ∈ members, Steady member.2) :
      Steady (.map members)
  | object {entity : Object Value}
      (same : ∀ history key, entity.answer history key = entity.answer [] key)
      (answers : ∀ key value, entity.answer [] key = some value → Steady value)
      (below : ∀ items, entity.items = some items → ∀ item ∈ items, Steady item) :
      Steady (.object entity)

/-- The member as it is answered to the first who asks. -/
def member? (value : Value) (key : String) : Option Value := (value.member key []).1

/-- What the segments lead to, each looked up in what the one before led to. -/
def reach (value : Value) : List String → Option Value
  | [] => some value
  | segment :: rest =>
      match value.member? segment with
      | some next => if next.isAbsent then Option.none else next.reach rest
      | Option.none => Option.none

def answer? (view : Value) (name : String) : Option Value :=
  if name = "." then some view else view.reach (segments name)

theorem member_eq_of_steady {value : Value} (steady : value.Steady) (key : String)
    (journal : Journal) : (value.member key journal).1 = value.member? key := by
  cases steady with
  | object same _ _ => exact same _ key
  | _ => rfl

theorem member_steady {value next : Value} {key : String} (steady : value.Steady)
    (found : value.member? key = some next) : next.Steady := by
  cases steady with
  | list below =>
      obtain ⟨index, _, located⟩ := Option.bind_eq_some_iff.1 found
      exact below next (List.mem_of_getElem? located)
  | map below => exact below (key, next) (Members.mem_of_get found)
  | object _ answers _ => exact answers key next found
  | _ => cases found

theorem items_steady {value : Value} (steady : value.Steady) :
    ∀ item ∈ value.items?.getD [], item.Steady := by
  cases steady with
  | list below => exact below
  | @object entity _ _ below =>
      intro item among
      cases held : entity.items with
      | none => simp [items?, held] at among
      | some items =>
          have listed : item ∈ items := by
            by_cases role : entity.role = .listed
            · simpa [items?, role, held] using among
            · simp [items?, role] at among
          exact below items held item listed
  | _ => simp [items?]

theorem linking_steady : Linking fun one other => one = other ∧ one.Steady where
  truth linked := by rw [linked.1]
  absence linked := by rw [linked.1]
  list linked := by rw [linked.1]
  empty_list linked := by rw [linked.1]
  items linked := by
    rw [← linked.1]
    apply List.forall₂_same.2
    intro item among
    exact ⟨rfl, items_steady linked.2 item among⟩

theorem reach_steady {segments : List String} {value final : Value} (steady : value.Steady)
    (reached : value.reach segments = some final) : final.Steady := by
  induction segments generalizing value with
  | nil =>
      cases reached
      exact steady
  | cons segment rest ih =>
      rw [reach] at reached
      split at reached
      next next found =>
        split at reached
        · cases reached
        · exact ih (member_steady steady found) reached
      · cases reached

theorem answer_steady {view value : Value} {name : String} (steady : view.Steady)
    (answered : view.answer? name = some value) : value.Steady := by
  unfold answer? at answered
  split at answered
  · cases answered
    exact steady
  · exact reach_steady steady answered

theorem member_of_absent {value : Value} (absent : value.isAbsent = true) (key : String) :
    value.member? key = Option.none := by
  cases value with
  | undefined | none => rfl
  | _ => cases absent

theorem follow_eq_reach {segments : List String} {value : Value} (steady : value.Steady)
    (present : value.isAbsent = false) (journal : Journal) :
    (value.follow segments journal).1 = value.reach segments := by
  induction segments generalizing value journal with
  | nil => simp [follow, reach, present]
  | cons segment rest ih =>
      have same := member_eq_of_steady steady segment journal
      simp only [follow, present, Bool.false_eq_true, if_false, reach, ← same]
      cases found : value.member segment journal with
      | mk member behind =>
          cases member with
          | none => rfl
          | some next =>
              have reached : value.member? segment = some next := by rw [← same, found]
              have nextSteady : next.Steady := member_steady steady reached
              cases absent : next.isAbsent with
              | true => cases rest <;> simp [follow, absent]
              | false => simpa [absent] using ih nextSteady absent behind

end Value

theorem segments_ne_nil (name : String) : segments name ≠ [] := by
  simpa [segments] using Text.split_at_ne_nil '.' name.toList

theorem Scope.resolve_eq_answer {scope : Scope} (steady : scope.view.Steady) (name : String)
    (journal : Journal) : (scope.resolve name journal).1 = scope.view.answer? name := by
  simp only [Scope.resolve, Value.answer?]
  split
  · rfl
  · cases absent : scope.view.isAbsent with
    | false => exact Value.follow_eq_reach steady absent journal
    | true =>
        -- an absent view answers nothing, whatever the first segment is
        cases parts : segments name with
        | nil => exact absurd parts (segments_ne_nil name)
        | cons segment rest =>
            simp [Value.follow, Value.reach, absent, Value.member_of_absent absent]

/-- What a name stands for among views from the innermost outwards: the answer of the first of
them that has one, else undefined. -/
def plainAnswer (name : String) (views : List Value) : Value :=
  (views.findSome? (·.answer? name)).getD .undefined

theorem plain_answer_steady {name : String} {views : List Value}
    (steady : ∀ view ∈ views, view.Steady) : (plainAnswer name views).Steady := by
  rw [plainAnswer]
  cases found : views.findSome? (·.answer? name) with
  | none => exact .undefined
  | some value =>
      obtain ⟨view, among, answered⟩ := List.exists_of_findSome?_eq_some found
      exact Value.answer_steady (steady view among) answered

namespace Scopes

/-- The views from the scope made after the given ones outwards. -/
def viewsFrom (scope : Scope) (older : Scopes) : List Value :=
  scope.view ::
    match scope.parent with
    | some parent => views older parent
    | none => []

theorem views_cons (scope : Scope) (older : Scopes) (number : Nat) :
    views (scope :: older) number =
      if older.length = number then viewsFrom scope older else views older number := rfl

/-- Views are steady, and memos hold what the views of their scopes answer. -/
def Coherent : Scopes → Prop
  | [] => True
  | scope :: older =>
      scope.view.Steady ∧
        (∀ entry ∈ scope.memo, entry.2 = plainAnswer entry.1 (viewsFrom scope older)) ∧
        Coherent older

/-- The scopes without their memos. -/
def bare (scopes : Scopes) : Scopes := scopes.map fun scope => { scope with memo := [] }

theorem bare_push (parent : Nat) (view : Value) (scopes : Scopes) :
    (scopes.push parent view).bare = scopes.bare.push parent view := rfl

theorem bare_tail (scopes : Scopes) : bare scopes.tail = scopes.bare.tail := by
  cases scopes <;> rfl

theorem views_bare (scopes : Scopes) : scopes.bare.views = scopes.views := by
  induction scopes with
  | nil => rfl
  | cons scope older ih =>
      have sameLength : (bare older).length = older.length := List.length_map _
      funext number
      change views (_ :: bare older) number = _
      rw [views_cons, views_cons, sameLength, ih]
      simp only [viewsFrom, ih]

theorem views_eq_of_bare {scopes others : Scopes} (same : scopes.bare = others.bare) :
    scopes.views = others.views := by
  rw [← views_bare scopes, same, views_bare]

theorem lookup_keeps_bare (name : String) (scopes : Scopes) (number : Nat) (journal : Journal) :
    (lookup name scopes number journal).2.1.bare = scopes.bare := by
  fun_induction lookup name scopes number journal with
  | case1 | case2 | case3 | case4 => rfl
  | case5 _ _ _ _ _ _ _ _ _ _ _ looked ih | case6 _ _ _ _ _ _ _ _ looked ih =>
      rw [looked] at ih
      exact congrArg (_ :: ·) ih

theorem coherent_push {scopes : Scopes} {view : Value} (parent : Nat)
    (coherent : scopes.Coherent) (steady : view.Steady) : (scopes.push parent view).Coherent :=
  ⟨steady, by simp, coherent⟩

theorem coherent_tail {scopes : Scopes} (coherent : scopes.Coherent) :
    Coherent scopes.tail := by
  cases scopes with
  | nil => trivial
  | cons scope older => exact coherent.2.2

theorem views_steady {scopes : Scopes} (coherent : scopes.Coherent) (number : Nat) :
    ∀ view ∈ scopes.views number, view.Steady := by
  induction scopes generalizing number with
  | nil => simp [views]
  | cons scope older ih =>
      obtain ⟨steady, _, olderCoherent⟩ := coherent
      intro view among
      rw [views_cons] at among
      split at among
      · rcases List.mem_cons.1 among with rfl | outside
        · exact steady
        · split at outside
          · exact ih olderCoherent _ view outside
          · cases outside
      · exact ih olderCoherent number view among

theorem views_from_eq {older newer : Scopes} (sameViews : newer.views = older.views)
    (scope : Scope) : viewsFrom scope newer = viewsFrom scope older := by
  simp only [viewsFrom, sameViews]

theorem coherent_newer {scope : Scope} {older newer : Scopes}
    (coherent : Coherent (scope :: older)) (newerCoherent : newer.Coherent)
    (sameViews : newer.views = older.views) : Coherent (scope :: newer) := by
  refine ⟨coherent.1, ?_, newerCoherent⟩
  rw [views_from_eq sameViews]
  exact coherent.2.1

theorem coherent_remember {scope : Scope} {older : Scopes} {name : String} {value : Value}
    (coherent : Coherent (scope :: older))
    (answered : value = plainAnswer name (viewsFrom scope older)) :
    Coherent (scope.remember name value :: older) := by
  refine ⟨coherent.1, ?_, coherent.2.2⟩
  intro entry among
  rcases List.mem_cons.1 among with rfl | earlier
  · exact answered
  · exact coherent.2.1 entry earlier

/-- The spec of a lookup: it answers what the views answer, and memos stay coherent. -/
theorem lookup_answers_plainly (name : String) (scopes : Scopes) (number : Nat)
    (journal : Journal) (coherent : scopes.Coherent) :
    (lookup name scopes number journal).1 = plainAnswer name (scopes.views number) ∧
      (lookup name scopes number journal).2.1.Coherent := by
  -- the lookup fills memos on its way out, so those of the scopes it goes on to are new
  fun_induction lookup name scopes number journal with
  | case1 => exact ⟨rfl, trivial⟩
  | case2 scope older journal value remembered =>
      have answered := coherent.2.1 (name, value) (Members.mem_of_get remembered)
      rw [views_cons, if_pos rfl]
      exact ⟨answered, coherent⟩
  | case3 scope older journal missed value behind resolved =>
      have answers := Scope.resolve_eq_answer coherent.1 name journal
      rw [resolved] at answers
      have answered : value = plainAnswer name (viewsFrom scope older) := by
        simp [plainAnswer, viewsFrom, ← answers]
      rw [views_cons, if_pos rfl]
      exact ⟨answered, coherent_remember coherent answered⟩
  | case4 scope older journal missed behind resolved outermost =>
      have answers := Scope.resolve_eq_answer coherent.1 name journal
      rw [resolved] at answers
      have answered : .undefined = plainAnswer name (viewsFrom scope older) := by
        simp [plainAnswer, viewsFrom, ← answers, outermost]
      rw [views_cons, if_pos rfl]
      exact ⟨answered, coherent_remember coherent answered⟩
  | case5 scope older journal missed between resolved parent inner value newer behind looked ih =>
      have answers := Scope.resolve_eq_answer coherent.1 name journal
      have sameViews := views_eq_of_bare (lookup_keeps_bare name older parent between)
      have olderAnswers := ih coherent.2.2
      rw [resolved] at answers
      rw [looked] at sameViews olderAnswers
      have answered : value = plainAnswer name (viewsFrom scope older) := by
        simpa [plainAnswer, viewsFrom, ← answers, inner] using olderAnswers.1
      rw [views_cons, if_pos rfl]
      refine ⟨answered, coherent_remember (coherent_newer coherent olderAnswers.2 sameViews) ?_⟩
      rw [views_from_eq sameViews]
      exact answered
  | case6 scope older number journal elsewhere value newer behind looked ih =>
      have sameViews := views_eq_of_bare (lookup_keeps_bare name older number journal)
      have olderAnswers := ih coherent.2.2
      rw [looked] at sameViews olderAnswers
      rw [views_cons, if_neg elsewhere]
      exact ⟨olderAnswers.1, coherent_newer coherent olderAnswers.2 sameViews⟩

end Scopes

namespace Rendering

/-- The lookup that answers from the views alone. It remembers and asks what the other does. -/
def lookupPlainly : Lookup := fun scope name state =>
  let (_, scopes, journal) := state.scopes.lookup name scope state.journal
  .ok (plainAnswer name (state.scopes.views scope)) { state with scopes, journal }

/-- Where the memos answer what the views answer, the given lookup does what the memoised one
does. Where they do not, it may do anything. -/
def FollowsPlain (find : Lookup) : Prop :=
  ∀ (scope : Nat) (name : String) (state : RenderState),
    (state.scopes.lookup name scope state.journal).1 =
        plainAnswer name (state.scopes.views scope) →
      find scope name state = lookup scope name state

theorem lookup_plainly_follows_plain : FollowsPlain lookupPlainly := by
  intro scope name state answered
  simp only [lookupPlainly, lookup, ← answered]

/-- The same scopes and journals. The scopes are the given ones but for their memos, which are
coherent. -/
def SameScopes (tree : Scopes) (one other : Scopes × Journal) : Prop :=
  one = other ∧ one.1.bare = tree ∧ one.1.Coherent

section Steps

variable {tree : Scopes}

theorem same_scopes_eq (tree : Scopes) :
    SameScopes tree = Same fun scopes => scopes.bare = tree ∧ scopes.Coherent := rfl

theorem eq_of_together {state other : RenderState}
    (states : Together (SameScopes tree) state other) : state = other := by
  rw [same_scopes_eq] at states
  exact eq_of_same states

theorem lockstep_find {find : Lookup} (follows : FollowsPlain find) (scope : Nat)
    (name : String) :
    Lockstep (Together (SameScopes tree)) (fun one other => one = other ∧ one.Steady)
      (lookup scope name) (find scope name) := by
  intro state other states
  cases eq_of_together states
  obtain ⟨_, sameTree, coherent⟩ := states.fits
  have spec := state.scopes.lookup_answers_plainly name scope state.journal coherent
  have kept := (state.scopes.lookup_keeps_bare name scope state.journal).trans sameTree
  rw [follows scope name _ spec.1]
  refine .ok ⟨rfl, ?_⟩ ⟨rfl, rfl, rfl, kept, spec.2⟩
  rw [spec.1]
  exact plain_answer_steady (Scopes.views_steady coherent scope)

theorem lockstep_load_in_tree (holder : Partials) (name : String) :
    Lockstep (Together (SameScopes tree)) Eq (loadPartial holder name)
      (loadPartial holder name) := by
  rw [same_scopes_eq]
  exact lockstep_load_same holder name

theorem lockstep_within_scope {view : Value} (steady : view.Steady) (parent : Nat)
    {body otherBody : Nat → Rendering Unit}
    (inside : ∀ tree scope, Lockstep (Together (SameScopes tree)) Eq (body scope)
      (otherBody scope)) :
    Lockstep (Together (SameScopes tree)) Eq (within parent view body)
      (within parent view otherBody) := by
  simp only [same_scopes_eq] at inside ⊢
  apply lockstep_within_same _ _ (inside (tree.push parent view))
  · rintro scopes ⟨sameTree, coherent⟩
    have pushed := congrArg (Scopes.push parent view) sameTree
    exact ⟨pushed, Scopes.coherent_push parent coherent steady⟩
  · rintro scopes ⟨sameTree, coherent⟩
    have left := (Scopes.bare_tail scopes).trans (congrArg List.tail sameTree)
    exact ⟨left, Scopes.coherent_tail coherent⟩

end Steps

def plainSimulation (settings : Settings) (source : Option Partials) {find : Lookup}
    (follows : FollowsPlain find) :
    Simulation settings source lookup find (parse settings) (parse settings) where
  permits _ := True
  serves _ := True
  linked one other := one = other ∧ one.Steady
  relates results first second :=
    ∀ tree, Lockstep (Together (SameScopes tree)) results first second
  children_permitted _ _ _ := trivial
  linking := Value.linking_steady
  pure_related related _ := lockstep_pure related
  throw_related _ error _ := lockstep_throw error
  bind_related begins goesOn tree :=
    lockstep_bind (begins tree) fun one other related => goesOn one other related tree
  text_related _ _ := lockstep_write _
  escaped_related linked _ := by
    rw [linked.1]
    exact lockstep_write_escaped _
  unescaped_related _ linked _ := by
    rw [linked.1]
    exact lockstep_write _
  find_related _ _ scope _ := lockstep_find follows scope _
  load_related _ _ _ := by simpa using lockstep_load_in_tree _ _
  parse_related _ _ := by simpa using lockstep_parse settings _
  within_related parent linked inside _ := by
    rw [← linked.1]
    exact lockstep_within_scope linked.2 parent fun tree scope => inside scope tree

def behind {α : Type} : EStateM.Result Error RenderState α → RenderState
  | .ok _ state | .error _ state => state

theorem run_eq_of_follows_plain {find : Lookup} (follows : FollowsPlain find)
    (settings : Settings) (source : Option Partials) (room opened scope : Nat)
    (nodes : List Node) (state : RenderState) (coherent : state.scopes.Coherent) :
    runWith find settings source room opened scope nodes state =
        run settings source room opened scope nodes state ∧
      let after := behind (run settings source room opened scope nodes state)
      after.scopes.bare = state.scopes.bare ∧ after.scopes.Coherent := by
  have ran := (plainSimulation settings source follows).run_related room opened scope nodes
    (fun _ _ => trivial) state.scopes.bare state state ⟨rfl, rfl, rfl, rfl, coherent⟩
  rw [run]
  generalize runWith lookup settings source room opened scope nodes state = finished,
    runWith find settings source room opened scope nodes state = finishedOther at ran ⊢
  cases ran with
  | ok same states =>
      cases same
      cases eq_of_together states
      exact ⟨rfl, states.fits.2⟩
  | error error states =>
      cases eq_of_together states
      exact ⟨rfl, states.fits.2⟩

end Rendering

namespace Scopes

/-- Scopes that have come about from steady views by opening scopes, looking names up in them
and rendering in them, in any order. The tree is what opening alone would have made. -/
inductive Reached : Scopes → Scopes → Prop
  | root {view : Value} (steady : view.Steady) : Reached (root view) (root view)
  | push {tree scopes : Scopes} (reached : Reached tree scopes) (parent : Nat) {view : Value}
      (steady : view.Steady) : Reached (tree.push parent view) (scopes.push parent view)
  | lookup {tree scopes : Scopes} (reached : Reached tree scopes) (name : String)
      (number : Nat) (journal : Journal) :
      Reached tree (scopes.lookup name number journal).2.1
  | render {tree scopes : Scopes} (reached : Reached tree scopes) (settings : Settings)
      (source : Option Partials) (room opened number : Nat) (nodes : List Node) (sink : Sink)
      (journal : Journal) (cache : Cache) :
      Reached tree (Rendering.behind (Rendering.run settings source room opened number nodes
        ⟨sink, scopes, journal, cache⟩)).scopes
  | leave {tree scopes : Scopes} (reached : Reached tree scopes) :
      Reached tree.tail scopes.tail

theorem coherent_of_reached {tree scopes : Scopes} (reached : Reached tree scopes) :
    scopes.bare = tree ∧ scopes.Coherent := by
  induction reached with
  | root steady => exact ⟨rfl, steady, by simp, trivial⟩
  | push _ parent steady ih =>
      refine ⟨?_, coherent_push parent ih.2 steady⟩
      rw [bare_push, ih.1]
  | lookup _ name number journal ih =>
      have spec := lookup_answers_plainly name _ number journal ih.2
      exact ⟨(lookup_keeps_bare name _ number journal).trans ih.1, spec.2⟩
  | render _ settings source room opened number nodes sink journal cache ih =>
      have kept := (Rendering.run_eq_of_follows_plain Rendering.lookup_plainly_follows_plain
        settings source room opened number nodes ⟨sink, _, journal, cache⟩ ih.2).2
      exact ⟨kept.1.trans ih.1, kept.2⟩
  | leave _ ih =>
      refine ⟨?_, coherent_tail ih.2⟩
      rw [bare_tail, ih.1]

end Scopes

/-- Lookups with memos are lookups without. Each name is answered by the first view from its
scope outwards that has an answer of its own, however the scopes have been used. So are all the
names a render looks up: with any lookup that does what the memoised one does as long as that
one's answers are those of the views, every render is the same. -/
theorem lookups_answer_from_views {tree scopes : Scopes} (reached : tree.Reached scopes)
    (number : Nat) (journal : Journal) :
    (∀ name, (scopes.lookup name number journal).1 = plainAnswer name (tree.views number)) ∧
      ∀ {find : Lookup}, Rendering.FollowsPlain find →
        ∀ (settings : Settings) (source : Option Partials) (room opened : Nat)
          (nodes : List Node) (sink : Sink) (cache : Cache),
          Rendering.runWith find settings source room opened number nodes
              ⟨sink, scopes, journal, cache⟩ =
            Rendering.run settings source room opened number nodes
              ⟨sink, scopes, journal, cache⟩ := by
  obtain ⟨rfl, coherent⟩ := Scopes.coherent_of_reached reached
  rw [Scopes.views_bare]
  constructor
  · intro name
    exact (scopes.lookup_answers_plainly name number journal coherent).1
  · intro find follows settings source room opened nodes sink cache
    exact (Rendering.run_eq_of_follows_plain follows settings source room opened number nodes
      ⟨sink, scopes, journal, cache⟩ coherent).1

theorem dotted_name_is_reached_in_one_scope :
    let outer := Value.map [("a", .map [("b", .text "outer")])]
    let inner := Value.map [("a", .map [("c", .none)])]
    let tree := (Scopes.root outer).push 0 inner
    let used := (tree.lookup "a.c" 1 []).2.1
    let state : RenderState := ⟨.unbounded, used, [], []⟩
    let nodes := [Node.escaped "a.b" ⟨0, 7⟩]
    tree.Reached used ∧ plainAnswer "a.b" (tree.views 1) = .text "outer" ∧
      (used.lookup "a.b" 1 []).1 = .text "outer" ∧
      Rendering.FollowsPlain Rendering.lookupPlainly ∧
      Rendering.runWith Rendering.lookupPlainly {} none 0 0 1 nodes state =
        Rendering.run {} none 0 0 1 nodes state := by
  intro outer inner tree used state nodes
  have outerSteady : outer.Steady := by
    refine .map ?_
    simp only [List.mem_singleton, forall_eq]
    exact .map (by simp [Value.Steady.text])
  have innerSteady : inner.Steady := by
    refine .map ?_
    simp only [List.mem_singleton, forall_eq]
    exact .map (by simp [Value.Steady.none])
  have opened : tree.Reached tree := .push (.root outerSteady) 0 innerSteady
  have reached : tree.Reached used := .lookup opened "a.c" 1 []
  have answer : plainAnswer "a.b" (tree.views 1) = .text "outer" := by cbv
  have plain := lookups_answer_from_views reached 1 []
  have follows := Rendering.lookup_plainly_follows_plain
  exact ⟨reached, answer, (plain.1 "a.b").trans answer, follows,
    plain.2 follows {} none 0 0 nodes .unbounded []⟩

end Mustache
