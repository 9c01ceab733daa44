import Mustache.Proofs.Inlining
import Mustache.Proofs.LinkedScopes

/-!
Values that are alike as far as a render reads them. A render asks maps for no other keys than the
segments of the names in its nodes and in its partials, it puts maps out without looking into them,
and it does not tell one form of an integer from the other. Views that differ in nothing else are
rendered alike.
-/

namespace Mustache

/-- The node, or a node below it, looks the name up. -/
inductive Node.LooksUp (name : String) : Node → Prop
  | itself {node : Node} (asked : node.asks? = some name) : LooksUp name node
  | deeper {node child : Node} (among : child ∈ node.children) (inside : LooksUp name child) :
      LooksUp name node

theorem Node.LooksUp.of_leaf {name : String} {node : Node} (inside : node.LooksUp name)
    (leaf : node.children = []) : node.asks? = some name := by
  cases inside with
  | itself asked => exact asked
  | deeper among _ =>
      rw [leaf] at among
      cases among

/-- The text is one that the partials can come to. -/
def Partials.Serves (source : Option Partials) (text : String) : Prop :=
  ∃ holder ∈ source, ∃ name journal, (holder.load name journal).1 = .ok (some text)

/-- The names that are looked up by the nodes or by the text of a partial, read with the
delimiters. -/
inductive LookedUp (delimiters : Delimiters) (source : Option Partials) (nodes : List Node)
    (name : String) : Prop
  | template {node : Node} (among : node ∈ nodes) (inside : node.LooksUp name)
  | included {text : String} {parsed : List Node} {node : Node}
      (served : Partials.Serves source text) (tree : Node.ofSource delimiters text = .ok parsed)
      (among : node ∈ parsed) (inside : node.LooksUp name)

namespace Value

/-- Values alike but for the form of integers, and for members of maps under keys that are
not read. -/
inductive Alike (reads : String → Prop) : Value → Value → Prop
  | same (value : Value) : Alike reads value value
  | integer {value other : Value} {number : Int} (first : value.integer? = some number)
      (second : other.integer? = some number) : Alike reads value other
  | list {items others : List Value} (length : items.length = others.length)
      (below : ∀ {item other}, (item, other) ∈ items.zip others → Alike reads item other) :
      Alike reads (.list items) (.list others)
  | map {members others : Members Value}
      (found : ∀ {key}, reads key → (members.get? key).isSome = (others.get? key).isSome)
      (below : ∀ {key value other}, reads key → members.get? key = some value →
        others.get? key = some other → Alike reads value other) :
      Alike reads (.map members) (.map others)

/-- What is put out for an integer and what is in it do not depend on its form. -/
structure Numeral (number : Int) (value : Value) : Prop where
  display : value.display = toString number
  truth : value.isTrue = true
  absence : value.isAbsent = false
  list : value.isList = false
  empty_list : value.isEmptyList = false
  items : value.items? = Option.none
  member : ∀ key journal, value.member key journal = (Option.none, journal)

theorem numeral_of_integer {value : Value} {number : Int} (found : value.integer? = some number) :
    value.Numeral number := by
  cases value with
  | unsigned form | signed form =>
      cases Option.some.inj found
      exact ⟨rfl, rfl, rfl, rfl, rfl, rfl, fun _ _ => rfl⟩
  | _ => cases found

namespace Alike

variable {reads : String → Prop} {value other : Value}

theorem display_eq (alike : value.Alike reads other) : value.display = other.display := by
  induction alike with
  | same => rfl
  | integer first second =>
      rw [(numeral_of_integer first).display, (numeral_of_integer second).display]
  | list length _ same =>
      have each := display_each_eq (List.forall₂_iff_zip.2 ⟨length, same⟩)
      exact congrArg (String.intercalate ",") each
  | map => rfl

theorem linking : Linking (Alike reads) where
  truth alike := by
    cases alike with
    | integer first second =>
        rw [(numeral_of_integer first).truth, (numeral_of_integer second).truth]
    | _ => rfl
  absence alike := by
    cases alike with
    | integer first second =>
        rw [(numeral_of_integer first).absence, (numeral_of_integer second).absence]
    | _ => rfl
  list alike := by
    cases alike with
    | integer first second =>
        rw [(numeral_of_integer first).list, (numeral_of_integer second).list]
    | _ => rfl
  empty_list alike := by
    cases alike with
    | integer first second =>
        rw [(numeral_of_integer first).empty_list, (numeral_of_integer second).empty_list]
    | list length below => cases List.forall₂_iff_zip.2 ⟨length, below⟩ <;> rfl
    | _ => rfl
  items alike := by
    cases alike with
    | same => exact List.forall₂_same.2 fun item _ => .same item
    | integer first second =>
        rw [(numeral_of_integer first).items, (numeral_of_integer second).items]
        exact .nil
    | list length below => exact List.forall₂_iff_zip.2 ⟨length, below⟩
    | map => exact .nil

/-- The journals stay the same, since an object stands for nothing but itself. -/
theorem answering : Answering (Alike reads) Eq reads where
  toLinking := linking
  undefined := .same .undefined
  member := by
    intro value other journal _ alike same key read
    subst same
    cases alike with
    | same =>
        refine ⟨?_, rfl⟩
        cases (value.member key journal).1 with
        | none => exact .none
        | some found => exact .some (.same found)
    | integer first second =>
        rw [(numeral_of_integer first).member, (numeral_of_integer second).member]
        exact ⟨.none, rfl⟩
    | list length below => exact ⟨item_linked (List.forall₂_iff_zip.2 ⟨length, below⟩) key, rfl⟩
    | map found below => exact ⟨option_rel_of_found (found read) (below read), rfl⟩

end Alike

end Value

namespace Rendering

theorem answer_of_loaded {holder : Partials} {name : String} {found : Option String}
    {state behind : RenderState} (ran : loadPartial holder name state = .ok found behind) :
    (holder.load name state.journal).1 = .ok found := by
  unfold loadPartial at ran
  split at ran
  next loaded =>
    cases ran
    rw [loaded]
  · cases ran

theorem tree_of_parsed {settings : Settings} {text : String} {nodes : List Node}
    {state behind : RenderState} (coherent : state.cache.Coherent settings.delimiters)
    (ran : parse settings text state = .ok nodes behind) :
    Node.ofSource settings.delimiters text = .ok nodes := by
  rw [← (coherent.parse text).1]
  unfold parse compileBy at ran
  split at ran
  next parsed =>
    cases ran
    rw [parsed]
  · cases ran

variable {reads : String → Prop}

/-- A render reads the keys it is said to read if they are among the segments of the names it
looks up. -/
def likening (settings : Settings) (source : Option Partials)
    (included : ∀ {text nodes}, Partials.Serves source text →
      Node.ofSource settings.delimiters text = .ok nodes → ∀ node ∈ nodes, ∀ name,
        node.LooksUp name → ∀ segment ∈ segments name, reads segment) :
    Simulation settings source lookup lookup (parse settings) (parse settings) where
  permits node := ∀ name, node.LooksUp name → ∀ segment ∈ segments name, reads segment
  serves := Partials.Serves source
  linked := Value.Alike reads
  relates results first second :=
    Lockstep (Beside (BothCoherent settings.delimiters) (LinkedScopes (Value.Alike reads) Eq))
      results first second
  children_permitted permitted child among name inside := permitted name (.deeper among inside)
  linking := Value.Alike.linking
  pure_related := lockstep_pure
  throw_related _ := lockstep_throw
  bind_related := lockstep_bind
  text_related _ := lockstep_write _
  escaped_related alike := by
    rw [alike.display_eq]
    exact lockstep_write_escaped _
  unescaped_related _ alike := by
    rw [alike.display_eq]
    exact lockstep_write _
  find_related permitted asked scope :=
    lockstep_lookup_linked Value.Alike.answering (permitted _ (.itself asked)) scope
  load_related {name _ holder} _ held := by
    apply Lockstep.giving
    · apply lockstep_load_linked
      intro journal journals same
      rw [same]
      exact ⟨rfl, rfl⟩
    · intro state _ found behind _ ran text answered
      refine ⟨holder, held, name, state.journal, ?_⟩
      rw [answer_of_loaded ran, Option.mem_def.1 answered]
  parse_related {text} served := by
    apply Lockstep.giving (lockstep_parse_coherent settings text)
    intro state _ nodes behind states ran
    exact included served (tree_of_parsed states.cache.1 ran)
  within_related parent alike inside := lockstep_within_linked alike parent inside

end Rendering

/-- Views that come to values alike in all that the template and its partials look up are rendered
with the same outcome and the same output. -/
theorem Session.renders_alike {session : Session}
    (coherent : session.cache.Coherent session.settings.delimiters) {template : Template}
    {partials : Option Partials} {reads : String → Prop}
    (covered : ∀ name, LookedUp session.settings.delimiters partials template.nodes name →
      ∀ segment ∈ segments name, reads segment)
    {value other : Value} (alike : value.Alike reads other) {view otherView : Data}
    (converts : (view.toValue? session.registry).1 = .ok value)
    (otherConverts : (otherView.toValue? session.registry).1 = .ok other) :
    (session.render template view partials).1 = (session.render template otherView partials).1 ∧
      ∀ sink : Sink,
        let ran := session.renderInto template view partials sink
        let ranOther := session.renderInto template otherView partials sink
        ran.1 = ranOther.1 ∧ ran.2.1 = ranOther.2.1 := by
  apply Session.render_of_render_in converts otherConverts
  intro registry otherRegistry sink
  have roots : List.Forall₂ (Scope.Linked (Value.Alike reads)) (Scopes.root value)
      (Scopes.root other) :=
    .cons ⟨alike, rfl, .nil⟩ .nil
  have permitted : ∀ node ∈ template.nodes, ∀ name, node.LooksUp name →
      ∀ segment ∈ segments name, reads segment := fun node among name inside =>
    covered name (.template among inside)
  let sim := Rendering.likening session.settings partials fun served tree node among name inside =>
    covered name (.included served tree among inside)
  have ran := sim.run_related nestingLimit 0 0 template.nodes permitted
    ⟨sink, .root value, session.journal, session.cache⟩
    ⟨sink, .root other, session.journal, session.cache⟩ ⟨rfl, ⟨coherent, coherent⟩, roots, rfl⟩
  exact Session.render_in_of_in_step { session with registry }
    { session with registry := otherRegistry } ran fun states => states.sink

end Mustache
