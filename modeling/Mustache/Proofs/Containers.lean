import Mustache.Proofs.LinkedScopes

/-!
Objects in the place of containers. A view whose lists and maps are, at any depth, replaced by
objects with the same items and the same members renders as it did before. Looking into such an
object leaves a trace in the journal where looking into a container leaves none, so the journals
of the two renders come apart; they do so only for objects that answer a key the same every time.
-/

namespace Mustache

/-- An object that answers with the members of a map and is as objects are by default otherwise. -/
def Object.ofMembers (id : Nat) (inspected : String) (members : Members Value) :
    Object Value where
  id := id
  role := .keyed
  answer := fun _ key => members.get? key
  items := none
  shown := none
  inspected := inspected

theorem option_rel_of_found {α β : Type} {related : α → β → Prop} {first : Option α}
    {second : Option β} (found : first.isSome = second.isSome)
    (answers : ∀ {one other}, first = some one → second = some other → related one other) :
    Option.Rel related first second := by
  cases first with
  | none =>
      cases second with
      | none => exact .none
      | some other => cases found
  | some one =>
      cases second with
      | none => cases found
      | some other => exact .some (answers rfl rfl)

namespace Value

/-- The second value is the first with some of its lists and maps, at any depth, recast as
objects that have added identities. What an object answers counts with its history, unless its
identity is an added one. -/
inductive Recast (added : Nat → Prop) : Value → Value → Prop
  | undefined : Recast added .undefined .undefined
  | none : Recast added .none .none
  | bool (truth : Bool) : Recast added (.bool truth) (.bool truth)
  | unsigned (number : UInt64) : Recast added (.unsigned number) (.unsigned number)
  | signed (number : Int64) : Recast added (.signed number) (.signed number)
  | float (number : Float) : Recast added (.float number) (.float number)
  | text (content : String) : Recast added (.text content) (.text content)
  | list {items others : List Value} (length : items.length = others.length)
      (below : ∀ {item other}, (item, other) ∈ items.zip others → Recast added item other) :
      Recast added (.list items) (.list others)
  | listed {id : Nat} (fresh : added id) {items others : List Value}
      (length : items.length = others.length)
      (below : ∀ {item other}, (item, other) ∈ items.zip others → Recast added item other) :
      Recast added (.list items) (.object (.ofList id others))
  | map {members others : Members Value} (length : members.length = others.length)
      (keys : ∀ {member other}, (member, other) ∈ members.zip others → member.1 = other.1)
      (below : ∀ {member other}, (member, other) ∈ members.zip others →
        Recast added member.2 other.2) :
      Recast added (.map members) (.map others)
  | keyed {id : Nat} (fresh : added id) (inspected : String) {members others : Members Value}
      (length : members.length = others.length)
      (keys : ∀ {member other}, (member, other) ∈ members.zip others → member.1 = other.1)
      (below : ∀ {member other}, (member, other) ∈ members.zip others →
        Recast added member.2 other.2) :
      Recast added (.map members) (.object (.ofMembers id inspected others))
  | object {id : Nat} {role : Role} {shown : Option String} {inspected : String}
      {answer otherAnswer : List String → String → Option Value}
      {items others : Option (List Value)}
      (found : ∀ {history histories} key, added id ∨ history = histories →
        (answer history key).isSome = (otherAnswer histories key).isSome)
      (answers : ∀ {history histories key value other}, added id ∨ history = histories →
        answer history key = some value → otherAnswer histories key = some other →
          Recast added value other)
      (named : items.isSome = others.isSome)
      (length : (items.getD []).length = (others.getD []).length)
      (below : ∀ {item other}, (item, other) ∈ (items.getD []).zip (others.getD []) →
        Recast added item other) :
      Recast added (.object ⟨id, role, answer, items, shown, inspected⟩)
        (.object ⟨id, role, otherAnswer, others, shown, inspected⟩)

theorem display_each_eq {items others : List Value}
    (same : List.Forall₂ (fun item other => item.display = other.display) items others) :
    displayEach items = displayEach others := by
  induction same with
  | nil => rfl
  | cons same _ ih => rw [displayEach, displayEach, same, ih]

section Items

variable {linked : Value → Value → Prop} {items others : Option (List Value)}

theorem named_items_linked (named : items.isSome = others.isSome)
    (length : (items.getD []).length = (others.getD []).length)
    (below : ∀ {item other}, (item, other) ∈ (items.getD []).zip (others.getD []) →
      linked item other) :
    Option.Rel (List.Forall₂ linked) items others := by
  have related := List.forall₂_iff_zip.2 ⟨length, below⟩
  apply option_rel_of_found named
  intro one other first second
  simpa [first, second] using related

theorem display_object_eq {id : Nat} {role : Role} {shown : Option String} {inspected : String}
    {answer otherAnswer : List String → String → Option Value}
    (same : Option.Rel (List.Forall₂ fun item other => item.display = other.display) items
      others) :
    display (.object ⟨id, role, answer, items, shown, inspected⟩) =
      display (.object ⟨id, role, otherAnswer, others, shown, inspected⟩) := by
  cases shown with
  | some shown => simp only [display]
  | none =>
      cases role with
      | plain | keyed => simp only [display]
      | listed =>
          cases same with
          | none => simp only [display]
          | some same => exact congrArg (String.intercalate ",") (display_each_eq same)

theorem is_empty_list_eq_items (value : Value) :
    value.isEmptyList = (value.isList && (value.items?.getD []).isEmpty) := by
  cases value with
  | object entity =>
      simp only [isEmptyList, isList, items?]
      split
      next listed => cases entity.items <;> simp [listed]
      next other => simp [other]
  | _ => rfl

theorem empty_list_eq_of_items {value other : Value} (list : value.isList = other.isList)
    (related : List.Forall₂ linked (value.items?.getD []) (other.items?.getD [])) :
    value.isEmptyList = other.isEmptyList := by
  rw [is_empty_list_eq_items, is_empty_list_eq_items, list]
  generalize value.items?.getD [] = items, other.items?.getD [] = others at related ⊢
  cases related <;> rfl

end Items

namespace Recast

variable {added : Nat → Prop} {value other : Value}

theorem display_eq (recast : value.Recast added other) : value.display = other.display := by
  induction recast with
  | undefined | none | bool | unsigned | signed | float | text | map | keyed => rfl
  | list length _ same | listed _ length _ same =>
      have each := display_each_eq (List.forall₂_iff_zip.2 ⟨length, same⟩)
      exact congrArg (String.intercalate ",") each
  | object _ _ named length _ _ same =>
      exact display_object_eq (named_items_linked named length same)

theorem items_recast (recast : value.Recast added other) :
    List.Forall₂ (Recast added) (value.items?.getD []) (other.items?.getD []) := by
  cases recast with
  | list length below | listed _ length below => exact List.forall₂_iff_zip.2 ⟨length, below⟩
  | @object _ role _ _ _ _ items others _ _ _ length below =>
      simp only [items?]
      split
      · exact List.forall₂_iff_zip.2 ⟨length, below⟩
      · exact .nil
  | _ => exact .nil

theorem is_list_eq (recast : value.Recast added other) : value.isList = other.isList := by
  cases recast <;> rfl

theorem linking : Linking (Recast added) where
  truth recast := by cases recast <;> rfl
  absence recast := by cases recast <;> rfl
  list := is_list_eq
  empty_list recast := empty_list_eq_of_items recast.is_list_eq recast.items_recast
  items := items_recast

end Recast

end Value

namespace Journal

theorem history_nil (id : Nat) : history [] id = [] := rfl

theorem history_cons (first : Nat) (keys : List String) (rest : Journal) (id : Nat) :
    history ((first, keys) :: rest) id = if id = first then keys else history rest id := by
  by_cases same : id = first
  · simp [history, same]
  · have apart : (id == first) = false := beq_false_of_ne same
    simp only [history, List.lookup_cons, apart, same, if_false]

theorem history_note (journal : Journal) (id asked : Nat) (key : String) :
    (journal.note id key).history asked =
      if asked = id then key :: journal.history id else journal.history asked := by
  induction journal with
  | nil => simp only [note, history_cons, history_nil]
  | cons entry rest ih =>
      obtain ⟨first, keys⟩ := entry
      simp only [note]
      split
      next same =>
        subst same
        simp only [history_cons, if_true]
        split <;> rfl
      next apart =>
        have otherWay : id ≠ first := Ne.symm apart
        simp only [history_cons, ih, otherWay, if_false]
        split
        next askedFirst => rw [if_neg (askedFirst ▸ apart)]
        next => rfl

/-- Journals that tell the same of all objects but the added ones. -/
def AgreeBut (added : Nat → Prop) (journal other : Journal) : Prop :=
  ∀ id, added id ∨ journal.history id = other.history id

variable {added : Nat → Prop} {journal other : Journal}

theorem AgreeBut.trans {third : Journal} (agree : journal.AgreeBut added other)
    (agreeToo : other.AgreeBut added third) : journal.AgreeBut added third := by
  intro id
  rcases agree id with isAdded | same
  · exact .inl isAdded
  · rw [same]
    exact agreeToo id

theorem AgreeBut.note (agree : journal.AgreeBut added other) (id : Nat) (key : String) :
    (journal.note id key).AgreeBut added (other.note id key) := by
  intro asked
  rcases agree asked with isAdded | same
  · exact .inl isAdded
  · by_cases isSame : asked = id
    · subst isSame
      simp [history_note, same]
    · simp [history_note, isSame, same]

theorem AgreeBut.note_added (agree : journal.AgreeBut added other) {id : Nat} (fresh : added id)
    (key : String) : journal.AgreeBut added (other.note id key) := by
  intro asked
  by_cases isSame : asked = id
  · subst isSame
    exact .inl fresh
  · simpa [history_note, isSame] using agree asked

end Journal

section Lookups

variable {added : Nat → Prop} {value other : Value} {journal journals : Journal}

open Value (Recast)

theorem listed_recast {items others : List Value}
    (related : List.Forall₂ (Recast added) items others) {id : Nat} (fresh : added id) :
    (Value.list items).Recast added (.object (.ofList id others)) :=
  .listed fresh related.length_eq (List.forall₂_iff_zip.1 related).2

theorem mapped_recast {members others : Members Value}
    (related : EntriesLinked (Recast added) members others) :
    (Value.map members).Recast added (.map others) :=
  .map related.length_eq (fun among => ((List.forall₂_iff_zip.1 related).2 among).1)
    fun among => ((List.forall₂_iff_zip.1 related).2 among).2

theorem keyed_recast {members others : Members Value}
    (related : EntriesLinked (Recast added) members others) {id : Nat} (fresh : added id)
    (inspected : String) :
    (Value.map members).Recast added (.object (.ofMembers id inspected others)) :=
  .keyed fresh inspected related.length_eq
    (fun among => ((List.forall₂_iff_zip.1 related).2 among).1)
    fun among => ((List.forall₂_iff_zip.1 related).2 among).2

theorem Value.Recast.member (recast : value.Recast added other)
    (agree : journal.AgreeBut added journals) (key : String) :
    Answers (Recast added) (Journal.AgreeBut added) (value.member key journal)
      (other.member key journals) := by
  cases recast with
  | list length below => exact ⟨item_linked (List.forall₂_iff_zip.2 ⟨length, below⟩) key, agree⟩
  | listed fresh length below =>
      exact ⟨item_linked (List.forall₂_iff_zip.2 ⟨length, below⟩) key, agree.note_added fresh key⟩
  | @map members others length keys below =>
      have entries : EntriesLinked (Recast added) members others :=
        List.forall₂_iff_zip.2 ⟨length, fun among => ⟨keys among, below among⟩⟩
      exact ⟨EntriesLinked.get entries key, agree⟩
  | @keyed _ fresh _ members others length keys below =>
      have entries : EntriesLinked (Recast added) members others :=
        List.forall₂_iff_zip.2 ⟨length, fun among => ⟨keys among, below among⟩⟩
      exact ⟨EntriesLinked.get entries key, agree.note_added fresh key⟩
  | @object id _ _ _ _ _ _ _ found answers _ _ _ =>
      have asked := agree id
      exact ⟨option_rel_of_found (found key asked) (answers asked), agree.note id key⟩
  | _ => exact ⟨.none, agree⟩

theorem Value.Recast.answering :
    Value.Answering (Recast added) (Journal.AgreeBut added) fun _ => True where
  toLinking := Recast.linking
  undefined := .undefined
  member recast agree _ _ := recast.member agree _

end Lookups

namespace Partials

variable {added : Nat → Prop} {journal journals : Journal} {source : Partials}

theorem load_value (holder : Value) (name : String) (journal : Journal) :
    (value holder).load name journal =
      (.ok ((holder.member name journal).1.bind fun member =>
          if member.isAbsent then none else some member.display),
        (holder.member name journal).2) := by
  simp only [load]
  cases holder.member name journal with
  | mk found behind => cases found <;> rfl

/-- Asking for a partial leaves a trace in both journals or in none. -/
theorem load_agree (agree : journal.AgreeBut added journals) (source : Partials) (name : String) :
    (source.load name journal).2.AgreeBut added (source.load name journals).2 := by
  cases source with
  | function answer => exact agree
  | value holder =>
      rw [load_value, load_value]
      cases holder with
      | object entity => exact agree.note entity.id name
      | _ => exact agree

/-- If the partials come from an object that has an added identity, it answers a key the same
every time. -/
def Indifferent (added : Nat → Prop) : Partials → Prop
  | .value (.object entity) =>
      added entity.id → ∀ history key, entity.answer history key = entity.answer [] key
  | _ => True

theorem Indifferent.load_eq (indifferent : source.Indifferent added)
    (agree : journal.AgreeBut added journals) (name : String) :
    (source.load name journal).1 = (source.load name journals).1 := by
  cases source with
  | function answer => rfl
  | value holder =>
      rw [load_value, load_value]
      cases holder with
      | object entity =>
          have sameAnswer : entity.answer (journal.history entity.id) name =
              entity.answer (journals.history entity.id) name := by
            rcases agree entity.id with isAdded | sameHistory
            · rw [indifferent isAdded, ← indifferent isAdded (journals.history entity.id)]
            · rw [sameHistory]
          simp only [Value.member, Object.ask, sameAnswer]
      | _ => rfl

end Partials

theorem Data.ready_to_value (value : Value) (registry : Registry) :
    ((Data.ready value).toValue? registry).1 = .ok value := by
  simp [Data.toValue?, Data.convert, Conversion.apart, Conversion.ready, Conversion.variant,
    Registry.park, Registry.redeem]

/-- Objects are as good as containers. Views that come to the same value but for lists and maps
recast as objects are rendered with the same outcome and the same output, whatever the template,
the settings and the partials. -/
theorem recast_views_render_alike {added : Nat → Prop} {value other : Value}
    (recast : value.Recast added other) {partials : Option Partials}
    (indifferent : ∀ holder ∈ partials, holder.Indifferent added) (session : Session)
    {view otherView : Data} (converts : (view.toValue? session.registry).1 = .ok value)
    (otherConverts : (otherView.toValue? session.registry).1 = .ok other)
    (template : Template) :
    (session.render template view partials).1 =
        (session.render template otherView partials).1 ∧
      ∀ sink : Sink,
        let ran := session.renderInto template view partials sink
        let ranOther := session.renderInto template otherView partials sink
        ran.1 = ranOther.1 ∧ ran.2.1 = ranOther.2.1 := by
  have loads : Rendering.LoadsAlike (Journal.AgreeBut added) partials := by
    intro holder held name journal journals agree
    exact ⟨(indifferent holder held).load_eq agree name, holder.load_agree agree name⟩
  exact session.renders_standing Value.Recast.answering Value.Recast.display_eq recast
    (fun _ => .inr rfl) template loads converts otherConverts

theorem nested_containers_may_be_objects :
    let items : List Value := [.text "x", .list [.text "y", .text "z"]]
    let otherItems : List Value := [.text "x", .object (.ofList 3 [.text "y", .text "z"])]
    let members : Members Value := [("a", .list items), ("m", .map [("k", .text "v")])]
    let otherMembers : Members Value := [("a", .object (.ofList 2 otherItems)),
      ("m", .object (.ofMembers 4 "Entries" [("k", .text "v")]))]
    let plain : Value := .map members
    let recast : Value := .object (.ofMembers 1 "View" otherMembers)
    let partials : Partials := .value (.map [("p", .text "\x7b\x7ba.1.0\x7d\x7d")])
    let span : Span := ⟨0, 0⟩
    let template : Template := ⟨"", [.sectionOf "a" [.unescaped "." span, .text ";" span] 0 span,
      .escaped "a" span, .escaped "m" span, .escaped "m.k" span, .inclusion "p" span]⟩
    let session := Session.start (.start "")
    plain.Recast (· < 5) recast ∧ partials.Indifferent (· < 5) ∧
      (session.render template (.ready plain) partials).1 = .ok "x;y,z;x,y,z[object]vy" ∧
      (session.render template (.ready recast) partials).1 = .ok "x;y,z;x,y,z[object]vy" := by
  intro items otherItems members otherMembers plain recast partials span template session
  have innermost : (Value.list [.text "y", .text "z"]).Recast (· < 5)
      (.object (.ofList 3 [.text "y", .text "z"])) :=
    listed_recast (.cons (.text "y") (.cons (.text "z") .nil)) (by decide)
  have listed : (Value.list items).Recast (· < 5) (.object (.ofList 2 otherItems)) :=
    listed_recast (.cons (.text "x") (.cons innermost .nil)) (by decide)
  have keyed : (Value.map [("k", .text "v")]).Recast (· < 5)
      (.object (.ofMembers 4 "Entries" [("k", .text "v")])) :=
    keyed_recast (.cons ⟨rfl, .text "v"⟩ .nil) (by decide) "Entries"
  have entries : EntriesLinked (Value.Recast (· < 5)) members otherMembers :=
    .cons ⟨rfl, listed⟩ (.cons ⟨rfl, keyed⟩ .nil)
  have related : plain.Recast (· < 5) recast := keyed_recast entries (by decide) "View"
  have indifferent : partials.Indifferent (· < 5) := trivial
  have rendered : (session.render template (.ready plain) partials).1 =
      .ok "x;y,z;x,y,z[object]vy" := by
    -- evaluation goes down all the levels there is room for
    simp only [session, template, plain, members, items, span, partials]
    set_option maxRecDepth 2000 in cbv
  have alike := recast_views_render_alike related
    (fun holder held => Option.mem_some.1 held ▸ indifferent) session
    (Data.ready_to_value plain _) (Data.ready_to_value recast _) template
  exact ⟨related, indifferent, rendered, alike.1.symm.trans rendered⟩

end Mustache
