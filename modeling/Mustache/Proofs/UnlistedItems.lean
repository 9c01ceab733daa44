import Mustache.Data.External
import Mustache.Proofs.Inlining

/-!
Items of objects that are not in the role of a list. An object may name items whatever its role,
but they are for lists alone: with other items in their place, or none, the object is told apart
by nothing that is asked of values, nor by any render. Only the external form looks at the items
without looking at the role.
-/

namespace Mustache

namespace Object

variable {entity twin : Object Value}

/-- The object answers a key the same whatever it was asked before. -/
def Heedless (entity : Object Value) : Prop :=
  ∀ history key, entity.answer history key = entity.answer [] key

/-- The other object differs in its items at most, and they are not for reading. -/
structure SameButItems (entity twin : Object Value) : Prop where
  unlisted : entity.role ≠ .listed
  role : entity.role = twin.role
  answer : entity.answer = twin.answer
  shown : entity.shown = twin.shown
  inspected : entity.inspected = twin.inspected

/-- The identities of two objects, if they are not one identity. -/
def Parted (entity twin : Object Value) (id : Nat) : Prop :=
  entity.id ≠ twin.id ∧ (id = entity.id ∨ id = twin.id)

/-- A bystander answers the same where the twin is in the place of the entity: it is of an
identity of its own, or nothing goes by what was asked before. -/
def Bystander (entity twin other : Object Value) : Prop :=
  entity.Parted twin other.id → entity.Heedless ∧ other.Heedless

/-- The journals where the twin is asked in the place of the entity. -/
structure Replaced (entity twin : Object Value) (journal journals : Journal) : Prop where
  others : journal.AgreeBut (entity.Parted twin) journals
  place : entity.Heedless ∨ journal.history entity.id = journals.history twin.id

variable {journal journals : Journal}

theorem Replaced.refl
    (place : entity.Heedless ∨ journal.history entity.id = journal.history twin.id) :
    entity.Replaced twin journal journal :=
  ⟨fun _ => .inr rfl, place⟩

theorem Replaced.note_place (replaced : entity.Replaced twin journal journals) (key : String) :
    entity.Replaced twin (journal.note entity.id key) (journals.note twin.id key) := by
  obtain ⟨others, place⟩ := replaced
  constructor
  · intro asked
    rcases others asked with parted | same
    · exact .inl parted
    · by_cases one : entity.id = twin.id
      · rw [← one]
        exact others.note entity.id key asked
      · by_cases among : asked = entity.id ∨ asked = twin.id
        · exact .inl ⟨one, among⟩
        · obtain ⟨notEntity, notTwin⟩ := not_or.1 among
          right
          rw [Journal.history_note, Journal.history_note, if_neg notEntity, if_neg notTwin, same]
  · refine place.imp_right fun same => ?_
    rw [Journal.history_note, Journal.history_note, if_pos rfl, if_pos rfl, same]

theorem Replaced.note_bystander (replaced : entity.Replaced twin journal journals)
    {id : Nat} (heedless : entity.Parted twin id → entity.Heedless) (key : String) :
    entity.Replaced twin (journal.note id key) (journals.note id key) := by
  obtain ⟨others, place⟩ := replaced
  refine ⟨others.note id key, ?_⟩
  by_cases parted : entity.Parted twin id
  · exact .inl (heedless parted)
  · refine place.imp_right fun same => ?_
    rw [Journal.history_note, Journal.history_note]
    -- the identity is that of both objects or of neither
    by_cases one : entity.id = twin.id
    · rw [← one] at same ⊢
      split
      next here => rw [← here, same]
      next => exact same
    · have neither : ¬ (id = entity.id ∨ id = twin.id) := fun among => parted ⟨one, among⟩
      obtain ⟨notEntity, notTwin⟩ := not_or.1 neither
      rw [if_neg (Ne.symm notEntity), if_neg (Ne.symm notTwin), same]

theorem Bystander.answer_eq {other : Object Value} (bystander : entity.Bystander twin other)
    (replaced : entity.Replaced twin journal journals) (key : String) :
    other.answer (journal.history other.id) key = other.answer (journals.history other.id) key := by
  rcases replaced.others other.id with parted | same
  · have heedless := (bystander parted).2
    rw [heedless, ← heedless (journals.history other.id)]
  · rw [same]

theorem SameButItems.answer_eq (twins : entity.SameButItems twin)
    (replaced : entity.Replaced twin journal journals) (key : String) :
    entity.answer (journal.history entity.id) key = twin.answer (journals.history twin.id) key := by
  rw [← twins.answer]
  rcases replaced.place with heedless | same
  · rw [heedless, ← heedless (journals.history twin.id)]
  · rw [same]

end Object

namespace Value

/-- Two values are told apart by nothing that can be asked of a value, where what is in them is
linked and the journals go together. -/
structure ToldAlike (linked : Value → Value → Prop) (together : Journal → Journal → Prop)
    (value other : Value) : Prop where
  kind : value.kind = other.kind
  truth : value.isTrue = other.isTrue
  absence : value.isAbsent = other.isAbsent
  list : value.isList = other.isList
  empty_list : value.isEmptyList = other.isEmptyList
  length : value.length? = other.length?
  display : value.display = other.display
  items : Option.Rel (List.Forall₂ linked) value.items? other.items?
  member : ∀ {journal journals}, together journal journals → ∀ key,
    Answers linked together (value.member key journal) (other.member key journals)

/-- The second value is the first with the twin in the place of the entity, here and there, at any
depth of what it holds. Other objects are bystanders, and those that hold what is exchanged are of
identities of their own. -/
inductive Exchanged (entity twin : Object Value) : Value → Value → Prop
  | same {value : Value} (bystanders : ∀ other, value.Contains other →
      entity.Bystander twin other) : Exchanged entity twin value value
  | exchanged (answers : ∀ {history key value}, entity.answer history key = some value →
      Exchanged entity twin value value) : Exchanged entity twin (.object entity) (.object twin)
  | list {items others : List Value} (length : items.length = others.length)
      (below : ∀ {item other}, (item, other) ∈ items.zip others →
        Exchanged entity twin item other) :
      Exchanged entity twin (.list items) (.list others)
  | map {members others : Members Value} (length : members.length = others.length)
      (keys : ∀ {member other}, (member, other) ∈ members.zip others → member.1 = other.1)
      (below : ∀ {member other}, (member, other) ∈ members.zip others →
        Exchanged entity twin member.2 other.2) :
      Exchanged entity twin (.map members) (.map others)
  | object {id : Nat} {role : Role} {shown : Option String} {inspected : String}
      {answer otherAnswer : List String → String → Option Value}
      {items others : Option (List Value)} (apart : ¬ entity.Parted twin id)
      (found : ∀ {history key}, (answer history key).isSome = (otherAnswer history key).isSome)
      (answers : ∀ {history key value other}, answer history key = some value →
        otherAnswer history key = some other → Exchanged entity twin value other)
      (named : items.isSome = others.isSome)
      (length : (items.getD []).length = (others.getD []).length)
      (below : ∀ {item other}, (item, other) ∈ (items.getD []).zip (others.getD []) →
        Exchanged entity twin item other) :
      Exchanged entity twin (.object ⟨id, role, answer, items, shown, inspected⟩)
        (.object ⟨id, role, otherAnswer, others, shown, inspected⟩)

theorem option_rel_self {linked : Value → Value → Prop} {found : Option Value}
    (same : ∀ value, found = some value → linked value value) : Option.Rel linked found found := by
  cases found with
  | none => exact .none
  | some value => exact .some (same value rfl)

end Value

namespace Object.SameButItems

open Value

variable {entity twin : Object Value} (twins : entity.SameButItems twin)

include twins

theorem display_eq : (Value.object entity).display = (Value.object twin).display := by
  obtain ⟨unlisted, role, _, shown, inspected⟩ := twins
  obtain ⟨_, entityRole, _, _, entityShown, _⟩ := entity
  obtain ⟨_, _, _, _, _, _⟩ := twin
  cases role
  cases shown
  cases inspected
  cases entityShown with
  | some shown => simp only [display]
  | none =>
      cases entityRole with
      | plain | keyed => simp only [display]
      | listed => contradiction

theorem told {linked : Value → Value → Prop}
    (same : ∀ {history key value}, entity.answer history key = some value → linked value value) :
    (Value.object entity).ToldAlike linked (entity.Replaced twin) (.object twin) := by
  have twinUnlisted : twin.role ≠ .listed := twins.role ▸ twins.unlisted
  refine ⟨rfl, rfl, rfl, ?_, ?_, ?_, twins.display_eq, ?_, fun replaced key => ⟨?_, ?_⟩⟩
  · simp only [isList, twins.role]
  · simp only [isEmptyList, twins.unlisted, twinUnlisted, if_false]
  · simp only [length?, twins.unlisted, twinUnlisted, if_false]
  · simp only [items?, twins.unlisted, twinUnlisted, if_false]
    exact .none
  · simp only [Value.member, Object.ask, ← twins.answer_eq replaced key]
    exact option_rel_self fun value answered => same answered
  · exact replaced.note_place key

/-- The external form goes by the items there are, in whatever role. -/
theorem same_data_iff : (Value.object entity).toData = (Value.object twin).toData ↔
    entity.items.map (List.map toData) = twin.items.map (List.map toData) := by
  have display := twins.display_eq
  obtain ⟨_, _, _, items, _, _⟩ := entity
  obtain ⟨_, _, _, others, _, _⟩ := twin
  cases items <;> cases others <;> simp [toData, items_to_data_eq_map, display]

end Object.SameButItems

namespace Value.Exchanged

variable {entity twin : Object Value} {value other : Value}

theorem of_items {items others : List Value}
    (related : List.Forall₂ (Exchanged entity twin) items others) :
    (Value.list items).Exchanged entity twin (.list others) :=
  .list related.length_eq (List.forall₂_iff_zip.1 related).2

theorem of_entries {members others : Members Value}
    (related : EntriesLinked (Exchanged entity twin) members others) :
    (Value.map members).Exchanged entity twin (.map others) :=
  .map related.length_eq (fun among => ((List.forall₂_iff_zip.1 related).2 among).1)
    fun among => ((List.forall₂_iff_zip.1 related).2 among).2

/-- Within a value the external form of an object makes no more difference than on its own. -/
theorem to_data_eq (sameForm : (Value.object entity).toData = (Value.object twin).toData)
    (swapped : value.Exchanged entity twin other) : value.toData = other.toData := by
  induction swapped with
  | same => rfl
  | exchanged => exact sameForm
  | list length _ same =>
      have each := map_eq_map_iff_linked.2 (List.forall₂_iff_zip.2 ⟨length, same⟩)
      simp only [toData, items_to_data_eq_map, each]
  | @map members others length keys _ same =>
      have each : members.map (fun member => (Data.text member.1, member.2.toData)) =
          others.map fun member => (Data.text member.1, member.2.toData) := by
        refine map_eq_map_iff_linked.2 (List.forall₂_iff_zip.2 ⟨length, fun among => ?_⟩)
        rw [keys among, same among]
      simp only [toData, members_to_data_eq_map, each]
  | @object _ _ _ _ _ _ items others _ _ _ named length _ _ same =>
      have related := named_items_linked named length same
      cases related with
      | none => exact congrArg Data.text (display_object_eq .none)
      | some related =>
          simp only [toData, items_to_data_eq_map, map_eq_map_iff_linked.2 related]

theorem display_eq (twins : entity.SameButItems twin)
    (swapped : value.Exchanged entity twin other) : value.display = other.display := by
  induction swapped with
  | same => rfl
  | exchanged => exact twins.display_eq
  | list length _ same =>
      have each := display_each_eq (List.forall₂_iff_zip.2 ⟨length, same⟩)
      exact congrArg (String.intercalate ",") each
  | map => rfl
  | object _ _ _ named length _ _ same =>
      exact display_object_eq (named_items_linked named length same)

theorem items_or_none_linked {linked : Value → Value → Prop} {items others : Option (List Value)}
    (related : Option.Rel (List.Forall₂ linked) items others) :
    List.Forall₂ linked (items.getD []) (others.getD []) := by
  cases related with
  | none => exact .nil
  | some related => exact related

theorem contains_of_items {entity : Object Value} {items : List Value} {item : Value}
    (held : value.items? = some items) (among : item ∈ items) (inside : item.Contains entity) :
    value.Contains entity := by
  cases value with
  | list =>
      cases held
      exact .item among inside
  | object other =>
      simp only [items?, Option.ite_none_right_eq_some] at held
      exact .named held.2 among inside
  | _ => cases held

theorem contains_of_member {entity : Object Value} {key : String} {journal : Journal}
    {found : Value} (answered : (value.member key journal).1 = some found)
    (inside : found.Contains entity) : value.Contains entity := by
  cases value with
  | list items =>
      obtain ⟨index, _, atIndex⟩ := Option.bind_eq_some_iff.1 answered
      exact .item (List.mem_of_getElem? atIndex) inside
  | map members => exact .member (Members.mem_of_get answered) inside
  | object other => exact .answer answered inside
  | _ => cases answered

theorem member_same {journal journals : Journal}
    (bystander : ∀ other, value = .object other → entity.Bystander twin other)
    (replaced : entity.Replaced twin journal journals) (key : String) :
    (value.member key journal).1 = (value.member key journals).1 ∧
      entity.Replaced twin (value.member key journal).2 (value.member key journals).2 := by
  cases value with
  | object other =>
      have aside := bystander other rfl
      refine ⟨aside.answer_eq replaced key, ?_⟩
      exact replaced.note_bystander (fun parted => (aside parted).1) key
  | _ => exact ⟨rfl, replaced⟩

theorem told_same (bystanders : ∀ other, value.Contains other → entity.Bystander twin other) :
    value.ToldAlike (Exchanged entity twin) (entity.Replaced twin) value where
  kind := rfl
  truth := rfl
  absence := rfl
  list := rfl
  empty_list := rfl
  length := rfl
  display := rfl
  items := by
    cases held : value.items? with
    | none => exact .none
    | some items =>
        refine .some (List.forall₂_same.2 fun item among => .same fun other inside => ?_)
        exact bystanders other (contains_of_items held among inside)
  member {journal journals} replaced key := by
    have bystander (other : Object Value) (objectHere : value = .object other) :
        entity.Bystander twin other := bystanders other (by rw [objectHere]; exact .itself)
    obtain ⟨same, replaced⟩ := member_same bystander replaced key
    refine ⟨?_, replaced⟩
    rw [← same]
    refine option_rel_self fun found answered => .same fun other inside => ?_
    exact bystanders other (contains_of_member answered inside)

theorem told (twins : entity.SameButItems twin) (swapped : value.Exchanged entity twin other) :
    value.ToldAlike (Exchanged entity twin) (entity.Replaced twin) other := by
  have display := swapped.display_eq twins
  cases swapped with
  | same bystanders => exact told_same bystanders
  | exchanged answers => exact twins.told answers
  | list length below =>
      have related := List.forall₂_iff_zip.2 ⟨length, below⟩
      exact {
        kind := rfl
        truth := rfl
        absence := rfl
        list := rfl
        empty_list := empty_list_eq_of_items rfl related
        length := congrArg some length
        display := display
        items := .some related
        member := fun replaced key => ⟨item_linked related key, replaced⟩ }
  | @map members others length keys below =>
      have entries : EntriesLinked (Exchanged entity twin) members others :=
        List.forall₂_iff_zip.2 ⟨length, fun among => ⟨keys among, below among⟩⟩
      exact {
        kind := rfl
        truth := rfl
        absence := rfl
        list := rfl
        empty_list := rfl
        length := congrArg some length
        display := display
        items := .none
        member := fun replaced key => ⟨entries.get key, replaced⟩ }
  | @object id role _ _ answer otherAnswer items others apart found answers named length below =>
      have related := named_items_linked named length below
      have listed : Option.Rel (List.Forall₂ (Exchanged entity twin))
          (if role = .listed then items else Option.none)
          (if role = .listed then others else Option.none) := by
        split
        · exact related
        · exact .none
      exact {
        kind := rfl
        truth := rfl
        absence := rfl
        list := rfl
        empty_list := empty_list_eq_of_items rfl (items_or_none_linked listed)
        length := by
          simp only [length?]
          split
          · cases related with
            | none => rfl
            | some related => exact congrArg some related.length_eq
          · rfl
        display := display
        items := listed
        member := by
          intro journal journals replaced key
          have same := (replaced.others id).resolve_left apart
          refine ⟨?_, replaced.note_bystander (fun parted => absurd parted apart) key⟩
          simp only [Value.member, Object.ask, same]
          exact option_rel_of_found found answers }

theorem answering (twins : entity.SameButItems twin) :
    Value.Answering (Exchanged entity twin) (entity.Replaced twin) fun _ => True where
  truth swapped := (swapped.told twins).truth
  absence swapped := (swapped.told twins).absence
  list swapped := (swapped.told twins).list
  empty_list swapped := (swapped.told twins).empty_list
  items swapped := items_or_none_linked (swapped.told twins).items
  undefined := .same nofun
  member swapped replaced _ _ := (swapped.told twins).member replaced _

theorem loads_alike {source : Option Partials}
    (bystander : ∀ other, source = some (.value (.object other)) → entity.Bystander twin other) :
    Rendering.LoadsAlike (entity.Replaced twin) source := by
  intro holder held name journal journals replaced
  cases holder with
  | function answer => exact ⟨rfl, replaced⟩
  | value holder =>
      obtain ⟨same, replaced⟩ := member_same
        (fun other objectHere => bystander other (objectHere ▸ held)) replaced name
      rw [Partials.load_value, Partials.load_value, same]
      exact ⟨rfl, replaced⟩

end Value.Exchanged

/-- The items of an object are consulted in the role of a list alone. Where another object differs
in its items only, a value is not told from the value with that object in the place of the first:
not by what is asked of values, on the objects themselves or on what holds them, nor by what any
template renders for them. The external forms of the two are the same if those of their items are,
and then so are those of the values that hold them. The two may be one identity or not; if not,
they have been asked for the same before, where their answers go by it. -/
theorem items_count_for_lists_alone {entity twin : Object Value}
    (twins : entity.SameButItems twin) :
    (Value.object entity).ToldAlike Eq (entity.Replaced twin) (.object twin) ∧
      ((Value.object entity).toData = (Value.object twin).toData ↔
        entity.items.map (List.map Value.toData) = twin.items.map (List.map Value.toData)) ∧
      ∀ {value other : Value}, value.Exchanged entity twin other →
        value.ToldAlike (Value.Exchanged entity twin) (entity.Replaced twin) other ∧
          ((Value.object entity).toData = (Value.object twin).toData →
            value.toData = other.toData) ∧
          ∀ (session : Session) (template : Template) (partials : Option Partials)
            {view otherView : Data}, (view.toValue? session.registry).1 = .ok value →
            (otherView.toValue? session.registry).1 = .ok other →
            (entity.Heedless ∨
              session.journal.history entity.id = session.journal.history twin.id) →
            (∀ holder, partials = some (.value (.object holder)) →
              entity.Bystander twin holder) →
              (session.render template view partials).1 =
                  (session.render template otherView partials).1 ∧
                ∀ sink : Sink,
                  let ran := session.renderInto template view partials sink
                  let ranOther := session.renderInto template otherView partials sink
                  ran.1 = ranOther.1 ∧ ran.2.1 = ranOther.2.1 := by
  refine ⟨twins.told fun _ => rfl, twins.same_data_iff, fun swapped => ?_⟩
  refine ⟨swapped.told twins, fun sameForm => swapped.to_data_eq sameForm, ?_⟩
  intro session template partials view otherView converts otherConverts place bystander
  exact Session.renders_standing (Value.Exchanged.answering twins)
    (Value.Exchanged.display_eq twins) swapped session
    (Object.Replaced.refl place) template
    (Value.Exchanged.loads_alike bystander) converts otherConverts

/-- A member may be asked for, and the answer goes by what was asked before, but not by the items:
there could be none. Undefined and none are of one external form. -/
theorem items_of_keyed_object_are_not_rendered :
    let answer (history : List String) (key : String) : Option Value :=
      if key = "k" then some (.text (if history.isEmpty then "v" else "again")) else none
    let entity : Object Value := ⟨1, .keyed, answer, some [.text "x", .undefined], none, "Entity"⟩
    let twin : Object Value := { entity with items := some [.text "x", .none] }
    let bare : Object Value := { entity with id := 2, items := none }
    let view (object : Object Value) : Value :=
      .map [("l", .list [.object object, .text "w"]), ("o", .object object)]
    let span : Span := ⟨0, 0⟩
    let template : Template := ⟨"", [.sectionOf "l" [.escaped "." span, .escaped "k" span] 0 span,
      .sectionOf "o" [.text ";" span] 0 span, .invertedOf "o" [.text "!" span] 0 span,
      .escaped "o.0" span, .escaped "o.k" span]⟩
    let session := Session.start (.start "")
    entity.SameButItems twin ∧ (view entity).Exchanged entity twin (view twin) ∧
      (view entity).toData = (view twin).toData ∧
      entity.SameButItems bare ∧ (view entity).Exchanged entity bare (view bare) ∧
      (session.render template (.ready (view entity)) none).1 = .ok "[object]vw;again" ∧
      (session.render template (.ready (view bare)) none).1 = .ok "[object]vw;again" := by
  intro answer entity twin bare view span template session
  have answeredSelf (other : Object Value) {history : List String} {key : String} {value : Value}
      (answered : entity.answer history key = some value) :
      value.Exchanged entity other value := by
    obtain ⟨_, found⟩ := Option.ite_none_right_eq_some.1 answered
    obtain rfl := Option.some.inj found
    exact .same nofun
  have viewExchanged (other : Object Value) :
      (view entity).Exchanged entity other (view other) := by
    have exchanged := Value.Exchanged.exchanged (answeredSelf other)
    have items : List.Forall₂ (Value.Exchanged entity other) [.object entity, .text "w"]
        [.object other, .text "w"] := .cons exchanged (.cons (.same nofun) .nil)
    exact .of_entries (.cons ⟨rfl, .of_items items⟩ (.cons ⟨rfl, exchanged⟩ .nil))
  have twins : entity.SameButItems twin := ⟨by decide, rfl, rfl, rfl, rfl⟩
  have bareToo : entity.SameButItems bare := ⟨by decide, rfl, rfl, rfl, rfl⟩
  have forms := items_count_for_lists_alone twins
  have renders := (items_count_for_lists_alone bareToo).2.2 (viewExchanged bare)
  have rendered : (session.render template (.ready (view entity)) none).1 =
      .ok "[object]vw;again" := by
    -- evaluation goes down all the levels there is room for
    simp only [session, template, view, entity, answer, span]
    set_option maxRecDepth 2000 in cbv
  have alike := renders.2.2 session template none (Data.ready_to_value (view entity) _)
    (Data.ready_to_value (view bare) _) (.inr rfl)
    (fun _ held => (Option.some_ne_none _ held.symm).elim)
  exact ⟨twins, viewExchanged twin, (forms.2.2 (viewExchanged twin)).2.1 (forms.2.1.2 rfl),
    bareToo, viewExchanged bare, rendered, alike.1.symm.trans rendered⟩

/-- An object in the role of one with members goes out as a list if it names items, and as its text
if it does not. -/
theorem external_form_tells_items_of_keyed_object :
    let entity : Object Value :=
      ⟨1, .keyed, fun _ _ => none, some [.unsigned 1, .unsigned 2], none, "Entity"⟩
    let twin : Object Value := { entity with id := 2, items := none }
    entity.SameButItems twin ∧
      (Value.object entity).toData =
        .sequence [.integer (.word (.uint64 1)), .integer (.word (.uint64 2))] ∧
      (Value.object twin).toData = .text "[object]" ∧
      (Value.object entity).toData ≠ (Value.object twin).toData := by
  intro entity twin
  refine ⟨⟨by decide, rfl, rfl, rfl, rfl⟩, rfl, rfl, ?_⟩
  intro same
  cases same

end Mustache
