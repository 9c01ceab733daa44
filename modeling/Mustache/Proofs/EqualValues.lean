import Mustache.Proofs.Likeness

/-!
Equality of values. On plain data without floats it comes to the essence of the values being the
same, so it is an equivalence there, and values that are equal are rendered alike.
-/

namespace Mustache

/-- What is left of a value without the forms of its integers and without all of its objects but
their identities. -/
inductive Essence
  | undefined
  | none
  | bool (truth : Bool)
  | integer (number : Int)
  | float (number : Float)
  | text (content : String)
  | list (items : List Essence)
  | map (members : List (String × Essence))
  | object (id : Nat)

namespace Value

mutual

def essence : Value → Essence
  | .undefined => .undefined
  | .none => .none
  | .bool truth => .bool truth
  | .unsigned number => .integer number.toNat
  | .signed number => .integer number.toInt
  | .float number => .float number
  | .text content => .text content
  | .list items => .list (essenceEach items)
  | .map members => .map (essenceMembers members)
  | .object entity => .object entity.id

def essenceEach : List Value → List Essence
  | [] => []
  | item :: rest => item.essence :: essenceEach rest

def essenceMembers : Members Value → List (String × Essence)
  | [] => []
  | (key, value) :: rest => (key, value.essence) :: essenceMembers rest

end

theorem essence_each_eq_map (items : List Value) : essenceEach items = items.map essence := by
  induction items with
  | nil => rfl
  | cons item rest ih => rw [essenceEach, ih, List.map_cons]

theorem essence_members_eq_map (members : Members Value) :
    essenceMembers members = members.map fun member => (member.1, member.2.essence) := by
  induction members with
  | nil => rfl
  | cons member rest ih => rw [essenceMembers, ih, List.map_cons]

/-- A value whose plain data has no floats, and whose objects are known ones. What the objects
answer is not looked into. -/
inductive FloatFree (known : Object Value → Prop) : Value → Prop
  | undefined : FloatFree known .undefined
  | none : FloatFree known .none
  | bool (truth : Bool) : FloatFree known (.bool truth)
  | unsigned (number : UInt64) : FloatFree known (.unsigned number)
  | signed (number : Int64) : FloatFree known (.signed number)
  | text (content : String) : FloatFree known (.text content)
  | list {items : List Value} (below : ∀ item ∈ items, FloatFree known item) :
      FloatFree known (.list items)
  | map {members : Members Value} (below : ∀ member ∈ members, FloatFree known member.2) :
      FloatFree known (.map members)
  | object {entity : Object Value} (isKnown : known entity) : FloatFree known (.object entity)

variable {known : Object Value → Prop}

/-- Equal to the value are the values of its essence. -/
def AgreesByEssence (known : Object Value → Prop) (value : Value) : Prop :=
  ∀ {other : Value}, other.FloatFree known →
    (value.agrees other = true ↔ value.essence = other.essence)

theorem agrees_items_iff {items others : List Value}
    (each : ∀ item ∈ items, item.AgreesByEssence known)
    (free : ∀ other ∈ others, other.FloatFree known) :
    agreesItems items others = true ↔ essenceEach items = essenceEach others := by
  induction items generalizing others with
  | nil => cases others <;> simp [agreesItems, essenceEach]
  | cons item rest ih =>
      cases others with
      | nil => simp [agreesItems, essenceEach]
      | cons other otherRest =>
          obtain ⟨here, behind⟩ := List.forall_mem_cons.1 each
          obtain ⟨otherFree, restFree⟩ := List.forall_mem_cons.1 free
          simp only [agreesItems, essenceEach, Bool.and_eq_true, List.cons.injEq, here otherFree,
            ih behind restFree]

theorem agrees_members_iff {members others : Members Value}
    (each : ∀ member ∈ members, member.2.AgreesByEssence known)
    (free : ∀ other ∈ others, other.2.FloatFree known) :
    agreesMembers members others = true ↔ essenceMembers members = essenceMembers others := by
  induction members generalizing others with
  | nil => cases others <;> simp [agreesMembers, essenceMembers]
  | cons member rest ih =>
      cases others with
      | nil => simp [agreesMembers, essenceMembers]
      | cons other otherRest =>
          obtain ⟨here, behind⟩ := List.forall_mem_cons.1 each
          obtain ⟨otherFree, restFree⟩ := List.forall_mem_cons.1 free
          simp only [agreesMembers, essenceMembers, Bool.and_eq_true, decide_eq_true_eq,
            List.cons.injEq, Prod.mk.injEq, here otherFree, ih behind restFree]

theorem agrees_iff_essence {value : Value} (free : value.FloatFree known) :
    value.AgreesByEssence known := by
  induction free with
  | list below each =>
      intro other otherFree
      cases otherFree with
      | list othersBelow =>
          simp only [agrees, essence, Essence.list.injEq]
          exact agrees_items_iff each othersBelow
      | _ => simp [agrees, agreesAsNumber, integer?, number?, essence]
  | map below each =>
      intro other otherFree
      cases otherFree with
      | map othersBelow =>
          simp only [agrees, essence, Essence.map.injEq]
          exact agrees_members_iff each othersBelow
      | _ => simp [agrees, agreesAsNumber, integer?, number?, essence]
  | _ =>
      -- what is left to compare as numbers are integers, in whatever form
      intro other otherFree
      cases otherFree <;> simp [agrees, agreesAsNumber, integer?, number?, essence]

theorem agrees_equivalence (known : Object Value → Prop) :
    Equivalence fun value other : {value : Value // value.FloatFree known} =>
      value.1.agrees other.1 = true := by
  have byEssence (value other : {value : Value // value.FloatFree known}) :
      value.1.agrees other.1 = true ↔ value.1.essence = other.1.essence :=
    agrees_iff_essence value.2 other.2
  simp only [byEssence]
  exact eq_equivalence.comap fun value : {value : Value // value.FloatFree known} =>
    value.1.essence

/-- Values of one essence differ in the form of integers only, if objects of one identity are the
same. -/
theorem alike_of_essence
    (identities : ∀ {entity other : Object Value}, known entity → known other →
      entity.id = other.id → entity = other)
    {value other : Value} (free : value.FloatFree known) (otherFree : other.FloatFree known)
    (same : value.essence = other.essence) : value.Alike (fun _ => True) other := by
  induction free generalizing other with
  | undefined | none | bool | text =>
      cases otherFree <;> cases same
      exact .same _
  | unsigned | signed =>
      cases otherFree <;> simp only [essence, reduceCtorEq, Essence.integer.injEq] at same
      all_goals exact .integer rfl (congrArg some same.symm)
  | @list items _ eachAlike =>
      cases otherFree with
      | @list others othersFree =>
          have each : List.Forall₂ (fun item other => item.essence = other.essence) items
              others := by
            have maps := Essence.list.inj same
            rwa [essence_each_eq_map, essence_each_eq_map, map_eq_map_iff_linked] at maps
          apply Alike.list each.length_eq
          intro item other among
          obtain ⟨here, there⟩ := List.of_mem_zip among
          have same := (List.forall₂_iff_zip.1 each).2 among
          exact eachAlike item here (othersFree other there) same
      | _ => cases same
  | @map members _ eachAlike =>
      cases otherFree with
      | @map others othersFree =>
          have each : EntriesLinked (fun value other => value.essence = other.essence) members
              others := by
            have maps := Essence.map.inj same
            rw [essence_members_eq_map, essence_members_eq_map, map_eq_map_iff_linked] at maps
            exact maps.imp fun _ _ => Prod.mk.inj
          apply Alike.map
          · intro key _
            exact each.same_keys key
          · intro key value other _ found otherFound
            have here := Members.mem_of_get found
            have there := Members.mem_of_get otherFound
            exact eachAlike _ here (othersFree _ there) (each.found found otherFound)
      | _ => cases same
  | object isKnown =>
      cases otherFree with
      | object otherKnown =>
          rw [identities isKnown otherKnown (Essence.object.inj same)]
          exact .same _
      | _ => cases same

end Value

/-- Equal values render equally. On values that have no floats in their plain data equality is
reflexive, symmetric and transitive. If an identity is that of one object, a session that has been
used for anything renders two such values, where they are equal, with the same outcome and the
same output. -/
theorem equal_values_render_alike (known : Object Value → Prop) :
    (Equivalence fun value other : {value : Value // value.FloatFree known} =>
        value.1.agrees other.1 = true) ∧
      ((∀ {entity other : Object Value}, known entity → known other → entity.id = other.id →
          entity = other) →
        ∀ (registry : Registry) (operations : List Operation) (template : Template)
          (partials : Option Partials),
          let session := (Operation.performAll operations (.start registry)).2
          ∀ {value other : Value}, value.FloatFree known → other.FloatFree known →
            value.agrees other = true →
            ∀ {view otherView : Data}, (view.toValue? session.registry).1 = .ok value →
              (otherView.toValue? session.registry).1 = .ok other →
                (session.render template view partials).1 =
                    (session.render template otherView partials).1 ∧
                  ∀ sink : Sink,
                    let ran := session.renderInto template view partials sink
                    let ranOther := session.renderInto template otherView partials sink
                    ran.1 = ranOther.1 ∧ ran.2.1 = ranOther.2.1) := by
  refine ⟨Value.agrees_equivalence known, ?_⟩
  intro identities registry operations template partials session value other free otherFree same
    view otherView converts otherConverts
  have coherent := Operation.perform_all_coherent registry operations
  have sameEssence := (Value.agrees_iff_essence free otherFree).1 same
  have alike := Value.alike_of_essence identities free otherFree sameEssence
  exact Session.renders_alike coherent (fun _ _ _ _ => trivial) alike converts otherConverts

theorem integers_of_both_forms_render_alike :
    let entity : Object Value := .ofMembers 7 "Shared" [("k", .text "v")]
    let view (three four : Value) : Value :=
      .map [("n", .list [three, .map [("k", four)]]), ("o", .object entity)]
    let value := view (.unsigned 3) (.unsigned 4)
    let other := view (.signed 3) (.signed 4)
    let span : Span := ⟨0, 0⟩
    let template : Template := ⟨"", [.sectionOf "n" [.escaped "." span, .escaped "k" span] 0 span,
      .escaped "n" span, .escaped "o.k" span]⟩
    let session := (Operation.performAll [] (.start (.start ""))).2
    value.FloatFree (· = entity) ∧ other.FloatFree (· = entity) ∧ value.agrees other = true ∧
      (session.render template (.ready value) none).1 = .ok "3[object]43,[object]v" ∧
      (session.render template (.ready other) none).1 = .ok "3[object]43,[object]v" := by
  intro entity view value other span template session
  have viewFree {three four : Value} (threeFree : three.FloatFree (· = entity))
      (fourFree : four.FloatFree (· = entity)) : (view three four).FloatFree (· = entity) := by
    have innerFree : (Value.map [("k", four)]).FloatFree (· = entity) :=
      .map (List.forall_mem_singleton.2 fourFree)
    have listFree : (Value.list [three, .map [("k", four)]]).FloatFree (· = entity) :=
      .list (List.forall_mem_cons.2 ⟨threeFree, List.forall_mem_singleton.2 innerFree⟩)
    exact .map (List.forall_mem_cons.2 ⟨listFree, List.forall_mem_singleton.2 (.object rfl)⟩)
  have free : value.FloatFree (· = entity) := viewFree (.unsigned 3) (.unsigned 4)
  have otherFree : other.FloatFree (· = entity) := viewFree (.signed 3) (.signed 4)
  have same : value.agrees other = true := by
    simp only [value, other, view]
    cbv
  have identities {one another : Object Value} (first : one = entity) (second : another = entity)
      (_ : one.id = another.id) : one = another := first.trans second.symm
  have rendered : (session.render template (.ready value) none).1 =
      .ok "3[object]43,[object]v" := by
    -- evaluation goes down all the levels there is room for
    simp only [session, template, value, view, entity, span]
    set_option maxRecDepth 2000 in cbv
  have alike := (equal_values_render_alike (· = entity)).2 identities (.start "") [] template none
    free otherFree same (Data.ready_to_value value _) (Data.ready_to_value other _)
  exact ⟨free, otherFree, same, rendered, alike.1.symm.trans rendered⟩

end Mustache
