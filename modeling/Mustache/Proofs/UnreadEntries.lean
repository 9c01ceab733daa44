import Mustache.Proofs.Likeness

/-!
Entries that no name leads to. Maps, at any depth of the maps and lists of a view, may have more
entries under keys that are not a segment of any name in the template or in a partial: the output
stays the same.
-/

namespace Mustache

/-- The key is not a segment of any name that is looked up. -/
def Unread (delimiters : Delimiters) (source : Option Partials) (nodes : List Node) (key : String) :
    Prop :=
  ∀ name, LookedUp delimiters source nodes name → key ∉ segments name

namespace Value

/-- The second value is the first with entries of extra keys added to its maps, at any depth of
maps and lists. -/
inductive Widened (extra : String → Prop) : Value → Value → Prop
  | same (value : Value) : Widened extra value value
  | list {items others : List Value} (length : items.length = others.length)
      (below : ∀ {item other}, (item, other) ∈ items.zip others → Widened extra item other) :
      Widened extra (.list items) (.list others)
  | map {members others : Members Value}
      (kept : ∀ {key}, (members.get? key).isSome → (others.get? key).isSome)
      (added : ∀ {key}, (others.get? key).isSome → (members.get? key).isSome ∨ extra key)
      (below : ∀ {key value other}, members.get? key = some value →
        others.get? key = some other → Widened extra value other) :
      Widened extra (.map members) (.map others)

variable {extra : String → Prop}

/-- Entries may be widened in their place and another inserted among them. -/
theorem widened_of_entries {members others : Members Value}
    (related : EntriesLinked (Widened extra) members others) {key : String} (free : extra key)
    (new : others.get? key = Option.none) (value : Value) :
    (map members).Widened extra (map (others.insert key value)) := by
  have missing : (members.get? key).isSome = false := by
    rw [related.same_keys, new]
    rfl
  apply Widened.map
  · intro asked found
    rw [Members.get_insert]
    split
    · rfl
    · rwa [← related.same_keys]
  · intro asked found
    rw [Members.get_insert] at found
    split at found
    next isKey => exact .inr (isKey ▸ free)
    next => exact .inl (by rwa [related.same_keys])
  · intro asked value other found otherFound
    rw [Members.get_insert] at otherFound
    split at otherFound
    next isKey =>
      rw [← isKey, found] at missing
      cases missing
    next => exact related.found found otherFound

theorem Widened.alike {value other : Value} (widened : value.Widened extra other) :
    value.Alike (fun key => ¬ extra key) other := by
  induction widened with
  | same value => exact .same value
  | list length _ below => exact .list length below
  | @map members others kept added _ below =>
      apply Alike.map
      · intro key read
        apply Bool.eq_iff_iff.2
        constructor
        · exact kept
        · intro found
          exact (added found).resolve_right read
      · intro key value other _ found otherFound
        exact below found otherFound

end Value

/-- Data that no name leads to cannot change the output. Whatever a session has been used for, a
view and the view with more entries in its maps, at any depth and under keys that are not among
the segments of the names in the template or in any text its partials can come to, are rendered
with the same outcome and the same output. -/
theorem unread_entries_change_nothing (registry : Registry) (operations : List Operation)
    (template : Template) (partials : Option Partials) :
    let session := (Operation.performAll operations (.start registry)).2
    let unread := Unread session.settings.delimiters partials template.nodes
    ∀ {value other : Value}, value.Widened unread other →
      ∀ {view otherView : Data}, (view.toValue? session.registry).1 = .ok value →
        (otherView.toValue? session.registry).1 = .ok other →
          (session.render template view partials).1 =
              (session.render template otherView partials).1 ∧
            ∀ sink : Sink,
              let ran := session.renderInto template view partials sink
              let ranOther := session.renderInto template otherView partials sink
              ran.1 = ranOther.1 ∧ ran.2.1 = ranOther.2.1 := by
  intro session unread value other widened view otherView converts otherConverts
  have coherent := Operation.perform_all_coherent registry operations
  apply Session.renders_alike coherent _ widened.alike converts otherConverts
  intro name lookedUp segment among free
  exact free name lookedUp among

theorem entries_beside_the_read_ones_change_nothing :
    let partials : Partials := .ofList [("p", "\x7b\x7bd\x7d\x7d")]
    let span : Span := ⟨0, 0⟩
    let template : Template :=
      ⟨"", [.sectionOf "a" [.escaped "b.c" span, .inclusion "p" span] 0 span]⟩
    let unread := Unread .braces partials template.nodes
    let inner : Members Value := [("c", .text "x")]
    let item : Members Value := [("b", .map inner), ("d", .text "y")]
    let plain : Value := .map [("a", .list [.map item])]
    let wideInner : Members Value := inner.insert "a.b" (.text "unread")
    let wideItem : Members Value :=
      Members.insert "z" .none [("b", .map wideInner), ("d", .text "y")]
    let wide : Value := .map (Members.insert "" (.list []) [("a", .list [.map wideItem])])
    let session := (Operation.performAll [] (.start (.start ""))).2
    plain.Widened unread wide ∧
      (session.render template (.ready plain) partials).1 = .ok "xy" ∧
      (session.render template (.ready wide) partials).1 = .ok "xy" := by
  intro partials span template unread inner item plain wideInner wideItem wide session
  have lookedUp : ∀ name, LookedUp .braces partials template.nodes name →
      name = "a" ∨ name = "b.c" ∨ name = "d" := by
    intro name lookedUp
    cases lookedUp with
    | template among inside =>
        obtain rfl := List.mem_singleton.1 among
        cases inside with
        | itself asked => exact .inl (Option.some.inj asked).symm
        | deeper among inside =>
            rcases List.mem_pair.1 among with rfl | rfl
            · exact .inr (.inl (Option.some.inj (inside.of_leaf rfl)).symm)
            · cases inside.of_leaf rfl
    | @included text _ _ served tree among inside =>
        obtain ⟨_, held, wanted, _, answered⟩ := served
        cases Option.some.inj held
        obtain ⟨before, after, listed, _⟩ := List.lookup_eq_some_iff.1 (Except.ok.inj answered)
        have only : (wanted, text) ∈ [("p", "\x7b\x7bd\x7d\x7d")] := by simp [listed]
        obtain ⟨rfl, rfl⟩ := Prod.mk.inj (List.mem_singleton.1 only)
        have read : Node.ofSource .braces "\x7b\x7bd\x7d\x7d" =
            .ok [.escaped "d" ⟨0, 5⟩] := by cbv
        cases Except.ok.inj (read.symm.trans tree)
        obtain rfl := List.mem_singleton.1 among
        exact .inr (.inr (Option.some.inj (inside.of_leaf rfl)).symm)
  have isUnread (key : String)
      (apart : key ∉ segments "a" ∧ key ∉ segments "b.c" ∧ key ∉ segments "d") : unread key := by
    intro name among
    rcases lookedUp name among with rfl | rfl | rfl
    · exact apart.1
    · exact apart.2.1
    · exact apart.2.2
  have innerWidened : (Value.map inner).Widened unread (.map wideInner) :=
    Value.widened_of_entries (.cons ⟨rfl, .same _⟩ .nil) (isUnread "a.b" (by decide)) rfl _
  have itemEntries : EntriesLinked (Value.Widened unread) item
      [("b", .map wideInner), ("d", .text "y")] :=
    .cons ⟨rfl, innerWidened⟩ (.cons ⟨rfl, .same _⟩ .nil)
  have itemWidened : (Value.map item).Widened unread (.map wideItem) :=
    Value.widened_of_entries itemEntries (isUnread "z" (by decide)) rfl .none
  have itemsWidened : (Value.list [.map item]).Widened unread (.list [.map wideItem]) :=
    .list rfl (List.forall₂_iff_zip.1 (.cons itemWidened .nil)).2
  have entries : EntriesLinked (Value.Widened unread) [("a", .list [.map item])]
      [("a", .list [.map wideItem])] := .cons ⟨rfl, itemsWidened⟩ .nil
  have widened : plain.Widened unread wide :=
    Value.widened_of_entries entries (isUnread "" (by decide)) rfl (.list [])
  have rendered : (session.render template (.ready plain) partials).1 = .ok "xy" := by
    -- evaluation goes down all the levels there is room for
    simp only [session, template, plain, item, inner, span, partials]
    set_option maxRecDepth 2000 in cbv
  have same := unread_entries_change_nothing (.start "") [] template partials widened
    (Data.ready_to_value plain _) (Data.ready_to_value wide _)
  exact ⟨widened, rendered, same.1.symm.trans rendered⟩

end Mustache
