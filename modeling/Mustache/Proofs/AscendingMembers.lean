import Mathlib
import Mustache.Members

/-!
The order of members. Whatever entries a map is made of, its members stand in ascending order of
key, so that it is determined by what it answers; and entries that stand in that order already are
its members.
-/

namespace Mustache.Members

variable {α : Type} {members others : Members α} {key : String}

def Ascending (members : Members α) : Prop := members.Pairwise fun one other => one.1 < other.1

instance (members : Members α) : Decidable members.Ascending :=
  inferInstanceAs (Decidable (List.Pairwise _ members))

theorem Ascending.map {β : Type} (ascending : members.Ascending) (f : α → β) :
    Ascending (members.map fun member => (member.1, f member.2)) :=
  List.pairwise_map.2 ascending

theorem mem_of_mem_insert {value : α} {entry : String × α}
    (among : entry ∈ members.insert key value) : entry = (key, value) ∨ entry ∈ members := by
  induction members with
  | nil => exact .inl (List.mem_singleton.1 among)
  | cons first rest ih =>
      obtain ⟨present, kept⟩ := first
      simp only [insert] at among
      split at among
      next =>
        rcases List.mem_cons.1 among with here | behind
        · exact .inl here
        · exact .inr (List.mem_cons_of_mem _ behind)
      next =>
        split at among
        next => exact List.mem_cons.1 among
        next =>
          rcases List.mem_cons.1 among with here | behind
          · exact .inr (here ▸ List.mem_cons_self)
          · exact (ih behind).imp_right (List.mem_cons_of_mem _)

theorem Ascending.insert (ascending : members.Ascending) (key : String) (value : α) :
    (members.insert key value).Ascending := by
  induction members with
  | nil => exact List.pairwise_singleton _ _
  | cons entry rest ih =>
      obtain ⟨present, kept⟩ := entry
      obtain ⟨above, ordered⟩ := List.pairwise_cons.1 ascending
      simp only [Members.insert]
      split
      next same =>
        subst same
        exact List.pairwise_cons.2 ⟨above, ordered⟩
      next apart =>
        split
        next before =>
          refine List.pairwise_cons.2 ⟨List.forall_mem_cons.2 ⟨before, ?_⟩, ascending⟩
          exact fun entry among => before.trans (above entry among)
        next notBefore =>
          have behind : present < key := lt_of_le_of_ne (not_lt.1 notBefore) (Ne.symm apart)
          refine List.pairwise_cons.2 ⟨fun entry among => ?_, ih ordered⟩
          rcases mem_of_mem_insert among with rfl | amongRest
          · exact behind
          · exact above entry amongRest

theorem of_list_concat (entries : List (String × α)) (entry : String × α) :
    ofList (entries ++ [entry]) = (ofList entries).insert entry.1 entry.2 := by
  rw [ofList, List.foldl_append, ofList, List.foldl_cons, List.foldl_nil]

theorem ascending_of_list (entries : List (String × α)) : (ofList entries).Ascending := by
  induction entries using List.reverseRecOn with
  | nil => exact .nil
  | append_singleton before entry ih =>
      rw [of_list_concat]
      exact ih.insert entry.1 entry.2

/-- Of the entries of a key the last is the first from behind. -/
theorem get_of_list_eq (entries : List (String × α)) (key : String) :
    (ofList entries).get? key = entries.reverse.lookup key := by
  induction entries using List.reverseRecOn with
  | nil => rfl
  | append_singleton before entry ih =>
      rw [of_list_concat, get_insert, ih, List.reverse_append, List.reverse_singleton,
        List.singleton_append]
      exact (get_cons entry.1 entry.2 before.reverse key).symm

theorem get_of_list {before after : List (String × α)} {value : α}
    (apart : ∀ entry ∈ after, entry.1 ≠ key) :
    (ofList (before ++ (key, value) :: after)).get? key = some value := by
  have noneBehind : after.reverse.lookup key = none := by
    apply List.lookup_eq_none_iff.2
    intro entry among
    exact bne_iff_ne.2 (Ne.symm (apart entry (List.mem_reverse.1 among)))
  rw [get_of_list_eq, List.reverse_append, List.reverse_cons, List.append_assoc,
    List.lookup_append, noneBehind, Option.none_or]
  exact (get_cons key value before.reverse key).trans (if_pos rfl)

theorem insert_behind (value : α) (below : ∀ entry ∈ members, entry.1 < key) :
    members.insert key value = members ++ [(key, value)] := by
  induction members with
  | nil => rfl
  | cons entry rest ih =>
      obtain ⟨present, kept⟩ := entry
      obtain ⟨here, behind⟩ := List.forall_mem_cons.1 below
      have apart : key ≠ present := ne_of_gt here
      have notBefore : ¬ key < present := not_lt_of_gt here
      simp only [insert, apart, notBefore, if_false, List.cons_append, ih behind]

theorem of_list_of_ascending (ascending : members.Ascending) : ofList members = members := by
  induction members using List.reverseRecOn with
  | nil => rfl
  | append_singleton before entry ih =>
      obtain ⟨ordered, _, below⟩ := List.pairwise_append.1 ascending
      have allBelow : ∀ other ∈ before, other.1 < entry.1 := fun other among =>
        below other among entry (List.mem_singleton.2 rfl)
      rw [of_list_concat, ih ordered, insert_behind entry.2 allBelow]

theorem Ascending.mem_iff_get (ascending : members.Ascending) {value : α} :
    (key, value) ∈ members ↔ members.get? key = some value := by
  refine ⟨fun among => ?_, mem_of_get⟩
  induction members with
  | nil => cases among
  | cons entry rest ih =>
      obtain ⟨present, kept⟩ := entry
      obtain ⟨above, ordered⟩ := List.pairwise_cons.1 ascending
      rw [get_cons]
      rcases List.mem_cons.1 among with here | behind
      · cases here
        rw [if_pos rfl]
      · have apart : key ≠ present := ne_of_gt (above _ behind)
        rw [if_neg apart, ih ordered behind]

theorem Ascending.nodup (ascending : members.Ascending) : members.Nodup :=
  ascending.imp fun before same => before.ne (congrArg Prod.fst same)

/-- Members in order are determined by what they answer. -/
theorem Ascending.eq_of_get (ascending : members.Ascending) (othersAscending : others.Ascending)
    (same : ∀ key, members.get? key = others.get? key) : members = others := by
  have perm : members.Perm others := by
    apply (List.perm_ext_iff_of_nodup ascending.nodup othersAscending.nodup).2
    intro entry
    rw [ascending.mem_iff_get, othersAscending.mem_iff_get, same]
  apply perm.eq_of_pairwise _ ascending othersAscending
  exact fun one other _ _ before after => absurd before (not_lt_of_gt after)

end Mustache.Members
