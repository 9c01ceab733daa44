import Mustache.Proofs.PlainLookup

/-!
Names that are remembered. What a name stands for in a scope is found out once: the scope's own
view is walked when the name is first looked up there, by whoever looks up in the scope or in one
within it, and every later lookup has the answer of the first. So it is whatever the views do:
an object may answer the same key differently each time it is asked, and miss at one time what it
has at another.
-/

namespace Mustache

namespace Scopes

/-- The lookup of a name with a way of its own to resolve it in a view. The way is told the number
of the scope, and may go by a state and change it. -/
def lookupBy {σ : Type} (resolve : Nat → Scope → String → σ → Option Value × σ) (name : String) :
    Scopes → Nat → σ → Value × Scopes × σ
  | [], _, state => (.undefined, [], state)
  | scope :: older, number, state =>
      if older.length = number then
        match scope.memo.lookup name with
        | some value => (value, scope :: older, state)
        | none =>
            match resolve number scope name state with
            | (some value, state) => (value, scope.remember name value :: older, state)
            | (none, state) =>
                match scope.parent with
                | none => (.undefined, scope.remember name .undefined :: older, state)
                | some parent =>
                    let (value, older, state) := lookupBy resolve name older parent state
                    (value, scope.remember name value :: older, state)
      else
        let (value, older, state) := lookupBy resolve name older number state
        (value, scope :: older, state)

/-- Resolving as it is done, with a record of the scopes whose views have been walked. -/
def resolveOnRecord (number : Nat) (scope : Scope) (name : String) (state : Journal × List Nat) :
    Option Value × Journal × List Nat :=
  let (answer, journal) := scope.resolve name state.1
  (answer, journal, number :: state.2)

/-- The scopes whose views are walked when a name is looked up, the last first. -/
def walked (name : String) (scopes : Scopes) (number : Nat) (journal : Journal) : List Nat :=
  (lookupBy resolveOnRecord name scopes number (journal, [])).2.2.2

/-- A record changes nothing of the lookup it is made of. -/
theorem exists_record (name : String) (scopes : Scopes) (number : Nat) (journal : Journal) :
    ∃ seen, ∀ record,
      lookupBy resolveOnRecord name scopes number (journal, record) =
        let found := lookup name scopes number journal
        (found.1, found.2.1, found.2.2, seen ++ record) := by
  fun_induction lookup name scopes number journal with
  | case1 => exact ⟨[], fun _ => rfl⟩
  | case2 scope older journal value remembered =>
      refine ⟨[], fun record => ?_⟩
      simp only [lookupBy, if_true, remembered, List.nil_append]
  | case3 scope older journal missed value behind resolved =>
      refine ⟨[older.length], fun record => ?_⟩
      simp only [lookupBy, if_true, missed, resolveOnRecord, resolved, List.singleton_append]
  | case4 scope older journal missed behind resolved outermost =>
      refine ⟨[older.length], fun record => ?_⟩
      simp only [lookupBy, if_true, missed, resolveOnRecord, resolved, outermost,
        List.singleton_append]
  | case5 scope older journal missed between resolved parent inner value newer behind looked ih =>
      obtain ⟨seen, same⟩ := ih
      refine ⟨seen ++ [older.length], fun record => ?_⟩
      simp only [lookupBy, if_true, missed, resolveOnRecord, resolved, inner, same, looked,
        List.append_assoc, List.singleton_append]
  | case6 scope older number journal elsewhere value newer behind looked ih =>
      obtain ⟨seen, same⟩ := ih
      refine ⟨seen, fun record => ?_⟩
      simp only [lookupBy, if_neg elsewhere, same, looked]

theorem lookup_on_record (name : String) (scopes : Scopes) (number : Nat) (journal : Journal)
    (record : List Nat) :
    lookupBy resolveOnRecord name scopes number (journal, record) =
      let found := lookup name scopes number journal
      (found.1, found.2.1, found.2.2, walked name scopes number journal ++ record) := by
  obtain ⟨seen, same⟩ := exists_record name scopes number journal
  simp only [walked, same, List.append_nil]

/-- What a scope remembers of a name. -/
def remembered? (name : String) (scopes : Scopes) (number : Nat) : Option Value :=
  (scopes.get? number).bind fun scope => scope.memo.lookup name

theorem remembered_cons (name : String) (scope : Scope) (older : Scopes) (number : Nat) :
    remembered? name (scope :: older) number =
      if older.length = number then scope.memo.lookup name else remembered? name older number := by
  simp only [remembered?, get?]
  split <;> rfl

theorem walked_cons (name : String) (scope : Scope) (older : Scopes) (number : Nat)
    (journal : Journal) :
    walked name (scope :: older) number journal =
      if older.length = number then
        match scope.memo.lookup name with
        | some _ => []
        | none =>
            match scope.resolve name journal with
            | (some _, _) => [number]
            | (none, journal) =>
                match scope.parent with
                | none => [number]
                | some parent => walked name older parent journal ++ [number]
      else walked name older number journal := by
  simp only [walked, lookupBy, resolveOnRecord]
  split
  · cases scope.memo.lookup name with
    | some value => rfl
    | none =>
        cases scope.resolve name journal with
        | mk answer behind =>
          cases answer with
          | some value => rfl
          | none =>
              cases scope.parent with
              | none => rfl
              | some parent => simp only [lookup_on_record, List.append_nil]
  · rfl

theorem lt_length_of_remembered {name : String} {scopes : Scopes} {number : Nat} {value : Value}
    (known : scopes.remembered? name number = some value) : number < scopes.length := by
  induction scopes with
  | nil => cases known
  | cons scope older ih =>
      rw [remembered_cons] at known
      rw [List.length_cons]
      split at known
      · omega
      · exact (ih known).trans (Nat.lt_succ_self _)

theorem length_lookup (name : String) (scopes : Scopes) (number : Nat) (journal : Journal) :
    (scopes.lookup name number journal).2.1.length = scopes.length := by
  simpa [bare] using congrArg List.length (lookup_keeps_bare name scopes number journal)

theorem length_of_looked {name : String} {older newer : Scopes} {number : Nat} {value : Value}
    {journal behind : Journal}
    (looked : older.lookup name number journal = (value, newer, behind)) :
    newer.length = older.length := by
  rw [← length_lookup name older number journal, looked]

section Lookup

variable {name other : String} {scopes : Scopes} {number : Nat} {value : Value}

/-- What is remembered is the answer; nothing is asked and nothing changes. -/
theorem lookup_of_remembered (known : scopes.remembered? name number = some value)
    (journal : Journal) :
    scopes.lookup name number journal = (value, scopes, journal) ∧
      scopes.walked name number journal = [] := by
  induction scopes with
  | nil => cases known
  | cons scope older ih =>
      rw [remembered_cons] at known
      rw [walked_cons, lookup]
      split at known
      next here => simp only [if_pos here, known, and_self]
      next elsewhere => simp only [if_neg elsewhere, ih known, and_self]

theorem remembered_remember (scope : Scope) (older : Scopes) (value : Value) :
    remembered? name (scope.remember name value :: older) older.length = some value := by
  rw [remembered_cons, if_pos rfl]
  simp [Scope.remember]

/-- A lookup takes nothing back that is remembered. -/
theorem lookup_keeps_remembered (known : scopes.remembered? other number = some value)
    (asked : Nat) (journal : Journal) :
    (scopes.lookup name asked journal).2.1.remembered? other number = some value := by
  -- a name is remembered where it was missed, so none that was remembered goes
  have added {scope : Scope} {found : Value} (missed : scope.memo.lookup name = none)
      (held : scope.memo.lookup other = some value) :
      (scope.remember name found).memo.lookup other = some value := by
    have apart : (other == name) = false := by
      apply beq_false_of_ne
      rintro rfl
      cases missed.symm.trans held
    simp only [Scope.remember, List.lookup_cons, apart, held]
  fun_induction lookup name scopes asked journal with
  | case1 => cases known
  | case2 => exact known
  | case3 scope older journal missed found behind resolved
  | case4 scope older journal missed behind resolved outermost =>
      rw [remembered_cons] at known ⊢
      split at known
      next here => rw [if_pos here, added missed known]
      next elsewhere => rw [if_neg elsewhere, known]
  | case5 scope older journal missed between resolved parent inner found newer behind looked ih =>
      have sameLength := length_of_looked looked
      rw [looked] at ih
      rw [remembered_cons] at known ⊢
      rw [sameLength]
      split at known
      next here => rw [if_pos here, added missed known]
      next elsewhere => rw [if_neg elsewhere, ih known]
  | case6 scope older asked journal elsewhere found newer behind looked ih =>
      have sameLength := length_of_looked looked
      rw [looked] at ih
      rw [remembered_cons] at known ⊢
      rw [sameLength]
      split at known
      next here => rw [if_pos here, known]
      next elsewhere => rw [if_neg elsewhere, ih known]

theorem lookup_remembers (known : number < scopes.length) (journal : Journal) :
    (scopes.lookup name number journal).2.1.remembered? name number =
      some (scopes.lookup name number journal).1 := by
  fun_induction lookup name scopes number journal with
  | case1 => cases known
  | case2 scope older journal value remembered => rw [remembered_cons, if_pos rfl, remembered]
  | case3 | case4 => exact remembered_remember _ _ _
  | case5 scope older journal missed between resolved parent inner value newer behind looked ih =>
      have sameLength := length_of_looked looked
      rw [← sameLength]
      exact remembered_remember _ _ _
  | case6 scope older number journal elsewhere value newer behind looked ih =>
      have sameLength := length_of_looked looked
      rw [List.length_cons] at known
      rw [looked] at ih
      rw [remembered_cons, sameLength, if_neg elsewhere, ih (by omega)]

/-- A scope is walked where the name is not remembered, and then it is, with the answer. -/
theorem remembered_of_walked {walker : Nat} (journal : Journal)
    (among : walker ∈ scopes.walked name number journal) :
    scopes.remembered? name walker = none ∧
      (scopes.lookup name number journal).2.1.remembered? name walker =
        some (scopes.lookup name number journal).1 := by
  fun_induction lookup name scopes number journal with
  | case1 => cases among
  | case2 scope older journal value remembered =>
      rw [walked_cons, if_pos rfl, remembered] at among
      cases among
  | case3 scope older journal missed value behind resolved =>
      simp only [walked_cons, if_true, missed, resolved, List.mem_singleton] at among
      subst among
      rw [remembered_cons, if_pos rfl]
      exact ⟨missed, remembered_remember _ _ _⟩
  | case4 scope older journal missed behind resolved outermost =>
      simp only [walked_cons, if_true, missed, resolved, outermost, List.mem_singleton] at among
      subst among
      rw [remembered_cons, if_pos rfl]
      exact ⟨missed, remembered_remember _ _ _⟩
  | case5 scope older journal missed between resolved parent inner value newer behind looked ih =>
      have sameLength := length_of_looked looked
      rw [looked] at ih
      simp only [walked_cons, if_true, missed, resolved, inner, List.mem_append,
        List.mem_singleton] at among
      rcases among with further | rfl
      · obtain ⟨before, after⟩ := ih further
        have below : walker < newer.length := lt_length_of_remembered after
        rw [remembered_cons, remembered_cons, if_neg (by omega), if_neg (by omega)]
        exact ⟨before, after⟩
      · rw [remembered_cons, if_pos rfl, ← sameLength]
        exact ⟨missed, remembered_remember _ _ _⟩
  | case6 scope older number journal elsewhere value newer behind looked ih =>
      have sameLength := length_of_looked looked
      rw [looked] at ih
      rw [walked_cons, if_neg elsewhere] at among
      obtain ⟨before, after⟩ := ih among
      have below : walker < newer.length := lt_length_of_remembered after
      rw [remembered_cons, remembered_cons, if_neg (by omega), if_neg (by omega)]
      exact ⟨before, after⟩

theorem walked_nodup (journal : Journal) : (scopes.walked name number journal).Nodup := by
  induction scopes generalizing number journal with
  | nil => exact List.nodup_nil
  | cons scope older ih =>
      rw [walked_cons]
      split
      next here =>
        split
        · exact List.nodup_nil
        · split
          · exact List.nodup_singleton number
          next behind _ =>
            split
            · exact List.nodup_singleton number
            next parent _ =>
              -- the scopes further out are older, so this one is not among them
              apply List.Nodup.append (ih behind) (List.nodup_singleton number)
              rw [List.disjoint_singleton]
              intro among
              have below := lt_length_of_remembered (remembered_of_walked behind among).2
              rw [length_lookup] at below
              omega
      · exact ih journal

end Lookup

/-- A lookup that has been made: the scope and the name that were asked for, the scopes whose views
were walked for it, and its answer. -/
structure Inquiry where
  scope : Nat
  name : String
  walked : List Nat
  answer : Value

namespace Inquiry

def make (name : String) (scopes : Scopes) (number : Nat) (journal : Journal) : Inquiry :=
  ⟨number, name, scopes.walked name number journal, (scopes.lookup name number journal).1⟩

/-- The scope was asked: for the inquiry itself, or on the way outwards from the scope that was. -/
def Asks (inquiry : Inquiry) (number : Nat) : Prop :=
  number = inquiry.scope ∨ number ∈ inquiry.walked

/-- Every scope that was asked remembers the answer. -/
def Settled (scopes : Scopes) (inquiry : Inquiry) : Prop :=
  ∀ number, inquiry.Asks number →
    scopes.remembered? inquiry.name number = some inquiry.answer

end Inquiry

/-- Scopes that have come about by opening scopes and looking names up in them, in any order, and
the lookups made, the last first. What objects have been asked otherwise is open at each of them. -/
inductive Inquired : Scopes → List Inquiry → Prop
  | root (view : Value) : Inquired (root view) []
  | push {scopes : Scopes} {made : List Inquiry} (inquired : Inquired scopes made) (parent : Nat)
      (view : Value) : Inquired (scopes.push parent view) made
  | lookup {scopes : Scopes} {made : List Inquiry} (inquired : Inquired scopes made)
      (name : String) {number : Nat} (known : number < scopes.length) (journal : Journal) :
      Inquired (scopes.lookup name number journal).2.1 (.make name scopes number journal :: made)

section Inquiries

variable {scopes : Scopes} {made : List Inquiry} {inquiry : Inquiry}

theorem settled_push (settled : inquiry.Settled scopes) (parent : Nat) (view : Value) :
    inquiry.Settled (scopes.push parent view) := by
  intro number asked
  have known := settled number asked
  have below := lt_length_of_remembered known
  rw [push, remembered_cons, if_neg (by omega), known]

theorem settled_lookup (settled : inquiry.Settled scopes) (name : String) (number : Nat)
    (journal : Journal) : inquiry.Settled (scopes.lookup name number journal).2.1 :=
  fun askedNumber asked =>
    lookup_keeps_remembered (settled askedNumber asked) number journal

theorem settled_make (name : String) {number : Nat} (known : number < scopes.length)
    (journal : Journal) :
    (Inquiry.make name scopes number journal).Settled
      (scopes.lookup name number journal).2.1 := by
  rintro walker (rfl | among)
  · exact lookup_remembers known journal
  · exact (remembered_of_walked journal among).2

theorem settled_of_inquired (inquired : scopes.Inquired made) :
    ∀ inquiry ∈ made, inquiry.Settled scopes := by
  induction inquired with
  | root view => simp
  | push _ parent view ih => exact fun inquiry among => settled_push (ih inquiry among) parent view
  | @lookup _ _ _ name number known journal ih =>
      intro inquiry among
      rcases List.mem_cons.1 among with rfl | earlier
      · exact settled_make name known journal
      · exact settled_lookup (ih inquiry earlier) name number journal

/-- What has been walked is not walked again. -/
theorem walks_nodup (inquired : scopes.Inquired made) :
    (made.flatMap fun inquiry => inquiry.walked.map fun scope => (scope, inquiry.name)).Nodup := by
  induction inquired with
  | root view => exact List.nodup_nil
  | push _ _ _ ih => exact ih
  | @lookup scopes _ inquired name number known journal ih =>
      rw [List.flatMap_cons]
      apply List.Nodup.append _ ih
      · rintro ⟨walker, asked⟩ new old
        simp only [Inquiry.make, List.mem_map, Prod.mk.injEq, List.mem_flatMap] at new old
        obtain ⟨_, walked, rfl, rfl⟩ := new
        obtain ⟨inquiry, earlier, _, walkedBefore, rfl, sameName⟩ := old
        have missed := (remembered_of_walked journal walked).1
        have held := settled_of_inquired inquired inquiry earlier _ (.inr walkedBefore)
        rw [sameName, missed] at held
        cases held
      · exact (walked_nodup journal).map fun _ _ same => (Prod.mk.inj same).1

/-- An inquiry for a name that was inquired for before has the answer of the first. -/
theorem inquiries_agree (inquired : scopes.Inquired made) :
    made.Pairwise fun later earlier => later.name = earlier.name → earlier.Asks later.scope →
      later.answer = earlier.answer ∧ later.walked = [] := by
  induction inquired with
  | root view => exact .nil
  | push _ _ _ ih => exact ih
  | @lookup scopes _ inquired name number known journal ih =>
      refine List.pairwise_cons.2 ⟨?_, ih⟩
      intro earlier among sameName asked
      have remembered := settled_of_inquired inquired earlier among number asked
      rw [← sameName] at remembered
      have answered := lookup_of_remembered remembered journal
      exact ⟨congrArg Prod.fst answered.1, answered.2⟩

end Inquiries

end Scopes

/-- A name is resolved once in a scope. However scopes are opened and names looked up in them, no
view is walked twice for a name, be it found or missed. Once a scope has been asked for a name, by
whoever looked it up there or further in, a lookup of the name there has the same answer and walks
nothing; and that is so after any lookup of another name, and asks no object. The walks are those
of the lookup itself: with a record of them beside it, it comes to the same value, scopes and
journal. -/
theorem names_are_resolved_once {scopes : Scopes} {made : List Scopes.Inquiry}
    (inquired : scopes.Inquired made) :
    (made.flatMap fun inquiry => inquiry.walked.map fun scope => (scope, inquiry.name)).Nodup ∧
      (made.Pairwise fun later earlier => later.name = earlier.name →
        earlier.Asks later.scope → later.answer = earlier.answer ∧ later.walked = []) ∧
      (∀ inquiry ∈ made, ∀ number, inquiry.Asks number →
        ∀ (other : String) (asked : Nat) (journal journals : Journal),
          let after := (scopes.lookup other asked journal).2.1
          after.lookup inquiry.name number journals = (inquiry.answer, after, journals)) ∧
      ∀ (others : Scopes) (name : String) (number : Nat) (journal : Journal) (record : List Nat),
        let found := others.lookup name number journal
        Scopes.lookupBy Scopes.resolveOnRecord name others number (journal, record) =
          (found.1, found.2.1, found.2.2, others.walked name number journal ++ record) := by
  refine ⟨Scopes.walks_nodup inquired, Scopes.inquiries_agree inquired, ?_,
    fun others name => Scopes.lookup_on_record name others⟩
  intro inquiry among number asks other asked journal journals after
  have settled := Scopes.settled_of_inquired inquired inquiry among
  have kept := Scopes.settled_lookup settled other asked journal
  exact (Scopes.lookup_of_remembered (kept number asks) journals).1

/-- A counter that answers with how often it was asked before, looked up from two scopes within
its own and then from its own. It would not answer as it did, but is not asked again. -/
theorem counter_is_asked_once :
    let count (history : List String) (key : String) : Option Value :=
      if key = "n" then some (.signed history.length.toInt64) else none
    let counter : Value := .object ⟨1, .keyed, count, none, none, "Counter"⟩
    let tree := ((Scopes.root counter).push 0 (.text "a")).push 0 (.text "b")
    let once := (tree.lookup "n" 1 []).2
    let twice := (once.1.lookup "n" 2 once.2).2
    let first := Scopes.Inquiry.make "n" tree 1 []
    let second := Scopes.Inquiry.make "n" once.1 2 once.2
    let third := Scopes.Inquiry.make "n" twice.1 0 twice.2
    (twice.1.lookup "n" 0 twice.2).2.1.Inquired [third, second, first] ∧
      first.walked = [0, 1] ∧ first.answer = .signed 0 ∧ second.walked = [2] ∧
      (counter.member "n" twice.2).1 = some (.signed 1) ∧
      third.walked = [] ∧ third.answer = .signed 0 := by
  intro count counter tree once twice first second third
  have opened : tree.Inquired [] := .push (.push (.root counter) 0 _) 0 _
  have askedOnce : once.1.Inquired [first] := .lookup opened "n" (by decide) []
  have askedTwice : twice.1.Inquired [second, first] :=
    .lookup askedOnce "n" (by decide) once.2
  have asked : (twice.1.lookup "n" 0 twice.2).2.1.Inquired [third, second, first] :=
    .lookup askedTwice "n" (by decide) twice.2
  have walked : first.walked = [0, 1] := by cbv
  have answer : first.answer = .signed 0 := by cbv
  have walkedAgain : second.walked = [2] := by cbv
  have now : (counter.member "n" twice.2).1 = some (.signed 1) := by cbv
  have pairs := List.pairwise_cons.1 (names_are_resolved_once asked).2.1
  have agree := pairs.1 first (by simp) rfl (.inr (by rw [walked]; exact List.mem_cons_self))
  exact ⟨asked, walked, answer, walkedAgain, now, agree.2, agree.1.trans answer⟩

end Mustache
