import Roshambo.Round.Table

/-!
# Changes of hands

What rules do to hands they do through the table, and the table answers with the number of cards
that changed. Cards are turned at places picked from a pool of candidates, each at most once, so
every picked place holds the choice afterwards and every other place the card that it held. Cards
are added at the end of a hand, as many as it has room for.
-/
namespace Roshambo

namespace Table

variable {hand : List Choice} {places : List Nat} {choice : Choice}

/-! ## Cards at several places -/

theorem getElem?_replaceAt (inside : ∀ place ∈ places, place < hand.length) (place : Nat) :
    (replaceAt hand places choice)[place]? =
      if place ∈ places then some choice else hand[place]? := by
  induction places generalizing hand with
  | nil => simp [replaceAt]
  | cons first places ih =>
    have rest : ∀ place ∈ places, place < (hand.set first choice).length := by
      intro place mem
      rw [List.length_set]
      exact inside place (List.mem_cons_of_mem _ mem)
    refine (ih rest).trans ?_
    by_cases later : place ∈ places
    · simp [later]
    · by_cases here : place = first
      · subst here
        simp [later, List.getElem?_set_self (inside place List.mem_cons_self)]
      · simp [later, here, List.getElem?_set_ne (Ne.symm here)]

/-- Turning cards at distinct places adds one of the choice for each place that held another. -/
theorem count_replaceAt (distinct : places.Nodup) (inside : ∀ place ∈ places, place < hand.length) :
    (replaceAt hand places choice).count choice =
      hand.count choice + places.countP fun place => hand[place]? != some choice := by
  induction places generalizing hand with
  | nil => rfl
  | cons first places ih =>
    obtain ⟨fresh, distinct⟩ := List.nodup_cons.1 distinct
    have here : first < hand.length := inside first List.mem_cons_self
    have rest : ∀ place ∈ places, place < (hand.set first choice).length := by
      intro place mem
      rw [List.length_set]
      exact inside place (List.mem_cons_of_mem _ mem)
    have others : places.countP (fun place => (hand.set first choice)[place]? != some choice) =
        places.countP fun place => hand[place]? != some choice := by
      refine List.countP_congr fun place mem => ?_
      have apart : first ≠ place := fun same => fresh (same ▸ mem)
      rw [List.getElem?_set_ne apart]
    refine (ih distinct rest).trans ?_
    rw [others, List.countP_cons, List.count_set here, List.getElem?_eq_getElem here]
    -- A card that was the choice already is replaced by itself.
    by_cases same : hand[first] = choice
    · have held : 0 < hand.count choice := List.count_pos_iff.2 (same ▸ List.getElem_mem here)
      simp [same]
      omega
    · simp [same]
      omega

theorem length_placesOfOthers (hand : List Choice) (choice : Choice) :
    (placesOfOthers hand choice).length = hand.countP (· != choice) := by
  rw [placesOfOthers, ← List.countP_eq_length_filter]
  induction hand with
  | nil => rfl
  | cons card hand ih =>
    rw [List.length_cons, List.range_succ_eq_map, List.countP_cons, List.countP_map,
      List.countP_cons]
    simpa [Function.comp_def] using ih

/-- The places at which a hand of the same size holds another card. -/
def changedPlaces (hand hand' : List Choice) : List Nat :=
  (List.range hand.length).filter fun place => hand[place]? != hand'[place]?

/-- Of the places that are turned, those change that held another card. -/
theorem length_changedPlaces (distinct : places.Nodup)
    (inside : ∀ place ∈ places, place < hand.length) :
    (changedPlaces hand (replaceAt hand places choice)).length =
      places.countP fun place => hand[place]? != some choice := by
  rw [List.countP_eq_length_filter]
  -- Neither list has duplicates, so the same members are enough.
  refine List.Perm.length_eq ((List.perm_ext_iff_of_nodup ?_ ?_).2 fun place => ?_)
  · exact List.nodup_range.filter _
  · exact distinct.filter _
  · simp only [changedPlaces, List.mem_filter, List.mem_range, getElem?_replaceAt inside]
    by_cases picked : place ∈ places
    · simp [picked, inside place picked]
    · simp [picked]

/-! ## What the table answers -/

/-- As many places of the pool as wanted were picked, and the opponent's cards there turned into the
choice; `changed` of them were other cards before. -/
structure Turned (t : Table) (choice : Choice) (pool : List Nat) (wanted changed : UInt32)
    (t' : Table) : Prop where
  frame : t' = { t with opponent := t'.opponent, random := t'.random }
  length : t'.opponent.length = t.opponent.length
  picked : ∃ picks : List Nat, picks.Nodup ∧ picks ⊆ pool ∧
    picks.length = min wanted.toNat pool.length ∧
    ∀ place, t'.opponent[place]? = if place ∈ picks then some choice else t.opponent[place]?
  answer : changed.toNat = (changedPlaces t.opponent t'.opponent).length
  gained : t'.opponent.count choice = t.opponent.count choice + changed.toNat

/-- The cards were put at the end of the hand, as many of those wanted as it has room for. -/
structure Added (t : Table) (side : Side) (wanted added : UInt32) (cards : List Choice)
    (t' : Table) : Prop where
  frame : t' = { t.setHand side (t.hand side ++ cards) with random := t'.random }
  room : cards.length = min wanted.toNat (handLimit - (t.hand side).length)
  answer : added.toNat = cards.length

theorem turned_sample (t : Table) (choice : Choice) (wanted : UInt32) {pool : List Nat}
    (distinct : pool.Nodup)
    (inside : ∀ place ∈ pool, place < t.opponent.length) :
    let picks := (t.random.sample pool wanted.toNat).1
    let changed := picks.countP fun place => t.opponent[place]? != some choice
    (UInt32.ofNat changed).toNat = changed ∧
      t.Turned choice pool wanted (UInt32.ofNat changed)
        { t with
          opponent := replaceAt t.opponent picks choice
          random := (t.random.sample pool wanted.toNat).2 } := by
  intro picks changed
  have apart : picks.Nodup := t.random.sample_nodup distinct _
  have subset : picks ⊆ pool := fun place mem => Generator.mem_of_mem_sample mem
  have within : ∀ place ∈ picks, place < t.opponent.length :=
    fun place mem => inside place (subset mem)
  have length : picks.length = min wanted.toNat pool.length := t.random.sample_length pool _
  have exact : (UInt32.ofNat changed).toNat = changed := by
    have few : changed ≤ picks.length := List.countP_le_length
    have word := wanted.toNat_lt
    refine UInt32.toNat_ofNat_of_lt ?_
    simp only [UInt32.size]
    omega
  refine ⟨exact, rfl, length_replaceAt _ _ _, ⟨picks, apart, subset, length, ?_⟩, ?_, ?_⟩
  · exact getElem?_replaceAt within
  · exact exact.trans (length_changedPlaces apart within).symm
  · rw [exact]
    exact count_replaceAt apart within

theorem mem_placesOfOthers {hand : List Choice} {choice : Choice} {place : Nat} :
    place ∈ placesOfOthers hand choice ↔ place < hand.length ∧ hand[place]? ≠ some choice := by
  simp [placesOfOthers]

/-- Among the other cards every card that is picked changes. -/
theorem turned_replaceOthers (t : Table) (choice : Choice) (wanted : UInt32) :
    let result := t.replaceOthers choice wanted
    t.Turned choice (placesOfOthers t.opponent choice) wanted result.1 result.2 ∧
      result.1.toNat = min wanted.toNat (t.opponent.countP (· != choice)) := by
  intro result
  have distinct : (placesOfOthers t.opponent choice).Nodup := List.nodup_range.filter _
  obtain ⟨answer, turned⟩ := t.turned_sample choice wanted distinct
    fun place mem => (mem_placesOfOthers.1 mem).1
  have all : ((t.random.sample (placesOfOthers t.opponent choice) wanted.toNat).1.countP
      fun place => t.opponent[place]? != some choice) =
      (t.random.sample (placesOfOthers t.opponent choice) wanted.toNat).1.length := by
    rw [List.countP_eq_length]
    intro place mem
    simpa using (mem_placesOfOthers.1 (Generator.mem_of_mem_sample mem)).2
  rw [all] at answer turned
  refine ⟨turned, answer.trans ?_⟩
  rw [Generator.sample_length, length_placesOfOthers]

theorem turned_replaceRandomly (t : Table) (choice : Choice) (wanted : UInt32) :
    let result := t.replaceRandomly choice wanted
    t.Turned choice (List.range t.opponent.length) wanted result.1 result.2 ∧
      result.1.toNat ≤ min wanted.toNat t.opponent.length := by
  intro result
  obtain ⟨answer, turned⟩ := t.turned_sample choice wanted List.nodup_range
    fun place => List.mem_range.1
  refine ⟨turned, ?_⟩
  have few := List.countP_le_length (p := fun place => t.opponent[place]? != some choice)
    (l := (t.random.sample (List.range t.opponent.length) wanted.toNat).1)
  rw [Generator.sample_length, List.length_range] at few
  exact answer ▸ few

theorem toNat_roomFor (t : Table) (side : Side) (wanted : UInt32) :
    (UInt32.ofNat (t.roomFor side wanted)).toNat = t.roomFor side wanted := by
  have word := wanted.toNat_lt
  refine UInt32.toNat_ofNat_of_lt ?_
  simp only [roomFor, UInt32.size]
  omega

theorem added_addCards (t : Table) (side : Side) (choice : Choice) (wanted : UInt32) :
    let result := t.addCards side choice wanted
    t.Added side wanted result.1 (List.replicate result.1.toNat choice) result.2 := by
  have answer := t.toNat_roomFor side wanted
  simp only [addCards, answer]
  exact ⟨by cases side <;> rfl, by simp [roomFor], by simp [answer]⟩

theorem added_addRandomCards (t : Table) (side : Side) (wanted : UInt32) :
    let result := t.addRandomCards side wanted
    ∃ cards, t.Added side wanted result.1 cards result.2 := by
  have length := length_drawCards (t.roomFor side wanted) t.random
  exact ⟨(drawCards (t.roomFor side wanted) t.random).1, rfl, length,
    (t.toNat_roomFor side wanted).trans length.symm⟩

/-- Whatever the table and whatever is wanted, a change of hands is answered with the number of cards
that it changed, and leaves the other hand, the plan, the score and the counters alone. -/
theorem changes_answered (t : Table) (side : Side) (choice : Choice) (wanted : UInt32) :
    (∃ changed t', host.replaceOthers t choice wanted = (some changed, t') ∧
      t.Turned choice (placesOfOthers t.opponent choice) wanted changed t' ∧
      changed.toNat = min wanted.toNat (t.opponent.countP (· != choice))) ∧
    (∃ changed t', host.replaceRandomly t choice wanted = (some changed, t') ∧
      t.Turned choice (List.range t.opponent.length) wanted changed t' ∧
      changed.toNat ≤ min wanted.toNat t.opponent.length) ∧
    (∃ added t', host.addCards t side choice wanted = (some added, t') ∧
      t.Added side wanted added (List.replicate added.toNat choice) t' ∧
      t'.random = t.random) ∧
    ∃ added cards t', host.addRandomCards t side wanted = (some added, t') ∧
      t.Added side wanted added cards t' := by
  obtain ⟨cards, random⟩ := t.added_addRandomCards side wanted
  exact ⟨⟨_, _, rfl, t.turned_replaceOthers choice wanted⟩,
    ⟨_, _, rfl, t.turned_replaceRandomly choice wanted⟩,
    ⟨_, _, rfl, t.added_addCards side choice wanted, by cases side <;> rfl⟩,
    ⟨_, cards, _, rfl, random⟩⟩

end Table

end Roshambo
