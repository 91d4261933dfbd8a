import Espcan32.Ring.Spsc

/-!
# The ring does not block

The mutex of the ring is held for the copy of one frame and the move of an index, or for reading
the overrun counter.  Whoever holds it can go on, so that no call waits for another one that waits.

* `LockInv` : the mutex is held by the task that is between taking and giving it.
* `RingState.left` : how many steps the calls in progress have before them.
* `ring_completes` : **the calls in progress all return**, after few steps.
-/

namespace Espcan32

namespace Ring

variable {capacity : ℕ}

/-! ### The mutex -/

namespace PushPc

/-- The producer is between taking and giving the mutex. -/
def Inside : PushPc → Prop
  | .copy _ | .advance _ | .giveLock _ => True
  | .idle | .takeSpaces _ _ | .takeLock _ _ | .giveBack _ | .giveItems _ => False

/-- How many steps the push has before it at most. -/
def left : PushPc → ℕ
  | .idle => 0
  | .takeSpaces _ _ => 6
  | .takeLock _ _ => 5
  | .copy _ => 4
  | .advance _ => 3
  | .giveLock _ => 2
  | .giveItems _ | .giveBack _ => 1

theorem left_le (pc : PushPc) : pc.left ≤ 6 := by
  cases pc <;> simp [left]

end PushPc

namespace PopPc

/-- The consumer is between taking and giving the mutex. -/
def Inside : PopPc → Prop
  | .copy | .advance _ | .giveLock _ => True
  | .idle | .takeItems | .takeLock | .giveSpaces _ => False

/-- How many steps the pop has before it at most. -/
def left : PopPc → ℕ
  | .idle => 0
  | .takeItems => 6
  | .takeLock => 5
  | .copy => 4
  | .advance _ => 3
  | .giveLock _ => 2
  | .giveSpaces _ => 1

theorem left_le (pc : PopPc) : pc.left ≤ 6 := by
  cases pc <;> simp [left]

end PopPc

/-- Who holds the mutex, and where he is. -/
structure LockInv (s : RingState capacity) : Prop where
  producer : s.lock = some .producer ↔ s.producer.Inside
  consumer : s.lock = some .consumer ↔ s.consumer.Inside

/-- How many steps the calls in progress have before them at most. -/
def RingState.left (s : RingState capacity) : ℕ :=
  s.producer.left + s.consumer.left + if s.lock = some .reader then 1 else 0

theorem RingState.left_le (s : RingState capacity) : s.left ≤ 13 := by
  have hproducer := s.producer.left_le
  have hconsumer := s.consumer.left_le
  unfold RingState.left
  split <;> omega

/-- The step goes on with a call that is in progress. -/
def RingStep.Continues : RingStep → Prop
  | .producer _ | .consumer | .giveDropped => True
  | .push _ _ | .pop | .takeDropped => False

instance : DecidablePred RingStep.Continues
  | .producer _ | .consumer | .giveDropped => .isTrue trivial
  | .push _ _ | .pop | .takeDropped => .isFalse id

namespace LockInv

variable {s s' : RingState capacity} {l : RingStep}

theorem init (slots : Mem Pcan.Frame) : LockInv (.init slots : RingState capacity) where
  producer := iff_of_false (by simp [RingState.init]) id
  consumer := iff_of_false (by simp [RingState.init]) id

/-- The steps of a push. -/
theorem push_step (hi : LockInv s) {timeout : Bool} (hst : s.pushStep timeout = some s') :
    LockInv s' ∧ s'.left < s.left := by
  obtain ⟨slots, head, tail, lock, items, spaces, dropped, producer, consumer⟩ := s
  obtain ⟨hproducer, hconsumer⟩ := hi
  dsimp only at hproducer hconsumer
  unfold RingState.pushStep at hst
  cases producer with
  | idle => cases hst
  | takeSpaces f countDrop =>
    dsimp only at hst
    split at hst <;> obtain rfl := Option.some.inj hst
    all_goals
      refine ⟨⟨hproducer, hconsumer⟩, ?_⟩
      simp only [RingState.left, PushPc.left]
      omega
  | takeLock f countDrop =>
    dsimp only at hst
    split at hst
    · obtain rfl := Option.some.inj hst
      refine ⟨⟨hproducer, hconsumer⟩, ?_⟩
      simp only [RingState.left, PushPc.left]
      omega
    · obtain ⟨s₁, hlock, rfl⟩ := Option.map_eq_some_iff.1 hst
      unfold RingState.takeLock at hlock
      split at hlock
      · obtain rfl : lock = none := ‹_›
        obtain rfl := Option.some.inj hlock
        have hout : ¬ consumer.Inside := fun h => by cases hconsumer.2 h
        refine ⟨⟨iff_of_true rfl trivial, iff_of_false (by simp) hout⟩, ?_⟩
        simp [RingState.left, PushPc.left]
      · cases hlock
  | giveBack countDrop | giveItems f =>
    obtain rfl := Option.some.inj hst
    refine ⟨⟨hproducer, hconsumer⟩, ?_⟩
    simp only [RingState.left, PushPc.left]
    omega
  | copy f | advance f =>
    obtain rfl := Option.some.inj hst
    refine ⟨⟨hproducer, hconsumer⟩, ?_⟩
    simp only [RingState.left, PushPc.left]
    omega
  | giveLock f =>
    obtain rfl := Option.some.inj hst
    obtain rfl : lock = some .producer := hproducer.2 trivial
    have hout : ¬ consumer.Inside := fun h => by cases hconsumer.2 h
    refine ⟨⟨iff_of_false (by simp) id, iff_of_false (by simp) hout⟩, ?_⟩
    simp [RingState.left, PushPc.left]

/-- The steps of a pop. -/
theorem pop_step (hi : LockInv s) (hst : s.popStep = some s') : LockInv s' ∧ s'.left < s.left := by
  obtain ⟨slots, head, tail, lock, items, spaces, dropped, producer, consumer⟩ := s
  obtain ⟨hproducer, hconsumer⟩ := hi
  dsimp only at hproducer hconsumer
  unfold RingState.popStep at hst
  cases consumer with
  | idle => cases hst
  | takeItems =>
    dsimp only at hst
    split at hst <;> obtain rfl := Option.some.inj hst
    all_goals
      refine ⟨⟨hproducer, hconsumer⟩, ?_⟩
      simp only [RingState.left, PopPc.left]
      omega
  | takeLock =>
    obtain ⟨s₁, hlock, rfl⟩ := Option.map_eq_some_iff.1 hst
    unfold RingState.takeLock at hlock
    split at hlock
    · obtain rfl : lock = none := ‹_›
      obtain rfl := Option.some.inj hlock
      have hout : ¬ producer.Inside := fun h => by cases hproducer.2 h
      refine ⟨⟨iff_of_false (by simp) hout, iff_of_true rfl trivial⟩, ?_⟩
      simp [RingState.left, PopPc.left]
    · cases hlock
  | copy | advance out | giveSpaces out =>
    obtain rfl := Option.some.inj hst
    refine ⟨⟨hproducer, hconsumer⟩, ?_⟩
    simp only [RingState.left, PopPc.left]
    omega
  | giveLock out =>
    obtain rfl := Option.some.inj hst
    obtain rfl : lock = some .consumer := hconsumer.2 trivial
    have hout : ¬ producer.Inside := fun h => by cases hproducer.2 h
    refine ⟨⟨iff_of_false (by simp) hout, iff_of_false (by simp) id⟩, ?_⟩
    simp [RingState.left, PopPc.left]

theorem step (hi : LockInv s) (hst : s.step l = some s') : LockInv s' := by
  cases l with
  | producer timeout => exact (hi.push_step hst).1
  | consumer => exact (hi.pop_step hst).1
  | push f countDrop =>
    simp only [RingState.step] at hst
    split at hst
    · obtain rfl := Option.some.inj hst
      have hpc := ‹s.producer = .idle›
      exact ⟨by rw [hi.producer, hpc]; rfl, hi.consumer⟩
    · cases hst
  | pop =>
    simp only [RingState.step] at hst
    split at hst
    · obtain rfl := Option.some.inj hst
      have hpc := ‹s.consumer = .idle›
      exact ⟨hi.producer, by rw [hi.consumer, hpc]; rfl⟩
    · cases hst
  | takeDropped =>
    simp only [RingState.step, RingState.takeLock] at hst
    split at hst
    · obtain rfl := Option.some.inj hst
      have hlock := ‹s.lock = none›
      have hproducer : ¬ s.producer.Inside := fun h => by cases hlock ▸ hi.producer.2 h
      have hconsumer : ¬ s.consumer.Inside := fun h => by cases hlock ▸ hi.consumer.2 h
      exact ⟨iff_of_false (by simp) hproducer, iff_of_false (by simp) hconsumer⟩
    · cases hst
  | giveDropped =>
    simp only [RingState.step] at hst
    split at hst
    · obtain rfl := Option.some.inj hst
      have hlock := ‹s.lock = some .reader›
      have hproducer : ¬ s.producer.Inside := fun h => by cases hlock ▸ hi.producer.2 h
      have hconsumer : ¬ s.consumer.Inside := fun h => by cases hlock ▸ hi.consumer.2 h
      exact ⟨iff_of_false (by simp) hproducer, iff_of_false (by simp) hconsumer⟩
    · cases hst

/-- A step that goes on with a call leaves less to do. -/
theorem left_lt (hi : LockInv s) (hl : l.Continues) (hst : s.step l = some s') :
    s'.left < s.left := by
  cases l with
  | producer timeout => exact (hi.push_step hst).2
  | consumer => exact (hi.pop_step hst).2
  | giveDropped =>
    simp only [RingState.step] at hst
    split at hst
    · obtain rfl := Option.some.inj hst
      have hlock := ‹s.lock = some .reader›
      simp [RingState.left, hlock]
    · cases hst
  | push f countDrop => exact hl.elim
  | pop => exact hl.elim
  | takeDropped => exact hl.elim

/-- While the mutex is not another's, the push can go on. -/
theorem push_goes (h : s.producer.Inside ∨ s.lock = none ∧ s.producer ≠ .idle) :
    ∃ s', s.pushStep false = some s' := by
  unfold RingState.pushStep
  cases hpc : s.producer with
  | idle => rw [hpc] at h; rcases h with h | h; exacts [h.elim, absurd rfl h.2]
  | takeSpaces f countDrop =>
    dsimp only
    split <;> exact ⟨_, rfl⟩
  | takeLock f countDrop =>
    rw [hpc] at h
    have hlock : s.lock = none := h.elim False.elim And.left
    dsimp only
    rw [if_neg Bool.false_ne_true, RingState.takeLock, if_pos hlock]
    exact ⟨_, rfl⟩
  | giveBack | copy | advance | giveLock | giveItems => exact ⟨_, rfl⟩

/-- While the mutex is not another's, the pop can go on. -/
theorem pop_goes (h : s.consumer.Inside ∨ s.lock = none ∧ s.consumer ≠ .idle) :
    ∃ s', s.popStep = some s' := by
  unfold RingState.popStep
  cases hpc : s.consumer with
  | idle => rw [hpc] at h; rcases h with h | h; exacts [h.elim, absurd rfl h.2]
  | takeItems =>
    dsimp only
    split <;> exact ⟨_, rfl⟩
  | takeLock =>
    rw [hpc] at h
    have hlock : s.lock = none := h.elim False.elim And.left
    exact ⟨_, by rw [RingState.takeLock, if_pos hlock]; rfl⟩
  | copy | advance | giveLock | giveSpaces => exact ⟨_, rfl⟩

/-- Someone can go on, without giving up the wait for the mutex, as long as a call is in
progress. -/
theorem goes (hi : LockInv s) :
    (s.producer = .idle ∧ s.consumer = .idle ∧ s.lock = none) ∨
      ∃ l s', l.Continues ∧ l ≠ .producer true ∧ s.step l = some s' := by
  have hpush (h : s.producer.Inside ∨ s.lock = none ∧ s.producer ≠ .idle) :
      ∃ l s', l.Continues ∧ l ≠ .producer true ∧ s.step l = some s' := by
    obtain ⟨s', hst⟩ := push_goes h
    exact ⟨.producer false, s', trivial, by simp, hst⟩
  have hpop (h : s.consumer.Inside ∨ s.lock = none ∧ s.consumer ≠ .idle) :
      ∃ l s', l.Continues ∧ l ≠ .producer true ∧ s.step l = some s' := by
    obtain ⟨s', hst⟩ := pop_goes h
    exact ⟨.consumer, s', trivial, by simp, hst⟩
  cases hlock : s.lock with
  | some who =>
    refine .inr ?_
    cases who with
    | producer => exact hpush (.inl (hi.producer.1 hlock))
    | consumer => exact hpop (.inl (hi.consumer.1 hlock))
    | reader => exact ⟨.giveDropped, _, trivial, by simp, if_pos hlock⟩
  | none =>
    by_cases hproducer : s.producer = .idle
    · by_cases hconsumer : s.consumer = .idle
      · exact .inl ⟨hproducer, hconsumer, rfl⟩
      · exact .inr (hpop (.inr ⟨hlock, hconsumer⟩))
    · exact .inr (hpush (.inr ⟨hlock, hproducer⟩))

end LockInv

/-- **The ring does not block.**  From every reachable state, in whatever order the tasks go on, and
whether or not they wait for the mutex as long as they may, the calls in progress have returned
after at most thirteen steps; and until then one of them can go on without giving up its wait. -/
theorem ring_completes {slots : Mem Pcan.Frame} {ls : List RingStep} {s : RingState capacity}
    (hrun : (ringSystem capacity).Run (.init slots) ls s) {ls' : List RingStep}
    {s' : RingState capacity}
    (hrun' : ((ringSystem capacity).guard fun _ l => l.Continues).Run s ls' s') :
    ls'.length ≤ 13 ∧
      ((s'.producer = .idle ∧ s'.consumer = .idle ∧ s'.lock = none) ∨
        ∃ l s'', l.Continues ∧ l ≠ .producer true ∧ s'.step l = some s'') := by
  have hi : LockInv s := hrun.invariant (.init slots) fun _ _ _ hi hst => hi.step hst
  have hi' : LockInv s' := hrun'.invariant hi fun _ _ _ hi hst => hi.step hst.2
  have hlen := hrun'.length_add_le hi fun _ _ _ hi hst => ⟨hi.step hst.2, hi.left_lt hst.1 hst.2⟩
  have hle := s.left_le
  exact ⟨by omega, hi'.goes⟩

/-- A ring of two slots: the pop has the mutex, and the second push waits for it. -/
def waitingRing : Option (RingState 2) :=
  System.runs RingState.step (.init fun _ => bareFrame 0)
    (.push (bareFrame 1) true :: List.replicate 6 (.producer false) ++
      [.pop, .consumer, .consumer, .push (bareFrame 2) true, .producer false])

/-- The pop goes on to give the mutex, and the push takes it. -/
def waitingRest (s : RingState 2) : Option (RingState 2 × Unit) :=
  System.exec RingState.step (fun _ l => l.Continues) (fun _ _ x => x) (s, ())
    [.consumer, .consumer, .consumer, .producer false]

theorem ring_completes_waiting :
    ∃ s p, waitingRing = some s ∧ s.step (.producer false) = none ∧ waitingRest s = some p ∧
      p.1.producer = .copy (bareFrame 2) ∧
      ((p.1.producer = .idle ∧ p.1.consumer = .idle ∧ p.1.lock = none) ∨
        ∃ l s', l.Continues ∧ l ≠ .producer true ∧ p.1.step l = some s') := by
  have hs : waitingRing.map (fun s => ((s.step (.producer false)).isNone,
      (waitingRest s).map (·.1.producer))) = some (true, some (.copy (bareFrame 2))) := by
    decide +kernel
  obtain ⟨s, hs, hp⟩ := Option.map_eq_some_iff.1 hs
  obtain ⟨hwaits, hp⟩ := Prod.mk.inj hp
  obtain ⟨p, hp, hcopy⟩ := Option.map_eq_some_iff.1 hp
  exact ⟨s, p, hs, Option.isNone_iff_eq_none.1 hwaits, hp, hcopy,
    (ring_completes (System.Run.of_runs hs) (System.Run.of_exec hp).of_withAux).2⟩

end Ring

end Espcan32
