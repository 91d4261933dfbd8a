import Espcan32.Ring.Basic

/-!
# One producer and one consumer

A push reserves a slot before it writes it, and publishes it when the head has moved on; a pop
returns a slot when it has copied it.  So at every step the tokens of both semaphores, the slot
that the producer has reserved and the one that the consumer holds make up the ring, and the slots
between tail and head hold the frames pushed and not popped.

* `RingInv` : the accounts of the tokens, the indices and the slots.
* `Alone` : before it has the mutex, a push has taken at most one token of `spaces`, and nothing
  else is different from what the others have made of the ring.
* `RingInv.step` : every step keeps both.
* `ring_spsc` : **the ring is a queue of `capacity` frames**, which refuses a frame only while it is
  full or when the mutex is not free in time.
-/

namespace Espcan32

namespace Ring

open Pcan

variable {capacity : ℕ}

/-! ### Places -/

namespace PushPc

/-- The slot that the producer has reserved. -/
def reserves : PushPc → ℕ
  | .idle | .takeSpaces _ _ => 0
  | .takeLock _ _ | .giveBack _ | .copy _ | .advance _ | .giveLock _ | .giveItems _ => 1

/-- The frame that is written and not published. -/
def written : PushPc → Option Frame
  | .advance f | .giveLock f | .giveItems f => some f
  | .idle | .takeSpaces _ _ | .takeLock _ _ | .giveBack _ | .copy _ => none

/-- The head has moved past the slot. -/
def advanced : PushPc → ℕ
  | .giveLock _ | .giveItems _ => 1
  | .idle | .takeSpaces _ _ | .takeLock _ _ | .giveBack _ | .copy _ | .advance _ => 0

/-- The push may fail yet. -/
def Trying : PushPc → Prop
  | .takeSpaces _ _ | .takeLock _ _ | .giveBack _ => True
  | .idle | .copy _ | .advance _ | .giveLock _ | .giveItems _ => False

/-- The push has given up the mutex. -/
def TimedOut : PushPc → Prop
  | .giveBack _ => True
  | _ => False

end PushPc

namespace PopPc

/-- The slot whose token the consumer has taken. -/
def holds : PopPc → ℕ
  | .idle | .takeItems => 0
  | .takeLock | .copy | .advance _ | .giveLock _ | .giveSpaces _ => 1

theorem holds_le (pc : PopPc) : pc.holds ≤ 1 := by
  cases pc <;> simp [holds]

/-- The frame that is copied and not handed out. -/
def out : PopPc → Option Frame
  | .advance f | .giveLock f | .giveSpaces f => some f
  | .idle | .takeItems | .takeLock | .copy => none

/-- The tail has moved past the slot. -/
def advanced : PopPc → ℕ
  | .giveLock _ | .giveSpaces _ => 1
  | .idle | .takeItems | .takeLock | .copy | .advance _ => 0

theorem length_out_le (pc : PopPc) : pc.out.toList.length ≤ pc.holds := by
  cases pc <;> simp [out, holds]

end PopPc

/-! ### The invariant -/

/-- The state `a` differs from `s` in that `k` tokens of `spaces` are not taken, and in what the
producer is doing. -/
structure Alone (k : ℕ) (s a : RingState capacity) : Prop where
  slots : a.slots = s.slots
  head : a.head = s.head
  tail : a.tail = s.tail
  lock : a.lock = s.lock
  items : a.items = s.items
  spaces : a.spaces.count = s.spaces.count + k
  consumer : a.consumer = s.consumer

/-- A step of the others is the same without the push. -/
theorem Alone.step {k : ℕ} {s s' a : RingState capacity} {l : RingStep} (h : Alone k s a)
    (hpush : ∀ f countDrop, l ≠ .push f countDrop) (hproducer : ∀ timeout, l ≠ .producer timeout)
    (hroom : s.consumer.holds = 1 → s.spaces.count + k < capacity) (hst : s.step l = some s') :
    Alone k s' ((a.step l).getD a) := by
  obtain ⟨_, _, _, _, _, spaces, dropped, producer, _⟩ := s
  obtain ⟨slots, head, tail, lock, items, spaces', dropped', producer', consumer⟩ := a
  obtain ⟨rfl, rfl, rfl, rfl, rfl, hspaces, rfl⟩ := h
  dsimp only at hspaces hroom
  cases l with
  | push f countDrop => exact absurd rfl (hpush f countDrop)
  | producer timeout => exact absurd rfl (hproducer timeout)
  | pop =>
    simp only [RingState.step] at hst ⊢
    split at hst
    · obtain rfl := Option.some.inj hst
      rw [if_pos ‹_›]
      exact ⟨rfl, rfl, rfl, rfl, rfl, hspaces, rfl⟩
    · cases hst
  | takeDropped =>
    simp only [RingState.step, RingState.takeLock] at hst ⊢
    split at hst
    · obtain rfl := Option.some.inj hst
      rw [if_pos ‹_›]
      exact ⟨rfl, rfl, rfl, rfl, rfl, hspaces, rfl⟩
    · cases hst
  | giveDropped =>
    simp only [RingState.step] at hst ⊢
    split at hst
    · obtain rfl := Option.some.inj hst
      rw [if_pos ‹_›]
      exact ⟨rfl, rfl, rfl, rfl, rfl, hspaces, rfl⟩
    · cases hst
  | consumer =>
    simp only [RingState.step, RingState.popStep] at hst ⊢
    cases consumer with
    | idle => cases hst
    | takeItems =>
      dsimp only at hst ⊢
      cases htake : items.take <;> rw [htake] at hst <;> obtain rfl := Option.some.inj hst
      all_goals exact ⟨rfl, rfl, rfl, rfl, rfl, hspaces, rfl⟩
    | takeLock =>
      simp only [RingState.takeLock] at hst ⊢
      split at hst
      · obtain rfl := Option.some.inj hst
        rw [if_pos ‹_›]
        exact ⟨rfl, rfl, rfl, rfl, rfl, hspaces, rfl⟩
      · cases hst
    | copy | advance out | giveLock out =>
      obtain rfl := Option.some.inj hst
      exact ⟨rfl, rfl, rfl, rfl, rfl, hspaces, rfl⟩
    | giveSpaces out =>
      obtain rfl := Option.some.inj hst
      have hlt := hroom rfl
      refine ⟨rfl, rfl, rfl, rfl, rfl, ?_, rfl⟩
      show spaces'.give.count = spaces.give.count + k
      rw [Semaphore.count_give (by omega), Semaphore.count_give (by omega)]
      omega

/-- What holds between steps. -/
structure RingInv (s : RingState capacity) (r : RingRecord capacity) : Prop where
  order : r.popped <+: r.pushed
  /-- A frame that is published and not popped has a token, or the consumer holds it. -/
  tokens : r.popped.length + s.consumer.holds + s.items.count = r.pushed.length
  /-- Every slot is free, reserved, published or held. -/
  room : s.spaces.count + s.producer.reserves + s.items.count + s.consumer.holds = capacity
  head : s.head = (r.pushed.length + s.producer.advanced) % capacity
  tail : s.tail = (r.popped.length + s.consumer.advanced) % capacity
  slots : ∀ i, r.popped.length ≤ i → ∀ h : i < r.pushed.length,
    s.slots (i % capacity) = r.pushed[i]
  written : ∀ f ∈ s.producer.written,
    s.slots (r.pushed.length % capacity) = f ∧ r.written = r.pushed.length % capacity
  out : ∀ f ∈ s.consumer.out, r.pushed[r.popped.length]? = some f
  uncopied : ∀ x ∈ r.uncopied, ∃ i, r.popped.length + s.consumer.out.toList.length ≤ i ∧
    i < r.pushed.length + s.producer.written.toList.length ∧ x = i % capacity
  queued : ∀ i, r.popped.length + s.consumer.holds ≤ i → i < r.pushed.length →
    i % capacity ∈ r.queued
  held : r.held = if s.consumer.holds = 1 then some (r.popped.length % capacity) else none
  timedOut : s.producer.TimedOut → r.timedOut = true
  alone : s.producer.Trying → Alone s.producer.reserves s r.alone

namespace RingInv

theorem init (slots : Mem Frame) :
    RingInv (RingState.init slots : RingState capacity) (.none (.init slots)) where
  order := List.prefix_refl _
  tokens := rfl
  room := rfl
  head := (Nat.zero_mod _).symm
  tail := (Nat.zero_mod _).symm
  slots i _ h := absurd h (Nat.not_lt_zero _)
  written f h := by cases h
  out f h := by cases h
  uncopied x h := by cases h
  queued i _ h := absurd h (Nat.not_lt_zero _)
  held := rfl
  timedOut h := h.elim
  alone h := h.elim

variable {s s' : RingState capacity} {l : RingStep} {r : RingRecord capacity}

/-! ### The steps of the producer -/

/-- The frames in the ring leave room for the slot that the producer has reserved. -/
theorem lt_capacity (hi : RingInv s r) (h : s.producer.reserves = 1) :
    r.pushed.length < r.popped.length + capacity := by
  have hroom := hi.room
  have htokens := hi.tokens
  omega

/-- A slot is reserved. -/
theorem reserve (hi : RingInv s r) {f : Frame} {countDrop : Bool} {spaces : Semaphore capacity}
    (hpc : s.producer = .takeSpaces f countDrop) (htake : s.spaces.take = some spaces) :
    RingInv { s with spaces := spaces, producer := .takeLock f countDrop } r := by
  obtain ⟨slots, head, tail, lock, items, spaces₀, dropped, producer, consumer⟩ := s
  obtain rfl : producer = .takeSpaces f countDrop := hpc
  have hcount : spaces₀.count = spaces.count + 1 := Semaphore.count_take htake
  have hroom : spaces₀.count + 0 + items.count + consumer.holds = capacity := hi.room
  have halone := hi.alone trivial
  have hspaces : r.alone.spaces.count = spaces₀.count + 0 := halone.spaces
  refine { hi with
    room := ?_
    timedOut := fun h => h.elim
    alone := fun _ => { halone with spaces := ?_ } }
  · show spaces.count + 1 + items.count + consumer.holds = capacity
    omega
  · show r.alone.spaces.count = spaces.count + 1
    omega

/-- The mutex was not free in time, and the slot is given back. -/
theorem giveBack (hi : RingInv s r) {countDrop : Bool} {dropped : UInt32}
    (hpc : s.producer = .giveBack countDrop) :
    RingInv { s with spaces := s.spaces.give, dropped := dropped, producer := .idle } r := by
  obtain ⟨slots, head, tail, lock, items, spaces, dropped, producer, consumer⟩ := s
  obtain rfl : producer = .giveBack countDrop := hpc
  have hroom : spaces.count + 1 + items.count + consumer.holds = capacity := hi.room
  have hcount := Semaphore.count_give (show spaces.count < capacity by omega)
  refine { hi with room := ?_, timedOut := fun h => h.elim, alone := fun h => h.elim }
  show spaces.give.count + 0 + items.count + consumer.holds = capacity
  omega

/-- The slot at the head is written. -/
theorem write (hi : RingInv s r) {f : Frame} (hpc : s.producer = .copy f) :
    RingInv { s with slots := s.slots.copy s.head [f], producer := .advance f }
      { r with uncopied := r.uncopied ++ [s.head], written := s.head } := by
  obtain ⟨slots, head, tail, lock, items, spaces, dropped, producer, consumer⟩ := s
  obtain rfl : producer = .copy f := hpc
  have hlt := hi.lt_capacity rfl
  have hhead : head = r.pushed.length % capacity := hi.head
  refine { hi with
    slots := fun i hpop h => ?_
    written := fun f' hf => ?_
    uncopied := fun x hx => ?_
    timedOut := fun h => h.elim
    alone := fun h => h.elim }
  · -- the slots in use are less than a round behind the head
    dsimp only at hpop h
    have hne : i % capacity ≠ r.pushed.length % capacity := mod_ne_of_lt h (by omega)
    have hcopy : slots.copy head [f] (i % capacity) = slots (i % capacity) := by
      rcases Nat.lt_or_gt_of_ne (hhead ▸ hne) with hlt | hgt
      · exact Mem.copy_of_lt _ hlt
      · exact Mem.copy_of_ge hgt
    exact hcopy.trans (hi.slots i hpop h)
  · obtain rfl : f = f' := Option.some.inj hf
    refine ⟨?_, hhead⟩
    dsimp only
    rw [← hhead]
    exact Mem.copy_singleton slots head f
  · rcases List.mem_append.1 hx with hx | hx
    · obtain ⟨i, hle, hlt, rfl⟩ := hi.uncopied x hx
      exact ⟨i, hle, Nat.lt_succ_of_lt hlt, rfl⟩
    · obtain rfl := List.mem_singleton.1 hx
      have hout := consumer.length_out_le
      have htokens : r.popped.length + consumer.holds + items.count = r.pushed.length := hi.tokens
      exact ⟨r.pushed.length, by dsimp only; omega, Nat.lt_succ_self _, hhead⟩

/-- The frame is published. -/
theorem publish (hi : RingInv s r) {f : Frame} (hpc : s.producer = .giveItems f) :
    RingInv { s with items := s.items.give, producer := .idle }
      { r with pushed := r.pushed ++ [f], queued := r.queued ++ [r.written] } := by
  obtain ⟨slots, head, tail, lock, items, spaces, dropped, producer, consumer⟩ := s
  obtain rfl : producer = .giveItems f := hpc
  have hroom : spaces.count + 1 + items.count + consumer.holds = capacity := hi.room
  have htokens : r.popped.length + consumer.holds + items.count = r.pushed.length := hi.tokens
  have hcount := Semaphore.count_give (show items.count < capacity by omega)
  obtain ⟨hslot, hwritten⟩ := hi.written f rfl
  have hlen : (r.pushed ++ [f]).length = r.pushed.length + 1 := List.length_append
  refine { hi with
    order := hi.order.trans (List.prefix_append ..)
    tokens := ?_
    room := ?_
    head := ?_
    slots := fun i hpop h => ?_
    written := fun f' hf => by cases hf
    out := fun f' hf => ?_
    uncopied := fun x hx => ?_
    queued := fun i hpop h => ?_
    timedOut := fun h => h.elim
    alone := fun h => h.elim }
  · show r.popped.length + consumer.holds + items.give.count = (r.pushed ++ [f]).length
    omega
  · show spaces.count + 0 + items.give.count + consumer.holds = capacity
    omega
  · show head = ((r.pushed ++ [f]).length + 0) % capacity
    rw [hlen]
    exact hi.head
  · dsimp only at hpop h
    rcases Nat.lt_succ_iff_lt_or_eq.1 (hlen ▸ h) with hlt | rfl
    · rw [List.getElem_append_left hlt]
      exact hi.slots i hpop hlt
    · rw [List.getElem_append_right (Nat.le_refl _)]
      simpa using hslot
  · have hf := hi.out f' hf
    have hlt := (List.getElem?_eq_some_iff.1 hf).1
    rw [List.getElem?_append_left hlt]
    exact hf
  · obtain ⟨i, hle, hlt, hx⟩ := hi.uncopied x hx
    exact ⟨i, hle, by dsimp only; rw [hlen]; exact hlt, hx⟩
  · dsimp only at hpop h
    rcases Nat.lt_succ_iff_lt_or_eq.1 (hlen ▸ h) with hlt | rfl
    · exact List.mem_append_left _ (hi.queued i hpop hlt)
    · exact List.mem_append_right _ (List.mem_singleton.2 hwritten.symm)

theorem push_step (hcap : 0 < capacity) (hi : RingInv s r) {timeout : Bool}
    (hst : s.pushStep timeout = some s') : RingInv s' (pushRecord s timeout r) := by
  unfold RingState.pushStep at hst
  unfold pushRecord
  cases hpc : s.producer with
  | idle => rw [hpc] at hst; cases hst
  | takeSpaces f countDrop =>
    simp only [hpc] at hst ⊢
    cases htake : s.spaces.take with
    | some spaces =>
      rw [htake] at hst
      obtain rfl := Option.some.inj hst
      exact hi.reserve hpc htake
    | none =>
      rw [htake] at hst
      obtain rfl := Option.some.inj hst
      obtain ⟨slots, head, tail, lock, items, spaces, dropped, producer, consumer⟩ := s
      obtain rfl : producer = .takeSpaces f countDrop := hpc
      exact { hi with timedOut := fun h => h.elim, alone := fun h => h.elim }
  | takeLock f countDrop =>
    simp only [hpc] at hst ⊢
    obtain ⟨slots, head, tail, lock, items, spaces, dropped, producer, consumer⟩ := s
    obtain rfl : producer = .takeLock f countDrop := hpc
    cases timeout with
    | true =>
      obtain rfl := Option.some.inj hst
      exact { hi with timedOut := fun _ => rfl, alone := fun _ => { hi.alone trivial with } }
    | false =>
      obtain ⟨s₁, hlock, rfl⟩ := Option.map_eq_some_iff.1 hst
      unfold RingState.takeLock at hlock
      split at hlock
      · obtain rfl := Option.some.inj hlock
        exact { hi with timedOut := fun h => h.elim, alone := fun h => h.elim }
      · cases hlock
  | giveBack countDrop =>
    simp only [hpc] at hst ⊢
    obtain rfl := Option.some.inj hst
    exact hi.giveBack hpc
  | copy f =>
    simp only [hpc] at hst ⊢
    obtain rfl := Option.some.inj hst
    exact hi.write hpc
  | advance f =>
    simp only [hpc] at hst ⊢
    obtain rfl := Option.some.inj hst
    obtain ⟨slots, head, tail, lock, items, spaces, dropped, producer, consumer⟩ := s
    obtain rfl : producer = .advance f := hpc
    refine { hi with head := ?_, timedOut := fun h => h.elim, alone := fun h => h.elim }
    rw [show head = r.pushed.length % capacity from hi.head]
    exact bump_mod hcap _
  | giveLock f =>
    simp only [hpc] at hst ⊢
    obtain rfl := Option.some.inj hst
    obtain ⟨slots, head, tail, lock, items, spaces, dropped, producer, consumer⟩ := s
    obtain rfl : producer = .giveLock f := hpc
    exact { hi with timedOut := fun h => h.elim, alone := fun h => h.elim }
  | giveItems f =>
    simp only [hpc] at hst ⊢
    obtain rfl := Option.some.inj hst
    exact hi.publish hpc

/-! ### The steps of the consumer -/

/-- What a push would not change is what it was, after a step of the others. -/
theorem alone_step (hi : RingInv s r) (hpush : ∀ f countDrop, l ≠ .push f countDrop)
    (hproducer : ∀ timeout, l ≠ .producer timeout) (hst : s.step l = some s')
    (hpc : s'.producer = s.producer) (ht : s'.producer.Trying) :
    Alone s'.producer.reserves s' ((r.alone.step l).getD r.alone) := by
  have hroom := hi.room
  rw [hpc] at ht ⊢
  exact (hi.alone ht).step hpush hproducer (fun h => by omega) hst

/-- A frame is taken. -/
theorem acquire (hi : RingInv s r) {items : Semaphore capacity} {a : RingState capacity}
    (hpc : s.consumer = .takeItems) (htake : s.items.take = some items)
    (ha : s.producer.Trying →
      Alone s.producer.reserves { s with items := items, consumer := .takeLock } a) :
    RingInv { s with items := items, consumer := .takeLock }
      { r with
        queued := r.queued.filter (· ≠ s.tail)
        held := some s.tail
        alone := a } := by
  obtain ⟨slots, head, tail, lock, items₀, spaces, dropped, producer, consumer⟩ := s
  obtain rfl : consumer = .takeItems := hpc
  have hcount : items₀.count = items.count + 1 := Semaphore.count_take htake
  have hroom : spaces.count + producer.reserves + items₀.count + 0 = capacity := hi.room
  have htokens : r.popped.length + 0 + items₀.count = r.pushed.length := hi.tokens
  have htail : tail = r.popped.length % capacity := hi.tail
  refine { hi with
    tokens := ?_
    room := ?_
    queued := fun i hpop h => ?_
    held := congrArg some htail
    alone := ha }
  · show r.popped.length + 1 + items.count = r.pushed.length
    omega
  · show spaces.count + producer.reserves + items.count + 1 = capacity
    omega
  · -- the other frames are less than a round behind the tail
    have hpop : r.popped.length + 1 ≤ i := hpop
    dsimp only at h ⊢
    have hne : tail ≠ i % capacity := htail ▸ mod_ne_of_lt (by omega) (by omega)
    exact List.mem_filter.2 ⟨hi.queued i (by dsimp only [PopPc.holds]; omega) h,
      decide_eq_true hne.symm⟩

/-- The frame at the tail is copied. -/
theorem read (hi : RingInv s r) {a : RingState capacity} (hpc : s.consumer = .copy)
    (ha : s.producer.Trying →
      Alone s.producer.reserves { s with consumer := .advance (s.slots s.tail) } a) :
    RingInv { s with consumer := .advance (s.slots s.tail) }
      { r with uncopied := r.uncopied.filter (· ≠ s.tail), alone := a } := by
  obtain ⟨slots, head, tail, lock, items, spaces, dropped, producer, consumer⟩ := s
  obtain rfl : consumer = .copy := hpc
  have htokens : r.popped.length + 1 + items.count = r.pushed.length := hi.tokens
  have htail : tail = r.popped.length % capacity := hi.tail
  refine { hi with
    out := fun f hf => ?_
    uncopied := fun x hx => ?_
    alone := ha }
  · obtain rfl : slots tail = f := Option.some.inj hf
    have hlt : r.popped.length < r.pushed.length := by omega
    rw [List.getElem?_eq_getElem hlt, ← hi.slots _ (Nat.le_refl _) hlt, htail]
  · obtain ⟨hx, hne⟩ := List.mem_filter.1 hx
    obtain ⟨i, hle, hlt, rfl⟩ := hi.uncopied x hx
    have hle : r.popped.length + 0 ≤ i := hle
    have hne : i % capacity ≠ tail := of_decide_eq_true hne
    refine ⟨i, ?_, hlt, rfl⟩
    show r.popped.length + 1 ≤ i
    by_contra hno
    exact hne (by rw [htail, show i = r.popped.length by omega])

/-- The slot is free again, and the frame handed out. -/
theorem release (hi : RingInv s r) {out : Frame} {a : RingState capacity}
    (hpc : s.consumer = .giveSpaces out)
    (ha : s.producer.Trying →
      Alone s.producer.reserves { s with spaces := s.spaces.give, consumer := .idle } a) :
    RingInv { s with spaces := s.spaces.give, consumer := .idle }
      { r with popped := r.popped ++ [out], held := none, alone := a } := by
  obtain ⟨slots, head, tail, lock, items, spaces, dropped, producer, consumer⟩ := s
  obtain rfl : consumer = .giveSpaces out := hpc
  have hroom : spaces.count + producer.reserves + items.count + 1 = capacity := hi.room
  have htokens : r.popped.length + 1 + items.count = r.pushed.length := hi.tokens
  have hcount := Semaphore.count_give (show spaces.count < capacity by omega)
  have hlen : (r.popped ++ [out]).length = r.popped.length + 1 := List.length_append
  have hout : r.pushed[r.popped.length]? = some out := hi.out out rfl
  refine { hi with
    order := ?_
    tokens := ?_
    room := ?_
    tail := ?_
    slots := fun i hpop h => hi.slots i (by dsimp only at hpop; omega) h
    out := fun f hf => by cases hf
    uncopied := fun x hx => ?_
    queued := fun i hpop h => hi.queued i ?_ h
    held := rfl
    alone := ha }
  · rw [List.prefix_iff_eq_take, hlen, List.take_add_one, hout]
    rw [← List.prefix_iff_eq_take.1 hi.order]
    rfl
  · show (r.popped ++ [out]).length + 0 + items.count = r.pushed.length
    omega
  · show spaces.give.count + producer.reserves + items.count + 0 = capacity
    omega
  · show tail = ((r.popped ++ [out]).length + 0) % capacity
    rw [hlen]
    exact hi.tail
  · obtain ⟨i, hle, hlt, hx⟩ := hi.uncopied x hx
    refine ⟨i, ?_, hlt, hx⟩
    show (r.popped ++ [out]).length + 0 ≤ i
    rw [hlen]
    exact hle
  · have hpop : (r.popped ++ [out]).length + 0 ≤ i := hpop
    rw [hlen] at hpop
    exact hpop

theorem pop_step (hcap : 0 < capacity) (hi : RingInv s r) (hst : s.popStep = some s') :
    RingInv s' (ringRecord s .consumer r) := by
  have ha (hpc : s'.producer = s.producer) :=
    hi.alone_step (l := .consumer) (by simp) (by simp) hst hpc
  unfold ringRecord popRecord
  unfold RingState.popStep at hst
  cases hpc : s.consumer with
  | idle => rw [hpc] at hst; cases hst
  | takeItems =>
    simp only [hpc] at hst ⊢
    cases htake : s.items.take with
    | some items =>
      rw [htake] at hst
      obtain rfl := Option.some.inj hst
      exact hi.acquire hpc htake (ha rfl)
    | none =>
      rw [htake] at hst
      obtain rfl := Option.some.inj hst
      obtain ⟨slots, head, tail, lock, items, spaces, dropped, producer, consumer⟩ := s
      obtain rfl : consumer = .takeItems := hpc
      exact { hi with alone := ha rfl }
  | takeLock =>
    simp only [hpc] at hst ⊢
    obtain ⟨slots, head, tail, lock, items, spaces, dropped, producer, consumer⟩ := s
    obtain rfl : consumer = .takeLock := hpc
    obtain ⟨s₁, hlock, rfl⟩ := Option.map_eq_some_iff.1 hst
    unfold RingState.takeLock at hlock
    split at hlock
    · obtain rfl := Option.some.inj hlock
      exact { hi with alone := ha rfl }
    · cases hlock
  | copy =>
    simp only [hpc] at hst ⊢
    obtain rfl := Option.some.inj hst
    exact hi.read hpc (ha rfl)
  | advance out =>
    simp only [hpc] at hst ⊢
    obtain rfl := Option.some.inj hst
    obtain ⟨slots, head, tail, lock, items, spaces, dropped, producer, consumer⟩ := s
    obtain rfl : consumer = .advance out := hpc
    refine { hi with tail := ?_, alone := ha rfl }
    rw [show tail = r.popped.length % capacity from hi.tail]
    exact bump_mod hcap _
  | giveLock out =>
    simp only [hpc] at hst ⊢
    obtain rfl := Option.some.inj hst
    obtain ⟨slots, head, tail, lock, items, spaces, dropped, producer, consumer⟩ := s
    obtain rfl : consumer = .giveLock out := hpc
    exact { hi with alone := ha rfl }
  | giveSpaces out =>
    simp only [hpc] at hst ⊢
    obtain rfl := Option.some.inj hst
    exact hi.release hpc (ha rfl)

/-- A push begins. -/
theorem begin_push (hi : RingInv s r) {f : Frame} {countDrop : Bool} (hpc : s.producer = .idle) :
    RingInv { s with producer := .takeSpaces f countDrop }
      { r with timedOut := false, alone := s } := by
  obtain ⟨slots, head, tail, lock, items, spaces, dropped, producer, consumer⟩ := s
  obtain rfl : producer = .idle := hpc
  exact { hi with
    timedOut := fun h => h.elim
    alone := fun _ => ⟨rfl, rfl, rfl, rfl, rfl, rfl, rfl⟩ }

theorem step (hcap : 0 < capacity) (hi : RingInv s r) (hst : s.step l = some s') :
    RingInv s' (ringRecord s l r) := by
  have ha := @alone_step capacity s s' l r hi
  cases l with
  | producer timeout => exact hi.push_step hcap hst
  | consumer => exact hi.pop_step hcap hst
  | push f countDrop =>
    simp only [RingState.step] at hst
    split at hst
    · obtain rfl := Option.some.inj hst
      exact hi.begin_push ‹_›
    · cases hst
  | pop =>
    have ha := ha (by simp) (by simp) hst
    simp only [RingState.step] at hst
    split at hst
    · obtain rfl := Option.some.inj hst
      obtain ⟨slots, head, tail, lock, items, spaces, dropped, producer, consumer⟩ := s
      obtain rfl : consumer = .idle := ‹_›
      exact { hi with alone := ha rfl }
    · cases hst
  | takeDropped =>
    have ha := ha (by simp) (by simp) hst
    simp only [RingState.step, RingState.takeLock] at hst
    split at hst
    · obtain rfl := Option.some.inj hst
      exact { hi with alone := ha rfl }
    · cases hst
  | giveDropped =>
    have ha := ha (by simp) (by simp) hst
    simp only [RingState.step] at hst
    split at hst
    · obtain rfl := Option.some.inj hst
      exact { hi with alone := ha rfl }
    · cases hst

end RingInv

/-! ### Runs -/

/-- The ring is a queue of `capacity` frames. -/
structure Spsc (s : RingState capacity) (r : RingRecord capacity) : Prop where
  /-- The frames are popped as they were pushed. -/
  order : r.popped <+: r.pushed
  /-- None is lost: it is popped, held by the pop in progress, or counted. -/
  lossless : r.popped.length + r.held.toList.length + s.count = r.pushed.length
  /-- No slot is written before the frame in it is copied. -/
  fresh : ∀ f, s.producer = .copy f → s.head ∉ r.uncopied
  count : s.count ≤ capacity
  /-- A push fails because the ring is full, or for the mutex; and it leaves what the others alone
  would have made of the ring. -/
  refused : ∀ timeout s', s.step (.producer timeout) = some s' → s.pushReturns = some false →
    (r.timedOut = true ∨ ∀ i < capacity, i ∈ r.queued ∨ r.held = some i) ∧
      s'.slots = r.alone.slots ∧ s'.head = r.alone.head ∧ s'.items = r.alone.items ∧
      s'.spaces = r.alone.spaces

namespace RingInv

variable {s s' : RingState capacity} {r : RingRecord capacity}

/-- Where no slot is free, each of them is queued or held. -/
theorem full (hi : RingInv s r) (hspaces : s.spaces.count = 0) (hres : s.producer.reserves = 0)
    {i : ℕ} (h : i < capacity) : i ∈ r.queued ∨ r.held = some i := by
  have hroom := hi.room
  have htokens := hi.tokens
  have hholds := s.consumer.holds_le
  obtain ⟨j, hle, hlt, rfl⟩ := exists_mod_eq r.popped.length h
  by_cases hj : r.popped.length + s.consumer.holds ≤ j
  · exact .inl (hi.queued j hj (by omega))
  · -- the frame that is next to be popped, and the consumer has its token
    obtain rfl : j = r.popped.length := by omega
    rw [hi.held, if_pos (show s.consumer.holds = 1 by omega)]
    exact .inr rfl

theorem fresh (hi : RingInv s r) {f : Frame} (hpc : s.producer = .copy f) : s.head ∉ r.uncopied := by
  intro hx
  have hlt := hi.lt_capacity (by rw [hpc]; rfl)
  obtain ⟨i, hle, hi', heq⟩ := hi.uncopied _ hx
  rw [hi.head, hpc] at heq
  rw [hpc] at hi'
  have hi' : i < r.pushed.length := hi'
  exact mod_ne_of_lt hi' (by omega) heq.symm

theorem refused (hi : RingInv s r) {timeout : Bool} (hst : s.step (.producer timeout) = some s')
    (hret : s.pushReturns = some false) :
    (r.timedOut = true ∨ ∀ i < capacity, i ∈ r.queued ∨ r.held = some i) ∧
      s'.slots = r.alone.slots ∧ s'.head = r.alone.head ∧ s'.items = r.alone.items ∧
      s'.spaces = r.alone.spaces := by
  simp only [RingState.step, RingState.pushStep] at hst
  cases hpc : s.producer with
  | takeSpaces f countDrop =>
    have halone := hi.alone (by rw [hpc]; trivial)
    have htake : s.spaces.take = none := by
      rw [RingState.pushReturns, hpc] at hret
      dsimp only at hret
      split at hret
      · exact Option.isNone_iff_eq_none.1 ‹_›
      · cases hret
    simp only [hpc, htake] at hst
    obtain rfl := Option.some.inj hst
    have hspaces := halone.spaces
    rw [hpc] at hspaces
    exact ⟨.inr fun i h => hi.full (Semaphore.take_eq_none.1 htake) (by rw [hpc]; rfl) h,
      halone.slots.symm, halone.head.symm, halone.items.symm, Semaphore.ext_count hspaces.symm⟩
  | giveBack countDrop =>
    have halone := hi.alone (by rw [hpc]; trivial)
    have hroom := hi.room
    have hspaces := halone.spaces
    rw [hpc] at hspaces hroom
    simp only [hpc] at hst
    obtain rfl := Option.some.inj hst
    dsimp only [PushPc.reserves] at hspaces hroom
    refine ⟨.inl (hi.timedOut (by rw [hpc]; trivial)), halone.slots.symm, halone.head.symm,
      halone.items.symm, Semaphore.ext_count ?_⟩
    rw [hspaces]
    exact Semaphore.count_give (by omega)
  | idle | takeLock | copy | advance | giveLock | giveItems =>
    rw [RingState.pushReturns, hpc] at hret
    cases hret

theorem spsc (hi : RingInv s r) : Spsc s r where
  order := hi.order
  lossless := by
    have htokens := hi.tokens
    rw [hi.held, RingState.count]
    cases hpc : s.consumer <;> rw [hpc] at htokens <;> exact htokens
  fresh _ hpc := hi.fresh hpc
  count := s.items.le
  refused _ _ hst hret := hi.refused hst hret

end RingInv

/-- **One producer and one consumer.**  In every run of a ring of at least one slot, whatever the
order of the single steps, the frames are popped in the order in which they were pushed, none of
them lost; no slot is written before the frame in it is copied; the count stays within the
capacity; and a push fails only while every slot is queued or held by the pop in progress, or when
the mutex is not free in time, and then leaves no trace in the slots, the head and the
semaphores. -/
theorem ring_spsc (hcap : 0 < capacity) {slots : Mem Frame} {ls : List RingStep}
    {s : RingState capacity} {r : RingRecord capacity}
    (hrun : ((ringSystem capacity).withAux ringRecord).Run (.init slots, .none (.init slots)) ls
      (s, r)) : Spsc s r := by
  have hi : RingInv s r := by
    refine hrun.invariant (I := fun p => RingInv p.1 p.2) (.init slots) ?_
    rintro ⟨s, r⟩ l ⟨s', r'⟩ hi ⟨hst, rfl⟩
    exact hi.step hcap hst
  exact hi.spsc

/-- A frame without data. -/
def bareFrame (id : UInt32) : Frame := ⟨id, 0, 0, 0, .replicate frameMaxDlc 0, 0⟩

/-- A ring of one slot: the second push begins while the first pop holds the slot, and finds the
ring full. -/
def oneSlot : Option (RingState 1 × RingRecord 1) :=
  System.exec RingState.step (fun _ _ => True) ringRecord
    (.init fun _ => bareFrame 0, .none (.init fun _ => bareFrame 0))
    (.push (bareFrame 1) true :: List.replicate 6 (.producer false) ++
      [.pop, .consumer, .consumer, .consumer, .push (bareFrame 2) true, .producer false,
        .consumer, .consumer, .consumer, .push (bareFrame 3) false] ++
      List.replicate 6 (.producer false) ++ [.push (bareFrame 4) false])

theorem ring_spsc_oneSlot :
    ∃ p, oneSlot = some p ∧ p.2.popped = [bareFrame 1] ∧ p.2.pushed = [bareFrame 1, bareFrame 3] ∧
      p.1.dropped = 1 ∧ p.1.pushReturns = some false ∧ Spsc p.1 p.2 := by
  have hp : oneSlot.map (fun p => (p.2.popped, p.2.pushed, p.1.dropped, p.1.pushReturns)) =
      some ([bareFrame 1], [bareFrame 1, bareFrame 3], 1, some false) := by decide +kernel
  obtain ⟨⟨s, r⟩, h, hp⟩ := Option.map_eq_some_iff.1 hp
  obtain ⟨hpopped, hp⟩ := Prod.mk.inj hp
  obtain ⟨hpushed, hp⟩ := Prod.mk.inj hp
  obtain ⟨hdropped, hret⟩ := Prod.mk.inj hp
  exact ⟨(s, r), h, hpopped, hpushed, hdropped, hret,
    ring_spsc (by decide) (System.Run.of_exec h).of_guard_withAux⟩

end Ring

end Espcan32
