import Espcan32.Lib.Atomic
import Espcan32.Ring.Spsc

/-!
# The ring is a queue

A push and a pop take up to seven steps each, and those of the two tasks interleave.  A push takes
effect when it gives the token of its frame, a pop when it gives back the space of its slot; a push
that finds no space fails in the same instant, for all slots are then in the queue.

* `boundedQueue` : a queue of at most `capacity` frames, as an object with atomic calls.
* `ringEvents` : the calls and the returns that the steps of the ring show.
* `Queued` : the queue that the ring stands for.
* `ring_linearizable` : **every history of the ring is one of the queue**.
-/

namespace Espcan32

namespace Ring

open Pcan

variable {capacity : ℕ}

/-! ### The queue -/

/-- The two callers of the ring. -/
inductive Caller where
  | producer
  | consumer
  deriving DecidableEq, Repr

/-- A call. -/
inductive Call where
  | push (f : Frame)
  | pop
  deriving DecidableEq, Repr

/-- What a call returns. -/
inductive Answer where
  | pushed
  /-- The push has found no space. -/
  | full
  /-- The push has waited too long for the mutex. -/
  | busy
  | popped (f : Frame)
  /-- The time of the pop was up. -/
  | empty
  deriving DecidableEq, Repr

/-- A push of a frame where there is room, or of one that is refused; a pop of the oldest frame, or
one that finds none. -/
inductive QueueCall (capacity : ℕ) : List Frame → Call → Answer → List Frame → Prop
  | pushed {q : List Frame} {f : Frame} (h : q.length < capacity) :
      QueueCall capacity q (.push f) .pushed (q ++ [f])
  | full {q : List Frame} {f : Frame} (h : q.length = capacity) :
      QueueCall capacity q (.push f) .full q
  | busy {q : List Frame} {f : Frame} : QueueCall capacity q (.push f) .busy q
  | popped {q : List Frame} {f : Frame} : QueueCall capacity (f :: q) .pop (.popped f) q
  | empty : QueueCall capacity [] .pop .empty []

/-- A queue of at most `capacity` frames. -/
def boundedQueue (capacity : ℕ) : AtomicObject (List Frame) Call Answer := ⟨QueueCall capacity⟩

/-! ### The ring's calls and returns -/

/-- The calls and the returns that a step of the ring shows; the reader of the overrun counter has
none. -/
def ringEvents (s : RingState capacity) : RingStep → List (CallEvent Caller Call Answer)
  | .push f _ => [.invoke .producer (.push f)]
  | .producer _ =>
    match s.producer with
    | .takeSpaces _ _ => if s.spaces.take.isNone then [.respond .producer .full] else []
    | .giveBack _ => [.respond .producer .busy]
    | .giveItems _ => [.respond .producer .pushed]
    | _ => []
  | .pop => [.invoke .consumer .pop]
  | .consumer =>
    match s.consumer with
    | .takeItems => if s.items.take.isNone then [.respond .consumer .empty] else []
    | .giveSpaces out => [.respond .consumer (.popped out)]
    | _ => []
  | .takeDropped | .giveDropped => []

/-! ### The queue that the ring stands for -/

/-- How far the push is, as a call of the queue. -/
def PushPc.phase : PushPc → CallPhase Call Answer
  | .idle => .idle
  | .giveBack _ => .done .busy
  | .takeSpaces f _ | .takeLock f _ | .copy f | .advance f | .giveLock f | .giveItems f =>
    .called (.push f)

/-- How far the pop is, as a call of the queue. -/
def PopPc.phase : PopPc → CallPhase Call Answer
  | .idle => .idle
  | .takeItems | .takeLock | .copy | .advance _ | .giveLock _ | .giveSpaces _ => .called .pop

/-- The phases of the queue's callers. -/
def callPhases (producer : PushPc) (consumer : PopPc) : Caller → CallPhase Call Answer
  | .producer => producer.phase
  | .consumer => consumer.phase

/-- The ring stands for the queue of the frames that are pushed and not popped. -/
def Queued (s : RingState capacity) (t : CallState (List Frame) Caller Call Answer) : Prop :=
  ∃ r q, RingInv s r ∧ r.pushed = r.popped ++ q ∧ t = ⟨q, callPhases s.producer s.consumer⟩

section

variable {q q' : List Frame} {producer producer' : PushPc} {consumer consumer' : PopPc} {f : Frame}
  {res : Answer}

theorem update_push {phase : CallPhase Call Answer} (h : producer'.phase = phase) :
    Function.update (callPhases producer consumer) .producer phase =
      callPhases producer' consumer := by
  funext p
  cases p
  · exact h.symm
  · rfl

theorem update_pop {phase : CallPhase Call Answer} (h : consumer'.phase = phase) :
    Function.update (callPhases producer consumer) .consumer phase =
      callPhases producer consumer' := by
  funext p
  cases p
  · rfl
  · exact h.symm

theorem run_invoke_push (hpc : producer = .idle) (hpc' : producer'.phase = .called (.push f)) :
    (boundedQueue capacity).system.Run ⟨q, callPhases producer consumer⟩
      [.event (.invoke .producer (.push f))] ⟨q, callPhases producer' consumer⟩ := by
  have hidle : callPhases producer consumer .producer = .idle := congrArg PushPc.phase hpc
  have hrun : (boundedQueue capacity).system.Run ⟨q, callPhases producer consumer⟩
      [.event (.invoke .producer (.push f))] _ := .single (.invoke hidle)
  rwa [update_push hpc'] at hrun

theorem run_invoke_pop (hpc : consumer = .idle) (hpc' : consumer'.phase = .called .pop) :
    (boundedQueue capacity).system.Run ⟨q, callPhases producer consumer⟩
      [.event (.invoke .consumer .pop)] ⟨q, callPhases producer consumer'⟩ := by
  have hidle : callPhases producer consumer .consumer = .idle := congrArg PopPc.phase hpc
  have hrun : (boundedQueue capacity).system.Run ⟨q, callPhases producer consumer⟩
      [.event (.invoke .consumer .pop)] _ := .single (.invoke hidle)
  rwa [update_pop hpc'] at hrun

/-- The push takes effect, and has not returned. -/
theorem run_effect_push (hpc : producer.phase = .called (.push f)) (hpc' : producer'.phase = .done res)
    (hdoes : QueueCall capacity q (.push f) res q') :
    (boundedQueue capacity).system.Run ⟨q, callPhases producer consumer⟩ [.effect .producer]
      ⟨q', callPhases producer' consumer⟩ := by
  have hcalled : callPhases producer consumer .producer = .called (.push f) := hpc
  have hrun : (boundedQueue capacity).system.Run ⟨q, callPhases producer consumer⟩
      [.effect .producer] _ := .single (.effect hcalled hdoes)
  rwa [update_push hpc'] at hrun

theorem run_respond_push (hpc : producer.phase = .done res) (hpc' : producer'.phase = .idle) :
    (boundedQueue capacity).system.Run ⟨q, callPhases producer consumer⟩
      [.event (.respond .producer res)] ⟨q, callPhases producer' consumer⟩ := by
  have hdone : callPhases producer consumer .producer = .done res := hpc
  have hrun : (boundedQueue capacity).system.Run ⟨q, callPhases producer consumer⟩
      [.event (.respond .producer res)] _ := .single (.respond hdone)
  rwa [update_push hpc'] at hrun

/-- The push takes effect and returns. -/
theorem run_push (hpc : producer.phase = .called (.push f))
    (hdoes : QueueCall capacity q (.push f) res q') :
    (boundedQueue capacity).system.Run ⟨q, callPhases producer consumer⟩
      [.effect .producer, .event (.respond .producer res)] ⟨q', callPhases .idle consumer⟩ := by
  have hcalled : callPhases producer consumer .producer = .called (.push f) := hpc
  have hrun := AtomicObject.run_effect_respond (o := boundedQueue capacity) hcalled hdoes
  rwa [update_push (show PushPc.idle.phase = .idle from rfl)] at hrun

/-- The pop takes effect and returns. -/
theorem run_pop (hpc : consumer.phase = .called .pop) (hdoes : QueueCall capacity q .pop res q') :
    (boundedQueue capacity).system.Run ⟨q, callPhases producer consumer⟩
      [.effect .consumer, .event (.respond .consumer res)] ⟨q', callPhases producer .idle⟩ := by
  have hcalled : callPhases producer consumer .consumer = .called .pop := hpc
  have hrun := AtomicObject.run_effect_respond (o := boundedQueue capacity) hcalled hdoes
  rwa [update_pop (show PopPc.idle.phase = .idle from rfl)] at hrun

end

/-! ### The simulation -/

/-- Some steps of the queue show the events `es` and lead to what `s'` stands for. -/
def Matched (capacity : ℕ) (t : CallState (List Frame) Caller Call Answer)
    (es : List (CallEvent Caller Call Answer)) (s' : RingState capacity) : Prop :=
  ∃ steps t', (boundedQueue capacity).system.Run t steps t' ∧
    steps.filterMap CallStep.shown = es ∧ Queued s' t'

namespace RingInv

variable {s s' : RingState capacity} {r r' : RingRecord capacity} {l : RingStep} {q : List Frame}

/-- A frame of the queue has a token, or the consumer holds it. -/
theorem length_queue (hi : RingInv s r) (hq : r.pushed = r.popped ++ q) :
    q.length = s.consumer.holds + s.items.count := by
  have htokens := hi.tokens
  rw [hq, List.length_append] at htokens
  omega

/-- A step that shows nothing and leaves the queue and the calls as they are. -/
theorem silent (hi : RingInv s' r') (hq : r'.pushed = r'.popped ++ q)
    (hproducer : s'.producer.phase = s.producer.phase)
    (hconsumer : s'.consumer.phase = s.consumer.phase) :
    Matched capacity ⟨q, callPhases s.producer s.consumer⟩ [] s' := by
  refine ⟨[], _, .nil, rfl, r', q, hi, hq, ?_⟩
  congr 1
  funext p
  cases p
  · exact hproducer.symm
  · exact hconsumer.symm

/-- The frames of the queue leave no slot free when the semaphore of the spaces is empty. -/
theorem length_queue_of_full (hi : RingInv s r) (hq : r.pushed = r.popped ++ q)
    (hres : s.producer.reserves = 0) (hspaces : s.spaces.count = 0) : q.length = capacity := by
  have hroom := hi.room
  have hlen := hi.length_queue hq
  omega

theorem length_queue_lt (hi : RingInv s r) (hq : r.pushed = r.popped ++ q)
    (hres : s.producer.reserves = 1) : q.length < capacity := by
  have hroom := hi.room
  have hlen := hi.length_queue hq
  omega

/-- The steps of a push. -/
theorem push_matched (hi : RingInv s r) (hq : r.pushed = r.popped ++ q) {timeout : Bool}
    (hst : s.pushStep timeout = some s') (hi' : RingInv s' (pushRecord s timeout r)) :
    Matched capacity ⟨q, callPhases s.producer s.consumer⟩ (ringEvents s (.producer timeout)) s' := by
  unfold RingState.pushStep at hst
  unfold pushRecord at hi'
  unfold ringEvents
  cases hpc : s.producer with
  | idle => rw [hpc] at hst; cases hst
  | takeSpaces f countDrop =>
    simp only [hpc] at hst hi' ⊢
    cases htake : s.spaces.take with
    | none =>
      rw [htake] at hst
      obtain rfl := Option.some.inj hst
      have hfull := hi.length_queue_of_full hq (by rw [hpc]; rfl) (Semaphore.take_eq_none.1 htake)
      exact ⟨_, _, run_push rfl (.full hfull), rfl, r, q, hi', hq, rfl⟩
    | some spaces =>
      rw [htake] at hst
      obtain rfl := Option.some.inj hst
      rw [← hpc]
      exact hi'.silent hq (by rw [hpc]; rfl) rfl
  | takeLock f countDrop =>
    simp only [hpc] at hst hi' ⊢
    cases timeout with
    | true =>
      obtain rfl := Option.some.inj hst
      -- the push is refused; it has not returned
      exact ⟨_, _, run_effect_push rfl rfl .busy, rfl, _, q, hi', hq, rfl⟩
    | false =>
      obtain ⟨s₁, hlock, rfl⟩ := Option.map_eq_some_iff.1 hst
      unfold RingState.takeLock at hlock
      split at hlock
      · obtain rfl := Option.some.inj hlock
        rw [← hpc]
        exact hi'.silent hq (by rw [hpc]; rfl) rfl
      · cases hlock
  | giveBack countDrop =>
    simp only [hpc] at hst hi' ⊢
    obtain rfl := Option.some.inj hst
    exact ⟨_, _, run_respond_push rfl rfl, rfl, r, q, hi', hq, rfl⟩
  | copy f | advance f | giveLock f =>
    simp only [hpc] at hst hi' ⊢
    obtain rfl := Option.some.inj hst
    rw [← hpc]
    exact hi'.silent hq (by rw [hpc]; rfl) rfl
  | giveItems f =>
    simp only [hpc] at hst hi' ⊢
    obtain rfl := Option.some.inj hst
    have hlt := hi.length_queue_lt hq (by rw [hpc]; rfl)
    refine ⟨_, _, run_push rfl (.pushed hlt), rfl, _, q ++ [f], hi', ?_, rfl⟩
    rw [hq, List.append_assoc]

/-- The steps of a pop. -/
theorem pop_matched (hi : RingInv s r) (hq : r.pushed = r.popped ++ q)
    (hst : s.popStep = some s') (hi' : RingInv s' (ringRecord s .consumer r)) :
    Matched capacity ⟨q, callPhases s.producer s.consumer⟩ (ringEvents s .consumer) s' := by
  unfold RingState.popStep at hst
  unfold ringRecord popRecord at hi'
  unfold ringEvents
  cases hpc : s.consumer with
  | idle => rw [hpc] at hst; cases hst
  | takeItems =>
    simp only [hpc] at hst hi' ⊢
    cases htake : s.items.take with
    | none =>
      rw [htake] at hst hi'
      obtain rfl := Option.some.inj hst
      obtain rfl : q = [] := by
        have hlen := hi.length_queue hq
        rw [hpc, Semaphore.take_eq_none.1 htake] at hlen
        exact List.eq_nil_of_length_eq_zero hlen
      exact ⟨_, _, run_pop rfl .empty, rfl, _, [], hi', hq, rfl⟩
    | some items =>
      rw [htake] at hst hi'
      obtain rfl := Option.some.inj hst
      rw [← hpc]
      exact hi'.silent hq rfl (by rw [hpc]; rfl)
  | takeLock =>
    simp only [hpc] at hst hi' ⊢
    obtain ⟨s₁, hlock, rfl⟩ := Option.map_eq_some_iff.1 hst
    unfold RingState.takeLock at hlock
    split at hlock
    · obtain rfl := Option.some.inj hlock
      rw [← hpc]
      exact hi'.silent hq rfl (by rw [hpc]; rfl)
    · cases hlock
  | copy | advance out | giveLock out =>
    simp only [hpc] at hst hi' ⊢
    obtain rfl := Option.some.inj hst
    rw [← hpc]
    exact hi'.silent hq rfl (by rw [hpc]; rfl)
  | giveSpaces out =>
    simp only [hpc] at hst hi' ⊢
    obtain rfl := Option.some.inj hst
    -- the frame that is handed out is the oldest of the queue
    have hout : r.pushed[r.popped.length]? = some out := hi.out out (by rw [hpc]; rfl)
    rw [hq, List.getElem?_append_right (Nat.le_refl _), Nat.sub_self] at hout
    obtain ⟨q, rfl⟩ : ∃ q', q = out :: q' := by
      cases q with
      | nil => cases hout
      | cons f q => exact ⟨q, by rw [Option.some.inj hout]⟩
    refine ⟨_, _, run_pop rfl .popped, rfl, _, q, hi', ?_, rfl⟩
    rw [hq, List.append_assoc]
    rfl

end RingInv

/-- Every step of the ring is matched by steps of the queue. -/
theorem queue_implements (hcap : 0 < capacity) :
    (boundedQueue capacity).Implements (ringSystem capacity) ringEvents Queued := by
  rintro s l s' t ⟨r, q, hi, hq, rfl⟩ hst
  have hi' := hi.step hcap hst
  cases l with
  | producer timeout => exact hi.push_matched hq hst hi'
  | consumer => exact hi.pop_matched hq hst hi'
  | push f countDrop =>
    simp only [ringSystem, System.ofFun, RingState.step] at hst
    split at hst
    · obtain rfl := Option.some.inj hst
      exact ⟨_, _, run_invoke_push ‹_› rfl, rfl, _, q, hi', hq, rfl⟩
    · cases hst
  | pop =>
    simp only [ringSystem, System.ofFun, RingState.step] at hst
    split at hst
    · obtain rfl := Option.some.inj hst
      exact ⟨_, _, run_invoke_pop ‹_› rfl, rfl, _, q, hi', hq, rfl⟩
    · cases hst
  | takeDropped =>
    simp only [ringSystem, System.ofFun, RingState.step, RingState.takeLock] at hst
    split at hst
    · obtain rfl := Option.some.inj hst
      exact hi'.silent hq rfl rfl
    · cases hst
  | giveDropped =>
    simp only [ringSystem, System.ofFun, RingState.step] at hst
    split at hst
    · obtain rfl := Option.some.inj hst
      exact hi'.silent hq rfl rfl
    · cases hst

/-- **The ring is a queue with atomic calls.**  In every run of a ring of at least one slot,
whatever the order of the single steps, each call can be thought to take effect at one instant
between its invocation and its return: the history of the calls and of what they return is one of
the queue of `capacity` frames.  In particular a push that finds no space is one on a queue that is
full, and a pop whose time is up one on a queue that is empty. -/
theorem ring_linearizable (hcap : 0 < capacity) {slots : Mem Frame} {ls : List RingStep}
    {s : RingState capacity} {h : List (CallEvent Caller Call Answer)}
    (hrun : ((ringSystem capacity).withAux (AtomicObject.history ringEvents)).Run
      (.init slots, []) ls (s, h)) :
    ∃ q, (boundedQueue capacity).Explains [] h q := by
  have h₀ : Queued (.init slots : RingState capacity) (CallState.start []) := by
    refine ⟨_, [], .init slots, rfl, ?_⟩
    rw [CallState.start]
    congr 1
    funext p
    cases p <;> rfl
  obtain ⟨q, _, hexplains, _⟩ := (queue_implements hcap).explains h₀ hrun
  exact ⟨q, hexplains⟩

/-- A ring of one slot: while the first pop holds the slot, a push finds the ring full; behind it, a
pop finds it empty. -/
def oneSlotHistory : Option (RingState 1 × List (CallEvent Caller Call Answer)) :=
  System.exec RingState.step (fun _ _ => True) (AtomicObject.history ringEvents)
    (.init fun _ => bareFrame 0, [])
    (.push (bareFrame 1) true :: List.replicate 6 (.producer false) ++
      [.pop, .consumer, .consumer, .consumer, .push (bareFrame 2) true, .producer false,
        .consumer, .consumer, .consumer, .pop, .push (bareFrame 3) false, .consumer,
        .producer false])

theorem ring_linearizable_oneSlot :
    ∃ p q, oneSlotHistory = some p ∧
      p.2 = [.invoke .producer (.push (bareFrame 1)), .respond .producer .pushed,
        .invoke .consumer .pop, .invoke .producer (.push (bareFrame 2)),
        .respond .producer .full, .respond .consumer (.popped (bareFrame 1)),
        .invoke .consumer .pop, .invoke .producer (.push (bareFrame 3)),
        .respond .consumer .empty] ∧
      (boundedQueue 1).Explains [] p.2 q := by
  have hp : oneSlotHistory.map Prod.snd =
      some [.invoke .producer (.push (bareFrame 1)), .respond .producer .pushed,
        .invoke .consumer .pop, .invoke .producer (.push (bareFrame 2)),
        .respond .producer .full, .respond .consumer (.popped (bareFrame 1)),
        .invoke .consumer .pop, .invoke .producer (.push (bareFrame 3)),
        .respond .consumer .empty] := by decide +kernel
  obtain ⟨⟨s, h⟩, hexec, hh⟩ := Option.map_eq_some_iff.1 hp
  obtain ⟨q, hq⟩ := ring_linearizable (by decide) (System.Run.of_exec hexec).of_guard_withAux
  exact ⟨(s, h), q, hexec, hh, hq⟩

end Ring

end Espcan32
