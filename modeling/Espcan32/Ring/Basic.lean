import Espcan32.Lib.Bounded
import Espcan32.Lib.System
import Espcan32.Pcan.Proto

/-!
# The frame rings

A ring of `ringbuf.c` passes frames from one task to another.  Two counting semaphores hold a token
for each frame that can be popped and for each slot that can be written; a mutex guards the copy of
a slot and the move of an index.

A step is one semaphore operation, the copy of a slot or the move of an index, by the producer, by
the consumer, or by a reader of the overrun counter; they interleave in any order.

* `RingState.step` : the steps.
* `ringSystem` : a ring and its users as a system.
* `ringRecord` : the frames pushed and popped, and where their slots are.
-/

namespace Espcan32

namespace Ring

open Pcan

/-! ### Program counters -/

/-- Where the producer is in `pcan_rb_push_impl()`, with `frame` and `count_drop`. -/
inductive PushPc where
  /-- Outside. -/
  | idle
  | takeSpaces (f : Frame) (countDrop : Bool)
  | takeLock (f : Frame) (countDrop : Bool)
  /-- The lock was not acquired in time. -/
  | giveBack (countDrop : Bool)
  | copy (f : Frame)
  | advance (f : Frame)
  | giveLock (f : Frame)
  | giveItems (f : Frame)
  deriving DecidableEq, Repr

/-- Where the consumer is in `pcan_rb_pop()`, with what it has copied to `out`. -/
inductive PopPc where
  | idle
  | takeItems
  | takeLock
  | copy
  | advance (out : Frame)
  | giveLock (out : Frame)
  | giveSpaces (out : Frame)
  deriving DecidableEq, Repr

/-- Who holds the mutex. -/
inductive Holder where
  | producer
  | consumer
  /-- A task in `pcan_rb_take_dropped()`. -/
  | reader
  deriving DecidableEq, Repr

/-! ### The state -/

/-- `pcan_ringbuf_t` with `capacity` slots, and where its users are. -/
structure RingState (capacity : ℕ) where
  slots : Mem Frame
  head : ℕ
  tail : ℕ
  lock : Option Holder
  items : Semaphore capacity
  spaces : Semaphore capacity
  dropped : UInt32
  producer : PushPc
  consumer : PopPc

/-- A step: the producer calls `pcan_rb_push()` (with `countDrop`) or `pcan_rb_try_push()`, and
moves, where `timeout` says that it gives up the wait for the mutex; the consumer calls
`pcan_rb_pop()`, and moves; the overrun counter is read. -/
inductive RingStep where
  | push (f : Frame) (countDrop : Bool)
  | producer (timeout : Bool)
  | pop
  | consumer
  | takeDropped
  | giveDropped
  deriving DecidableEq, Repr

namespace RingState

variable {capacity : ℕ} (s : RingState capacity)

/-- `pcan_rb_count()`. -/
def count : ℕ := s.items.count

/-- Take the mutex, if it is free. -/
def takeLock (who : Holder) : Option (RingState capacity) :=
  if s.lock = none then some { s with lock := some who } else none

/-- `dropped++`, if it is asked for. -/
def drop (countDrop : Bool) : UInt32 := if countDrop then s.dropped + 1 else s.dropped

/-- One step of `pcan_rb_push_impl()`; none while the mutex is waited for. -/
def pushStep (timeout : Bool) : Option (RingState capacity) :=
  match s.producer with
  | .idle => none
  | .takeSpaces f countDrop =>
    match s.spaces.take with
    | none => some { s with dropped := s.drop countDrop, producer := .idle }
    | some spaces => some { s with spaces := spaces, producer := .takeLock f countDrop }
  | .takeLock f countDrop =>
    if timeout then some { s with producer := .giveBack countDrop }
    else (s.takeLock .producer).map fun s => { s with producer := .copy f }
  | .giveBack countDrop =>
    some { s with spaces := s.spaces.give, dropped := s.drop countDrop, producer := .idle }
  | .copy f => some { s with slots := s.slots.copy s.head [f], producer := .advance f }
  | .advance f => some { s with head := bump capacity s.head, producer := .giveLock f }
  | .giveLock f => some { s with lock := none, producer := .giveItems f }
  | .giveItems _ => some { s with items := s.items.give, producer := .idle }

/-- One step of `pcan_rb_pop()`; none while the mutex is waited for. -/
def popStep : Option (RingState capacity) :=
  match s.consumer with
  | .idle => none
  | .takeItems =>
    match s.items.take with
    -- the time is up
    | none => some { s with consumer := .idle }
    | some items => some { s with items := items, consumer := .takeLock }
  | .takeLock => (s.takeLock .consumer).map fun s => { s with consumer := .copy }
  | .copy => some { s with consumer := .advance (s.slots s.tail) }
  | .advance out => some { s with tail := bump capacity s.tail, consumer := .giveLock out }
  | .giveLock out => some { s with lock := none, consumer := .giveSpaces out }
  | .giveSpaces _ => some { s with spaces := s.spaces.give, consumer := .idle }

/-- One step. -/
def step : RingStep → Option (RingState capacity)
  | .push f countDrop =>
    if s.producer = .idle then some { s with producer := .takeSpaces f countDrop } else none
  | .producer timeout => s.pushStep timeout
  | .pop => if s.consumer = .idle then some { s with consumer := .takeItems } else none
  | .consumer => s.popStep
  | .takeDropped => s.takeLock .reader
  | .giveDropped => if s.lock = some .reader then some { s with dropped := 0, lock := none } else none

/-- What a push returns in its next step, if it returns. -/
def pushReturns : Option Bool :=
  match s.producer with
  | .takeSpaces _ _ => if s.spaces.take.isNone then some false else none
  | .giveBack _ => some false
  | .giveItems _ => some true
  | _ => none

/-- Behind `pcan_rb_init()`; what the slots hold is not known. -/
def init (slots : Mem Frame) : RingState capacity where
  slots := slots
  head := 0
  tail := 0
  lock := none
  items := .empty
  spaces := .full
  dropped := 0
  producer := .idle
  consumer := .idle

end RingState

/-- A ring and its users as a system. -/
def ringSystem (capacity : ℕ) : System (RingState capacity) RingStep := .ofFun RingState.step

/-! ### What happened -/

/-- The frames pushed, whose item token has been given, and the frames popped; the slots that are
written and not copied yet; the slots whose token has been given and not taken; the slot of the pop
in progress; the slot of the push in progress, and whether it has given up the mutex; and the state
to which the steps of the others since its begin lead by themselves. -/
structure RingRecord (capacity : ℕ) where
  pushed : List Frame
  popped : List Frame
  uncopied : List ℕ
  queued : List ℕ
  held : Option ℕ
  written : ℕ
  timedOut : Bool
  alone : RingState capacity

/-- Nothing has happened. -/
def RingRecord.none {capacity : ℕ} (s : RingState capacity) : RingRecord capacity :=
  ⟨[], [], [], [], Option.none, 0, false, s⟩

variable {capacity : ℕ}

/-- Keep the record in a step of the producer. -/
def pushRecord (s : RingState capacity) (timeout : Bool) (r : RingRecord capacity) :
    RingRecord capacity :=
  match s.producer with
  | .takeLock _ _ => { r with timedOut := timeout }
  | .copy _ => { r with uncopied := r.uncopied ++ [s.head], written := s.head }
  | .giveItems f => { r with pushed := r.pushed ++ [f], queued := r.queued ++ [r.written] }
  | _ => r

/-- Keep the record in a step of the consumer. -/
def popRecord (s : RingState capacity) (r : RingRecord capacity) : RingRecord capacity :=
  match s.consumer with
  | .takeItems =>
    if s.items.take.isNone then r
    else { r with queued := r.queued.filter (· ≠ s.tail), held := some s.tail }
  | .copy => { r with uncopied := r.uncopied.filter (· ≠ s.tail) }
  | .giveSpaces out => { r with popped := r.popped ++ [out], held := none }
  | _ => r

/-- Keep the record. -/
def ringRecord (s : RingState capacity) (l : RingStep) (r : RingRecord capacity) :
    RingRecord capacity :=
  match l with
  | .push _ _ => { r with timedOut := false, alone := s }
  | .producer timeout => pushRecord s timeout r
  | .consumer => { popRecord s r with alone := (r.alone.step .consumer).getD r.alone }
  | l => { r with alone := (r.alone.step l).getD r.alone }

end Ring

end Espcan32
