import Espcan32.Lib.System
import Espcan32.Lib.Park
import Espcan32.Pcan.Proto
import Espcan32.Twai.Hal

/-!
# The tasks on the CAN side

`can_tx_task` sends the frames of `tx_ring` one at a time, and keeps each until an event in
`s_tx_done` tells what became of it.  `ctrl_task` posts these events: it reads the alerts of the
driver, recovers it from bus-off, and tears it down for a new configuration, for which it parks
`can_tx_task` and `twai_rx_task` outside every call of the driver.

A step is one access of a task to what the tasks share, or one move of the controller; the tasks
interleave in any order.  Frames, submissions and events carry numbers, and the events the
submissions they are about: no step depends on them, they only say which is which.

* `CanState.step` : the steps.
* `canSystem` : the tasks and the controller as a system.
* `canRecord` : what happened on the wire, to the submissions and in the event queue.
-/

namespace Espcan32

namespace Bridge

open Pcan Twai

/-- `CFG_RB_TX_DEPTH`. -/
def rbTxDepth : ℕ := 512

/-- The capacity of `s_tx_done`. -/
def txDoneLen : ℕ := 8

/-- A frame popped from `tx_ring`, with the number of its pop. -/
structure Popped where
  no : ℕ
  frame : Frame
  deriving DecidableEq, Repr

/-- A copy of a frame that the driver has accepted, with the number of the submission. -/
structure Copy where
  popped : Popped
  sub : ℕ
  deriving DecidableEq, Repr

/-- `CAN_TX_EVENT_*`. -/
inductive CanTxEvent where
  | ok
  | fail
  | abort
  deriving DecidableEq, Repr

/-- An event in `s_tx_done`, with the number of its post and the submissions it is about: those
whose outcome was read from the alerts, or, for an abort, those the driver discarded or whose
outcome it erased. -/
structure TxEvent where
  ev : CanTxEvent
  no : ℕ
  about : List ℕ
  deriving DecidableEq, Repr

/-- What `ctrl_task` reads of `pcan_dev_state_t`. -/
structure DevState where
  bitrate : UInt32
  silent : Bool
  busOn : Bool
  reconfigPending : Bool
  deriving DecidableEq, Repr

/-- The word asks for parking: `(cycle & 1u) != 0u`. -/
def ParkRequested (cycle : UInt32) : Prop := cycle &&& 1 ≠ 0

instance (cycle : UInt32) : Decidable (ParkRequested cycle) := by
  unfold ParkRequested; infer_instance

/-! ### Program counters -/

/-- Where `twai_rx_task` is. -/
inductive RxPc where
  | top
  /-- In `pcan_twai_receive()`, or past the check that precedes it. -/
  | receive
  /-- In `quiesce_park()`, about to write the acknowledgement. -/
  | echo (cycle : UInt32)
  /-- In `quiesce_park()`, about to read the request. -/
  | parked
  deriving DecidableEq, Repr

/-- Where `can_tx_task` is. -/
inductive TxPc where
  | top
  | pop
  | drain
  /-- In `pcan_twai_transmit()`. -/
  | transmit
  | confirm
  | echo (cycle : UInt32)
  | parked
  deriving DecidableEq, Repr

/-- Where `ctrl_task` is.  The steps of `ctrl_service_alerts()` carry whether it is called in the
quiesced section, and the alerts read. -/
inductive CtrlPc where
  | boot
  | top
  /-- In `ctrl_quiesce_begin()`. -/
  | begin
  | awaitRx (cycle : UInt32)
  | awaitTx (cycle : UInt32)
  /-- In `ctrl_quiesce_end()`, after a timeout. -/
  | giveUp
  | clear
  /-- In `ctrl_service_alerts()`. -/
  | readAlerts (quiesced : Bool)
  | recover (quiesced : Bool) (a : Alerts Copy)
  | restart (quiesced : Bool) (a : Alerts Copy)
  | postOutcome (quiesced : Bool) (a : Alerts Copy)
  | postBusOff (quiesced : Bool) (a : Alerts Copy)
  | snapshot
  /-- In `pcan_twai_stop()`, and in `pcan_twai_start()` after it; without a configuration for the
  bus off. -/
  | stop (c : Option Config)
  | uninstall (c : Option Config)
  | install (c : Config)
  | postAbort
  /-- In `ctrl_quiesce_end()`. -/
  | finish

/-- The place of `twai_rx_task` with respect to its park loop. -/
def RxPc.place : RxPc → Place UInt32
  | .top | .receive => .out
  | .echo cycle => .echo cycle
  | .parked => .parked

/-- The place of `can_tx_task` with respect to its park loop. -/
def TxPc.place : TxPc → Place UInt32
  | .top | .pop | .drain | .transmit | .confirm => .out
  | .echo cycle => .echo cycle
  | .parked => .parked

/-! ### The state -/

/-- The state of the tasks and of what they share; `lost` holds the copies of which the driver has
lost track and that no abort has been posted for. -/
structure CanState where
  seq : UInt32
  rxAck : UInt32
  txAck : UInt32
  dev : DevState
  txRing : List Frame
  txDone : List TxEvent
  hal : Hal Copy
  rx : RxPc
  tx : TxPc
  pending : Option Popped
  inflight : Bool
  ctrl : CtrlPc
  pops : ℕ
  subs : ℕ
  posts : ℕ
  lost : List Copy

/-- A step: the host pushes a frame, getting the lock in time or not; a command leaves a device
state; a task moves, where `answer` is what a running driver makes of a message, and `ok` says
whether there is time left to wait for the tasks and whether an installation goes through; the
controller moves. -/
inductive CanStep where
  | host (f : Frame) (lock : Bool)
  | command (dev : DevState)
  | rx
  | tx (answer : TwaiAnswer)
  | ctrl (ok : Bool)
  | success
  | failure
  | busOff
  | recovered
  deriving DecidableEq, Repr

/-- The event that `ctrl_service_alerts()` forwards: a failure wins over a success. -/
def outcome (a : Alerts Copy) : Option CanTxEvent :=
  if a.txFailed ≠ [] then some .fail else if a.txSuccess ≠ [] then some .ok else none

namespace CanState

variable (s : CanState)

/-- The event that `ctrl_task` posts in its next step. -/
def posting : Option TxEvent :=
  match s.ctrl with
  | .postOutcome _ a => (outcome a).map fun ev => ⟨ev, s.posts, a.messages.map (·.sub)⟩
  | .postBusOff _ a => if a.busOff then some ⟨.abort, s.posts, s.lost.map (·.sub)⟩ else none
  | .postAbort => some ⟨.abort, s.posts, s.lost.map (·.sub)⟩
  | _ => none

/-- `xQueueSend()` of an event: a full queue drops it. -/
def send (e : TxEvent) : CanState :=
  { s with
    txDone := if s.txDone.length < txDoneLen then s.txDone ++ [e] else s.txDone
    posts := s.posts + 1 }

/-- Post an abort, which accounts for the copies lost so far. -/
def sendAbort : CanState :=
  { s.send ⟨.abort, s.posts, s.lost.map (·.sub)⟩ with lost := [] }

/-- One step of `twai_rx_task`. -/
def twaiRxTask : CanState :=
  match s.rx with
  | .top => { s with rx := if ParkRequested s.seq then .echo s.seq else .receive }
  | .receive => { s with rx := .top }
  | .echo cycle => { s with rxAck := cycle, rx := .parked }
  | .parked => { s with rx := if ParkRequested s.seq then .echo s.seq else .top }

/-- Where `can_tx_task` goes with a frame in hand. -/
def txNext : TxPc := if s.inflight then .confirm else .drain

/-- One step of `can_tx_task`. -/
def canTxTask (answer : TwaiAnswer) : CanState :=
  match s.tx with
  | .top =>
    -- a frame in hand is kept across a park, and confirmed before it is submitted again
    { s with tx :=
        if ParkRequested s.seq then .echo s.seq else if s.pending.isNone then .pop else s.txNext }
  | .echo cycle => { s with txAck := cycle, tx := .parked }
  | .parked => { s with tx := if ParkRequested s.seq then .echo s.seq else .top }
  | .pop =>
    match s.txRing with
    | [] => { s with tx := .top }
    | f :: ring =>
      { s with txRing := ring, pending := some ⟨s.pops, f⟩, pops := s.pops + 1, tx := s.txNext }
  | .drain =>
    match s.txDone with
    | [] => { s with tx := .transmit }
    -- events of earlier submissions are discarded before the next one
    | _ :: events => { s with txDone := events }
  | .transmit =>
    match s.pending with
    | none => { s with tx := .top }
    | some p =>
      let (hal, e) := s.hal.transmit answer ⟨p, s.subs⟩
      match e with
      | .ok => { s with hal := hal, inflight := true, subs := s.subs + 1, tx := .top }
      -- listen-only mode: the frame is given up; every other error keeps it in hand
      | .notSupported => { s with pending := none, tx := .top }
      | _ => { s with tx := .top }
  | .confirm =>
    match s.txDone with
    | [] => { s with tx := .top }
    | e :: events =>
      { s with
        txDone := events
        inflight := false
        -- a failure or an abort keeps the frame, to be submitted again
        pending := if e.ev = .ok then none else s.pending
        tx := .top }

/-- Where `ctrl_task` goes after `ctrl_service_alerts()`. -/
def afterAlerts (quiesced : Bool) : CtrlPc := if quiesced then .snapshot else .top

/-- Where `ctrl_task` goes once the old driver is gone. -/
def afterStop : Option Config → CtrlPc
  | none => .postAbort
  | some c => .install c

/-- Change the driver, if there is one. -/
def withDriver (f : Driver Copy → Driver Copy) : CanState :=
  { s with hal := { s.hal with driver := s.hal.driver.map f } }

/-- Call a function of the driver that discards messages. -/
def discarding (f : Driver Copy → Driver Copy × List Copy) : CanState :=
  match s.hal.driver with
  | none => s
  | some d => { s with hal := { s.hal with driver := some (f d).1 }, lost := s.lost ++ (f d).2 }

/-- One step of `ctrl_task`. -/
def ctrlTask (ok : Bool) : CanState :=
  match s.ctrl with
  | .boot => { s with hal := s.hal.install ⟨defaultBitrate, true⟩ ok, ctrl := .top }
  | .top => { s with ctrl := if s.dev.reconfigPending then .begin else .readAlerts false }
  | .begin => { s with seq := s.seq + 1, ctrl := .awaitRx (s.seq + 1) }
  | .awaitRx cycle =>
    { s with ctrl :=
        -- the two acknowledgements are looked at in turn until the time is up
        if s.rxAck = cycle then .awaitTx cycle else if ok then .awaitRx cycle else .giveUp }
  | .awaitTx cycle =>
    { s with ctrl :=
        if s.txAck = cycle then .clear else if ok then .awaitRx cycle else .giveUp }
  | .giveUp => { s with seq := s.seq + 1, ctrl := .readAlerts false }
  | .clear => { s with dev := { s.dev with reconfigPending := false }, ctrl := .readAlerts true }
  | .readAlerts q =>
    match s.hal.driver with
    | none => { s with ctrl := afterAlerts q }
    | some d => { s.withDriver Driver.readAlerts with ctrl := .recover q d.alerts }
  | .recover q a =>
    { (if a.busOff then s.discarding Driver.initiateRecovery else s) with ctrl := .restart q a }
  | .restart q a =>
    { (if a.busRecovered then s.withDriver Driver.start else s) with ctrl := .postOutcome q a }
  | .postOutcome q a =>
    { (s.posting.elim s s.send) with ctrl := .postBusOff q a }
  | .postBusOff q a =>
    { (if a.busOff then s.sendAbort else s) with ctrl := afterAlerts q }
  | .snapshot =>
    { s with ctrl := .stop (if s.dev.busOn then some ⟨s.dev.bitrate, s.dev.silent⟩ else none) }
  | .stop c =>
    match s.hal.driver with
    | none => { s with ctrl := afterStop c }
    | some _ => { s.discarding Driver.stop with ctrl := .uninstall c }
  | .uninstall c =>
    match s.hal.driver with
    | none => { s with ctrl := afterStop c }
    | some d =>
      if d.CanUninstall then
        { s with
          hal := { s.hal with driver := none }
          lost := s.lost ++ d.messages
          ctrl := afterStop c }
      -- the old driver cannot be removed and stays; the abort is posted all the same
      else { s with ctrl := .postAbort }
  | .install c => { s with hal := s.hal.install c ok, ctrl := .postAbort }
  | .postAbort => { s.sendAbort with ctrl := .finish }
  | .finish => { s with seq := s.seq + 1, ctrl := .readAlerts false }

/-- A move of the controller, if there is one and it can make it. -/
def controller (f : Driver Copy → Option (Driver Copy)) : Option CanState :=
  (s.hal.driver.bind f).map fun d => { s with hal := { s.hal with driver := some d } }

/-- One step. -/
def step : CanStep → Option CanState
  | .host f lock =>
    some { s with
      txRing := if s.txRing.length < rbTxDepth ∧ lock then s.txRing ++ [f] else s.txRing }
  | .command dev => some { s with dev := dev }
  | .rx => some s.twaiRxTask
  | .tx answer => some (s.canTxTask answer)
  | .ctrl ok => some (s.ctrlTask ok)
  | .success => s.controller fun d => d.success.map Prod.snd
  | .failure => s.controller Driver.failure
  | .busOff => s.controller Driver.goBusOff
  | .recovered => s.controller Driver.recovered

/-- The start of the tasks. -/
def init (dev : DevState) : CanState where
  seq := 0
  rxAck := 0
  txAck := 0
  dev := dev
  txRing := []
  txDone := []
  hal := .initial
  rx := .top
  tx := .top
  pending := none
  inflight := false
  ctrl := .boot
  pops := 0
  subs := 0
  posts := 0
  lost := []

/-! ### The steps of `can_tx_task` by its place -/

variable {s} (answer : TwaiAnswer)

theorem canTxTask_top (htx : s.tx = .top) : s.canTxTask answer =
    { s with tx :=
        if ParkRequested s.seq then .echo s.seq
        else if s.pending.isNone then .pop else s.txNext } := by
  simp only [canTxTask, htx]

theorem canTxTask_echo {cycle : UInt32} (htx : s.tx = .echo cycle) :
    s.canTxTask answer = { s with txAck := cycle, tx := .parked } := by
  simp only [canTxTask, htx]

theorem canTxTask_parked (htx : s.tx = .parked) :
    s.canTxTask answer = { s with tx := if ParkRequested s.seq then .echo s.seq else .top } := by
  simp only [canTxTask, htx]

theorem canTxTask_pop_nil (htx : s.tx = .pop) (hring : s.txRing = []) :
    s.canTxTask answer = { s with tx := .top } := by
  simp only [canTxTask, htx, hring]

theorem canTxTask_pop_cons {f : Frame} {ring : List Frame} (htx : s.tx = .pop)
    (hring : s.txRing = f :: ring) : s.canTxTask answer =
      { s with
        txRing := ring, pending := some ⟨s.pops, f⟩, pops := s.pops + 1, tx := s.txNext } := by
  simp only [canTxTask, htx, hring]

theorem canTxTask_drain_nil (htx : s.tx = .drain) (hdone : s.txDone = []) :
    s.canTxTask answer = { s with tx := .transmit } := by
  simp only [canTxTask, htx, hdone]

theorem canTxTask_drain_cons {e : TxEvent} {events : List TxEvent} (htx : s.tx = .drain)
    (hdone : s.txDone = e :: events) : s.canTxTask answer = { s with txDone := events } := by
  simp only [canTxTask, htx, hdone]

theorem canTxTask_confirm_nil (htx : s.tx = .confirm) (hdone : s.txDone = []) :
    s.canTxTask answer = { s with tx := .top } := by
  simp only [canTxTask, htx, hdone]

theorem canTxTask_confirm_cons {e : TxEvent} {events : List TxEvent} (htx : s.tx = .confirm)
    (hdone : s.txDone = e :: events) : s.canTxTask answer =
      { s with
        txDone := events
        inflight := false
        pending := if e.ev = .ok then none else s.pending
        tx := .top } := by
  simp only [canTxTask, htx, hdone]

/-- The driver accepts the copy, or listen-only mode refuses it for good, or the frame is kept. -/
theorem canTxTask_transmit {p : Popped} (htx : s.tx = .transmit) (hp : s.pending = some p) :
    (∃ d, s.hal.driver = some d ∧ d.state = .running ∧
      (s.hal.transmit answer ⟨p, s.subs⟩).2 = .ok ∧ s.canTxTask answer =
        { s with
          hal := { s.hal with driver := some { d with queue := d.queue ++ [⟨p, s.subs⟩] } }
          inflight := true
          subs := s.subs + 1
          tx := .top }) ∨
    (s.hal.transmit answer ⟨p, s.subs⟩).2 = .notSupported ∧
      s.canTxTask answer = { s with pending := none, tx := .top } ∨
    (s.hal.transmit answer ⟨p, s.subs⟩).2 ≠ .ok ∧
      (s.hal.transmit answer ⟨p, s.subs⟩).2 ≠ .notSupported ∧
      s.canTxTask answer = { s with tx := .top } := by
  rcases s.hal.transmit_cases answer ⟨p, s.subs⟩ with ⟨d, hd, hst, ht⟩ | ⟨-, hne⟩
  · exact .inl ⟨d, hd, hst, by rw [ht], by simp only [canTxTask, htx, hp, ht]⟩
  · cases he : (s.hal.transmit answer ⟨p, s.subs⟩).2 with
    | ok => exact absurd he hne
    | notSupported => exact .inr (.inl ⟨rfl, by simp only [canTxTask, htx, hp, he]⟩)
    | fail | timeout | invalidState =>
      exact .inr (.inr ⟨by simp, by simp, by simp only [canTxTask, htx, hp, he]⟩)

end CanState

/-- The tasks and the controller as a system. -/
def canSystem : System CanState CanStep := .ofFun CanState.step

/-! ### What happened -/

/-- An accepted submission: how many events had been posted before it, and the verdict. -/
structure Submission where
  first : ℕ
  verdict : Option TxEvent
  deriving DecidableEq, Repr

/-- The numbers of the frames on the wire and of the frames refused for listen-only mode, the
events posted with whether the queue took them, the submissions, and the number of calls of
`ctrl_quiesce_begin()`. -/
structure CanRecord where
  wire : List ℕ
  refused : List ℕ
  posted : List (TxEvent × Bool)
  subs : List Submission
  begins : ℕ
  deriving DecidableEq, Repr

/-- Nothing has happened. -/
def CanRecord.none : CanRecord := ⟨[], [], [], [], 0⟩

/-- Keep the record. -/
def canRecord (s : CanState) (l : CanStep) (r : CanRecord) : CanRecord :=
  match l with
  | .success =>
    match s.hal.driver.bind Driver.success with
    | some (c, _) => { r with wire := r.wire ++ [c.popped.no] }
    | .none => r
  | .tx answer =>
    match s.tx, s.pending, s.txDone with
    | .transmit, some p, _ =>
      match (s.hal.transmit answer ⟨p, s.subs⟩).2 with
      | .ok => { r with subs := r.subs ++ [⟨s.posts, .none⟩] }
      | .notSupported => { r with refused := r.refused ++ [p.no] }
      | _ => r
    | .confirm, _, e :: _ =>
      { r with subs := r.subs.modify (s.subs - 1) fun x => { x with verdict := some e } }
    | _, _, _ => r
  | .ctrl _ =>
    match s.ctrl, s.posting with
    | .begin, _ => { r with begins := r.begins + 1 }
    | _, some e => { r with posted := r.posted ++ [(e, decide (s.txDone.length < txDoneLen))] }
    | _, _ => r
  | _ => r

end Bridge

end Espcan32
