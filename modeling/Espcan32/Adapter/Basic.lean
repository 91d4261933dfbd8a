import Espcan32.Bridge.Lossless
import Espcan32.Bridge.Once
import Espcan32.Lib.Compose
import Espcan32.Usb.Delivery
import Espcan32.Usb.Ownership

/-!
# The adapter

The parts of the adapter run side by side: the USB glue with the stack and the host, the tasks on the
CAN side with the controller, and the two tasks that carry the frames of the bus to the host.  They
meet in three places.

* TinyUSB's task pushes a frame of the host into `tx_ring`, from which `can_tx_task` pops it.
* `usb_tx_task` presents its batch to `usb_glue_send_msg_batch()` until this returns its length.
* `twai_rx_task` receives a frame, and pushes it before it looks for a quiesce cycle again.

A step of the adapter is one of one of the parts, or one that two of them take together.

* `AdapterState.step` : the steps.
* `adapterSystem` : the adapter as a system.
* `adapterRecord` : the records of the parts, the frames popped from `tx_ring` and sent on the bus, the
  frames of the bus that `rx_ring` took, and the batches that the end of the driver released.
-/

namespace Espcan32

namespace Adapter

open Pcan Bridge Usb

/-- The parts of the adapter. -/
structure AdapterState where
  glue : GlueState
  can : CanState
  usb : UsbState

/-- A step.  TinyUSB's task, the stack or the bus moves; a task on the CAN side, the controller or
a command moves; TinyUSB's task pushes a frame, getting the lock of the ring in time or not.
`usb_tx_task` calls `usb_glue_service()`, gets to `usbd_defer_func()`, has a new batch to present,
presents its batch, or moves elsewhere.  `twai_rx_task` receives a message, or pushes the frame it
made of it; the clock moves; `ctrl_task` posts an error mask. -/
inductive AdapterStep where
  | glue (l : GlueStep)
  | can (l : CanStep)
  | push (lock : Bool)
  | service
  | defer (kept : Bool)
  | present
  | send
  | usb
  | receive (m : Bridge.TwaiMessage)
  | pushRx (lock : Bool)
  | clock (d : ℕ)
  | post (errMask : UInt8)

/-- The frame that TinyUSB's task is about to push. -/
def pushing (g : GlueState) : Option Frame :=
  match g.task with
  | .outPush _ f => some f
  | _ => none

/-- `usb_tx_task` is in the loop of `usb_tx_flush_pending()`. -/
def Flushing (u : UsbState) : Prop := (∃ next, u.pc = .flush next) ∧ u.b.recCnt ≠ 0

instance (u : UsbState) : Decidable (Flushing u) :=
  match h : u.pc with
  | .flush next => decidable_of_iff (u.b.recCnt ≠ 0) ⟨fun hc => ⟨⟨next, h⟩, hc⟩, And.right⟩
  | .top | .add _ _ _ | .drain _ | .calib | .calibDone | .events =>
    .isFalse fun hf => by obtain ⟨next, hn⟩ := hf.1; rw [h] at hn; cases hn

/-- The bytes of a batch. -/
def batchBytes (b : Batch) : List UInt8 := b.buf.read 0 b.len

namespace AdapterState

variable (d : AdapterState)

/-- The call of `usb_glue_send_msg_batch()` returns the length of the batch. -/
def released : Bool :=
  match d.glue.batch with
  | some buf => (d.glue.sendMsgBatch buf).2.1
  | none => false

/-- What the glue does in a step. -/
def glueStep : AdapterStep → Option GlueStep
  | .glue l => some l
  | .push lock => some (.go (d.can.txRing.length < rbTxDepth ∧ lock))
  | .service => some .service
  | .defer kept => some (.defer kept)
  | .present => some (.present (batchBytes d.usb.b))
  | .send => some .send
  | .can _ | .usb | .receive _ | .pushRx _ | .clock _ | .post _ => none

/-- What the CAN side does in a step. -/
def canStep : AdapterStep → Option CanStep
  | .can l => some l
  | .push lock => (pushing d.glue).map fun f => .host f lock
  | .pushRx _ => some .rx
  | .glue _ | .service | .defer _ | .present | .send | .usb | .receive _ | .clock _ | .post _ => none

/-- What the tasks between the bus and the host do in a step. -/
def usbStep : AdapterStep → Option UsbStep
  | .usb => some (.usb false)
  | .send => if d.released then some (.usb true) else none
  | .receive m => some (.receive m)
  | .pushRx lock => some (.push lock)
  | .clock k => some (.clock k)
  | .post errMask => some (.post errMask)
  | .glue _ | .can _ | .push _ | .service | .defer _ | .present => none

/-- The tasks are where the step starts from. -/
def Allows : AdapterStep → Prop
  | .glue (.go _) => pushing d.glue = none
  -- these are calls of `usb_tx_task`
  | .glue (.present _) | .glue .send | .glue .service | .glue (.defer _) => False
  | .glue _ => True
  | .can (.host _ _) => False
  | .can .rx => d.usb.rxHeld = none
  | .can _ => True
  | .push _ => pushing d.glue ≠ none
  | .service => d.usb.pc matches .top ∨ Flushing d.usb
  | .present | .send => Flushing d.usb
  | .usb => d.glue.caller = .idle ∧ ¬ Flushing d.usb
  | .receive _ | .pushRx _ => d.can.rx = .receive
  | .defer _ | .clock _ | .post _ => True

instance (l : AdapterStep) : Decidable (d.Allows l) := by
  unfold Allows
  split <;> infer_instance

/-- One step: each of the parts moves, or stands still. -/
def step (l : AdapterStep) : Option AdapterState :=
  if d.Allows l then
    (System.stay GlueState.step d.glue (d.glueStep l)).bind fun glue =>
      (System.stay CanState.step d.can (d.canStep l)).bind fun can =>
        (System.stay UsbState.step d.usb (d.usbStep l)).map fun usb => ⟨glue, can, usb⟩
  else none

/-- After the initialisation, with a batch on the stack of `usb_tx_task` that holds anything. -/
def init (dev : DevState) (us : ℕ) (b : Batch) : AdapterState := ⟨.init, .init dev, .init us b⟩

variable {d} {d' : AdapterState} {l : AdapterStep}

/-- What a step of the adapter does to its parts. -/
theorem step_parts (h : d.step l = some d') :
    d.Allows l ∧ System.stay GlueState.step d.glue (d.glueStep l) = some d'.glue ∧
      System.stay CanState.step d.can (d.canStep l) = some d'.can ∧
      System.stay UsbState.step d.usb (d.usbStep l) = some d'.usb := by
  unfold step at h
  split at h
  · obtain ⟨glue, hglue, h⟩ := Option.bind_eq_some_iff.1 h
    obtain ⟨can, hcan, h⟩ := Option.bind_eq_some_iff.1 h
    obtain ⟨usb, husb, rfl⟩ := Option.map_eq_some_iff.1 h
    exact ⟨‹_›, hglue, hcan, husb⟩
  · cases h

end AdapterState

/-- The adapter as a system. -/
def adapterSystem : System AdapterState AdapterStep := .ofFun AdapterState.step

/-! ### What happened -/

/-- The frame that a step of the CAN side takes out of `tx_ring`. -/
def popsFrame (c : CanState) : CanStep → List Frame
  | .tx _ =>
    match c.tx with
    | .pop => c.txRing.head?.toList
    | _ => []
  | _ => []

/-- The frame that a step of the CAN side puts on the wire. -/
def sendsFrame (c : CanState) : CanStep → List Frame
  | .success => ((c.hal.driver.bind Twai.Driver.success).map fun x => x.1.popped.frame).toList
  | _ => []

/-- The frame that a step puts into `rx_ring`. -/
def hearsFrame (u : UsbState) : UsbStep → List Frame
  | .push lock => if u.rxRing.length < rbRxDepth ∧ lock then u.rxHeld.toList else []
  | _ => []

/-- The records of the parts; the frames popped from `tx_ring`, those sent on the bus, and those that
`rx_ring` took; and the batches that were released since the driver had gone away. -/
structure AdapterRecord where
  outRec : OutRecord
  inRec : InRecord
  canRec : CanRecord
  ledger : UsbLedger
  popped : List Frame
  sent : List Frame
  heard : List Frame
  orphaned : List ℕ

/-- Nothing has happened. -/
def AdapterRecord.none : AdapterRecord := ⟨.none, .none, .none, .empty, [], [], [], []⟩

/-- The step releases a batch though the driver has gone away since it was presented. -/
def orphans (d : AdapterState) (l : AdapterStep) (r : InRecord) : List ℕ :=
  match l with
  | .send => if d.released ∧ r.deinited then [d.glue.batchNo] else []
  | _ => []

/-- Keep the record. -/
def adapterRecord (d : AdapterState) (l : AdapterStep) (r : AdapterRecord) : AdapterRecord where
  outRec := System.keep outRecord d.glue (d.glueStep l) r.outRec
  inRec := System.keep inRecord d.glue (d.glueStep l) r.inRec
  canRec := System.keep canRecord d.can (d.canStep l) r.canRec
  ledger := System.keep usbLedger d.usb (d.usbStep l) r.ledger
  popped := r.popped ++ (d.canStep l).elim [] (popsFrame d.can)
  sent := r.sent ++ (d.canStep l).elim [] (sendsFrame d.can)
  heard := r.heard ++ (d.usbStep l).elim [] (hearsFrame d.usb)
  orphaned := r.orphaned ++ orphans d l r.inRec

/-- The condition on the steps: the interface is only opened after it was closed; nothing is posted
between the drain of `s_tx_done` and the acceptance of a copy; no quiesce cycle reuses a number that
an acknowledgement still shows; and no copy is completed between the read of the alerts in a
reconfiguration and the stop of the driver. -/
def Orderly (d : AdapterState) (l : AdapterStep) : Prop :=
  (∀ x ∈ d.glueStep l, OpenAfterReset d.glue x) ∧ ∀ x ∈ d.canStep l, Timely d.can x

instance (d : AdapterState) (l : AdapterStep) : Decidable (Orderly d l) := by
  unfold Orderly; infer_instance

end Adapter

end Espcan32
