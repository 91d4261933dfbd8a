import Espcan32.Bridge.CanPath
import Espcan32.Bridge.Lossless
import Espcan32.Lib.Progress

/-!
# The bus state at the host

`pcan_twai_service_alerts()` turns the alerts of the driver into an error mask, and says whether
there is something to report; `ctrl_service_alerts()` posts the mask to `s_evt_queue`, and
`usb_tx_task` makes a record of it.  A condition that has cleared is reported with no bit set, and
such a mask is not posted.  A mask that has only the bit for lost frames is posted, but the host
does not see from it that a condition has cleared.

* `lastReported` : the state of the bus that the alert words tell, which the host has to derive.
* `ReportInv.step` : the masks that `usb_tx_task` has taken, and the queue, are those posted.
* `ReportInv.drained` : if the endpoint takes what is presented to it, they all get there.
* `delivered_iff` : **the host gets every report, and derives the state that was reported last**,
  exactly if no word that is read hides a cleared condition.
-/

namespace Espcan32

namespace Bridge

open Pcan

/-! ### The alerts -/

/-- The bits of `TWAI_HAL_ALERTS` in an alert word. -/
structure AlertWord where
  rxData : Bool := false
  txSuccess : Bool := false
  txFailed : Bool := false
  rxQueueFull : Bool := false
  rxFifoOverrun : Bool := false
  aboveErrWarn : Bool := false
  belowErrWarn : Bool := false
  errPass : Bool := false
  errActive : Bool := false
  busOff : Bool := false
  busRecovered : Bool := false
  deriving DecidableEq, Repr

/-- `PCAN_USB_ERROR_RXQOVR`. -/
def errorRxqovr : UInt8 := 0x02

/-- `PCAN_USB_ERROR_BUS_LIGHT`. -/
def errorBusLight : UInt8 := 0x04

/-- `PCAN_USB_ERROR_BUS_HEAVY`. -/
def errorBusHeavy : UInt8 := 0x08

/-- `PCAN_USB_ERROR_BUS_OFF`. -/
def errorBusOff : UInt8 := 0x10

/-- `PCAN_USB_ERROR_BUS`. -/
def errorBus : UInt8 := errorBusLight ||| errorBusHeavy ||| errorBusOff

/-- `PCAN_TX_EVENT_*`. -/
inductive PcanTxEvent where
  | none
  | ok
  | fail
  deriving DecidableEq, Repr

/-- What `pcan_twai_service_alerts()` returns and writes, and which calls of the driver it makes. -/
structure AlertReport where
  changed : Bool
  pcanErrMask : UInt8
  txEvent : PcanTxEvent
  initiateRecovery : Bool
  start : Bool
  deriving DecidableEq, Repr

namespace AlertReport

/-- Nothing is reported, and nothing done. -/
def nothing : AlertReport := ⟨false, 0, .none, false, false⟩

/-- The mask that is reported, if a change is. -/
def mask? (report : AlertReport) : Option UInt8 :=
  if report.changed then some report.pcanErrMask else none

end AlertReport

namespace AlertWord

variable (alerts : AlertWord)

/-- The mask of the alerts. -/
def mask : UInt8 :=
  (if alerts.rxQueueFull ∨ alerts.rxFifoOverrun then errorRxqovr else 0) |||
    (if alerts.aboveErrWarn then errorBusLight else 0) |||
    (if alerts.errPass then errorBusHeavy else 0) |||
    (if alerts.busOff then errorBusOff else 0)

/-- The alerts change the state of the bus. -/
def stateChange : Bool :=
  alerts.aboveErrWarn || alerts.errPass || (alerts.belowErrWarn || alerts.errActive) ||
    alerts.busOff || alerts.busRecovered

end AlertWord

/-- `pcan_twai_service_alerts()`, where `read` is the word that `twai_read_alerts()` returns, or
`none` if it fails. -/
def pcanTwaiServiceAlerts (installed : Bool) (read : Option AlertWord) : AlertReport :=
  match installed, read with
  | true, some alerts =>
    if alerts = {} then .nothing
    else
      { changed := alerts.stateChange || decide (alerts.mask ≠ 0)
        pcanErrMask := alerts.mask
        txEvent := if alerts.txFailed then .fail else if alerts.txSuccess then .ok else .none
        initiateRecovery := alerts.busOff
        start := alerts.busRecovered }
  | _, _ => .nothing

/-- `ctrl_service_alerts()`, with what it sends to `s_tx_done`. -/
def UsbState.ctrlServiceAlerts (s : UsbState) (installed : Bool) (read : Option AlertWord) :
    UsbState × List CanTxEvent :=
  let report := pcanTwaiServiceAlerts installed read
  let evtQueue :=
    if report.pcanErrMask ≠ 0 ∧ s.evtQueue.length < evtQueueLen then
      s.evtQueue ++ [report.pcanErrMask]
    else s.evtQueue
  let outcome : List CanTxEvent :=
    match report.txEvent with
    | .none => []
    | .fail => [.fail]
    | .ok => [.ok]
  ({ s with evtQueue := evtQueue },
    outcome ++ if report.pcanErrMask &&& errorBusOff ≠ 0 then [.abort] else [])

/-! ### The system -/

/-- A step: `ctrl_task` services the alerts, or one of the other parties moves. -/
inductive BusStep where
  | alerts (installed : Bool) (read : Option AlertWord)
  | task (l : UsbStep)

/-- One step; nobody but `ctrl_service_alerts()` posts to `s_evt_queue`. -/
def UsbState.busStep (s : UsbState) : BusStep → Option UsbState
  | .alerts installed read => some (s.ctrlServiceAlerts installed read).1
  | .task (.post _) => none
  | .task l => s.step l

/-- The tasks as a system. -/
def busSystem : System UsbState BusStep := .ofFun UsbState.busStep

/-- Keep the ledger of `usb_tx_task`. -/
def busLedger (s : UsbState) (l : BusStep) (g : UsbLedger) : UsbLedger :=
  match l with
  | .alerts _ _ => g
  | .task l => usbLedger s l g

/-- The alerts are read while `s_evt_queue` has room. -/
def HasRoom (s : UsbState) : BusStep → Prop
  | .alerts _ _ => s.evtQueue.length < evtQueueLen
  | .task _ => True

instance (s : UsbState) (l : BusStep) : Decidable (HasRoom s l) := by
  unfold HasRoom
  split <;> infer_instance

/-- The system in which the alerts are read while there is room, with the ledger. -/
def roomySystem : System (UsbState × UsbLedger) BusStep :=
  (busSystem.guard HasRoom).withAux busLedger

/-! ### What is reported, and what the host sees of it -/

/-- The mask that `pcan_twai_service_alerts()` reports, if it reports a change. -/
def BusStep.report : BusStep → Option UInt8
  | .alerts installed read => (pcanTwaiServiceAlerts installed read).mask?
  | .task _ => none

namespace AlertWord

variable (alerts : AlertWord)

/-- The conditions of the bus that the alerts report: the bits of `PCAN_USB_ERROR_BUS`. -/
def conditions : UInt8 :=
  (if alerts.aboveErrWarn then errorBusLight else 0) |||
    (if alerts.errPass then errorBusHeavy else 0) ||| (if alerts.busOff then errorBusOff else 0)

/-- The alerts report that a condition has cleared. -/
def Cleared : Prop :=
  alerts.belowErrWarn = true ∨ alerts.errActive = true ∨ alerts.busRecovered = true

/-- The alerts report that frames were lost. -/
def Overrun : Prop := alerts.rxQueueFull = true ∨ alerts.rxFifoOverrun = true

instance : Decidable alerts.Cleared := by unfold Cleared; infer_instance

instance : Decidable alerts.Overrun := by unfold Overrun; infer_instance

/-- The state of the bus after the alerts: the conditions that they report; none, if they only
report that one has cleared; and otherwise what it was. -/
def stateAfter (st : UInt8) : UInt8 :=
  if alerts.conditions ≠ 0 then alerts.conditions else if alerts.Cleared then 0 else st

/-- The alerts report a cleared condition and no other, in a mask from which the host does not see
it: a mask of zero is not posted, and one for lost frames says nothing about the bus, which matters
while a condition has been reported. -/
def Hides (st : UInt8) : Prop :=
  alerts.Cleared ∧ alerts.conditions = 0 ∧ (alerts.Overrun → st ≠ 0)

instance (st : UInt8) : Decidable (alerts.Hides st) := by unfold Hides; infer_instance

end AlertWord

namespace BusStep

/-- The state of the bus after the step, if it reads alerts. -/
def tells (st : UInt8) : BusStep → UInt8
  | .alerts true (some w) => w.stateAfter st
  | _ => st

/-- The step reads alerts that hide a cleared condition. -/
def Hides (st : UInt8) : BusStep → Prop
  | .alerts true (some w) => w.Hides st
  | _ => False

instance (st : UInt8) : (l : BusStep) → Decidable (l.Hides st)
  | .alerts true (some w) => inferInstanceAs (Decidable (w.Hides st))
  | .alerts true none | .alerts false _ | .task _ => instDecidableFalse

end BusStep

/-- The state of the bus that the controller reported last: what the alert words tell in the order
in which they are read, from an active bus on. -/
def lastReported (ls : List BusStep) : UInt8 := ls.foldl BusStep.tells 0

/-- No step hides a cleared condition; the state of the bus is what the steps before it tell. -/
def NothingHidden : UInt8 → List BusStep → Prop
  | _, [] => True
  | st, l :: ls => ¬l.Hides st ∧ NothingHidden (l.tells st) ls

instance NothingHidden.decidable : (st : UInt8) → (ls : List BusStep) →
    Decidable (NothingHidden st ls)
  | _, [] => instDecidableTrue
  | st, l :: ls => @instDecidableAnd _ _ inferInstance (decidable (l.tells st) ls)

/-- The masks that the host decodes from the flushed batches. -/
def received (out : List (Batch × List Rec)) : List UInt8 :=
  out.flatMap fun x => ((hostDecodeBatch x.1.buf x.1.len).map (·.errMask)).getD []

/-- The mask of an item. -/
def Item.errMask? : Item → Option UInt8
  | .error errMask => some errMask
  | _ => none

/-- The masks on their way to the host: in the batch that is being built, in the hands of
`usb_tx_task`, in the queue. -/
def underway (s : UsbState) (r : UsbRecord) : List UInt8 :=
  r.cur.filterMap Rec.errMask? ++ (s.pc.inHand.filterMap Item.errMask? ++ s.evtQueue)

/-- What the host makes of a mask: no bit at all means that it is active again, and a mask
without a bit of the bus says nothing about it. -/
def busState (st errMask : UInt8) : UInt8 :=
  if errMask = 0 then 0 else if errMask &&& errorBus = 0 then st else errMask &&& errorBus

/-- After the steps `ls`, the reports are at the host or on their way to it, each once and in order;
if `usb_tx_task` goes on alone and the endpoint takes what is presented to it, all of them get there,
and the host derives from them the state that the alert words told last. -/
structure Delivered (s : UsbState) (g : UsbLedger) (ls : List BusStep) : Prop where
  inOrder : received g.record.out ++ underway s g.record = ls.filterMap BusStep.report
  arrive : roomySystem.Leads (.task (.usb true))
    (fun q => received q.2.record.out = ls.filterMap BusStep.report ∧
      (received q.2.record.out).foldl busState 0 = lastReported ls) (s, g)

/-! ### The alert words -/

/-- What is reported of a word; one without an alert needs no case of its own. -/
theorem mask?_read (w : AlertWord) :
    (pcanTwaiServiceAlerts true (some w)).mask? =
      if (w.stateChange || decide (w.mask ≠ 0)) = true then some w.mask else none := by
  by_cases hw : w = {}
  · subst w
    decide
  · rw [pcanTwaiServiceAlerts, if_neg hw]
    rfl

/-- The mask has the bits of the conditions, and that for lost frames. -/
theorem AlertWord.mask_eq (w : AlertWord) :
    w.mask = (if w.Overrun then errorRxqovr else 0) ||| w.conditions := by
  have hassoc (a b c d : UInt8) : a ||| b ||| c ||| d = a ||| (b ||| c ||| d) := by
    rw [UInt8.or_assoc, UInt8.or_assoc, UInt8.or_assoc]
  rw [AlertWord.mask, hassoc]
  rfl

/-- The host takes the conditions out of it. -/
theorem AlertWord.mask_and_errorBus (w : AlertWord) : w.mask &&& errorBus = w.conditions := by
  have hbits : ∀ full overrun warn pass off : Bool,
      ((if full ∨ overrun then errorRxqovr else 0) ||| (if warn then errorBusLight else 0) |||
        (if pass then errorBusHeavy else 0) ||| (if off then errorBusOff else 0)) &&& errorBus =
        (if warn then errorBusLight else 0) ||| (if pass then errorBusHeavy else 0) |||
          (if off then errorBusOff else 0) := by
    decide
  exact hbits ..

/-- A change is reported if there is a condition, or one has cleared. -/
theorem AlertWord.stateChange_iff (w : AlertWord) :
    w.stateChange = true ↔ w.conditions ≠ 0 ∨ w.Cleared := by
  have hbits : ∀ warn pass off : Bool,
      (if warn then errorBusLight else 0) ||| (if pass then errorBusHeavy else 0) |||
        (if off then errorBusOff else 0) ≠ 0 ↔ warn = true ∨ pass = true ∨ off = true := by
    decide
  rw [AlertWord.conditions, hbits, AlertWord.Cleared, AlertWord.stateChange]
  simp only [Bool.or_eq_true]
  tauto

/-- What the host makes of the report of a word. -/
theorem host_of_word (w : AlertWord) (st : UInt8) :
    (¬w.Hides st → (BusStep.alerts true (some w)).report ≠ some 0 ∧
      (BusStep.alerts true (some w)).report.toList.foldl busState st = w.stateAfter st) ∧
    (w.Hides st → (BusStep.alerts true (some w)).report = some 0 ∨
      (BusStep.alerts true (some w)).report.toList.foldl busState st ≠ w.stateAfter st) := by
  have hreport : (BusStep.alerts true (some w)).report =
      if w.conditions ≠ 0 ∨ w.Cleared ∨ w.mask ≠ 0 then some w.mask else none := by
    rw [BusStep.report, mask?_read]
    refine if_congr ?_ rfl rfl
    rw [Bool.or_eq_true, w.stateChange_iff, decide_eq_true_iff, or_assoc]
  rw [hreport, AlertWord.stateAfter, AlertWord.Hides]
  by_cases hcond : w.conditions = 0
  · have hmask : w.mask = if w.Overrun then errorRxqovr else 0 := by
      rw [w.mask_eq, hcond, UInt8.or_zero]
    have hover (h : w.Overrun) : w.mask ≠ 0 ∧ busState st w.mask = st := by
      have hne : errorRxqovr ≠ 0 := by decide
      have hbus : errorRxqovr &&& errorBus = 0 := by decide
      rw [hmask, if_pos h, busState, if_neg hne, if_pos hbus]
      exact ⟨hne, rfl⟩
    by_cases hclear : w.Cleared <;> by_cases h : w.Overrun
    · -- the host keeps what it has
      obtain ⟨hne, hst⟩ := hover h
      simp [hcond, hclear, h, hne, hst]
    · simp [hcond, hclear, h, hmask]
    · obtain ⟨hne, hst⟩ := hover h
      simp [hcond, hclear, hne, hst]
    · simp [hcond, hclear, h, hmask]
  · have hmask : w.mask ≠ 0 := by
      intro hzero
      have hand := w.mask_and_errorBus
      rw [hzero] at hand
      exact hcond (hand.symm.trans UInt8.zero_and)
    simp [hcond, hmask, busState, w.mask_and_errorBus]

/-- A mask that is not zero is reported. -/
theorem changed_of_mask {installed : Bool} {read : Option AlertWord}
    (h : (pcanTwaiServiceAlerts installed read).pcanErrMask ≠ 0) :
    (pcanTwaiServiceAlerts installed read).changed = true := by
  unfold pcanTwaiServiceAlerts at h ⊢
  split at h
  · split at h
    · exact absurd rfl h
    · rename_i hw
      rw [if_neg hw]
      exact Bool.or_eq_true_iff.2 (.inr (decide_eq_true h))
  · exact absurd rfl h

/-- What is posted is what is reported, unless it is zero. -/
theorem ctrlServiceAlerts_eq {s : UsbState} {installed : Bool} {read : Option AlertWord}
    (hroom : s.evtQueue.length < evtQueueLen) :
    (s.ctrlServiceAlerts installed read).1 =
      { s with
        evtQueue := s.evtQueue ++
          (BusStep.alerts installed read).report.toList.filter (· ≠ 0) } := by
  rw [BusStep.report, AlertReport.mask?, UsbState.ctrlServiceAlerts]
  by_cases hmask : (pcanTwaiServiceAlerts installed read).pcanErrMask = 0
  · rw [if_neg fun h => h.1 hmask, hmask]
    split <;> simp
  · rw [if_pos ⟨hmask, hroom⟩, if_pos (changed_of_mask hmask)]
    simp [hmask]

/-! ### What the host decodes -/

theorem errMask?_itemOf (r : Rec) : (itemOf r).errMask? = r.errMask? := by
  cases r <;> rfl

/-- The masks of a flushed batch reach the host. -/
theorem decoded_masks {b : Batch} {recs : List Rec} (hp : b.Packs recs) :
    ((hostDecodeBatch b.buf b.len).map (·.errMask)).getD [] = recs.filterMap Rec.errMask? := by
  by_cases hne : recs = []
  · subst hne
    have hlen : b.len = 2 := hp.len
    rw [hostDecodeBatch, hlen]
    rfl
  · obtain ⟨mc, hmc, -, -, -, hmask⟩ := hostDecodeBatch_packs hp hne
    rw [hmc, Option.map_some, Option.getD_some, hmask]

theorem received_eq {out : List (Batch × List Rec)} (hp : ∀ x ∈ out, x.1.Packs x.2) :
    received out = (out.flatMap Prod.snd).filterMap Rec.errMask? := by
  induction out with
  | nil => rfl
  | cons x out ih =>
    obtain ⟨hx, hout⟩ := List.forall_mem_cons.1 hp
    rw [List.flatMap_cons, List.filterMap_append, ← ih hout, ← decoded_masks hx]
    rfl

/-! ### The invariant -/

/-- What `usb_tx_task` takes from the queue of masks is its head. -/
theorem takes_masks {s s' : UsbState} {l : UsbStep} (hpost : ∀ m, l ≠ .post m)
    (hst : s.step l = some s') :
    (takes s l).filterMap Item.errMask? ++ s'.evtQueue = s.evtQueue := by
  cases l with
  | clock d => obtain rfl := Option.some.inj hst; rfl
  | receive m =>
    rw [UsbState.step] at hst
    split at hst
    · obtain rfl := Option.some.inj hst; rfl
    · cases hst
  | push lock =>
    rw [UsbState.step] at hst
    split at hst
    · cases hst
    · obtain rfl := Option.some.inj hst; rfl
  | post m => exact absurd rfl (hpost m)
  | usb accepted =>
    obtain rfl := Option.some.inj hst
    cases hpc : s.pc with
    | add i retry next =>
      cases hadd : (s.b.add (i.record s.us)).2 <;> cases retry <;>
        simp [takes, UsbState.usbTxTask, hpc, hadd]
    | flush next =>
      by_cases hcnt : s.b.recCnt = 0 <;> cases accepted <;>
        simp [takes, UsbState.usbTxTask, hpc, hcnt]
    | top => cases hr : s.rxRing <;> simp [takes, UsbState.usbTxTask, hpc, hr, Item.errMask?]
    | drain n =>
      by_cases hn : n < usbtxMaxDrain <;> cases hr : s.rxRing <;>
        simp [takes, UsbState.usbTxTask, hpc, hn, hr, Item.errMask?]
    | calib =>
      by_cases hdue : tsCalibPeriodMs * 1000 ≤ s.us - s.lastCalibUs <;>
        simp [takes, UsbState.usbTxTask, hpc, hdue, Item.errMask?]
    | calibDone => simp [takes, UsbState.usbTxTask, hpc]
    | events => cases hq : s.evtQueue <;> simp [takes, UsbState.usbTxTask, hpc, hq, Item.errMask?]

/-- What holds between steps: the masks that `usb_tx_task` has taken, and behind them the queue, are
the reports, without those of a cleared condition alone. -/
structure ReportInv (s : UsbState) (g : UsbLedger) (reports : List UInt8) : Prop where
  ledger : LedgerInv s g
  masks : g.taken.filterMap Item.errMask? ++ s.evtQueue = reports.filter (· ≠ 0)

namespace ReportInv

variable {s s' : UsbState} {g : UsbLedger} {reports : List UInt8}

theorem of_init (us : ℕ) (b : Batch) : ReportInv (.init us b) .empty [] where
  ledger := .of_init us b
  masks := rfl

/-- A step of a task other than `ctrl_task`. -/
theorem task (hi : ReportInv s g reports) {l : UsbStep} (hpost : ∀ m, l ≠ .post m)
    (hst : s.step l = some s') : ReportInv s' (usbLedger s l g) reports where
  ledger := hi.ledger.step hst
  masks := by
    rw [← hi.masks, ← takes_masks hpost hst, ← List.append_assoc, ← List.filterMap_append]
    rfl

/-- One step. -/
theorem step (hi : ReportInv s g reports) {l : BusStep} (hroom : HasRoom s l)
    (hst : s.busStep l = some s') :
    ReportInv s' (busLedger s l g) (reports ++ l.report.toList) := by
  cases l with
  | alerts installed read =>
    obtain rfl := Option.some.inj hst
    rw [ctrlServiceAlerts_eq hroom]
    refine ⟨{ hi.ledger with }, ?_⟩
    rw [List.filter_append, ← hi.masks, List.append_assoc]
    rfl
  | task l =>
    rw [BusStep.report, Option.toList_none, List.append_nil]
    cases l with
    | post m => cases hst
    | clock | receive | push | usb => exact hi.task (by simp) hst

/-- The masks at the host and on their way to it are the reports, without those of a cleared
condition alone. -/
theorem received (hi : ReportInv s g reports) :
    received g.record.out ++ underway s g.record = reports.filter (· ≠ 0) := by
  rw [← hi.masks, ← hi.ledger.account, received_eq fun x hx => (hi.ledger.out x hx).1, underway]
  simp [List.filterMap_append, List.filterMap_map, errMask?_itemOf]

/-- A run adds its reports. -/
theorem run {p q : UsbState × UsbLedger} {ls : List BusStep} (hi : ReportInv p.1 p.2 reports)
    (hrun : roomySystem.Run p ls q) :
    ReportInv q.1 q.2 (reports ++ ls.filterMap BusStep.report) := by
  induction hrun with
  | nil => rwa [List.filterMap_nil, List.append_nil]
  | snoc _ hst ih =>
    obtain ⟨⟨hroom, hst⟩, hg⟩ := hst
    have hi' := ih.step hroom hst
    rw [← hg, List.append_assoc] at hi'
    rwa [List.filterMap_append, List.filterMap_eq_flatMap_toList _ [_], List.flatMap_singleton]

end ReportInv

/-! ### Everything gets to the host -/

/-- Going on alone, `usb_tx_task` comes to a state with `P`. -/
def Comes (P : UsbState → Prop) (s : UsbState) : Prop :=
  ∀ g, roomySystem.Leads (.task (.usb true)) (fun q => P q.1) (s, g)

section Comes

variable {P Q : UsbState → Prop} {s s' : UsbState} {next : UsbPc}

theorem Comes.now (h : P s) : Comes P s := fun _ => .now h

theorem Comes.step (hst : s.usbTxTask true = s') (h : Comes P s') : Comes P s := by
  intro g
  have hone : roomySystem.step (s, g) (.task (.usb true)) (s', usbLedger s (.usb true) g) :=
    ⟨⟨trivial, congrArg some hst⟩, rfl⟩
  exact .step hone (h _)

theorem Comes.bind (h : Comes P s) (h' : ∀ s', P s' → Comes Q s') : Comes Q s :=
  fun g => (h g).bind fun q hP => h' q.1 hP q.2

/-- Two states that differ in the batch, and in the place of `usb_tx_task`, which is `next`. -/
def Passed (s : UsbState) (next : UsbPc) (s' : UsbState) : Prop :=
  s' = { s with b := s'.b, pc := next }

/-- The task gets through a flush. -/
theorem comes_flush (hpc : s.pc = .flush next) : Comes (Passed s next) s := by
  refine .step rfl (.now ?_)
  by_cases hcnt : s.b.recCnt = 0 <;> simp [Passed, UsbState.usbTxTask, hpc, hcnt]

/-- A second try is the last. -/
theorem comes_tried {i : Item} (hpc : s.pc = .add i false next) : Comes (Passed s next) s := by
  refine .step rfl (.now ?_)
  cases hadd : (s.b.add (i.record s.us)).2 <;> simp [Passed, UsbState.usbTxTask, hpc, hadd]

/-- The task gets past an item. -/
theorem comes_add {i : Item} {retry : Bool} (hpc : s.pc = .add i retry next) :
    Comes (Passed s next) s := by
  cases retry with
  | false => exact comes_tried hpc
  | true =>
    cases hadd : (s.b.add (i.record s.us)).2 with
    | true => exact .step rfl (.now (by simp [Passed, UsbState.usbTxTask, hpc, hadd]))
    -- the item comes again behind a flush
    | false =>
      have hst : s.usbTxTask true = { s with pc := .flush (.add i false next) } := by
        simp [UsbState.usbTxTask, hpc, hadd]
      refine .step hst ((comes_flush rfl).bind fun s₁ h₁ => ?_)
      exact (comes_tried (congrArg UsbState.pc h₁)).bind fun s₂ h₂ =>
        .now (h₂.trans (by rw [h₁]))

/-- The task is in the loop over the bus errors. -/
def AtEvents (s : UsbState) : Prop := s.pc = .events

/-- From the calibration check, the task comes to the bus errors. -/
theorem comes_calib (hpc : s.pc = .calib) : Comes AtEvents s := by
  by_cases hdue : tsCalibPeriodMs * 1000 ≤ s.us - s.lastCalibUs
  · have hst : s.usbTxTask true =
        { s with pc := .flush (.add .calib false (.flush .calibDone)) } := by
      simp [UsbState.usbTxTask, hpc, hdue]
    refine .step hst ((comes_flush rfl).bind fun s₁ h₁ => ?_)
    refine (comes_add (congrArg UsbState.pc h₁)).bind fun s₂ h₂ => ?_
    refine (comes_flush (congrArg UsbState.pc h₂)).bind fun s₃ h₃ => ?_
    have hpc₃ : s₃.pc = .calibDone := congrArg UsbState.pc h₃
    exact .step rfl (.now (by simp [AtEvents, UsbState.usbTxTask, hpc₃]))
  · exact .step rfl (.now (by simp [AtEvents, UsbState.usbTxTask, hpc, hdue]))

/-- From the coalescing loop, whatever the ring holds. -/
theorem comes_drain {n : ℕ} (hpc : s.pc = .drain n) : Comes AtEvents s := by
  generalize hring : s.rxRing = ring
  induction ring generalizing s n with
  | nil =>
    have hst : s.usbTxTask true = { s with pc := .calib } := by
      simp [UsbState.usbTxTask, hpc, hring]
    exact .step hst (comes_calib rfl)
  | cons f ring ih =>
    by_cases hn : n < usbtxMaxDrain
    · have hst : s.usbTxTask true =
          { s with rxRing := ring, pc := .add (.frame f) true (.drain (n + 1)) } := by
        simp [UsbState.usbTxTask, hpc, hring, hn]
      exact .step hst ((comes_add rfl).bind fun s₁ h₁ =>
        ih (congrArg UsbState.pc h₁) (congrArg UsbState.rxRing h₁))
    · have hst : s.usbTxTask true = { s with pc := .calib } := by
        simp [UsbState.usbTxTask, hpc, hn]
      exact .step hst (comes_calib rfl)

/-- From wherever it is. -/
theorem comes_events (s : UsbState) : Comes AtEvents s := by
  generalize hpc : s.pc = pc
  induction pc generalizing s with
  | events => exact .now hpc
  | calib => exact comes_calib hpc
  | drain n => exact comes_drain hpc
  | calibDone => exact .step rfl (.now (by simp [AtEvents, UsbState.usbTxTask, hpc]))
  | add i retry next ih =>
    exact (comes_add hpc).bind fun s₁ h₁ => ih s₁ (congrArg UsbState.pc h₁)
  | flush next ih =>
    exact (comes_flush hpc).bind fun s₁ h₁ => ih s₁ (congrArg UsbState.pc h₁)
  | top =>
    cases hring : s.rxRing with
    | nil =>
      have hst : s.usbTxTask true = { s with pc := .calib } := by
        simp [UsbState.usbTxTask, hpc, hring]
      exact .step hst (comes_calib rfl)
    | cons f ring =>
      have hst : s.usbTxTask true =
          { s with rxRing := ring, pc := .add (.frame f) true (.drain 0) } := by
        simp [UsbState.usbTxTask, hpc, hring]
      exact .step hst ((comes_add rfl).bind fun s₁ h₁ => comes_drain (congrArg UsbState.pc h₁))

/-- The head of the loop, with the queue empty. -/
def AtRest (s : UsbState) : Prop := s.pc = .top ∧ s.evtQueue = []

/-- The loop over the bus errors empties the queue, and the task flushes what it has. -/
theorem comes_rest (h : AtEvents s) : Comes AtRest s := by
  generalize hq : s.evtQueue = queue
  induction queue generalizing s with
  | nil =>
    have hst : s.usbTxTask true = { s with pc := .flush .top } := by
      simp [UsbState.usbTxTask, show s.pc = .events from h, hq]
    refine .step hst ((comes_flush rfl).bind fun s₁ h₁ => .now ⟨congrArg UsbState.pc h₁, ?_⟩)
    exact (congrArg UsbState.evtQueue h₁).trans hq
  | cons m queue ih =>
    have hst : s.usbTxTask true =
        { s with evtQueue := queue, pc := .add (.error m) true .events } := by
      simp [UsbState.usbTxTask, show s.pc = .events from h, hq]
    exact .step hst ((comes_add rfl).bind fun s₁ h₁ =>
      ih (congrArg UsbState.pc h₁) (congrArg UsbState.evtQueue h₁))

end Comes

/-- Going on alone, `usb_tx_task` brings everything to the host. -/
theorem ReportInv.drained {s : UsbState} {g : UsbLedger} {reports : List UInt8}
    (hi : ReportInv s g reports) :
    roomySystem.Leads (.task (.usb true))
      (fun q => Bridge.received q.2.record.out = reports.filter (· ≠ 0)) (s, g) := by
  obtain ⟨n, q, hrun, hpc, hempty⟩ := (comes_events s).bind (fun s' h' => comes_rest h') g
  refine ⟨n, q, hrun, ?_⟩
  have hi' := hi.run hrun
  rw [List.filterMap_replicate_of_none rfl, List.append_nil] at hi'
  -- at the head of the loop the batch is empty
  have hcur : q.2.record.cur = [] := by
    have hplace := hi'.ledger.place
    rw [hpc] at hplace
    exact hplace
  rw [← hi'.received, underway, hcur, hpc, hempty]
  simp [UsbPc.inHand]

/-! ### Runs -/

/-- Whether the reports are delivered is a matter of the steps only. -/
theorem ReportInv.delivered_iff_masks {s : UsbState} {g : UsbLedger} {ls : List BusStep}
    (hi : ReportInv s g (ls.filterMap BusStep.report)) :
    Delivered s g ls ↔ 0 ∉ ls.filterMap BusStep.report ∧
      (ls.filterMap BusStep.report).foldl busState 0 = lastReported ls := by
  have hzero : 0 ∉ ls.filterMap BusStep.report ↔
      (ls.filterMap BusStep.report).filter (· ≠ 0) = ls.filterMap BusStep.report := by
    rw [List.filter_eq_self]
    constructor
    · intro h m hm
      exact decide_eq_true fun h0 => h (h0 ▸ hm)
    · intro h h0
      exact of_decide_eq_true (h 0 h0) rfl
  rw [hzero]
  constructor
  · intro h
    obtain ⟨n, q, -, hout, hstate⟩ := h.arrive
    rw [← hi.received]
    exact ⟨h.inOrder, hout ▸ hstate⟩
  · rintro ⟨h, hstate⟩
    refine ⟨hi.received.trans h, hi.drained.bind fun q hout => .now ?_⟩
    rw [hout, h]
    exact ⟨rfl, hstate⟩

/-- What the host makes of the report of a step. -/
theorem host_of_step (l : BusStep) (st : UInt8) :
    (¬l.Hides st → l.report ≠ some 0 ∧ l.report.toList.foldl busState st = l.tells st) ∧
      (l.Hides st → l.report = some 0 ∨ l.report.toList.foldl busState st ≠ l.tells st) := by
  match l with
  | .alerts true (some w) => exact host_of_word w st
  | .task _ | .alerts false _ | .alerts true none =>
    refine ⟨fun _ => ⟨?_, rfl⟩, False.elim⟩
    intro hno
    cases hno

/-- Behind every step there is a report for every change, and the host has the state that was told
last, exactly if nothing is hidden. -/
theorem prefixes_iff (st : UInt8) (ls : List BusStep) :
    (∀ ls₁, ls₁ <+: ls → 0 ∉ ls₁.filterMap BusStep.report ∧
        (ls₁.filterMap BusStep.report).foldl busState st = ls₁.foldl BusStep.tells st) ↔
      NothingHidden st ls := by
  induction ls generalizing st with
  | nil =>
    refine iff_of_true (fun ls₁ h => ?_) trivial
    rw [List.prefix_nil.1 h]
    exact ⟨List.not_mem_nil, rfl⟩
  | cons l ls ih =>
    obtain ⟨hshow, hhide⟩ := host_of_step l st
    have hcons (ls₁ : List BusStep) :
        (l :: ls₁).filterMap BusStep.report = l.report.toList ++ ls₁.filterMap BusStep.report := by
      cases h : l.report <;> simp [h]
    rw [NothingHidden]
    constructor
    · intro h
      have hl : ¬l.Hides st := by
        intro hl
        obtain ⟨hzero, hstate⟩ := h [l] (List.prefix_append [l] ls)
        rw [hcons, List.filterMap_nil, List.append_nil] at hzero hstate
        rcases hhide hl with hrep | hne
        · rw [hrep] at hzero
          exact hzero (List.mem_singleton.2 rfl)
        · exact hne hstate
      refine ⟨hl, (ih _).1 fun ls₁ hls => ?_⟩
      obtain ⟨hzero, hstate⟩ := h (l :: ls₁) (List.cons_prefix_cons.2 ⟨rfl, hls⟩)
      rw [hcons, List.foldl_append, (hshow hl).2] at hstate
      rw [hcons, List.mem_append, not_or] at hzero
      exact ⟨hzero.2, hstate⟩
    · rintro ⟨hl, hrest⟩ ls₁ hls
      cases ls₁ with
      | nil => exact ⟨List.not_mem_nil, rfl⟩
      | cons l' ls₁ =>
        obtain ⟨rfl, hls'⟩ := List.cons_prefix_cons.1 hls
        obtain ⟨hzero, hstate⟩ := (ih _).2 hrest ls₁ hls'
        obtain ⟨hrep, hstep⟩ := hshow hl
        rw [hcons, List.foldl_append, hstep, List.mem_append, not_or, Option.mem_toList]
        exact ⟨⟨hrep, hzero⟩, hstate⟩

/-- **The host gets every report, and derives the state that was reported last**, after every step of
a run in which the alerts are read while `s_evt_queue` has room, exactly if no alert word is read
that hides a cleared condition. -/
theorem delivered_iff {us : ℕ} {b : Batch} {ls : List BusStep} {p : UsbState × UsbLedger}
    (hrun : roomySystem.Run (.init us b, .empty) ls p) :
    (∀ ls₁ q, ls₁ <+: ls → roomySystem.Run (.init us b, .empty) ls₁ q → Delivered q.1 q.2 ls₁) ↔
      NothingHidden 0 ls := by
  have hdelivered {ls₁ : List BusStep} {q : UsbState × UsbLedger}
      (h : roomySystem.Run (.init us b, .empty) ls₁ q) :
      Delivered q.1 q.2 ls₁ ↔ 0 ∉ ls₁.filterMap BusStep.report ∧
        (ls₁.filterMap BusStep.report).foldl busState 0 = ls₁.foldl BusStep.tells 0 := by
    have hi := (ReportInv.of_init us b).run h
    rw [List.nil_append] at hi
    exact hi.delivered_iff_masks
  rw [← prefixes_iff]
  constructor
  · rintro h ls₁ ⟨ls₂, rfl⟩
    obtain ⟨q, hrun₁, -⟩ := hrun.split
    exact (hdelivered hrun₁).1 (h ls₁ q (List.prefix_append ..) hrun₁)
  · intro h ls₁ q hls hrun₁
    exact (hdelivered hrun₁).2 (h ls₁ hls)

/-- The alerts say that the error counters have passed the warning limit, and are reported. -/
def warned : List BusStep :=
  .alerts true (some { aboveErrWarn := true }) :: List.replicate 6 (.task (.usb true))

/-- Then they say that the counters are below the limit again. -/
def warnedAndCleared : List BusStep :=
  warned ++ .alerts true (some { belowErrWarn := true }) :: List.replicate 6 (.task (.usb true))

/-- A run of the system. -/
def busRun (ls : List BusStep) : Option (UsbState × UsbLedger) :=
  System.exec UsbState.busStep HasRoom busLedger
    (.init 0 ⟨fun _ => 0, 0, 0, ⟨true, 0⟩⟩, .empty) ls

theorem delivered_iff_warned :
    ∃ p, busRun warned = some p ∧ received p.2.record.out = [errorBusLight] ∧
      Delivered p.1 p.2 warned := by
  have hout : (busRun warned).map (fun p => received p.2.record.out) = some [errorBusLight] := by
    decide +kernel
  obtain ⟨p, h, hout⟩ := Option.map_eq_some_iff.1 hout
  have hrun := System.Run.of_exec h
  exact ⟨p, h, hout, (delivered_iff hrun).2 (by decide) warned p (List.prefix_refl _) hrun⟩

theorem cleared_lost :
    ¬ ∀ (us : ℕ) (b : Batch) (ls : List BusStep) (s : UsbState) (g : UsbLedger),
      roomySystem.Run (.init us b, .empty) ls (s, g) → Delivered s g ls := by
  intro hall
  have hlost : (busRun warnedAndCleared).map (fun p =>
      (received p.2.record.out, underway p.1 p.2.record)) = some ([errorBusLight], []) := by
    decide +kernel
  obtain ⟨⟨s, g⟩, h, hlost⟩ := Option.map_eq_some_iff.1 hlost
  obtain ⟨hout, hway⟩ := Prod.mk.inj hlost
  have hall := (hall 0 _ _ s g (System.Run.of_exec h)).inOrder
  rw [hout, hway] at hall
  exact absurd hall (by decide)

/-- Beside lost frames, a cleared condition is reported, but the host keeps what it has. -/
example : lastReported [.alerts true (some { aboveErrWarn := true }),
      .alerts true (some { belowErrWarn := true, rxQueueFull := true })] = 0 ∧
    [errorBusLight, errorRxqovr].foldl busState 0 = errorBusLight := by
  decide

end Bridge

end Espcan32
