import Espcan32.Lib.System
import Espcan32.Pcan.Decode

/-!
# The USB glue

`usb_glue.c` runs in two tasks.  TinyUSB's task calls the callbacks of the class driver and the
deferred functions, one at a time; `usb_tx_task` presents EP2-IN batches and calls
`usb_glue_service()`.  A step is one critical section, one call of the stack, or one access of
`s_itf_open` outside a critical section.

The stack is seen through its calls.  `usbd_defer_func()` may drop a request, and a deferred
function may run again; `usbd_edpt_xfer()` may refuse a transfer.  A transfer lasts until its
completion has been handled, or until the endpoint is reset or opened again.

* `GlueState.send`, `GlueState.service` : the calls of `usb_tx_task`.
* `GlueState.go` : the steps of the functions that run in TinyUSB's task.
* `glueSystem` : both tasks, the stack and the bus as a system.
-/

namespace Espcan32

namespace Usb

open Pcan

/-- `PCAN_TX_MAX_FRAMES_PER_BATCH`. -/
def txMaxFramesPerBatch : ℕ := 32

/-- `msg_in_state_t`. -/
inductive MsgInState where
  | idle
  | queued
  | submitted
  | complete
  | retry
  | dropped
  deriving DecidableEq, Repr

/-- The functions handed to `usbd_defer_func()`. -/
inductive Deferred where
  | msgIn
  | msgOut
  | cmdOut
  deriving DecidableEq, Repr

/-- A transfer on EP 0x82: the bytes, the number of the batch they were taken from, and whether it
went through, once the bus has decided. -/
structure InTransfer where
  batch : ℕ
  bytes : List UInt8
  done : Option Bool
  deriving DecidableEq, Repr

/-- Where TinyUSB's task is; the deferred functions carry their generation. -/
inductive TaskPc where
  | idle
  /-- In `usb_glue_msg_in_deferred()`. -/
  | inStart (gen : UInt32)
  | inXfer (gen : UInt32) (len : ℕ)
  | inCommit (gen : UInt32) (submitted : Bool)
  /-- In `usb_glue_msg_out_deferred()`. -/
  | outLoop (gen : UInt32)
  | outPush (gen : UInt32) (f : Frame)
  | outNext (gen : UInt32)
  | outXfer (gen : UInt32)
  | outCommit (gen : UInt32) (armed : Bool)
  /-- In `usb_glue_cmd_out_deferred()`. -/
  | cmdStart (gen : UInt32)
  | cmdXfer (gen : UInt32)
  | cmdCommit (gen : UInt32) (armed : Bool)
  /-- In `pcan_drv_xfer_cb()`. -/
  | doneCmd
  | doneCmdFlag
  | doneMsg (frames : List Frame)
  | doneMsgFlag
  | doneIn (success : Bool)
  /-- In `pcan_drv_reset()`, `pcan_drv_deinit()` and `pcan_drv_open()`, with `s_itf_open` set. -/
  | resetLocked
  | deinitLocked
  | openLocked
  | openCmd
  | openCmdFlag
  | openMsg
  | openMsgFlag
  deriving DecidableEq, Repr

/-- Where `usb_tx_task` is: about to hand a function to `usbd_defer_func()`, or not. -/
inductive CallerPc where
  | idle
  | deferIn (gen : UInt32)
  | deferCmd (gen : UInt32) (msg : Bool)
  | deferMsg (gen : UInt32)
  deriving DecidableEq, Repr

/-- The statics of `usb_glue.c`, the deferred calls and transfers that the stack holds, and the
places of the tasks.  `pending` holds the first `s_msg_pending_count` frames; `batch` is what
`usb_tx_task` presents, numbered by `batchNo`, and `inBatch` the number of what it was when it was
copied. -/
structure GlueState where
  itfOpen : Bool
  gen : UInt32
  msgInState : MsgInState
  msgInLen : ℕ
  msgInGen : UInt32
  msgIn : List UInt8
  inBatch : ℕ
  pending : List Frame
  index : ℕ
  msgRearm : Bool
  cmdRearm : Bool
  resetDrops : UInt32
  calls : List (Deferred × UInt32)
  cmdArmed : ℕ
  msgArmed : ℕ
  inFlight : Option InTransfer
  task : TaskPc
  caller : CallerPc
  batch : Option (List UInt8)
  batchNo : ℕ

/-- A step.  `usb_tx_task` has a new batch to present, calls `usb_glue_send_msg_batch()` or
`usb_glue_service()`, or gets to `usbd_defer_func()`, which keeps the request or not.  The stack
runs a deferred function, once or once more, or calls back: a transfer is complete, the bus is
reset, the driver goes away, the interface is opened.  The function that runs in its task goes on,
and `ok` is the answer of the call it makes.  The bus decides the EP 0x82 transfer. -/
inductive GlueStep where
  | present (buf : List UInt8)
  | send
  | service
  | defer (kept : Bool)
  | takeStats
  | run (fn : Deferred) (gen : UInt32) (again : Bool)
  | completeCmd
  | completeMsg (success : Bool) (data : List UInt8)
  | completeIn
  | reset
  | deinit
  | openItf
  | go (ok : Bool)
  | wire (success : Bool)
  deriving DecidableEq, Repr

/-- The steps of `usb_tx_task`. -/
def GlueStep.Caller : GlueStep → Prop
  | .present _ | .send | .service | .defer _ => True
  | _ => False

namespace GlueState

variable (s : GlueState)

/-! ### The calls of `usb_tx_task` -/

/-- The critical section of `usb_glue_send_msg_batch()`: the state, whether the batch is finished,
and the generation to defer the submission with. -/
def sendMsgBatch (buf : List UInt8) : GlueState × Bool × Option UInt32 :=
  if buf.length = 0 ∨ usbTxBufferSize < buf.length then (s, false, none)
  else
    match s.msgInState with
    | .complete | .dropped =>
      if buf.length = s.msgInLen then ({ s with msgInState := .idle, msgInLen := 0 }, true, none)
      else (s, false, none)
    | .idle =>
      if s.itfOpen then
        ({ s with
          msgIn := buf
          inBatch := s.batchNo
          msgInLen := buf.length
          msgInGen := s.gen
          msgInState := .queued }, false, some s.gen)
      else (s, false, none)
    | .retry =>
      -- the copy that is retained is sent again; the batch of the caller is not read
      if s.itfOpen ∧ s.msgInGen = s.gen then ({ s with msgInState := .queued }, false, some s.gen)
      else (s, false, none)
    | .queued | .submitted => (s, false, none)

/-- A call of `usb_glue_send_msg_batch()` with the batch that is presented. -/
def send : Option GlueState :=
  match s.caller, s.batch with
  | .idle, some buf =>
    match s.sendMsgBatch buf with
    | (s', true, _) => some { s' with batch := none, batchNo := s.batchNo + 1 }
    | (s', false, some gen) => some { s' with caller := .deferIn gen }
    | (s', false, none) => some s'
  | _, _ => none

/-- The critical section of `usb_glue_service()`: which functions to defer. -/
def serviceFlags : Bool × Bool := (s.itfOpen && s.cmdRearm, s.itfOpen && s.msgRearm)

/-- A call of `usb_glue_service()`. -/
def service : Option GlueState :=
  match s.caller, s.serviceFlags with
  | .idle, (true, msg) => some { s with caller := .deferCmd s.gen msg }
  | .idle, (false, true) => some { s with caller := .deferMsg s.gen }
  | .idle, (false, false) => some s
  | _, _ => none

/-- `usbd_defer_func()`. -/
def deferFunc (fn : Deferred) (gen : UInt32) (kept : Bool) : GlueState :=
  if kept then { s with calls := s.calls ++ [(fn, gen)] } else s

/-- `usb_tx_task` gets to `usbd_defer_func()`. -/
def defer (kept : Bool) : Option GlueState :=
  match s.caller with
  | .idle => none
  | .deferIn gen => some { s.deferFunc .msgIn gen kept with caller := .idle }
  | .deferCmd gen msg =>
    some { s.deferFunc .cmdOut gen kept with caller := if msg then .deferMsg gen else .idle }
  | .deferMsg gen => some { s.deferFunc .msgOut gen kept with caller := .idle }

/-! ### The functions in TinyUSB's task -/

/-- The start of a deferred function. -/
def start : Deferred → UInt32 → TaskPc
  | .msgIn, gen => .inStart gen
  | .msgOut, gen => .outLoop gen
  | .cmdOut, gen => .cmdStart gen

/-- What the callbacks `reset`, `deinit` and `open` clear under the lock. -/
def clearOut : GlueState :=
  { s with gen := s.gen + 1, pending := [], index := 0, msgRearm := false, cmdRearm := false }

/-- Count the frames that were not pushed. -/
def countDrops : GlueState :=
  { s with resetDrops := s.resetDrops + UInt32.ofNat (s.pending.length - s.index) }

/-- The batch is retained for a submission to come. -/
def retained : Bool :=
  match s.msgInState with
  | .queued | .submitted | .retry => true
  | .idle | .complete | .dropped => false

/-- The next step of the function in TinyUSB's task. -/
def go (ok : Bool) : GlueState :=
  match s.task with
  | .idle => s
  | .inStart gen =>
    if s.itfOpen ∧ gen = s.gen ∧ s.msgInState = .queued ∧ s.msgInGen = gen ∧ s.msgInLen ≠ 0 then
      { s with task := .inXfer gen s.msgInLen }
    else { s with task := .idle }
  | .inXfer gen len =>
    if ok ∧ s.inFlight = none then
      { s with
        inFlight := some ⟨s.inBatch, s.msgIn.take len, none⟩
        task := .inCommit gen true }
    else { s with task := .inCommit gen false }
  | .inCommit gen submitted =>
    -- a reset in between has taken the batch back
    if gen = s.gen ∧ s.msgInState = .queued ∧ s.msgInGen = gen then
      { s with msgInState := if submitted then .submitted else .retry, task := .idle }
    else { s with task := .idle }
  | .outLoop gen =>
    if s.itfOpen = false ∨ gen ≠ s.gen ∨ s.msgRearm = false then { s with task := .idle }
    else
      match s.pending[s.index]? with
      | some f => { s with task := .outPush gen f }
      | none => { s with task := .outXfer gen }
  | .outPush gen _ => if ok then { s with task := .outNext gen } else { s with task := .idle }
  | .outNext gen =>
    -- the transfer that the frame came from may be gone by now
    if gen = s.gen ∧ s.index < s.pending.length then
      if s.pending.length ≤ s.index + 1 then
        { s with pending := [], index := 0, task := .outLoop gen }
      else { s with index := s.index + 1, task := .outLoop gen }
    else { s with task := .outLoop gen }
  -- nothing is left to push: the endpoint is armed again
  | .outXfer gen =>
    { s with msgArmed := if ok then s.msgArmed + 1 else s.msgArmed, task := .outCommit gen ok }
  | .outCommit gen armed =>
    if s.itfOpen ∧ gen = s.gen ∧ armed then { s with msgRearm := false, task := .idle }
    else { s with task := .idle }
  | .cmdStart gen =>
    if s.itfOpen ∧ gen = s.gen ∧ s.cmdRearm then { s with task := .cmdXfer gen }
    else { s with task := .idle }
  | .cmdXfer gen =>
    { s with cmdArmed := if ok then s.cmdArmed + 1 else s.cmdArmed, task := .cmdCommit gen ok }
  | .cmdCommit gen armed =>
    if s.itfOpen ∧ gen = s.gen ∧ armed then { s with cmdRearm := false, task := .idle }
    else { s with task := .idle }
  | .doneCmd =>
    if ok then { s with cmdArmed := s.cmdArmed + 1, task := .idle }
    else { s with task := .doneCmdFlag }
  | .doneCmdFlag => { s with cmdRearm := true, task := .idle }
  | .doneMsg frames =>
    { (if s.index < s.pending.length then s.countDrops else s) with
      pending := frames, index := 0, msgRearm := true, task := .idle }
  | .doneMsgFlag => { s with msgRearm := true, task := .idle }
  | .doneIn success =>
    { s with
      msgInState :=
        if s.msgInState = .submitted then if success then .complete else .retry
        else s.msgInState
      task := .idle }
  | .resetLocked =>
    let s' := s.countDrops.clearOut
    -- a batch on its way survives the reset
    if s.retained then { s' with msgInState := .retry, msgInGen := s'.gen, task := .idle }
    else { s' with task := .idle }
  | .deinitLocked =>
    let s' := s.countDrops.clearOut
    -- at deinit it goes back to its owner
    if s.retained then { s' with msgInState := .dropped, task := .idle }
    else { s' with task := .idle }
  | .openLocked =>
    let s' := s.clearOut
    if s.msgInState = .retry then { s' with msgInGen := s'.gen, task := .openCmd }
    else { s' with task := .openCmd }
  | .openCmd =>
    if ok then { s with cmdArmed := s.cmdArmed + 1, task := .openMsg }
    else { s with task := .openCmdFlag }
  | .openCmdFlag => { s with cmdRearm := true, task := .openMsg }
  | .openMsg =>
    if ok then { s with msgArmed := s.msgArmed + 1, task := .idle }
    else { s with task := .openMsgFlag }
  | .openMsgFlag => { s with msgRearm := true, task := .idle }

/-- The endpoints start afresh. -/
def freshEndpoints : GlueState := { s with cmdArmed := 0, msgArmed := 0, inFlight := none }

/-- A callback or a deferred function starts in TinyUSB's task, if it is idle. -/
def callback (s' : GlueState) : Option GlueState := if s.task = .idle then some s' else none

/-- The frames `usb_glue_handle_msg()` takes out of a transfer. -/
def handleMsg (data : List UInt8) : List Frame :=
  (decodeTx (fun i => data.getD i 0) data.length txMaxFramesPerBatch).getD []

/-- One step. -/
def step : GlueStep → Option GlueState
  | .present buf =>
    if s.caller = .idle ∧ s.batch = none then some { s with batch := some buf } else none
  | .send => s.send
  | .service => s.service
  | .defer kept => s.defer kept
  | .takeStats => some { s with resetDrops := 0 }
  | .run fn gen again =>
    if (fn, gen) ∈ s.calls then
      s.callback { s with
        calls := if again then s.calls else s.calls.erase (fn, gen)
        task := start fn gen }
    else none
  | .completeCmd =>
    if 0 < s.cmdArmed then s.callback { s with cmdArmed := s.cmdArmed - 1, task := .doneCmd }
    else none
  | .completeMsg success data =>
    if 0 < s.msgArmed then
      s.callback { s with
        msgArmed := s.msgArmed - 1
        task := if success ∧ data ≠ [] then .doneMsg (handleMsg data) else .doneMsgFlag }
    else none
  | .completeIn =>
    match s.inFlight with
    | some ⟨_, _, some success⟩ => s.callback { s with inFlight := none, task := .doneIn success }
    | _ => none
  | .reset => s.callback { s.freshEndpoints with itfOpen := false, task := .resetLocked }
  | .deinit => s.callback { s.freshEndpoints with itfOpen := false, task := .deinitLocked }
  | .openItf => s.callback { s.freshEndpoints with itfOpen := true, task := .openLocked }
  | .go ok => some (s.go ok)
  | .wire success =>
    match s.inFlight with
    | some ⟨batch, bytes, none⟩ => some { s with inFlight := some ⟨batch, bytes, some success⟩ }
    | _ => none

/-- After `pcan_drv_init()`. -/
def init : GlueState where
  itfOpen := false
  gen := 1
  msgInState := .idle
  msgInLen := 0
  msgInGen := 0
  msgIn := []
  inBatch := 0
  pending := []
  index := 0
  msgRearm := false
  cmdRearm := false
  resetDrops := 0
  calls := []
  cmdArmed := 0
  msgArmed := 0
  inFlight := none
  task := .idle
  caller := .idle
  batch := none
  batchNo := 0

/-! ### Frames -/

variable {s} {s' : GlueState} {l : GlueStep}

theorem callback_eq {t : GlueState} (h : s.callback t = some s') : s.task = .idle ∧ t = s' := by
  unfold callback at h
  split at h
  · exact ⟨‹_›, Option.some.inj h⟩
  · cases h

/-- The critical section of `usb_glue_send_msg_batch()` writes the variables of EP2-IN only. -/
theorem sendMsgBatch_frame (s : GlueState) (buf : List UInt8) :
    ∃ st len gen bytes no, (s.sendMsgBatch buf).1 =
      { s with msgInState := st, msgInLen := len, msgInGen := gen, msgIn := bytes, inBatch := no } := by
  unfold sendMsgBatch
  repeat' split
  all_goals exact ⟨_, _, _, _, _, rfl⟩

/-- What a call of `usb_glue_send_msg_batch()` can do: nothing, release the batch, copy it, or
queue it again. -/
theorem send_cases (h : s.send = some s') :
    ∃ buf, s.caller = .idle ∧ s.batch = some buf ∧
      ((s.sendMsgBatch buf).2.1 = false ∧ s' = s ∨
        (s.sendMsgBatch buf).2.1 = true ∧ (s.msgInState = .complete ∨ s.msgInState = .dropped) ∧
          s' = { s with
            msgInState := .idle, msgInLen := 0, batch := none, batchNo := s.batchNo + 1 } ∨
        (s.sendMsgBatch buf).2.1 = false ∧ s.msgInState = .idle ∧ s.itfOpen = true ∧
          ¬(buf.length = 0 ∨ usbTxBufferSize < buf.length) ∧
          s' = { s with
            msgIn := buf, inBatch := s.batchNo, msgInLen := buf.length, msgInGen := s.gen
            msgInState := .queued, caller := .deferIn s.gen } ∨
        (s.sendMsgBatch buf).2.1 = false ∧ s.msgInState = .retry ∧ s.itfOpen = true ∧
          s.msgInGen = s.gen ∧
          s' = { s with msgInState := .queued, caller := .deferIn s.gen }) := by
  unfold send at h
  split at h
  · rename_i buf hcaller hbatch
    refine ⟨buf, hcaller, hbatch, ?_⟩
    unfold sendMsgBatch at h ⊢
    by_cases hlen : buf.length = 0 ∨ usbTxBufferSize < buf.length
    · rw [if_pos hlen] at h ⊢
      exact .inl ⟨rfl, (Option.some.inj h).symm⟩
    rw [if_neg hlen] at h ⊢
    cases hst : s.msgInState <;> rw [hst] at h <;> dsimp only at h ⊢
    case queued | submitted => exact .inl ⟨rfl, (Option.some.inj h).symm⟩
    case complete | dropped =>
      split at h <;> rename_i heq <;> split at heq <;> rename_i hle <;> cases heq <;> cases h
      · rw [if_pos hle]; exact .inr (.inl ⟨rfl, by simp, rfl⟩)
      · rw [if_neg hle]; exact .inl ⟨rfl, rfl⟩
    case idle =>
      split at h <;> rename_i heq <;> split at heq <;> rename_i hopen <;> cases heq <;> cases h
      · rw [if_pos hopen]
        exact .inr (.inr (.inl ⟨rfl, rfl, hopen, hlen, rfl⟩))
      · rw [if_neg hopen]; exact .inl ⟨rfl, rfl⟩
    case retry =>
      split at h <;> rename_i heq <;> split at heq <;> rename_i hopen <;> cases heq <;> cases h
      · rw [if_pos hopen]
        exact .inr (.inr (.inr ⟨rfl, rfl, hopen.1, hopen.2, rfl⟩))
      · rw [if_neg hopen]; exact .inl ⟨rfl, rfl⟩
  · cases h

/-- `usb_tx_task` writes no more than these, the deferred calls, and its own variables. -/
theorem caller_frame (hst : s.step l = some s') (hl : l.Caller) :
    ∃ st len gen bytes no calls caller batch batchNo, s' =
      { s with
        msgInState := st, msgInLen := len, msgInGen := gen, msgIn := bytes, inBatch := no
        calls := calls, caller := caller, batch := batch, batchNo := batchNo } := by
  cases l with
  | present buf =>
    rw [step] at hst
    split at hst
    · obtain rfl := Option.some.inj hst
      exact ⟨_, _, _, _, _, _, _, _, _, rfl⟩
    · cases hst
  | send =>
    rw [step, send] at hst
    split at hst
    · rename_i buf _ _
      obtain ⟨st, len, gen, bytes, no, hs⟩ := s.sendMsgBatch_frame buf
      split at hst <;> rename_i h <;> rw [h] at hs <;> dsimp only at hs <;> subst hs <;>
        obtain rfl := Option.some.inj hst <;> exact ⟨_, _, _, _, _, _, _, _, _, rfl⟩
    · cases hst
  | service =>
    rw [step, service] at hst
    split at hst <;> cases hst
    all_goals exact ⟨_, _, _, _, _, _, _, _, _, rfl⟩
  | defer kept =>
    rw [step, defer] at hst
    split at hst
    · cases hst
    all_goals
      obtain rfl := Option.some.inj hst
      cases kept <;> exact ⟨_, _, _, _, _, _, _, _, _, rfl⟩
  | takeStats | run | completeCmd | completeMsg | completeIn | reset | deinit | openItf | go
  | wire => cases hl

end GlueState

/-- The tasks, the stack and the bus as a system. -/
def glueSystem : System GlueState GlueStep := .ofFun GlueState.step

end Usb

end Espcan32
