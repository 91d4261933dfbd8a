import Espcan32.Usb.Glue

/-!
# Requests for EP2-IN

A batch that is queued waits for `usb_glue_msg_in_deferred()`.  The request for it is handed to
`usbd_defer_func()` once, when the batch gets queued, and it is good for one generation.

* `GlueState.Pending` : the request of the current generation is on its way.
* `KeepsRequest` : the steps that lose no request.
* `Live.step` : a step that loses no request keeps one pending while a batch is queued.
* `not_wedged` : **if no step loses a request, EP2-IN never wedges.**

Two kinds of steps lose one: `usbd_defer_func()` may drop it, and `pcan_drv_open()` starts a new
generation while a batch is queued, since `s_itf_open` is set before.
-/

namespace Espcan32

namespace Usb

open Pcan

namespace GlueState

/-! ### Pending requests -/

/-- A request for `usb_glue_msg_in_deferred()` with the current generation is about to be handed
to `usbd_defer_func()`, held by it, or being served. -/
def Pending (s : GlueState) : Prop :=
  (.msgIn, s.gen) ∈ s.calls ∨ s.caller = .deferIn s.gen ∨ s.task = .inStart s.gen ∨
    (∃ len, s.task = .inXfer s.gen len) ∨ ∃ submitted, s.task = .inCommit s.gen submitted

/-- The next `usb_glue_send_msg_batch()` schedules a request with the current generation. -/
def NextSchedules (s : GlueState) : Prop :=
  ∃ buf, s.batch = some buf ∧ (s.sendMsgBatch buf).2.2 = some s.gen

/-- A queued batch has a request pending, or the next call schedules one. -/
def NotWedged (s : GlueState) : Prop :=
  s.itfOpen = true → s.msgInState = .queued → s.Pending ∨ s.NextSchedules

end GlueState

/-- The places of TinyUSB's task that deal with EP2-IN. -/
def TaskPc.OnIn : TaskPc → Prop
  | .inStart _ | .inXfer _ _ | .inCommit _ _ | .doneIn _ | .resetLocked | .deinitLocked
  | .openLocked => True
  | _ => False

/-- A step that loses no request: `usbd_defer_func()` keeps the one for the queued batch, and no
batch is queued when `pcan_drv_open()` starts a new generation. -/
def KeepsRequest (s : GlueState) : GlueStep → Prop
  | .defer kept =>
    s.caller = .deferIn s.gen → s.itfOpen = true → s.msgInState = .queued → kept = true
  | .go _ => s.task = .openLocked → s.msgInState ≠ .queued
  | _ => True

instance (s : GlueState) (l : GlueStep) : Decidable (KeepsRequest s l) := by
  cases l <;> unfold KeepsRequest <;> infer_instance

/-! ### The invariant -/

/-- The batch is bound to the current generation whenever it may still be submitted in it. -/
def GlueState.Bound (s : GlueState) : Prop :=
  s.msgInState = .retry ∨ s.msgInState = .queued ∧ s.itfOpen = true ∨
    s.msgInState = .submitted ∧ (s.inFlight.isSome = true ∨ ∃ success, s.task = .doneIn success)

/-- A batch that may be submitted after a step could be so before it, unless the step lets one be
submitted. -/
theorem GlueState.Bound.back {s s' : GlueState} (hb : s'.Bound)
    (hst : s'.msgInState = s.msgInState) (hopen : s'.itfOpen = s.itfOpen)
    (hw : s.msgInState = .submitted →
      (s'.inFlight.isSome = true ∨ ∃ success, s'.task = .doneIn success) →
      s.inFlight.isSome = true ∨ ∃ success, s.task = .doneIn success) : s.Bound := by
  rcases hb with hb | ⟨hb, ho⟩ | ⟨hb, hwork⟩
  · exact .inl (hst.symm.trans hb)
  · exact .inr (.inl ⟨hst.symm.trans hb, hopen.symm.trans ho⟩)
  · have hsub := hst.symm.trans hb
    exact .inr (.inr ⟨hsub, hw hsub hwork⟩)

/-- The batch that is presented is in the buffer. -/
def GlueState.Copied (s : GlueState) : Prop :=
  s.batch = some s.msgIn ∧ s.msgInLen = s.msgIn.length ∧
    ¬(s.msgIn.length = 0 ∨ usbTxBufferSize < s.msgIn.length)

/-- What the place of TinyUSB's task says about the batch. -/
def GlueState.Place (s : GlueState) : TaskPc → Prop
  | .inXfer _ _ => s.msgInState = .queued
  | .openLocked => s.inFlight = none
  | _ => True

/-- How the state of the batch, its generation and the requests go together. -/
structure Live (s : GlueState) : Prop where
  copied : s.msgInState ≠ .idle → s.Copied
  bound : s.Bound → s.msgInGen = s.gen
  pending : s.itfOpen = true → s.msgInState = .queued → s.Pending
  closed : s.itfOpen = false → s.msgInState = .queued →
    s.task = .resetLocked ∨ s.task = .deinitLocked
  place : s.Place s.task

namespace Live

variable {s s' : GlueState} {l : GlueStep}

/-- A step that leaves EP2-IN alone. -/
theorem move (h : Live s)
    (hs : s'.msgInState = s.msgInState ∧ s'.msgInLen = s.msgInLen ∧ s'.msgIn = s.msgIn ∧
      s'.msgInGen = s.msgInGen ∧ s'.gen = s.gen ∧ s'.itfOpen = s.itfOpen ∧
      s'.inFlight = s.inFlight ∧ s'.batch = s.batch)
    (hcalls : (.msgIn, s.gen) ∈ s.calls → (.msgIn, s.gen) ∈ s'.calls ∨ s'.task = .inStart s.gen)
    (hcaller : s.caller = .deferIn s.gen → s.itfOpen = true → s.msgInState = .queued →
      s'.caller = .deferIn s.gen ∨ (.msgIn, s.gen) ∈ s'.calls)
    (hpc : ¬s.task.OnIn ∧ (∀ success, s'.task ≠ .doneIn success) ∨ s'.task = s.task)
    (hplace : s'.Place s'.task) : Live s' := by
  obtain ⟨hst, hlen, hin, hgen, hg, hopen, hfl, hb⟩ := hs
  refine ⟨?_, fun hbound => ?_, fun ho hq => ?_, fun ho hq => ?_, hplace⟩
  · rw [GlueState.Copied, hst, hb, hin, hlen]; exact h.copied
  · rw [hgen, hg]
    refine h.bound (hbound.back hst hopen fun _ hw => ?_)
    rw [hfl] at hw
    rcases hw with hw | ⟨success, hd⟩
    · exact .inl hw
    rcases hpc with ⟨-, hpc⟩ | hpc
    · exact absurd hd (hpc success)
    · exact .inr ⟨success, hpc.symm.trans hd⟩
  · rw [hopen] at ho
    rw [hst] at hq
    rw [GlueState.Pending, hg]
    rcases h.pending ho hq with hp | hp | hp
    · exact (hcalls hp).imp_right fun ht => .inr (.inl ht)
    · rcases hcaller hp ho hq with hc | hc
      · exact .inr (.inl hc)
      · exact .inl hc
    · -- the request is being served
      rcases hpc with ⟨hpc, -⟩ | hpc
      · rcases hp with hp | ⟨len, hp⟩ | ⟨submitted, hp⟩ <;> rw [hp] at hpc <;>
          exact absurd trivial hpc
      · rw [hpc]
        exact .inr (.inr hp)
  · rw [hopen] at ho
    rw [hst] at hq
    have hc := h.closed ho hq
    rcases hpc with ⟨hpc, -⟩ | hpc
    · rcases hc with hc | hc <;> rw [hc] at hpc <;> exact absurd trivial hpc
    · rw [hpc]; exact hc

/-- A step of TinyUSB's task that leaves EP2-IN and the requests alone. -/
theorem moveTask (h : Live s)
    (hs : s'.msgInState = s.msgInState ∧ s'.msgInLen = s.msgInLen ∧ s'.msgIn = s.msgIn ∧
      s'.msgInGen = s.msgInGen ∧ s'.gen = s.gen ∧ s'.itfOpen = s.itfOpen ∧
      s'.inFlight = s.inFlight ∧ s'.batch = s.batch)
    (hrequests : s'.calls = s.calls ∧ s'.caller = s.caller) (hpc : ¬s.task.OnIn)
    (hdone : ∀ success, s'.task ≠ .doneIn success) (hplace : s'.Place s'.task) : Live s' := by
  obtain ⟨hcalls, hcaller⟩ := hrequests
  refine h.move hs (fun hc => .inl ?_) (fun hc _ _ => .inl ?_) (.inl ⟨hpc, hdone⟩) hplace
  · rw [hcalls]; exact hc
  · rw [hcaller]; exact hc

/-- A batch that is not queued needs no request. -/
theorem of_unqueued (hcopied : s.msgInState ≠ .idle → s.Copied) (hq : s.msgInState ≠ .queued)
    (hbound : s.msgInState = .retry ∨ s.msgInState = .submitted ∧
      (s.inFlight.isSome = true ∨ ∃ success, s.task = .doneIn success) → s.msgInGen = s.gen)
    (hplace : s.Place s.task) : Live s := by
  refine ⟨hcopied, fun hb => ?_, fun _ h => absurd h hq, fun _ h => absurd h hq, hplace⟩
  rcases hb with hb | ⟨hb, -⟩ | hb
  · exact hbound (.inl hb)
  · exact absurd hb hq
  · exact hbound (.inr hb)

/-- A function for EP2-IN ends without a change: a reset is not under way, and what the function
served was not a request of the current generation. -/
theorem leave (h : Live s) (hpc : s.task ≠ .resetLocked ∧ s.task ≠ .deinitLocked)
    (hstale : s.itfOpen = true → s.msgInState = .queued →
      s.task ≠ .inStart s.gen ∧ (∀ len, s.task ≠ .inXfer s.gen len) ∧
        ∀ submitted, s.task ≠ .inCommit s.gen submitted) : Live { s with task := .idle } := by
  refine ⟨h.copied, fun hb => h.bound ?_, fun ho hq => ?_, fun ho hq => ?_, trivial⟩
  · refine hb.back rfl rfl fun _ hw => ?_
    rcases hw with hw | ⟨_, hd⟩
    · exact .inl hw
    · cases hd
  · obtain ⟨hstart, hxfer, hcommit⟩ := hstale ho hq
    rcases h.pending ho hq with hp | hp | hp | ⟨len, hp⟩ | ⟨submitted, hp⟩
    · exact .inl hp
    · exact .inr (.inl hp)
    · exact absurd hp hstart
    · exact absurd hp (hxfer len)
    · exact absurd hp (hcommit submitted)
  · rcases h.closed ho hq with hc | hc
    · exact absurd hc hpc.1
    · exact absurd hc hpc.2

/-- The next step of the function in TinyUSB's task. -/
theorem go (h : Live s) (ok : Bool) (hkeep : KeepsRequest s (.go ok)) : Live (s.go ok) := by
  unfold GlueState.go
  cases ht : s.task <;> dsimp only
  case idle => exact h
  case inStart gen =>
    split
    · -- the request is for the batch in the buffer, or another is pending
      rename_i hlive
      obtain ⟨-, hgen, hq, hing, -⟩ := hlive
      refine ⟨h.copied, fun _ => hing.trans hgen, fun _ _ => ?_, fun ho hq => ?_, hq⟩
      · rw [hgen]; exact .inr (.inr (.inr (.inl ⟨_, rfl⟩)))
      · rcases h.closed ho hq with hc | hc <;> rw [ht] at hc <;> cases hc
    · rename_i hdead
      refine h.leave ⟨by simp [ht], by simp [ht]⟩ fun ho hq => ⟨?_, by simp [ht], by simp [ht]⟩
      intro hp
      have hgen := h.bound (.inr (.inl ⟨hq, ho⟩))
      obtain ⟨-, hlen, hbytes⟩ := h.copied (by rw [hq]; decide)
      have hne : s.msgInLen ≠ 0 := fun h0 => hbytes (.inl (hlen.symm.trans h0))
      -- a request that is turned down is of an earlier generation
      have hold : gen ≠ s.gen := fun hg => hdead ⟨ho, hg, hq, hgen.trans hg.symm, hne⟩
      rw [ht] at hp
      cases hp
      exact hold rfl
  case inXfer gen len =>
    have hqueued : s.msgInState = .queued := by simpa [GlueState.Place, ht] using h.place
    have hmoved : ∀ fl submitted,
        Live { s with inFlight := fl, task := .inCommit gen submitted } := by
      intro fl submitted
      refine ⟨h.copied, fun hb => h.bound ?_, fun ho hq => ?_, fun ho hq => ?_, trivial⟩
      · rcases hb with hb | hb | ⟨hb, -⟩
        · exact .inl hb
        · exact .inr (.inl hb)
        · cases hqueued.symm.trans hb
      · rcases h.pending ho hq with hp | hp | hp | ⟨_, hp⟩ | ⟨_, hp⟩
        · exact .inl hp
        · exact .inr (.inl hp)
        all_goals rw [ht] at hp; cases hp
        exact .inr (.inr (.inr (.inr ⟨_, rfl⟩)))
      · rcases h.closed ho hq with hc | hc <;> rw [ht] at hc <;> cases hc
    split
    · exact hmoved _ true
    · exact hmoved _ false
  case inCommit gen submitted =>
    split
    · -- the batch is submitted, or the next call queues it again
      rename_i hlive
      obtain ⟨hgen, hq, hing⟩ := hlive
      refine of_unqueued (fun _ => h.copied (by rw [hq]; decide)) ?_ (fun _ => hing.trans hgen) trivial
      cases submitted <;> simp
    · rename_i hdead
      refine h.leave ⟨by simp [ht], by simp [ht]⟩ fun ho hq => ⟨by simp [ht], by simp [ht], ?_⟩
      intro _ hp
      have hgen := h.bound (.inr (.inl ⟨hq, ho⟩))
      have hold : gen ≠ s.gen := fun hg => hdead ⟨hg, hq, hgen.trans hg.symm⟩
      rw [ht] at hp
      cases hp
      exact hold rfl
  case doneIn success =>
    by_cases hsub : s.msgInState = .submitted
    · -- a transfer that failed is to be submitted again in the same generation
      rw [if_pos hsub]
      have hgen := h.bound (.inr (.inr ⟨hsub, .inr ⟨success, ht⟩⟩))
      refine of_unqueued (fun _ => h.copied (by rw [hsub]; decide)) ?_ (fun _ => hgen) trivial
      cases success <;> simp
    · rw [if_neg hsub]
      exact h.leave ⟨by simp [ht], by simp [ht]⟩ fun _ _ => by simp [ht]
  case resetLocked =>
    split
    · rename_i hret
      have hidle : s.msgInState ≠ .idle := fun hi => by simp [GlueState.retained, hi] at hret
      exact of_unqueued (fun _ => h.copied hidle) (by simp) (fun _ => rfl) trivial
    · rename_i hret
      refine of_unqueued h.copied (fun hq => ?_) (fun hst => ?_) trivial
      · simp [GlueState.retained, show s.msgInState = .queued from hq] at hret
      · rcases hst with hst | ⟨hst, -⟩ <;>
          simp [GlueState.retained, show s.msgInState = _ from hst] at hret
  case deinitLocked =>
    split
    · rename_i hret
      have hidle : s.msgInState ≠ .idle := fun hi => by simp [GlueState.retained, hi] at hret
      exact of_unqueued (fun _ => h.copied hidle) (by simp) (by simp) trivial
    · rename_i hret
      refine of_unqueued h.copied (fun hq => ?_) (fun hst => ?_) trivial
      · simp [GlueState.retained, show s.msgInState = .queued from hq] at hret
      · rcases hst with hst | ⟨hst, -⟩ <;>
          simp [GlueState.retained, show s.msgInState = _ from hst] at hret
  case openLocked =>
    have hq := hkeep ht
    have hnone : s.inFlight = none := by simpa [GlueState.Place, ht] using h.place
    -- the batch to submit again is taken into the new generation
    split
    · exact of_unqueued h.copied hq (fun _ => rfl) trivial
    · rename_i hretry
      refine of_unqueued h.copied hq (fun hst => ?_) trivial
      rcases hst with hst | ⟨-, hfl | ⟨_, hd⟩⟩
      · exact absurd hst hretry
      · rw [show s.clearOut.inFlight = none from hnone] at hfl; cases hfl
      · cases hd
  case outLoop | cmdStart | doneCmd | openCmd | openMsg | outPush | outNext | outCommit
      | cmdCommit | doneMsg =>
    repeat' split
    all_goals
      exact h.moveTask ⟨rfl, rfl, rfl, rfl, rfl, rfl, rfl, rfl⟩ ⟨rfl, rfl⟩
        (fun hin => by rw [ht] at hin; exact hin) (by simp) trivial
  case outXfer | cmdXfer | doneCmdFlag | doneMsgFlag | openCmdFlag | openMsgFlag =>
    exact h.moveTask ⟨rfl, rfl, rfl, rfl, rfl, rfl, rfl, rfl⟩ ⟨rfl, rfl⟩
      (fun hin => by rw [ht] at hin; exact hin) (by simp) trivial

/-- `usb_tx_task` does not change what the place of TinyUSB's task says, but by taking a batch out
of the queue. -/
theorem place_of (h : Live s) (hfl : s'.inFlight = s.inFlight)
    (hst : s.msgInState = .queued → s'.msgInState = .queued) : s'.Place s.task := by
  have hplace := h.place
  cases ht : s.task <;> rw [ht] at hplace <;> try trivial
  case inXfer => exact hst hplace
  case openLocked => exact hfl.trans hplace

/-- `usb_tx_task` gets to `usbd_defer_func()`, and the request of a queued batch is kept. -/
theorem request (h : Live s) (calls : List (Deferred × UInt32)) (caller : CallerPc)
    (hcalls : ∀ c ∈ s.calls, c ∈ calls)
    (hkept : s.caller = .deferIn s.gen → s.itfOpen = true → s.msgInState = .queued →
      (.msgIn, s.gen) ∈ calls) : Live { s with calls := calls, caller := caller } :=
  h.move ⟨rfl, rfl, rfl, rfl, rfl, rfl, rfl, rfl⟩ (fun hp => .inl (hcalls _ hp))
    (fun hd ho hq => .inr (hkept hd ho hq)) (.inr rfl) (h.place_of rfl fun hq => hq)

/-- The caller presents its batch. -/
theorem send (h : Live s) (hst : s.send = some s') : Live s' := by
  obtain ⟨buf, -, hbatch, ⟨-, rfl⟩ | ⟨-, hend, rfl⟩ | ⟨-, hidle, hopen, hlen, rfl⟩ |
    ⟨-, hretry, hopen, hgen, rfl⟩⟩ := GlueState.send_cases hst
  · exact h
  · refine of_unqueued (fun hne => absurd rfl hne) (by simp) (by simp) (h.place_of rfl fun hq => ?_)
    rcases hend with hst | hst <;> cases hst.symm.trans hq
  · refine ⟨fun _ => ⟨hbatch, rfl, hlen⟩, fun _ => rfl, fun _ _ => .inr (.inl rfl), fun hc => ?_,
      h.place_of rfl fun _ => rfl⟩
    cases hopen.symm.trans hc
  · refine ⟨fun _ => h.copied (by rw [hretry]; decide), fun _ => hgen,
      fun _ _ => .inr (.inl rfl), fun hc => ?_, h.place_of rfl fun _ => rfl⟩
    cases hopen.symm.trans hc

/-- A callback starts afresh with the endpoints, between two functions of TinyUSB's task. -/
theorem afresh (h : Live s) (hidle : s.task = .idle) (op : Bool) (pc : TaskPc)
    (hpc : if op then pc = .openLocked else pc = .resetLocked ∨ pc = .deinitLocked) :
    Live { s.freshEndpoints with itfOpen := op, task := pc } := by
  -- a queued batch has the interface open, or a reset under way
  have hopen : s.msgInState = .queued → s.itfOpen = true := by
    intro hq
    by_contra hne
    rcases h.closed (by simpa using hne) hq with hc | hc <;> rw [hidle] at hc <;> cases hc
  refine ⟨h.copied, fun hb => h.bound ?_, fun ho hq => ?_, fun ho _ => ?_, ?_⟩
  · rcases hb with hb | ⟨hq, -⟩ | ⟨-, hb | ⟨_, hb⟩⟩
    · exact .inl hb
    · exact .inr (.inl ⟨hq, hopen hq⟩)
    · cases hb
    · cases op <;> rw [show pc = _ from hb] at hpc <;> simp at hpc
  · rcases h.pending (hopen hq) hq with hp | hp | hp | ⟨_, hp⟩ | ⟨_, hp⟩
    · exact .inl hp
    · exact .inr (.inl hp)
    all_goals rw [hidle] at hp; cases hp
  · rw [show op = false from ho] at hpc
    exact hpc
  · cases op
    · rcases hpc with rfl | rfl <;> trivial
    · obtain rfl : pc = .openLocked := hpc
      rfl

/-- A step that loses no request keeps one pending while a batch is queued. -/
theorem step (h : Live s) (hkeep : KeepsRequest s l) (hst : s.step l = some s') : Live s' := by
  cases l with
  | go ok => obtain rfl := Option.some.inj hst; exact h.go ok hkeep
  | send => exact h.send hst
  | present buf =>
    rw [GlueState.step] at hst
    split at hst
    · rename_i hnone
      obtain rfl := Option.some.inj hst
      have hidle : s.msgInState = .idle := by
        by_contra hne
        cases hnone.2.symm.trans (h.copied hne).1
      refine of_unqueued (fun hne => absurd hidle hne) ?_ ?_ (h.place_of rfl fun hq => hq)
      · rw [show s.msgInState = .idle from hidle]; decide
      · rw [show s.msgInState = .idle from hidle]; simp
    · cases hst
  | service =>
    rw [GlueState.step, GlueState.service] at hst
    split at hst <;> cases hst <;> rename_i hc _ <;>
      exact h.move ⟨rfl, rfl, rfl, rfl, rfl, rfl, rfl, rfl⟩ .inl
        (fun hd => by rw [hc] at hd; cases hd) (.inr rfl) (h.place_of rfl fun hq => hq)
  | defer kept =>
    rw [GlueState.step, GlueState.defer] at hst
    split at hst <;> cases hst <;> rename_i hc
    · rename_i gen
      cases kept with
      | true =>
        refine h.request _ _ (fun c hp => List.mem_append_left _ hp) fun hd _ _ => ?_
        obtain rfl : gen = s.gen := CallerPc.deferIn.inj (hc.symm.trans hd)
        exact List.mem_append_right _ (List.mem_singleton.2 rfl)
      | false =>
        -- the request is dropped, so it is not for a queued batch
        exact h.request s.calls _ (fun c hp => hp)
          fun hd ho hq => absurd (hkeep hd ho hq) (by decide)
    all_goals
      have hnone : s.caller ≠ .deferIn s.gen := by rw [hc]; simp
      cases kept with
      | true =>
        exact h.request _ _ (fun c hp => List.mem_append_left _ hp) fun hd => absurd hd hnone
      | false => exact h.request s.calls _ (fun c hp => hp) fun hd => absurd hd hnone
  | takeStats =>
    obtain rfl := Option.some.inj hst
    exact h.move ⟨rfl, rfl, rfl, rfl, rfl, rfl, rfl, rfl⟩ .inl (fun hc _ _ => .inl hc) (.inr rfl)
      (h.place_of rfl fun hq => hq)
  | wire success =>
    rw [GlueState.step] at hst
    split at hst
    · rename_i hf
      obtain rfl := Option.some.inj hst
      refine ⟨h.copied, fun hb => h.bound ?_, h.pending, h.closed, ?_⟩
      · refine hb.back rfl rfl fun _ hw => ?_
        rcases hw with _ | hw
        · exact .inl (by rw [hf]; rfl)
        · exact .inr hw
      · have hplace := h.place
        show GlueState.Place _ s.task
        cases ht : s.task <;> rw [ht] at hplace <;> try trivial
        case openLocked => cases hf.symm.trans hplace
    · cases hst
  | run fn gen again =>
    rw [GlueState.step] at hst
    split at hst
    · obtain ⟨hidle, rfl⟩ := GlueState.callback_eq hst
      refine h.move ⟨rfl, rfl, rfl, rfl, rfl, rfl, rfl, rfl⟩ (fun hp => ?_)
        (fun hc _ _ => .inl hc) (.inl ⟨fun hin => by rw [hidle] at hin; exact hin, ?_⟩) ?_
      · by_cases hown : (fn, gen) = (.msgIn, s.gen)
        · cases hown
          exact .inr rfl
        · refine .inl ?_
          dsimp only
          split
          · exact hp
          · exact (List.mem_erase_of_ne (Ne.symm hown)).2 hp
      · cases fn <;> simp [GlueState.start]
      · cases fn <;> trivial
    · cases hst
  | completeCmd =>
    rw [GlueState.step] at hst
    split at hst
    · obtain ⟨hidle, rfl⟩ := GlueState.callback_eq hst
      exact h.moveTask ⟨rfl, rfl, rfl, rfl, rfl, rfl, rfl, rfl⟩ ⟨rfl, rfl⟩
        (fun hin => by rw [hidle] at hin; exact hin) (by simp) trivial
    · cases hst
  | completeMsg success data =>
    rw [GlueState.step] at hst
    split at hst
    · obtain ⟨hidle, rfl⟩ := GlueState.callback_eq hst
      refine h.moveTask ⟨rfl, rfl, rfl, rfl, rfl, rfl, rfl, rfl⟩ ⟨rfl, rfl⟩
        (fun hin => by rw [hidle] at hin; exact hin) ?_ ?_
      · dsimp only
        split <;> simp
      · dsimp only
        split <;> trivial
    · cases hst
  | completeIn =>
    rw [GlueState.step] at hst
    split at hst
    · rename_i success hf
      obtain ⟨hidle, rfl⟩ := GlueState.callback_eq hst
      refine ⟨h.copied, fun hb => h.bound ?_, fun ho hq => ?_, fun ho hq => ?_, trivial⟩
      · exact hb.back rfl rfl fun _ _ => .inl (by rw [hf]; rfl)
      · rcases h.pending ho hq with hp | hp | hp | ⟨_, hp⟩ | ⟨_, hp⟩
        · exact .inl hp
        · exact .inr (.inl hp)
        all_goals rw [hidle] at hp; cases hp
      · rcases h.closed ho hq with hc | hc <;> rw [hidle] at hc <;> cases hc
    · cases hst
  | reset =>
    obtain ⟨hidle, rfl⟩ := GlueState.callback_eq hst
    exact h.afresh hidle false .resetLocked (.inl rfl)
  | deinit =>
    obtain ⟨hidle, rfl⟩ := GlueState.callback_eq hst
    exact h.afresh hidle false .deinitLocked (.inr rfl)
  | openItf =>
    obtain ⟨hidle, rfl⟩ := GlueState.callback_eq hst
    exact h.afresh hidle true .openLocked rfl

theorem init : Live .init := by
  refine of_unqueued (fun hne => absurd rfl hne) ?_ ?_ trivial <;> simp [GlueState.init]

end Live

/-! ### Runs -/

/-- **If no step loses a request, EP2-IN never wedges.**  In every run in which `usbd_defer_func()`
keeps the requests for a queued batch, and no batch is queued when `pcan_drv_open()` starts a new
generation: while the interface is open, a queued batch has a request of the current generation
pending, and the next call for a batch whose transfer failed schedules one. -/
theorem not_wedged {ls : List GlueStep} {s : GlueState}
    (hrun : (glueSystem.guard KeepsRequest).Run .init ls s) :
    s.NotWedged ∧ (s.itfOpen = true → s.msgInState = .retry → s.NextSchedules) := by
  have h : Live s := hrun.invariant .init fun _ _ _ h hst => h.step hst.1 hst.2
  refine ⟨fun hopen hq => .inl (h.pending hopen hq), fun hopen hretry => ?_⟩
  obtain ⟨hbatch, -, hlen⟩ := h.copied (by rw [hretry]; decide)
  have hgen := h.bound (.inl hretry)
  refine ⟨s.msgIn, hbatch, ?_⟩
  rw [GlueState.sendMsgBatch, if_neg hlen, hretry]
  dsimp only
  rw [if_pos ⟨hopen, hgen⟩]

/-- The interface is opened, a batch is presented, and its transfer is refused once. -/
def refusedOnce : Option (GlueState × Unit) :=
  System.exec GlueState.step KeepsRequest (fun _ _ u => u) (.init, ())
    [.openItf, .go true, .go true, .go true, .present [1, 2], .send, .defer true,
      .run .msgIn 2 false, .go true, .go false, .go true, .send]

theorem not_wedged_refusedOnce :
    ∃ s, refusedOnce = some (s, ()) ∧ s.msgInState = .queued ∧ s.itfOpen = true ∧
      (s.Pending ∨ s.NextSchedules) := by
  have hs : refusedOnce.map (fun p => (p.1.msgInState, p.1.itfOpen)) = some (.queued, true) := by
    decide +kernel
  obtain ⟨⟨s, u⟩, h, hs⟩ := Option.map_eq_some_iff.1 hs
  rw [Prod.mk.injEq] at hs
  obtain ⟨hq, hopen⟩ := hs
  exact ⟨s, h, hq, hopen, (not_wedged (System.Run.of_exec h).of_withAux).1 hopen hq⟩

/-- The same, but `usbd_defer_func()` drops the request. -/
def requestDropped : Option GlueState :=
  System.runs GlueState.step .init
    [.openItf, .go true, .go true, .go true, .present [1, 2], .send, .defer false]

/-- The batch stays queued, and no request is pending. -/
theorem wedged_by_drop :
    ∃ ls s, glueSystem.Run .init ls s ∧ s.itfOpen = true ∧ s.msgInState = .queued ∧
      ¬s.Pending ∧ ¬s.NextSchedules := by
  have hs : requestDropped.map (fun s => (s.itfOpen, s.msgInState)) = some (true, .queued) := by
    decide +kernel
  have hr : requestDropped.map (fun s => (s.calls, s.caller, s.task)) =
      some ([], .idle, .idle) := by decide +kernel
  obtain ⟨s, h, hs⟩ := Option.map_eq_some_iff.1 hs
  rw [Prod.mk.injEq] at hs
  rw [h, Option.map_some, Option.some.injEq, Prod.mk.injEq, Prod.mk.injEq] at hr
  obtain ⟨hopen, hq⟩ := hs
  obtain ⟨hcalls, hcaller, htask⟩ := hr
  refine ⟨_, s, System.Run.of_runs h, hopen, hq, ?_, ?_⟩
  · simp [GlueState.Pending, hcalls, hcaller, htask]
  · rintro ⟨buf, -, hbuf⟩
    rw [GlueState.sendMsgBatch, hq] at hbuf
    split at hbuf <;> cases hbuf

end Usb

end Espcan32
