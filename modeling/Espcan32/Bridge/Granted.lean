import Espcan32.Bridge.Flight
import Espcan32.Lib.Progress

/-!
# The wait for the tasks is over soon

`ctrl_task` gives up its wait for `twai_rx_task` and `can_tx_task` after `QUIESCE_WAIT_MS`.  Both
look at the request between any two calls of the driver, so that they echo it after few steps, and
after calls whose timeouts add up to much less.

* `CanState.Orderly` : what holds between steps of the request, the events and the frame in hand.
* `RxPc.toEcho`, `TxPc.toEcho` : how many steps a task has before it until it has echoed a cycle.
* `CanState.toGrant` : how many rounds of the three tasks are left of the wait.
* `quiesce_granted` : **both tasks park in time**, in any order of the steps.
-/

namespace Espcan32

namespace Bridge

open Pcan Twai

/-- The tasks on the CAN side. -/
inductive Task where
  | rx
  | tx
  | ctrl
  deriving DecidableEq, Repr

/-- The task that takes a step. -/
def CanStep.task : CanStep → Option Task
  | .rx => some .rx
  | .tx _ => some .tx
  | .ctrl _ => some .ctrl
  | _ => none

/-- `ctrl_task` waits for the echoes of a cycle. -/
def CtrlPc.Awaits (cycle : UInt32) (pc : CtrlPc) : Prop := pc.phase.Waits cycle

theorem CtrlPc.awaits_iff {cycle : UInt32} {pc : CtrlPc} :
    pc.Awaits cycle ↔ pc = .awaitRx cycle ∨ pc = .awaitTx cycle := by
  constructor
  · intro hw
    unfold Awaits at hw
    cases pc <;> simp only [phase] at hw
    case awaitRx c => rcases hw with hw | hw <;> cases hw; exact .inl rfl
    case awaitTx c => rcases hw with hw | hw <;> cases hw; exact .inr rfl
    case readAlerts q | recover q _ | restart q _ | postOutcome q _ | postBusOff q _ =>
      cases q <;> rcases hw with hw | hw <;> cases hw
    all_goals rcases hw with hw | hw <;> cases hw
  · rintro (rfl | rfl)
    · exact .inl rfl
    · exact .inr rfl

instance (cycle : UInt32) (pc : CtrlPc) : Decidable (pc.Awaits cycle) := by
  unfold CtrlPc.Awaits Phase.Waits; infer_instance

/-! ### The times of `main.c`, in milliseconds -/

/-- `TWAI_CALL_TIMEOUT_MS`. -/
def twaiCallTimeoutMs : ℕ := 20

/-- `TWAI_BACKOFF_MS`. -/
def twaiBackoffMs : ℕ := 2

/-- `CAN_TX_CONFIRM_SLICE_MS`. -/
def canTxConfirmSliceMs : ℕ := 100

/-- `QUIESCE_POLL_MS`. -/
def quiescePollMs : ℕ := 1

/-- `QUIESCE_WAIT_MS`. -/
def quiesceWaitMs : ℕ := 500

/-- For how long the next step of `twai_rx_task` can block: the timeout of its call, and the delay
behind it. -/
def RxPc.blockMs : RxPc → ℕ
  | .receive => twaiCallTimeoutMs + twaiBackoffMs
  | .parked => quiescePollMs
  | .top | .echo _ => 0

/-- For how long the next step of `can_tx_task` can block. -/
def TxPc.blockMs : TxPc → ℕ
  | .pop => twaiCallTimeoutMs
  | .transmit => twaiCallTimeoutMs + twaiBackoffMs
  | .confirm => canTxConfirmSliceMs
  | .parked => quiescePollMs
  | .top | .drain | .echo _ => 0

/-- `ctrl_task` waits for an echo, and may run out of time. -/
def CtrlPc.timed : CtrlPc → Bool
  | .awaitRx _ | .awaitTx _ => true
  | _ => false

/-- The time for the tasks is not over when `ctrl_task` looks at it. -/
def TimeLeft (s : CanState) : CanStep → Prop
  | .ctrl ok => s.ctrl.timed = true → ok = true
  | _ => True

instance (s : CanState) : (l : CanStep) → Decidable (TimeLeft s l)
  | .ctrl _ => @instDecidableForall _ _ (instDecidableEqBool _ _) (instDecidableEqBool _ _)
  | .host .. | .command _ | .rx | .tx _ | .success | .failure | .busOff | .recovered =>
    instDecidableTrue

/-! ### What holds between steps -/

namespace CanState

/-- The handshake with the echoes of the cycle under way, the room in `s_tx_done`, and the frame in
hand. -/
structure Orderly (s : CanState) : Prop where
  shaken : s.Shaken
  steady : Steady s.ctrl.phase s.rxParking s.txParking
  room : s.txDone.length ≤ txDoneLen
  task : s.tx.Fits s.pending s.inflight
  hand : s.inflight = true → s.pending ≠ none

variable {s s' : CanState} {l : CanStep} {cycle : UInt32}

/-- `can_tx_task` posts no event. -/
theorem canTxTask_room (s : CanState) (answer : TwaiAnswer) :
    (s.canTxTask answer).txDone.length ≤ s.txDone.length := by
  cases htx : s.tx with
  | drain =>
    cases hdone : s.txDone with
    | nil => rw [canTxTask_drain_nil answer htx hdone, hdone]
    | cons e events => rw [canTxTask_drain_cons answer htx hdone]; exact Nat.le_succ _
  | confirm =>
    cases hdone : s.txDone with
    | nil => rw [canTxTask_confirm_nil answer htx hdone, hdone]
    | cons e events => rw [canTxTask_confirm_cons answer htx hdone]; exact Nat.le_succ _
  | top => rw [canTxTask_top answer htx]
  | echo cycle => rw [canTxTask_echo answer htx]
  | parked => rw [canTxTask_parked answer htx]
  | pop | transmit =>
    unfold canTxTask
    rw [htx]
    dsimp only
    repeat' split
    all_goals exact Nat.le_refl _

/-- A full queue drops the event. -/
theorem ctrlTask_room (ok : Bool) (h : s.txDone.length ≤ txDoneLen) :
    (s.ctrlTask ok).txDone.length ≤ txDoneLen := by
  have hsend (e : TxEvent) : (s.send e).txDone.length ≤ txDoneLen := by
    unfold send
    dsimp only
    split
    · rw [List.length_append, List.length_singleton]
      omega
    · exact h
  unfold ctrlTask sendAbort discarding Option.elim
  repeat' split
  all_goals first | exact h | exact hsend _

namespace Orderly

/-- `can_tx_task` has a frame in hand while a copy of it is out. -/
theorem canTxTask (h : s.Orderly) (answer : TwaiAnswer) :
    (s.canTxTask answer).tx.Fits (s.canTxTask answer).pending (s.canTxTask answer).inflight ∧
      ((s.canTxTask answer).inflight = true → (s.canTxTask answer).pending ≠ none) := by
  have htask := h.task
  cases htx : s.tx with
  | top => rw [canTxTask_top answer htx]; exact ⟨s.txTop_fits, h.hand⟩
  | echo cycle => rw [canTxTask_echo answer htx]; exact ⟨trivial, h.hand⟩
  | parked =>
    rw [canTxTask_parked answer htx]
    refine ⟨?_, h.hand⟩
    dsimp only
    split <;> trivial
  | pop =>
    cases hring : s.txRing with
    | nil => rw [canTxTask_pop_nil answer htx hring]; exact ⟨trivial, h.hand⟩
    | cons f ring =>
      rw [canTxTask_pop_cons answer htx hring]
      exact ⟨s.txNext_fits (by simp), fun _ => by simp⟩
  | drain =>
    rw [htx] at htask
    cases hdone : s.txDone with
    | nil => rw [canTxTask_drain_nil answer htx hdone]; exact ⟨htask, h.hand⟩
    | cons e events => rw [canTxTask_drain_cons answer htx hdone]; exact ⟨h.task, h.hand⟩
  | transmit =>
    rw [htx] at htask
    obtain ⟨hsome, hin⟩ := htask
    obtain ⟨p, hp⟩ := Option.ne_none_iff_exists'.1 hsome
    rcases canTxTask_transmit answer htx hp with ⟨d, -, -, -, hs⟩ | ⟨-, hs⟩ | ⟨-, -, hs⟩
    · rw [hs]
      exact ⟨trivial, fun _ => hsome⟩
    · rw [hs]
      exact ⟨trivial, fun hin' => absurd (hin.symm.trans hin') Bool.false_ne_true⟩
    · rw [hs]
      exact ⟨trivial, h.hand⟩
  | confirm =>
    cases hdone : s.txDone with
    | nil => rw [canTxTask_confirm_nil answer htx hdone]; exact ⟨trivial, h.hand⟩
    | cons e events =>
      rw [canTxTask_confirm_cons answer htx hdone]
      exact ⟨trivial, fun hin => absurd hin Bool.false_ne_true⟩

theorem of_init (dev : DevState) : (init dev).Orderly where
  shaken := shaken_init dev
  steady := fun _ hw => by rcases hw with hw | hw <;> cases hw
  room := Nat.zero_le _
  task := trivial
  hand := fun hin => absurd hin Bool.false_ne_true

/-- A new cycle must not reuse a number that an acknowledgement still shows. -/
theorem step (h : s.Orderly) (hst : s.step l = some s') (hf : FreshCycle s l) : s'.Orderly := by
  have hshaken := handshake_step h.shaken hst hf
  cases l with
  | rx =>
    obtain rfl := Option.some.inj hst
    obtain ⟨-, hctrl, htx⟩ := s.twaiRxTask_frame
    have hsame : s.twaiRxTask.txDone = s.txDone ∧ s.twaiRxTask.tx = s.tx ∧
        s.twaiRxTask.pending = s.pending ∧ s.twaiRxTask.inflight = s.inflight := by
      unfold twaiRxTask
      cases s.rx <;> exact ⟨rfl, rfl, rfl, rfl⟩
    obtain ⟨hdone, hpc, hpend, hin⟩ := hsame
    refine ⟨hshaken, ?_, hdone ▸ h.room, ?_, ?_⟩
    · rw [hctrl, htx]; exact h.steady.first h.shaken s.twaiRxTask_move
    · rw [hpc, hpend, hin]; exact h.task
    · rw [hin, hpend]; exact h.hand
  | tx answer =>
    obtain rfl := Option.some.inj hst
    obtain ⟨-, hrx, hctrl, -⟩ := s.canTxTask_frame answer
    obtain ⟨htask, hhand⟩ := h.canTxTask answer
    refine ⟨hshaken, ?_, (s.canTxTask_room answer).trans h.room, htask, hhand⟩
    rw [hctrl, hrx]
    exact h.steady.second h.shaken (s.canTxTask_move answer)
  | ctrl ok =>
    obtain rfl := Option.some.inj hst
    obtain ⟨hrx, htx, hpend, hin, hpc, -⟩ := s.ctrlTask_frame ok
    refine ⟨hshaken, ?_, ctrlTask_room ok h.room, ?_, ?_⟩
    · rw [hrx, htx]
      refine h.steady.request (s.ctrlTask_move ok) fun hopen => ?_
      by_cases hb : s.ctrl = .begin
      · rw [FreshCycle, hb] at hf
        exact hf
      · have := s.ctrlTask_opens ok hb
        omega
    · rw [hpc, hpend, hin]; exact h.task
    · rw [hin, hpend]; exact h.hand
  | host | command =>
    obtain rfl := Option.some.inj hst
    exact ⟨hshaken, h.steady, h.room, h.task, h.hand⟩
  | success | failure | busOff | recovered =>
    obtain ⟨d, d', -, -, rfl⟩ := controller_eq hst
    exact ⟨hshaken, h.steady, h.room, h.task, h.hand⟩

end Orderly

end CanState

/-- Runs in which no cycle reuses a number that an acknowledgement still shows are orderly. -/
theorem orderly_of_run {dev : DevState} {ls : List CanStep} {s : CanState}
    (hrun : (canSystem.guard FreshCycle).Run (.init dev) ls s) : s.Orderly :=
  hrun.invariant (.of_init dev) fun _ _ _ h hst => h.step hst.2 hst.1

/-! ### What a task has before it until it echoes -/

/-- The sum of the weights of the steps that `twai_rx_task` has before it at most until it echoes
the cycle. -/
def RxPc.toEcho (weight : RxPc → ℕ) (cycle : UInt32) : RxPc → ℕ
  | .top => weight .top + weight (.echo cycle)
  | .parked => weight .parked + weight (.echo cycle)
  | .receive => weight .receive + (weight .top + weight (.echo cycle))
  | .echo c =>
    -- an older request is echoed first
    if c = cycle then weight (.echo c)
    else weight (.echo c) + (weight .parked + weight (.echo cycle))

/-- The sum of the weights of the steps that `can_tx_task` has before it at most until it echoes the
cycle, where `events` are in `s_tx_done`. -/
def TxPc.toEcho (weight : TxPc → ℕ) (cycle : UInt32) (events : ℕ) : TxPc → ℕ
  | .top => weight .top + weight (.echo cycle)
  | .parked => weight .parked + weight (.echo cycle)
  | .transmit => weight .transmit + (weight .top + weight (.echo cycle))
  | .confirm => weight .confirm + (weight .top + weight (.echo cycle))
  | .drain =>
    (events + 1) * weight .drain + (weight .transmit + (weight .top + weight (.echo cycle)))
  | .pop =>
    weight .pop +
      ((events + 1) * weight .drain + (weight .transmit + (weight .top + weight (.echo cycle))))
  | .echo c =>
    if c = cycle then weight (.echo c)
    else weight (.echo c) + (weight .parked + weight (.echo cycle))

/-- `twai_rx_task` echoes in at most three steps. -/
theorem RxPc.toEcho_le (pc : RxPc) (cycle : UInt32) : pc.toEcho (fun _ => 1) cycle ≤ 3 := by
  cases pc <;> simp only [toEcho] <;> repeat' split
  all_goals omega

theorem RxPc.toEcho_pos (pc : RxPc) (cycle : UInt32) : 0 < pc.toEcho (fun _ => 1) cycle := by
  cases pc <;> simp only [toEcho] <;> repeat' split
  all_goals omega

/-- `can_tx_task` echoes in at most five steps more than there are events. -/
theorem TxPc.toEcho_le (pc : TxPc) (cycle : UInt32) (events : ℕ) :
    pc.toEcho (fun _ => 1) cycle events ≤ 5 + events := by
  cases pc <;> simp only [toEcho] <;> repeat' split
  all_goals omega

theorem TxPc.toEcho_pos (pc : TxPc) (cycle : UInt32) (events : ℕ) :
    0 < pc.toEcho (fun _ => 1) cycle events := by
  cases pc <;> simp only [toEcho] <;> repeat' split
  all_goals omega

theorem TxPc.eq_parked {pc : TxPc} (h : pc.place = .parked) : pc = .parked := by
  cases pc <;> cases h
  rfl

theorem TxPc.eq_echo {pc : TxPc} {cycle : UInt32} (h : pc.place = .echo cycle) :
    pc = .echo cycle := by
  cases pc <;> cases h
  rfl

namespace CanState

/-- What `twai_rx_task` has before it at most until it has echoed the cycle. -/
def rxLeft (weight : RxPc → ℕ) (cycle : UInt32) (s : CanState) : ℕ :=
  if s.rxAck = cycle then 0 else s.rx.toEcho weight cycle

/-- What `can_tx_task` has before it at most until it has echoed the cycle. -/
def txLeft (weight : TxPc → ℕ) (cycle : UInt32) (s : CanState) : ℕ :=
  if s.txAck = cycle then 0 else s.tx.toEcho weight cycle s.txDone.length

variable {s s' : CanState} {l : CanStep} {cycle : UInt32}

/-- Each step of `twai_rx_task` takes its weight off. -/
theorem Orderly.rxLeft_twaiRxTask (h : s.Orderly) (hw : s.ctrl.Awaits cycle) (weight : RxPc → ℕ) :
    (if s.rxAck = cycle then 0 else weight s.rx) + s.twaiRxTask.rxLeft weight cycle ≤
      s.rxLeft weight cycle := by
  obtain ⟨ho, hseq⟩ := h.shaken.waited hw
  have hstays := (h.steady cycle hw).1
  by_cases hack : s.rxAck = cycle
  · -- it stays in its park loop, and echoes the same again
    have hsame : s.twaiRxTask.rxAck = cycle := by
      unfold twaiRxTask
      cases hrx : s.rx <;> try exact hack
      case echo c =>
        rcases hstays hack with hp | hp <;> rw [rxParking, hrx] at hp <;> cases hp
        rfl
    rw [if_pos hack, rxLeft, if_pos hsame]
    exact Nat.zero_le _
  rw [if_neg hack, rxLeft, rxLeft, if_neg hack, twaiRxTask]
  cases hrx : s.rx with
  | top | parked =>
    dsimp only
    rw [if_neg hack, if_pos ho, hseq]
    simp [RxPc.toEcho]
  | receive =>
    dsimp only
    rw [if_neg hack]
    exact Nat.le_refl _
  | echo c =>
    dsimp only
    by_cases hc : c = cycle
    · simp [RxPc.toEcho, hc]
    · simp [RxPc.toEcho, hc]

/-- Each step of `can_tx_task` takes its weight off. -/
theorem Orderly.txLeft_canTxTask (h : s.Orderly) (hw : s.ctrl.Awaits cycle) (weight : TxPc → ℕ)
    (answer : TwaiAnswer) :
    (if s.txAck = cycle then 0 else weight s.tx) + (s.canTxTask answer).txLeft weight cycle ≤
      s.txLeft weight cycle := by
  obtain ⟨ho, hseq⟩ := h.shaken.waited hw
  have ho' : ParkRequested cycle := hseq ▸ ho
  have hstays := (h.steady cycle hw).2
  have htask := h.task
  by_cases hack : s.txAck = cycle
  · have hsame : (s.canTxTask answer).txAck = cycle := by
      rcases hstays hack with hp | hp
      · rw [canTxTask_parked answer (TxPc.eq_parked hp)]
        exact hack
      · rw [canTxTask_echo answer (TxPc.eq_echo hp)]
    rw [if_pos hack, txLeft, if_pos hsame]
    exact Nat.zero_le _
  -- the next place has its weight left, unless the cycle is echoed now
  have hnext {t : CanState} (hs : s.canTxTask answer = t) (hack' : t.txAck = s.txAck)
      (hle : weight s.tx + t.tx.toEcho weight cycle t.txDone.length ≤
        s.tx.toEcho weight cycle s.txDone.length) :
      (if s.txAck = cycle then 0 else weight s.tx) + (s.canTxTask answer).txLeft weight cycle ≤
        s.txLeft weight cycle := by
    rw [hs, if_neg hack, txLeft, txLeft, if_neg hack, if_neg (hack' ▸ hack)]
    exact hle
  obtain ⟨pc, htx⟩ : ∃ pc, s.tx = pc := ⟨_, rfl⟩
  cases pc with
  | top =>
    refine hnext (canTxTask_top answer htx) rfl ?_
    simp [htx, TxPc.toEcho, hseq, ho']
  | parked =>
    refine hnext (canTxTask_parked answer htx) rfl ?_
    simp [htx, TxPc.toEcho, hseq, ho']
  | echo c =>
    rw [canTxTask_echo answer htx, txLeft, txLeft, if_neg hack, if_neg hack, htx]
    dsimp only
    by_cases hc : c = cycle
    · simp [TxPc.toEcho, hc]
    · simp [TxPc.toEcho, hc]
  | pop =>
    cases hring : s.txRing with
    | nil =>
      refine hnext (canTxTask_pop_nil answer htx hring) rfl ?_
      simp only [htx, TxPc.toEcho]
      omega
    | cons f ring =>
      -- nothing was in hand, so that no copy is out
      rw [htx] at htask
      have hin : s.inflight = false := by
        by_contra hin
        exact h.hand (Bool.not_eq_false _ ▸ hin) htask
      refine hnext (canTxTask_pop_cons answer htx hring) rfl ?_
      simp [htx, txNext, hin, TxPc.toEcho]
  | drain =>
    cases hdone : s.txDone with
    | nil =>
      refine hnext (canTxTask_drain_nil answer htx hdone) rfl ?_
      simp [htx, hdone, TxPc.toEcho]
    | cons e events =>
      refine hnext (canTxTask_drain_cons answer htx hdone) rfl ?_
      simp only [htx, hdone, TxPc.toEcho, List.length_cons, Nat.add_mul, Nat.one_mul]
      omega
  | transmit =>
    rw [htx] at htask
    obtain ⟨p, hp⟩ := Option.ne_none_iff_exists'.1 htask.1
    rcases canTxTask_transmit answer htx hp with ⟨d, -, -, -, hs⟩ | ⟨-, hs⟩ | ⟨-, -, hs⟩
    · exact hnext hs rfl (by rw [htx]; exact Nat.le_refl _)
    · exact hnext hs rfl (by rw [htx]; exact Nat.le_refl _)
    · exact hnext hs rfl (by rw [htx]; exact Nat.le_refl _)
  | confirm =>
    cases hdone : s.txDone with
    | nil =>
      exact hnext (canTxTask_confirm_nil answer htx hdone) rfl (by rw [htx]; exact Nat.le_refl _)
    | cons e events =>
      exact hnext (canTxTask_confirm_cons answer htx hdone) rfl (by rw [htx]; exact Nat.le_refl _)

/-- `twai_rx_task` leaves `can_tx_task` alone. -/
theorem txLeft_twaiRxTask (s : CanState) (weight : TxPc → ℕ) (cycle : UInt32) :
    s.twaiRxTask.txLeft weight cycle = s.txLeft weight cycle := by
  unfold twaiRxTask
  cases s.rx <;> rfl

/-- `can_tx_task` leaves `twai_rx_task` alone. -/
theorem rxLeft_canTxTask (s : CanState) (weight : RxPc → ℕ) (cycle : UInt32)
    (answer : TwaiAnswer) :
    (s.canTxTask answer).rxLeft weight cycle = s.rxLeft weight cycle := by
  obtain ⟨-, hrx, -⟩ := s.canTxTask_frame answer
  have hack : (s.canTxTask answer).rxAck = s.rxAck := congrArg Parking.ack hrx
  have hpc : (s.canTxTask answer).rx = s.rx := by
    unfold canTxTask
    repeat' split
    all_goals rfl
  rw [rxLeft, rxLeft, hack, hpc]

/-- While `ctrl_task` waits, it moves itself only. -/
theorem ctrlTask_awaits (hw : s.ctrl.Awaits cycle) (ok : Bool) :
    s.ctrlTask ok = { s with ctrl := (s.ctrlTask ok).ctrl } := by
  rcases CtrlPc.awaits_iff.1 hw with hpc | hpc <;> simp only [ctrlTask, hpc]

/-- No cycle is announced during the wait. -/
theorem freshCycle_of_awaits (hw : s.ctrl.Awaits cycle) : FreshCycle s l := by
  unfold FreshCycle
  split
  · rcases CtrlPc.awaits_iff.1 hw with hpc | hpc <;> rw [hpc] <;> trivial
  · trivial

/-- The steps that are none of a task leave both alone. -/
theorem left_environment (cycle : UInt32) (hst : s.step l = some s') (hl : l.task = none) :
    s'.ctrl = s.ctrl ∧ (∀ weight, s'.rxLeft weight cycle = s.rxLeft weight cycle) ∧
      ∀ weight, s'.txLeft weight cycle = s.txLeft weight cycle := by
  cases l with
  | rx | tx _ | ctrl _ => cases hl
  | host | command =>
    obtain rfl := Option.some.inj hst
    exact ⟨rfl, fun _ => rfl, fun _ => rfl⟩
  | success | failure | busOff | recovered =>
    obtain ⟨d, d', -, -, rfl⟩ := controller_eq hst
    exact ⟨rfl, fun _ => rfl, fun _ => rfl⟩

/-! ### The wait -/

/-- How many steps the two tasks have before them at most until both have echoed the cycle. -/
def toEchoes (cycle : UInt32) (s : CanState) : ℕ :=
  s.rxLeft (fun _ => 1) cycle + s.txLeft (fun _ => 1) cycle

/-- How many rounds of the three tasks are left of the wait at most, less one. -/
def toGrant (cycle : UInt32) (s : CanState) : ℕ :=
  if s.toEchoes cycle = 0 then
    -- both have echoed; the acknowledgements are read one after the other
    match s.ctrl with
    | .awaitTx _ => 0
    | _ => 1
  else 1 + s.toEchoes cycle

/-- The task whose next step brings the end of the wait nearer. -/
def helper (cycle : UInt32) (s : CanState) : Task :=
  if s.rxLeft (fun _ => 1) cycle ≠ 0 then .rx
  else if s.txLeft (fun _ => 1) cycle ≠ 0 then .tx else .ctrl

theorem rxLeft_eq_zero_iff : s.rxLeft (fun _ => 1) cycle = 0 ↔ s.rxAck = cycle := by
  unfold rxLeft
  split
  · exact ⟨fun _ => ‹_›, fun _ => rfl⟩
  · have hpos := s.rx.toEcho_pos cycle
    exact ⟨fun h => by omega, fun h => absurd h ‹_›⟩

theorem txLeft_eq_zero_iff : s.txLeft (fun _ => 1) cycle = 0 ↔ s.txAck = cycle := by
  unfold txLeft
  split
  · exact ⟨fun _ => ‹_›, fun _ => rfl⟩
  · have hpos := s.tx.toEcho_pos cycle s.txDone.length
    exact ⟨fun h => by omega, fun h => absurd h ‹_›⟩

theorem Orderly.toGrant_le (h : s.Orderly) (cycle : UInt32) : s.toGrant cycle ≤ 17 := by
  have hroom : s.txDone.length ≤ 8 := h.room
  have hrx := s.rx.toEcho_le cycle
  have htx := s.tx.toEcho_le cycle s.txDone.length
  have hle : s.toEchoes cycle ≤ 16 := by
    unfold toEchoes rxLeft txLeft
    split <;> split <;> omega
  unfold toGrant
  split
  · split <;> omega
  · omega

/-- The rank goes down with the steps before the echoes. -/
theorem toGrant_lt (h : s'.toEchoes cycle < s.toEchoes cycle) :
    s'.toGrant cycle < s.toGrant cycle := by
  unfold toGrant
  rw [if_neg (Nat.ne_of_gt (Nat.zero_lt_of_lt h))]
  split
  · split <;> omega
  · omega

theorem toGrant_congr (h : s'.toEchoes cycle = s.toEchoes cycle)
    (hctrl : s.toEchoes cycle ≠ 0 ∨ s'.ctrl = s.ctrl) : s'.toGrant cycle = s.toGrant cycle := by
  unfold toGrant
  rw [h]
  rcases hctrl with hne | hctrl
  · rw [if_neg hne, if_neg hne]
  · rw [hctrl]

/-- A task that has not echoed helps. -/
theorem helper_ne_ctrl (h : s.toEchoes cycle ≠ 0) : s.helper cycle ≠ .ctrl := by
  intro hctrl
  rw [helper] at hctrl
  split at hctrl
  · cases hctrl
  · split at hctrl
    · cases hctrl
    · rw [toEchoes] at h
      omega

/-- Where `ctrl_task` goes while time is left. -/
theorem ctrlTask_wait {ok : Bool} (hw : s.ctrl.Awaits cycle) (hg : TimeLeft s (.ctrl ok)) :
    (s.ctrlTask ok).ctrl = .clear ∨
      s.ctrl = .awaitRx cycle ∧ (s.ctrlTask ok).ctrl = .awaitTx cycle ∧ s.rxAck = cycle ∨
      (s.ctrlTask ok).ctrl = .awaitRx cycle ∧ s.toEchoes cycle ≠ 0 := by
  have hne (hack : s.rxAck ≠ cycle ∨ s.txAck ≠ cycle) : s.toEchoes cycle ≠ 0 := by
    rw [toEchoes]
    intro hzero
    rcases hack with hack | hack
    · exact hack (rxLeft_eq_zero_iff.1 (by omega))
    · exact hack (txLeft_eq_zero_iff.1 (by omega))
  rcases CtrlPc.awaits_iff.1 hw with hpc | hpc
  · have hok : ok = true := hg (by rw [hpc]; rfl)
    by_cases hack : s.rxAck = cycle
    · exact .inr (.inl ⟨hpc, by simp only [ctrlTask, hpc, if_pos hack], hack⟩)
    · exact .inr (.inr ⟨by simp only [ctrlTask, hpc, if_neg hack, hok, if_true], hne (.inl hack)⟩)
  · have hok : ok = true := hg (by rw [hpc]; rfl)
    by_cases hack : s.txAck = cycle
    · exact .inl (by simp only [ctrlTask, hpc, if_pos hack])
    · exact .inr (.inr ⟨by simp only [ctrlTask, hpc, if_neg hack, hok, if_true], hne (.inr hack)⟩)

/-- Each round of the three tasks brings the end of the wait nearer. -/
theorem waits_rank (cycle : UInt32) : (canSystem.guard TimeLeft).Ranks CanStep.task
    (fun s => s.Orderly ∧ s.ctrl.Awaits cycle) (fun s => s.ctrl = .clear) (toGrant cycle)
    (helper cycle) := by
  rintro s l s' ⟨h, hw⟩ - ⟨hg, hst⟩
  have h' := h.step hst (freshCycle_of_awaits hw)
  -- the steps that are none of the helper leave the rank and the helper
  have hsame (hctrl : s'.ctrl = s.ctrl)
      (hrx : s'.rxLeft (fun _ => 1) cycle = s.rxLeft (fun _ => 1) cycle)
      (htx : s'.txLeft (fun _ => 1) cycle = s.txLeft (fun _ => 1) cycle)
      (hl : l.task ≠ some (s.helper cycle)) :
      s'.ctrl = .clear ∨ (s'.Orderly ∧ s'.ctrl.Awaits cycle) ∧
        (s'.toGrant cycle < s.toGrant cycle ∨ s'.toGrant cycle = s.toGrant cycle ∧
          s'.helper cycle = s.helper cycle ∧ l.task ≠ some (s.helper cycle)) := by
    refine .inr ⟨⟨h', by rw [hctrl]; exact hw⟩, .inr ⟨toGrant_congr ?_ (.inr hctrl), ?_, hl⟩⟩
    · rw [toEchoes, toEchoes, hrx, htx]
    · rw [helper, helper, hrx, htx]
  cases l with
  | rx =>
    obtain rfl := Option.some.inj hst
    have hctrl := s.twaiRxTask_frame.2.1
    have htx := s.txLeft_twaiRxTask (fun _ => 1) cycle
    have hrx := h.rxLeft_twaiRxTask hw fun _ => 1
    by_cases hack : s.rxAck = cycle
    · have hzero := rxLeft_eq_zero_iff.2 hack
      refine hsame hctrl (by omega) htx fun heq => ?_
      rw [helper, if_neg (by omega)] at heq
      split at heq <;> cases heq
    · rw [if_neg hack] at hrx
      refine .inr ⟨⟨h', by rw [hctrl]; exact hw⟩, .inl (toGrant_lt ?_)⟩
      rw [toEchoes, toEchoes, htx]
      omega
  | tx answer =>
    obtain rfl := Option.some.inj hst
    have hctrl := (s.canTxTask_frame answer).2.2.1
    have hrx := s.rxLeft_canTxTask (fun _ => 1) cycle answer
    have htx := h.txLeft_canTxTask hw (fun _ => 1) answer
    by_cases hack : s.txAck = cycle
    · have hzero := txLeft_eq_zero_iff.2 hack
      refine hsame hctrl hrx (by omega) fun heq => ?_
      rw [helper] at heq
      split at heq
      · cases heq
      · rw [if_neg (by omega)] at heq
        cases heq
    · rw [if_neg hack] at htx
      refine .inr ⟨⟨h', by rw [hctrl]; exact hw⟩, .inl (toGrant_lt ?_)⟩
      rw [toEchoes, toEchoes, hrx]
      omega
  | ctrl ok =>
    obtain rfl := Option.some.inj hst
    have hs := ctrlTask_awaits hw ok
    have hrx : (s.ctrlTask ok).rxLeft (fun _ => 1) cycle = s.rxLeft (fun _ => 1) cycle := by
      rw [hs]; rfl
    have htx : (s.ctrlTask ok).txLeft (fun _ => 1) cycle = s.txLeft (fun _ => 1) cycle := by
      rw [hs]; rfl
    have hechoes : (s.ctrlTask ok).toEchoes cycle = s.toEchoes cycle := by
      rw [toEchoes, toEchoes, hrx, htx]
    have hwaits (hw' : (s.ctrlTask ok).ctrl.Awaits cycle) (hne : s.toEchoes cycle ≠ 0) :
        (s.ctrlTask ok).ctrl = .clear ∨ ((s.ctrlTask ok).Orderly ∧
          (s.ctrlTask ok).ctrl.Awaits cycle) ∧ ((s.ctrlTask ok).toGrant cycle < s.toGrant cycle ∨
            (s.ctrlTask ok).toGrant cycle = s.toGrant cycle ∧
              (s.ctrlTask ok).helper cycle = s.helper cycle ∧
              (CanStep.ctrl ok).task ≠ some (s.helper cycle)) := by
      refine .inr ⟨⟨h', hw'⟩, .inr ⟨toGrant_congr hechoes (.inl hne), ?_, fun heq => ?_⟩⟩
      · rw [helper, helper, hrx, htx]
      · exact helper_ne_ctrl hne (Option.some.inj heq).symm
    rcases ctrlTask_wait hw hg with hdone | ⟨hpc, hpc', hack⟩ | ⟨hpc, hne⟩
    · exact .inl hdone
    · have hw' := CtrlPc.awaits_iff.2 (.inr hpc')
      by_cases hzero : s.toEchoes cycle = 0
      · -- the first acknowledgement has been read, and the second one is there
        refine .inr ⟨⟨h', hw'⟩, .inl ?_⟩
        rw [toGrant, toGrant, hechoes, if_pos hzero, if_pos hzero, hpc, hpc']
        exact Nat.zero_lt_one
      · exact hwaits hw' hzero
    · exact hwaits (CtrlPc.awaits_iff.2 (.inl hpc)) hne
  | host | command | success | failure | busOff | recovered =>
    obtain ⟨hctrl, hrx, htx⟩ := left_environment cycle hst rfl
    exact hsame hctrl (hrx _) (htx _) (by simp [CanStep.task])

/-- For how long a step blocks `twai_rx_task` before it has echoed the cycle. -/
def rxBlocked (cycle : UInt32) (s : CanState) : CanStep → ℕ
  | .rx => if s.rxAck = cycle then 0 else s.rx.blockMs
  | _ => 0

/-- For how long a step blocks `can_tx_task` before it has echoed the cycle. -/
def txBlocked (cycle : UInt32) (s : CanState) : CanStep → ℕ
  | .tx _ => if s.txAck = cycle then 0 else s.tx.blockMs
  | _ => 0

/-- While `ctrl_task` waits, what blocks the tasks comes off what they have before them. -/
theorem Orderly.blocked (h : s.Orderly) (hw : s.ctrl.Awaits cycle) (hst : s.step l = some s') :
    s'.Orderly ∧ s.rxBlocked cycle l + s'.rxLeft RxPc.blockMs cycle ≤ s.rxLeft RxPc.blockMs cycle ∧
      s.txBlocked cycle l + s'.txLeft TxPc.blockMs cycle ≤ s.txLeft TxPc.blockMs cycle := by
  have h' := h.step hst (freshCycle_of_awaits hw)
  refine ⟨h', ?_⟩
  cases l with
  | rx =>
    obtain rfl := Option.some.inj hst
    refine ⟨h.rxLeft_twaiRxTask hw RxPc.blockMs, ?_⟩
    rw [s.txLeft_twaiRxTask TxPc.blockMs cycle]
    exact Nat.le_of_eq (Nat.zero_add _)
  | tx answer =>
    obtain rfl := Option.some.inj hst
    refine ⟨?_, h.txLeft_canTxTask hw TxPc.blockMs answer⟩
    rw [s.rxLeft_canTxTask RxPc.blockMs cycle answer]
    exact Nat.le_of_eq (Nat.zero_add _)
  | ctrl ok =>
    obtain rfl := Option.some.inj hst
    rw [ctrlTask_awaits hw ok]
    exact ⟨Nat.le_of_eq (Nat.zero_add _), Nat.le_of_eq (Nat.zero_add _)⟩
  | host | command | success | failure | busOff | recovered =>
    obtain ⟨-, hrx, htx⟩ := left_environment cycle hst rfl
    rw [hrx, htx]
    exact ⟨Nat.le_of_eq (Nat.zero_add _), Nat.le_of_eq (Nat.zero_add _)⟩

theorem rxLeft_blockMs_le (s : CanState) (cycle : UInt32) : s.rxLeft RxPc.blockMs cycle ≤ 22 := by
  unfold rxLeft
  split
  · exact Nat.zero_le _
  cases s.rx <;> simp only [RxPc.toEcho, RxPc.blockMs, twaiCallTimeoutMs, twaiBackoffMs,
    quiescePollMs] <;> repeat' split
  all_goals omega

/-- The events are drained without a wait. -/
theorem txLeft_blockMs_le (s : CanState) (cycle : UInt32) : s.txLeft TxPc.blockMs cycle ≤ 100 := by
  unfold txLeft
  split
  · exact Nat.zero_le _
  cases s.tx <;> simp only [TxPc.toEcho, TxPc.blockMs, twaiCallTimeoutMs, twaiBackoffMs,
    canTxConfirmSliceMs, quiescePollMs, Nat.mul_zero] <;> repeat' split
  all_goals omega

end CanState

/-- **The tasks park in time.**  In every run in which no cycle reuses a number that an
acknowledgement still shows, from every state in which `ctrl_task` waits for the echoes of a cycle:
if the three tasks go on in any order, then `ctrl_quiesce_begin()` has returned true after at most
eighteen rounds of them, unless its time is over before; and as long as it waits, the calls of
`twai_rx_task`, and those of `can_tx_task`, that come before its echo block it for no more than a
fifth of that time. -/
theorem quiesce_granted {dev : DevState} {ls : List CanStep} {s : CanState}
    (hrun : (canSystem.guard FreshCycle).Run (.init dev) ls s) {cycle : UInt32}
    (hw : s.ctrl.Awaits cycle) {ls' : List CanStep} {s' : CanState} :
    ((canSystem.guard TimeLeft).Run s ls' s' → Rounds CanStep.task 18 ls' →
      (canSystem.guard TimeLeft).Through (fun t => t.ctrl = .clear) s ls' s') ∧
    (∀ ms, ((canSystem.guard fun t _ => t.ctrl.Awaits cycle).withAux
        fun t l ms => ms + t.rxBlocked cycle l).Run (s, 0) ls' (s', ms) →
      5 * ms ≤ quiesceWaitMs) ∧
    ∀ ms, ((canSystem.guard fun t _ => t.ctrl.Awaits cycle).withAux
        fun t l ms => ms + t.txBlocked cycle l).Run (s, 0) ls' (s', ms) →
      5 * ms ≤ quiesceWaitMs := by
  have h := orderly_of_run hrun
  refine ⟨fun hrun' hrounds => ?_, fun ms hrun' => ?_, fun ms hrun' => ?_⟩
  · exact (CanState.waits_rank cycle).reaches hrounds hrun' ⟨h, hw⟩
      (Nat.lt_succ_of_le (h.toGrant_le cycle))
  · have hle := (hrun'.spends (CanState.rxLeft RxPc.blockMs cycle) h
      fun t l t' ht hst => (ht.blocked hst.1 hst.2).imp_right And.left).2
    have hbudget := s.rxLeft_blockMs_le cycle
    dsimp only at hle
    rw [quiesceWaitMs]
    omega
  · have hle := (hrun'.spends (CanState.txLeft TxPc.blockMs cycle) h
      fun t l t' ht hst => (ht.blocked hst.1 hst.2).imp_right And.right).2
    have hbudget := s.txLeft_blockMs_le cycle
    dsimp only at hle
    rw [quiesceWaitMs]
    omega

/-- `ctrl_task` waits for the echoes of its first cycle, while both tasks are in a call. -/
def firstWait : Option (CanState × Unit) :=
  System.exec CanState.step FreshCycle (fun _ _ x => x) (.init ⟨500000, false, true, true⟩, ())
    ([.rx, .tx .accept] ++ ctrls 3)

/-- Each turn of the three tasks is a round. -/
theorem rounds_turns (n : ℕ) :
    Rounds CanStep.task n (List.replicate n [.rx, .tx .timeout, .ctrl true]).flatten := by
  refine .flatten_replicate n fun who => ?_
  cases who <;> simp [CanStep.task]

/-- The three tasks take turns. -/
def turns : List CanStep := (List.replicate 18 [.rx, .tx .timeout, .ctrl true]).flatten

/-- They do so while time is left. -/
def takeTurns (s : CanState) : Option (CanState × Unit) :=
  System.exec CanState.step TimeLeft (fun _ _ x => x) (s, ()) turns

/-- `can_tx_task` goes on alone until it has echoed; for how long it is blocked. -/
def parkTx (s : CanState) : Option (CanState × ℕ) :=
  System.exec CanState.step (fun t _ => t.ctrl.Awaits 1) (fun t l ms => ms + t.txBlocked 1 l) (s, 0)
    (txs 3)

theorem quiesce_granted_firstWait :
    ∃ p q t, firstWait = some p ∧ takeTurns p.1 = some q ∧ parkTx p.1 = some t ∧ t.2 = 20 ∧
      (canSystem.guard TimeLeft).Through (fun t => t.ctrl = .clear) p.1 turns q.1 ∧
      5 * t.2 ≤ quiesceWaitMs := by
  have hpc : firstWait.map (fun p => (p.1.ctrl.phase, (takeTurns p.1).isSome,
      (parkTx p.1).map Prod.snd)) = some (.first 1, true, some 20) := by
    decide +kernel
  obtain ⟨p, hp, hpc⟩ := Option.map_eq_some_iff.1 hpc
  obtain ⟨hphase, hpc⟩ := Prod.mk.inj hpc
  obtain ⟨hsome, hpark⟩ := Prod.mk.inj hpc
  obtain ⟨q, hq⟩ := Option.isSome_iff_exists.1 hsome
  obtain ⟨t, ht, hms⟩ := Option.map_eq_some_iff.1 hpark
  have hrun := (System.Run.of_exec hp).of_withAux
  exact ⟨p, q, t, hp, hq, ht, hms,
    (quiesce_granted hrun (.inl hphase)).1 (System.Run.of_exec hq).of_withAux (rounds_turns 18),
    (quiesce_granted hrun (.inl hphase)).2.2 t.2 (System.Run.of_exec ht)⟩

end Bridge

end Espcan32
