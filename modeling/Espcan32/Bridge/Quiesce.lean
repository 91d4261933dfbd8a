import Espcan32.Bridge.CanPath

/-!
# The quiesce handshake

`ctrl_task` may only tear the driver down while `twai_rx_task` and `can_tx_task` are outside every
call of it.  It announces a cycle with an odd number in `s_quiesce_seq`, waits until both tasks
have echoed this number, and ends the cycle with the next, even, number.

* `CanState.handshake_step` : an echo of the open cycle means that the task is in its park loop, as
  long as no cycle reuses a number that an acknowledgement still shows (`FreshCycle`).
* `CanState.numbered_step` : fewer than `2 ^ 31` cycles never reuse a number.
* `teardown_safe` : **the driver is only torn down while both tasks are parked**.
-/

namespace Espcan32

namespace Bridge

open Twai

/-- Where `ctrl_task` is in the handshake. -/
def CtrlPc.phase : CtrlPc → Phase UInt32
  | .boot | .top | .begin => .closed
  | .awaitRx cycle => .first cycle
  | .awaitTx cycle => .second cycle
  | .giveUp => .gaveUp
  | .clear | .snapshot | .stop _ | .uninstall _ | .install _ | .postAbort | .finish => .granted
  | .readAlerts q | .recover q _ | .restart q _ | .postOutcome q _ | .postBusOff q _ =>
    if q then .granted else .closed

/-- Between a true result of `ctrl_quiesce_begin()` and the end of the cycle. -/
def CtrlPc.Quiesced (pc : CtrlPc) : Prop := pc.phase = .granted

@[simp] theorem afterAlerts_phase (q : Bool) :
    (CanState.afterAlerts q).phase = if q then .granted else .closed := by
  cases q <;> rfl

@[simp] theorem afterStop_phase (c : Option Config) : (CanState.afterStop c).phase = .granted := by
  cases c <;> rfl

/-! ### The request word -/

theorem parkRequested_iff {cycle : UInt32} : ParkRequested cycle ↔ cycle.toNat % 2 = 1 := by
  rw [ParkRequested, Ne, ← UInt32.toNat_inj, UInt32.toNat_and]
  show ¬ cycle.toNat &&& 1 = 0 ↔ _
  rw [Nat.and_one_is_mod]
  omega

theorem parkRequested_succ {cycle : UInt32} : ParkRequested (cycle + 1) ↔ ¬ ParkRequested cycle := by
  rw [parkRequested_iff, parkRequested_iff, UInt32.toNat_add]
  show (cycle.toNat + 1) % 2 ^ 32 % 2 = 1 ↔ _
  omega

/-- Numbers below the last do not wrap. -/
theorem toNat_succ (cycle : UInt32) (h : cycle.toNat < 2 ^ 32 - 1) :
    (cycle + 1).toNat = cycle.toNat + 1 := by
  rw [UInt32.toNat_add]
  exact Nat.mod_eq_of_lt (by show cycle.toNat + 1 < 2 ^ 32; omega)

/-! ### The tasks as parkings -/

namespace CanState

variable (s : CanState)

/-- `twai_rx_task` in the handshake. -/
def rxParking : Parking UInt32 := ⟨s.rxAck, s.rx.place⟩

/-- `can_tx_task` in the handshake. -/
def txParking : Parking UInt32 := ⟨s.txAck, s.tx.place⟩

theorem twaiRxTask_move : s.rxParking.Move ParkRequested s.seq s.twaiRxTask.rxParking := by
  unfold twaiRxTask rxParking
  cases hrx : s.rx with
  | top =>
    by_cases h : ParkRequested s.seq
    · simpa [h, RxPc.place] using Parking.Move.enter h
    · simpa [h, RxPc.place] using Parking.Move.work
  | receive => exact .work
  | echo cycle => exact .echo
  | parked =>
    by_cases h : ParkRequested s.seq
    · simpa [h, RxPc.place] using Parking.Move.again h
    · simpa [h, RxPc.place] using Parking.Move.leave h

/-- What `can_tx_task` never writes. -/
theorem canTxTask_frame (answer : TwaiAnswer) :
    (s.canTxTask answer).seq = s.seq ∧ (s.canTxTask answer).rxParking = s.rxParking ∧
      (s.canTxTask answer).ctrl = s.ctrl ∧ (s.canTxTask answer).posts = s.posts ∧
      (s.canTxTask answer).lost = s.lost := by
  unfold canTxTask
  repeat' split
  all_goals exact ⟨rfl, rfl, rfl, rfl, rfl⟩

theorem txNext_place : s.txNext.place = .out := by
  unfold txNext
  split <;> rfl

theorem canTxTask_move (answer : TwaiAnswer) :
    s.txParking.Move ParkRequested s.seq (s.canTxTask answer).txParking := by
  cases htx : s.tx with
  | top =>
    by_cases h : ParkRequested s.seq
    · simpa [canTxTask, txParking, htx, h, TxPc.place] using Parking.Move.enter h
    · refine .of_out (by simp [txParking, htx, TxPc.place]) ?_ (by simp [canTxTask, txParking, htx])
      cases hp : s.pending <;>
        simp only [canTxTask, txParking, htx, h, hp, if_false, Option.isNone_none,
          Option.isNone_some, if_true, txNext_place, Bool.false_eq_true]
      rfl
  | echo cycle => simpa [canTxTask, txParking, htx, TxPc.place] using Parking.Move.echo
  | parked =>
    by_cases h : ParkRequested s.seq
    · simpa [canTxTask, txParking, htx, h, TxPc.place] using Parking.Move.again h
    · simpa [canTxTask, txParking, htx, h, TxPc.place] using Parking.Move.leave h
  | pop | drain | transmit | confirm =>
    -- the task works: it stays outside its loop and leaves its acknowledgement alone
    have hout : (s.canTxTask answer).tx.place = .out ∧ (s.canTxTask answer).txAck = s.txAck := by
      unfold canTxTask
      rw [htx]
      dsimp only
      repeat' split
      all_goals first | exact ⟨rfl, rfl⟩ | exact ⟨s.txNext_place, rfl⟩
    exact .of_out (by simp [txParking, htx, TxPc.place]) hout.1 hout.2

/-! ### The requester -/

/-- The driver calls of `ctrl_task` touch neither the tasks nor the request. -/
@[simp] theorem discarding_seq (f : Driver Copy → Driver Copy × List Copy) :
    (s.discarding f).seq = s.seq := by
  unfold discarding; split <;> rfl

/-- What `ctrl_task` never writes. -/
theorem ctrlTask_frame (ok : Bool) :
    (s.ctrlTask ok).rxParking = s.rxParking ∧ (s.ctrlTask ok).txParking = s.txParking ∧
      (s.ctrlTask ok).pending = s.pending ∧ (s.ctrlTask ok).inflight = s.inflight ∧
      (s.ctrlTask ok).tx = s.tx ∧ (s.ctrlTask ok).pops = s.pops ∧
      (s.ctrlTask ok).subs = s.subs := by
  unfold ctrlTask sendAbort send discarding Option.elim
  repeat' split
  all_goals exact ⟨rfl, rfl, rfl, rfl, rfl, rfl, rfl⟩

theorem ctrlTask_move (ok : Bool) :
    s.ctrl.phase.Move (· + 1) s.rxParking s.txParking s.seq (s.ctrlTask ok).seq
      (s.ctrlTask ok).ctrl.phase := by
  unfold ctrlTask
  cases hpc : s.ctrl <;> dsimp only
  case boot | clear | snapshot | install | postAbort => exact .stay
  case top => split <;> exact .stay
  case begin => exact .announce
  case awaitRx cycle =>
    by_cases hack : s.rxAck = cycle
    · rw [if_pos hack]; exact .first hack
    · rw [if_neg hack]
      cases ok
      · exact .timeout₁
      · exact .stay
  case awaitTx cycle =>
    by_cases hack : s.txAck = cycle
    · rw [if_pos hack]; exact .second hack
    · rw [if_neg hack]
      cases ok
      · exact .timeout₂
      · exact .again
  case giveUp => exact .withdraw
  case readAlerts q => cases s.hal.driver <;> cases q <;> exact .stay
  case recover q a =>
    split
    · rw [discarding_seq]; exact .stay
    · exact .stay
  case restart q a => split <;> exact .stay
  case postOutcome q a => cases s.posting <;> exact .stay
  case postBusOff q a => split <;> cases q <;> exact .stay
  case stop c =>
    split
    · cases c <;> exact .stay
    · rw [discarding_seq]; exact .stay
  case uninstall c =>
    split
    · cases c <;> exact .stay
    · split <;> cases c <;> exact .stay
  case finish => exact .finish

/-- `ctrl_task` opens a cycle at one place. -/
theorem ctrlTask_opens (ok : Bool) (hne : s.ctrl ≠ .begin) :
    (s.ctrlTask ok).ctrl.phase.opens - s.ctrl.phase.opens = 0 := by
  unfold ctrlTask
  cases hpc : s.ctrl <;> dsimp only
  case begin => exact absurd hpc hne
  case boot | clear | snapshot | install | postAbort | giveUp | finish => rfl
  case top => split <;> rfl
  case awaitRx | awaitTx => repeat' split
                            all_goals rfl
  case readAlerts q => cases s.hal.driver <;> cases q <;> rfl
  case recover q a | restart q a | postOutcome q a => cases q <;> rfl
  case postBusOff q a => cases q <;> rfl
  case stop c => split <;> cases c <;> rfl
  case uninstall c =>
    split
    · cases c <;> rfl
    · split <;> cases c <;> rfl

/-- A move of the controller changes the driver only. -/
theorem controller_eq {s s' : CanState} {f : Driver Copy → Option (Driver Copy)}
    (h : s.controller f = some s') :
    ∃ d d', s.hal.driver = some d ∧ f d = some d' ∧
      s' = { s with hal := { s.hal with driver := some d' } } := by
  obtain ⟨d', hd', rfl⟩ := Option.map_eq_some_iff.1 h
  obtain ⟨d, hd, hf⟩ := Option.bind_eq_some_iff.1 hd'
  exact ⟨d, d', hd, hf, rfl⟩

/-! ### The handshake -/

/-- The state in terms of the handshake. -/
def Shaken : Prop := Handshake ParkRequested s.seq s.ctrl.phase s.rxParking s.txParking

/-- The numbers in use after `n` cycles. -/
def CyclesCounted (n : ℕ) : Prop :=
  Numbered UInt32.toNat n s.seq s.ctrl.phase s.rxParking s.txParking

end CanState

/-- A new cycle does not reuse a number that an acknowledgement still shows. -/
def FreshCycle (s : CanState) : CanStep → Prop
  | .ctrl _ =>
    match s.ctrl with
    | .begin => s.rxAck ≠ s.seq + 1 ∧ s.txAck ≠ s.seq + 1
    | _ => True
  | _ => True

instance (s : CanState) (l : CanStep) : Decidable (FreshCycle s l) := by
  unfold FreshCycle
  split
  · split <;> infer_instance
  · infer_instance

namespace CanState

variable {s s' : CanState} {l : CanStep}

/-- A step that is none of a task. -/
theorem step_environment (hst : s.step l = some s') (hrx : l ≠ .rx) (htx : ∀ a, l ≠ .tx a)
    (hctrl : ∀ ok, l ≠ .ctrl ok) :
    s'.seq = s.seq ∧ s'.ctrl = s.ctrl ∧ s'.rxParking = s.rxParking ∧ s'.txParking = s.txParking := by
  cases l with
  | host f lock => obtain rfl := Option.some.inj hst; exact ⟨rfl, rfl, rfl, rfl⟩
  | command dev => obtain rfl := Option.some.inj hst; exact ⟨rfl, rfl, rfl, rfl⟩
  | rx => exact absurd rfl hrx
  | tx answer => exact absurd rfl (htx answer)
  | ctrl ok => exact absurd rfl (hctrl ok)
  | success | failure | busOff | recovered =>
    obtain ⟨d, d', -, -, rfl⟩ := controller_eq hst
    exact ⟨rfl, rfl, rfl, rfl⟩

theorem twaiRxTask_frame (s : CanState) :
    s.twaiRxTask.seq = s.seq ∧ s.twaiRxTask.ctrl = s.ctrl ∧
      s.twaiRxTask.txParking = s.txParking := by
  unfold twaiRxTask
  cases s.rx <;> exact ⟨rfl, rfl, rfl⟩

theorem handshake_step (h : s.Shaken) (hst : s.step l = some s') (hf : FreshCycle s l) :
    s'.Shaken := by
  unfold Shaken at h ⊢
  cases l with
  | rx =>
    obtain rfl := Option.some.inj hst
    obtain ⟨hseq, hctrl, htx⟩ := s.twaiRxTask_frame
    rw [hseq, hctrl, htx]
    exact h.first s.twaiRxTask_move
  | tx answer =>
    obtain rfl := Option.some.inj hst
    obtain ⟨hseq, hrx, hctrl, -⟩ := s.canTxTask_frame answer
    rw [hseq, hrx, hctrl]
    exact h.second (s.canTxTask_move answer)
  | ctrl ok =>
    obtain rfl := Option.some.inj hst
    obtain ⟨hrx, htx, -⟩ := s.ctrlTask_frame ok
    rw [hrx, htx]
    refine h.request (fun _ => parkRequested_succ) (s.ctrlTask_move ok) fun hopen => ?_
    by_cases hb : s.ctrl = .begin
    · rw [FreshCycle, hb] at hf
      exact hf
    · have := s.ctrlTask_opens ok hb
      omega
  | host | command | success | failure | busOff | recovered =>
    obtain ⟨hseq, hctrl, hrx, htx⟩ := step_environment hst (by simp) (by simp) (by simp)
    rwa [hseq, hctrl, hrx, htx]

/-- The cycles that a step of `ctrl_task` opens are counted. -/
theorem canRecord_begins (s : CanState) (ok : Bool) (r : CanRecord) :
    (canRecord s (.ctrl ok) r).begins =
      r.begins + ((s.ctrlTask ok).ctrl.phase.opens - s.ctrl.phase.opens) := by
  by_cases hb : s.ctrl = .begin
  · simp only [canRecord, ctrlTask, hb]; rfl
  · rw [s.ctrlTask_opens ok hb, canRecord]
    split
    · exact absurd ‹_› hb
    · rfl
    · rfl

/-- The other tasks open none. -/
theorem canRecord_begins_other (s : CanState) (r : CanRecord) (hctrl : ∀ ok, l ≠ .ctrl ok) :
    (canRecord s l r).begins = r.begins := by
  cases l with
  | ctrl ok => exact absurd rfl (hctrl ok)
  | tx answer => simp only [canRecord]; repeat' split
                 all_goals rfl
  | success => simp only [canRecord]; split <;> rfl
  | host | command | rx | failure | busOff | recovered => rfl

theorem numbered_step {r : CanRecord} (h : s.CyclesCounted r.begins) (hst : s.step l = some s')
    (hr : (canRecord s l r).begins < 2 ^ 31) : s'.CyclesCounted (canRecord s l r).begins := by
  unfold CyclesCounted at h ⊢
  cases l with
  | rx =>
    obtain rfl := Option.some.inj hst
    obtain ⟨hseq, hctrl, htx⟩ := s.twaiRxTask_frame
    rw [hseq, hctrl, htx]
    exact ⟨h.count, h.first.move (le_refl _) s.twaiRxTask_move, h.second⟩
  | tx answer =>
    obtain rfl := Option.some.inj hst
    obtain ⟨hseq, hrx, hctrl, -⟩ := s.canTxTask_frame answer
    rw [hseq, hrx, hctrl, canRecord_begins_other s r (by simp)]
    exact ⟨h.count, h.first, h.second.move (le_refl _) (s.canTxTask_move answer)⟩
  | ctrl ok =>
    obtain rfl := Option.some.inj hst
    obtain ⟨hrx, htx, -⟩ := s.ctrlTask_frame ok
    rw [hrx, htx]
    exact h.request toNat_succ (s.ctrlTask_move ok) (canRecord_begins s ok r) (by omega)
  | host | command | success | failure | busOff | recovered =>
    obtain ⟨hseq, hctrl, hrx, htx⟩ := step_environment hst (by simp) (by simp) (by simp)
    rw [hseq, hctrl, hrx, htx]
    rw [canRecord_begins_other s r (by simp)]
    exact h

/-- Counted cycles are fresh. -/
theorem CyclesCounted.freshCycle {r : CanRecord} (h : s.CyclesCounted r.begins)
    (hr : (canRecord s l r).begins < 2 ^ 31) : FreshCycle s l := by
  unfold FreshCycle
  split
  · rename_i ok
    split
    · rename_i hb
      have hbegins : (canRecord s (.ctrl ok) r).begins = r.begins + 1 := by simp only [canRecord, hb]
      have hc := h.count
      refine h.fresh (· + 1) ?_
      rw [toNat_succ _ (by omega)]
      exact Nat.lt_succ_self _
    · trivial
  · trivial

/-- The first state. -/
theorem shaken_init (dev : DevState) : (init dev).Shaken := by
  show ¬ ParkRequested 0
  decide

theorem cyclesCounted_init (dev : DevState) : (init dev).CyclesCounted 0 where
  count := rfl
  first := ⟨Nat.le_refl _, fun c hc => by cases hc⟩
  second := ⟨Nat.le_refl _, fun c hc => by cases hc⟩

/-- In the quiesced section both tasks are outside the calls of the driver. -/
theorem Shaken.outside (h : s.Shaken) (hq : s.ctrl.Quiesced) : s.rx ≠ .receive ∧ s.tx ≠ .transmit := by
  unfold Shaken at h
  rw [show s.ctrl.phase = .granted from hq] at h
  obtain ⟨-, hrx, htx⟩ := h
  refine ⟨fun h => hrx ?_, fun h => htx ?_⟩
  · rw [rxParking, h]; rfl
  · rw [txParking, h]; rfl

/-- No step from there enters one. -/
theorem Shaken.outside_step (h : s.Shaken) (hq : s.ctrl.Quiesced) (hst : s.step l = some s') :
    s'.rx ≠ .receive ∧ s'.tx ≠ .transmit := by
  have hother (hctrl : ∀ ok, l ≠ .ctrl ok) (hpc : s'.ctrl = s.ctrl) :
      s'.rx ≠ .receive ∧ s'.tx ≠ .transmit := by
    refine (handshake_step h hst ?_).outside (by rw [hpc]; exact hq)
    unfold FreshCycle
    split
    · exact absurd rfl (hctrl _)
    · trivial
  cases l with
  | ctrl ok =>
    -- the task leaves the section, perhaps, but the others have not moved
    obtain rfl := Option.some.inj hst
    obtain ⟨hrx, htx, -⟩ := s.ctrlTask_frame ok
    have hrx' : (s.ctrlTask ok).rx.place = s.rx.place := congrArg Parking.place hrx
    have htx' : (s.ctrlTask ok).tx.place = s.tx.place := congrArg Parking.place htx
    unfold Shaken at h
    rw [show s.ctrl.phase = .granted from hq] at h
    obtain ⟨-, hrx, htx⟩ := h
    refine ⟨fun h => hrx ?_, fun h => htx ?_⟩
    · show s.rx.place = .out
      rw [← hrx', h]; rfl
    · show s.tx.place = .out
      rw [← htx', h]; rfl
  | rx =>
    refine hother (by simp) ?_
    obtain rfl := Option.some.inj hst
    exact s.twaiRxTask_frame.2.1
  | tx answer =>
    refine hother (by simp) ?_
    obtain rfl := Option.some.inj hst
    exact (s.canTxTask_frame answer).2.2.1
  | host | command | success | failure | busOff | recovered =>
    exact hother (by simp) (step_environment hst (by simp) (by simp) (by simp)).2.1

end CanState

/-! ### Runs -/

/-- Runs of fewer than `2 ^ 31` cycles keep the handshake. -/
theorem shaken_of_run {dev : DevState} {ls : List CanStep} {s : CanState} {r : CanRecord}
    (hrun : (canSystem.withAux canRecord).Run (.init dev, .none) ls (s, r))
    (hn : r.begins < 2 ^ 31) : s.CyclesCounted r.begins ∧ s.Shaken := by
  refine hrun.invariant
    (I := fun p => p.2.begins < 2 ^ 31 → p.1.CyclesCounted p.2.begins ∧ p.1.Shaken)
    (fun _ => ⟨CanState.cyclesCounted_init dev, CanState.shaken_init dev⟩) ?_ hn
  rintro ⟨s, r⟩ l ⟨s', r'⟩ ih ⟨hst, hr⟩ hn
  dsimp only at hst hr ih hn ⊢
  subst hr
  have hle : r.begins ≤ (canRecord s l r).begins := by
    by_cases hctrl : ∀ ok, l ≠ .ctrl ok
    · rw [CanState.canRecord_begins_other s r hctrl]
    · obtain ⟨ok, hok⟩ := not_forall.1 hctrl
      obtain rfl := not_not.1 hok
      rw [CanState.canRecord_begins]
      exact Nat.le_add_right _ _
  obtain ⟨hc, hs⟩ := ih (Nat.lt_of_le_of_lt hle hn)
  exact ⟨CanState.numbered_step hc hst hn, CanState.handshake_step hs hst (hc.freshCycle hn)⟩

/-- **The driver is only torn down while both tasks are parked.**  In every run of fewer than
`2 ^ 31` quiesce cycles, while `ctrl_task` is between a true result of `ctrl_quiesce_begin()` and
the end of the cycle, neither task is inside a call of the driver, and no step enters one. -/
theorem teardown_safe {dev : DevState} {ls : List CanStep} {s : CanState} {r : CanRecord}
    (hrun : (canSystem.withAux canRecord).Run (.init dev, .none) ls (s, r))
    (hn : r.begins < 2 ^ 31) (hq : s.ctrl.Quiesced) :
    (s.rx ≠ .receive ∧ s.tx ≠ .transmit) ∧
      ∀ l s', canSystem.step s l s' → s'.rx ≠ .receive ∧ s'.tx ≠ .transmit := by
  have h := (shaken_of_run hrun hn).2
  exact ⟨h.outside hq, fun l s' hst => h.outside_step hq hst⟩

/-- `ctrl_task` moves `n` times. -/
def ctrls (n : ℕ) : List CanStep := List.replicate n (.ctrl true)

/-- `can_tx_task` moves `n` times, with a driver that has room. -/
def txs (n : ℕ) : List CanStep := List.replicate n (.tx .accept)

/-- Both tasks echo the open cycle. -/
def parking : List CanStep := [.rx, .rx] ++ txs 2

/-- A first cycle times out before the tasks have seen it; in the second one they park, and
`ctrl_task` goes on to uninstall the driver. -/
def secondCycle : Option (CanState × CanRecord) :=
  System.exec CanState.step (fun _ _ => True) canRecord
    (.init ⟨500000, false, true, true⟩, .none)
    ([.ctrl true, .ctrl true, .rx, .ctrl true, .ctrl false, .ctrl true, .ctrl true, .ctrl true,
      .ctrl true, .ctrl true, .ctrl true, .ctrl true, .ctrl true, .rx, .rx, .rx, .rx,
      .tx .accept, .tx .accept] ++ List.replicate 10 (.ctrl true))

theorem teardown_safe_secondCycle :
    ∃ p, secondCycle = some p ∧ p.2.begins = 2 ∧ p.1.ctrl.phase = .granted ∧
      (p.1.rx ≠ .receive ∧ p.1.tx ≠ .transmit) ∧
      ∀ l s', canSystem.step p.1 l s' → s'.rx ≠ .receive ∧ s'.tx ≠ .transmit := by
  have hpc : secondCycle.map (fun p => (p.2.begins, p.1.ctrl.phase)) = some (2, .granted) := by
    decide +kernel
  obtain ⟨⟨s, r⟩, h, hpc⟩ := Option.map_eq_some_iff.1 hpc
  obtain ⟨hn, hq⟩ := Prod.mk.inj hpc
  have hrun := (System.Run.of_exec h).of_guard_withAux
  exact ⟨(s, r), h, hn, hq, teardown_safe hrun (by rw [show r.begins = 2 from hn]; decide) hq⟩

end Bridge

end Espcan32
