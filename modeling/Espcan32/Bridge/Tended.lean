import Espcan32.Bridge.Passes

/-!
# The driver is looked after

A controller that goes bus-off, or that has recovered from it, latches an alert, and stays in this
state until `ctrl_task` has read the alert and acted on it.  Copies that the driver has discarded
are on the mind of `ctrl_task` until it posts an abort.

* `CtrlPc.Tends` : what the place of `ctrl_task` and the driver say about each other.
* `CanState.Tended` : the invariant.
* `Tended.step` : every step keeps it.
-/

namespace Espcan32

namespace Bridge

open Pcan Twai

namespace CtrlPc

/-- `ctrl_task` has read that the controller is bus-off, and is about to start the recovery. -/
def readOff : CtrlPc → Bool
  | .recover _ a => a.busOff
  | _ => false

/-- `ctrl_task` has read that the bus has recovered, and is about to start the driver. -/
def readBack : CtrlPc → Bool
  | .recover _ a | .restart _ a => a.busRecovered
  | _ => false

/-- `ctrl_task` has stopped the driver, and is about to uninstall it. -/
def closes : CtrlPc → Bool
  | .uninstall _ => true
  | _ => false

/-- `ctrl_task` is about to post an abort for what the driver has discarded. -/
def Aborts : CtrlPc → Prop
  | .restart _ a | .postOutcome _ a | .postBusOff _ a => a.busOff = true
  | .uninstall _ | .install _ | .postAbort => True
  | _ => False

/-- What the place of `ctrl_task` and an installed driver say about each other. -/
structure Tends (pc : CtrlPc) (d : Driver Copy) : Prop where
  off : d.state = .busOff ↔ d.alerts.busOff = true ∨ pc.readOff = true
  offOnce : pc.readOff = true → d.alerts.busOff = false
  back : d.alerts.busRecovered = true ∨ pc.readBack = true → d.state = .stopped
  backOnce : pc.readBack = true → d.alerts.busRecovered = false
  stopped : d.state = .stopped →
    d.alerts.busRecovered = true ∨ pc.readBack = true ∨ pc.closes = true
  empty : d.state = .stopped ∨ d.state = .recovering → d.queue = []

namespace Tends

variable {pc pc' : CtrlPc} {d d' : Driver Copy}

/-- The driver is left alone. -/
theorem keep (h : pc.Tends d) (hoff : pc'.readOff = pc.readOff) (hback : pc'.readBack = pc.readBack)
    (hcloses : pc'.closes = pc.closes) : pc'.Tends d := by
  refine ⟨?_, ?_, ?_, ?_, ?_, h.empty⟩
  · rw [hoff]; exact h.off
  · rw [hoff]; exact h.offOnce
  · rw [hback]; exact h.back
  · rw [hback]; exact h.backOnce
  · rw [hback, hcloses]; exact h.stopped

/-- A running driver has nothing that concerns `ctrl_task`. -/
theorem running (hst : d.state = .running) (hoff : d.alerts.busOff = false)
    (hback : d.alerts.busRecovered = false) (hpc : pc.readOff = false)
    (hpc' : pc.readBack = false) : pc.Tends d := by
  refine ⟨?_, fun _ => hoff, ?_, fun _ => hback, ?_, ?_⟩
  · rw [hst, hoff, hpc]; simp
  · rw [hback, hpc']; simp
  · rw [hst]; simp
  · rw [hst]; simp

/-- While the driver runs, neither of the two alerts is latched or read. -/
theorem of_running (h : pc.Tends d) (hst : d.state = .running) :
    d.alerts.busOff = false ∧ d.alerts.busRecovered = false ∧ pc.readOff = false ∧
      pc.readBack = false := by
  have hoff : ¬(d.alerts.busOff = true ∨ pc.readOff = true) := fun ho => by
    have := hst.symm.trans (h.off.2 ho)
    cases this
  have hback : ¬(d.alerts.busRecovered = true ∨ pc.readBack = true) := fun hb => by
    have := hst.symm.trans (h.back hb)
    cases this
  rw [not_or, Bool.not_eq_true, Bool.not_eq_true] at hoff hback
  exact ⟨hoff.1, hback.1, hoff.2, hback.2⟩

/-- The controller moves. -/
theorem move (h : pc.Tends d) (hm : d.Move d') : pc.Tends d' := by
  cases hm with
  | success hs =>
    obtain ⟨hst, rfl, -⟩ := Driver.success_eq hs
    obtain ⟨hoff, hback, hpc, hpc'⟩ := h.of_running hst
    exact running hst hoff hback hpc hpc'
  | failure hs =>
    obtain ⟨m, hst, rfl, -⟩ := Driver.failure_eq hs
    obtain ⟨hoff, hback, hpc, hpc'⟩ := h.of_running hst
    exact running hst hoff hback hpc hpc'
  | goBusOff hs =>
    obtain ⟨hst, rfl⟩ := Driver.goBusOff_eq hs
    obtain ⟨hoff, hback, hpc, hpc'⟩ := h.of_running hst
    refine ⟨?_, ?_, ?_, fun _ => hback, ?_, ?_⟩
    · simp
    · rw [hpc]; simp
    · rw [hpc']; simp [hback]
    · simp
    · simp
  | recovered hs =>
    obtain ⟨hst, rfl⟩ := Driver.recovered_eq hs
    have hoff : ¬(d.alerts.busOff = true ∨ pc.readOff = true) := fun ho => by
      have := hst.symm.trans (h.off.2 ho)
      cases this
    have hback : pc.readBack = false := by
      by_contra hb
      have := hst.symm.trans (h.back (.inr (Bool.not_eq_false _ ▸ hb)))
      cases this
    rw [not_or, Bool.not_eq_true, Bool.not_eq_true] at hoff
    refine ⟨?_, ?_, fun _ => rfl, ?_, fun _ => .inl rfl, fun _ => h.empty (.inr hst)⟩
    · simp [hoff]
    · rw [hoff.2]; simp
    · rw [hback]; simp

/-- `ctrl_task` takes up the alerts. -/
theorem readAlerts {q : Bool} (h : (CtrlPc.readAlerts q).Tends d) :
    (CtrlPc.recover q d.alerts).Tends d.readAlerts := by
  have hoff := h.off
  have hback := h.back
  have hstopped := h.stopped
  simp only [readOff, readBack, closes, Bool.false_eq_true, or_false] at hoff hback hstopped
  refine ⟨?_, fun _ => rfl, ?_, fun _ => rfl, fun hst => .inr (.inl (hstopped hst)), h.empty⟩
  · exact hoff.trans ⟨.inr, fun ho => ho.elim (fun hno => absurd hno Bool.false_ne_true) id⟩
  · exact fun hb => hb.elim (fun hno => absurd hno Bool.false_ne_true) hback

/-- `ctrl_task` starts the recovery. -/
theorem initiateRecovery {q : Bool} {a : Alerts Copy} (h : (CtrlPc.recover q a).Tends d)
    (ha : a.busOff = true) : (CtrlPc.restart q a).Tends d.initiateRecovery.1 := by
  have hst : d.state = .busOff := h.off.2 (.inr ha)
  have hback : ¬(d.alerts.busRecovered = true ∨ a.busRecovered = true) := fun hb => by
    have := hst.symm.trans (h.back hb)
    cases this
  rw [Driver.initiateRecovery, if_pos hst]
  refine ⟨?_, fun hno => absurd hno Bool.false_ne_true, fun hb => absurd hb hback,
    fun hb => absurd (.inr hb) hback, ?_, fun _ => rfl⟩
  · simp [h.offOnce ha, readOff]
  · simp

/-- `ctrl_task` starts the driver again. -/
theorem start {q : Bool} {a : Alerts Copy} (h : (CtrlPc.restart q a).Tends d)
    (ha : a.busRecovered = true) : (CtrlPc.postOutcome q a).Tends d.start := by
  have hst : d.state = .stopped := h.back (.inr ha)
  have hoff : d.alerts.busOff = false := by
    by_contra hno
    have := hst.symm.trans (h.off.2 (.inl (Bool.not_eq_false _ ▸ hno)))
    cases this
  rw [Driver.start, if_pos hst]
  exact running rfl hoff (h.backOnce ha) rfl rfl

/-- `ctrl_task` stops the driver, to uninstall it. -/
theorem stop {c : Option Config} (h : (CtrlPc.stop c).Tends d) :
    (CtrlPc.uninstall c).Tends d.stop.1 := by
  unfold Driver.stop
  split
  · obtain ⟨hoff, hback, -, -⟩ := h.of_running ‹_›
    exact ⟨by simp [hoff, readOff], fun _ => hoff, fun _ => rfl, fun _ => hback,
      fun _ => .inr (.inr rfl), fun _ => rfl⟩
  · exact ⟨h.off, h.offOnce, h.back, h.backOnce, fun _ => .inr (.inr rfl), h.empty⟩

/-- A driver that is not uninstalled is recovering. -/
theorem refused {c : Option Config} (h : (CtrlPc.uninstall c).Tends d) (hno : ¬d.CanUninstall) :
    CtrlPc.postAbort.Tends d :=
  ⟨h.off, h.offOnce, h.back, h.backOnce, fun hst => absurd (.inl hst) hno, h.empty⟩

end Tends

end CtrlPc

namespace CanState

/-- The driver is looked after. -/
structure Tended (s : CanState) : Prop where
  noDriver : (s.ctrl = .boot ∨ ∃ c, s.ctrl = .install c) → s.hal.driver = none
  driver : ∀ d ∈ s.hal.driver, s.ctrl.Tends d
  lost : s.lost ≠ [] → s.ctrl.Aborts

variable {s s' : CanState} {l : CanStep}

/-- `can_tx_task` changes the driver only by handing a copy to it. -/
theorem canTxTask_hal (s : CanState) (answer : TwaiAnswer) :
    (s.canTxTask answer).hal = s.hal ∨ ∃ d c, s.hal.driver = some d ∧ d.state = .running ∧
      (s.canTxTask answer).hal =
        { s.hal with driver := some { d with queue := d.queue ++ [c] } } := by
  cases htx : s.tx with
  | transmit =>
    cases hp : s.pending with
    | none => exact .inl (by simp only [canTxTask, htx, hp])
    | some p =>
      rcases canTxTask_transmit answer htx hp with ⟨d, hd, hrun, -, hs⟩ | ⟨-, hs⟩ | ⟨-, -, hs⟩
      · exact .inr ⟨d, ⟨p, s.subs⟩, hd, hrun, by rw [hs]⟩
      · exact .inl (by rw [hs])
      · exact .inl (by rw [hs])
  | top => exact .inl (by rw [canTxTask_top answer htx])
  | echo cycle => exact .inl (by rw [canTxTask_echo answer htx])
  | parked => exact .inl (by rw [canTxTask_parked answer htx])
  | pop | drain | confirm =>
    refine .inl ?_
    unfold canTxTask
    rw [htx]
    dsimp only
    repeat' split
    all_goals rfl

/-- The steps of the controller are moves of the driver. -/
theorem controller_moves (hst : s.step l = some s')
    (hl : l = .success ∨ l = .failure ∨ l = .busOff ∨ l = .recovered) :
    ∃ d d', s.hal.driver = some d ∧ d.Move d' ∧
      s' = { s with hal := { s.hal with driver := some d' } } := by
  rcases hl with rfl | rfl | rfl | rfl
  · obtain ⟨d, d', hd, hf, rfl⟩ := controller_eq hst
    obtain ⟨⟨c, d''⟩, hc, rfl⟩ := Option.map_eq_some_iff.1 hf
    exact ⟨d, d'', hd, .success hc, rfl⟩
  · obtain ⟨d, d', hd, hf, rfl⟩ := controller_eq hst
    exact ⟨d, d', hd, .failure hf, rfl⟩
  · obtain ⟨d, d', hd, hf, rfl⟩ := controller_eq hst
    exact ⟨d, d', hd, .goBusOff hf, rfl⟩
  · obtain ⟨d, d', hd, hf, rfl⟩ := controller_eq hst
    exact ⟨d, d', hd, .recovered hf, rfl⟩

namespace Tended

variable {ok : Bool}

/-- A place at which nothing is going on with the driver. -/
theorem plain (h : s.Tended) {pc : CtrlPc} {t : CanState} (hpc : s.ctrl = pc) (hhal : t.hal = s.hal)
    (hlost : t.lost = s.lost) (hoff : t.ctrl.readOff = pc.readOff)
    (hback : t.ctrl.readBack = pc.readBack) (hcloses : t.ctrl.closes = pc.closes)
    (hboot : t.ctrl ≠ .boot) (hinstall : ∀ c, t.ctrl ≠ .install c)
    (haborts : pc.Aborts → t.ctrl.Aborts) : t.Tended := by
  refine ⟨fun hno => ?_, fun d hd => ?_, fun hne => ?_⟩
  · rcases hno with hno | ⟨c, hno⟩
    · exact absurd hno hboot
    · exact absurd hno (hinstall c)
  · have hd' := h.driver d (hhal ▸ hd)
    rw [hpc] at hd'
    exact hd'.keep hoff hback hcloses
  · have hl := h.lost (hlost ▸ hne)
    rw [hpc] at hl
    exact haborts hl

/-- A new driver is running, or there is none. -/
theorem installed (h : s.hal.driver = none) (c : Config) {pc : CtrlPc} (hoff : pc.readOff = false)
    (hback : pc.readBack = false) : ∀ d ∈ (s.hal.install c ok).driver, pc.Tends d := by
  intro d hd
  unfold Hal.install at hd
  dsimp only at hd
  split at hd
  · obtain rfl := Option.some.inj hd
    exact .running rfl rfl rfl hoff hback
  · rw [h] at hd
    cases hd

/-- Away from the installations, a driver may be there. -/
theorem elsewhere {t : CanState} (hboot : t.ctrl ≠ .boot) (hinstall : ∀ c, t.ctrl ≠ .install c)
    (hdriver : ∀ d ∈ t.hal.driver, t.ctrl.Tends d) (hlost : t.lost ≠ [] → t.ctrl.Aborts) :
    t.Tended := by
  refine ⟨fun hno => ?_, hdriver, hlost⟩
  rcases hno with hno | ⟨c, hno⟩
  · exact absurd hno hboot
  · exact absurd hno (hinstall c)

/-- The old driver is gone. -/
theorem gone {t : CanState} (hnone : t.hal.driver = none) (c : Option Config)
    (ht : t.ctrl = afterStop c) : t.Tended := by
  refine ⟨fun _ => hnone, fun d hd => ?_, fun _ => ?_⟩
  · rw [hnone] at hd
    cases hd
  · rw [ht]
    cases c <;> trivial

theorem ctrlTask (h : s.Tended) (ok : Bool) : (s.ctrlTask ok).Tended := by
  have hlost (hno : ¬s.ctrl.Aborts) : s.lost = [] := by
    by_contra hne
    exact hno (h.lost hne)
  have hdriver {pc : CtrlPc} (hpc : s.ctrl = pc) : ∀ d ∈ s.hal.driver, pc.Tends d := hpc ▸ h.driver
  unfold CanState.ctrlTask
  cases hpc : s.ctrl <;> dsimp only
  case boot =>
    have hnone := h.noDriver (.inl hpc)
    refine elsewhere (by simp) (by simp) (installed hnone _ rfl rfl) fun hne => absurd ?_ hne
    exact hlost (by rw [hpc]; exact id)
  case top =>
    split
    · exact h.plain hpc rfl rfl rfl rfl rfl (by simp) (by simp) id
    · exact h.plain hpc rfl rfl rfl rfl rfl (by simp) (by simp) id
  case begin | giveUp | clear | snapshot | finish =>
    exact h.plain hpc rfl rfl rfl rfl rfl (by simp) (by simp) id
  case awaitRx c =>
    split
    · exact h.plain hpc rfl rfl rfl rfl rfl (by simp) (by simp) id
    · split <;> exact h.plain hpc rfl rfl rfl rfl rfl (by simp) (by simp) id
  case awaitTx c =>
    split
    · exact h.plain hpc rfl rfl rfl rfl rfl (by simp) (by simp) id
    · split <;> exact h.plain hpc rfl rfl rfl rfl rfl (by simp) (by simp) id
  case readAlerts q =>
    split
    · cases q <;>
        exact h.plain hpc rfl rfl rfl rfl rfl (by simp [afterAlerts]) (by simp [afterAlerts]) id
    · rename_i d hd
      refine elsewhere (by simp) (by simp) (fun x hx => ?_) fun hne => absurd ?_ hne
      · simp only [withDriver, hd, Option.map_some] at hx
        obtain rfl := Option.some.inj hx
        exact (hdriver hpc d hd).readAlerts
      · exact hlost (by rw [hpc]; exact id)
  case recover q a =>
    by_cases ha : a.busOff = true
    · rw [if_pos ha]
      refine elsewhere (by simp) (by simp) (fun x hx => ?_) fun _ => ha
      unfold discarding at hx
      split at hx
      · rename_i hd
        dsimp only at hx
        rw [hd] at hx
        cases hx
      · rename_i d hd
        obtain rfl := Option.some.inj hx
        exact (hdriver hpc d hd).initiateRecovery ha
    · rw [if_neg ha]
      have hoff : a.busOff = false := Bool.not_eq_true _ ▸ ha
      exact h.plain hpc rfl rfl hoff.symm rfl rfl (by simp) (by simp) False.elim
  case restart q a =>
    by_cases ha : a.busRecovered = true
    · rw [if_pos ha]
      refine elsewhere (by simp) (by simp) (fun x hx => ?_) fun hne => ?_
      · obtain ⟨d, hd, rfl⟩ := Option.map_eq_some_iff.1 hx
        exact (hdriver hpc d hd).start ha
      · have haborts := h.lost hne
        rw [hpc] at haborts
        exact haborts
    · rw [if_neg ha]
      have hback : a.busRecovered = false := Bool.not_eq_true _ ▸ ha
      exact h.plain hpc rfl rfl rfl hback.symm rfl (by simp) (by simp) id
  case postOutcome q a =>
    cases s.posting <;> exact h.plain hpc rfl rfl rfl rfl rfl (by simp) (by simp) id
  case postBusOff q a =>
    split
    · refine elsewhere (by cases q <;> simp [afterAlerts]) (by cases q <;> simp [afterAlerts])
        (fun d hd => ?_) fun hne => absurd rfl hne
      cases q <;> exact (hdriver hpc d hd).keep rfl rfl rfl
    · rename_i ha
      cases q <;>
        exact h.plain hpc rfl rfl rfl rfl rfl (by simp [afterAlerts]) (by simp [afterAlerts]) ha
  case stop c =>
    split
    · exact gone ‹_› c rfl
    · rename_i d hd
      refine elsewhere (by simp) (by simp) (fun x hx => ?_) fun _ => trivial
      simp only [discarding, hd] at hx
      obtain rfl := Option.some.inj hx
      exact (hdriver hpc d hd).stop
  case uninstall c =>
    split
    · exact gone ‹_› c rfl
    · rename_i d hd
      split
      · exact gone rfl c rfl
      · refine elsewhere (by simp) (by simp) (fun x hx => ?_) fun _ => trivial
        obtain rfl := Option.some.inj (hd.symm.trans hx)
        exact (hdriver hpc d hd).refused ‹_›
  case install c =>
    have hnone := h.noDriver (.inr ⟨c, hpc⟩)
    exact elsewhere (by simp) (by simp) (installed hnone _ rfl rfl) fun _ => trivial
  case postAbort =>
    refine elsewhere (by simp) (by simp) (fun d hd => ?_) fun hne => absurd rfl hne
    exact (hdriver hpc d hd).keep rfl rfl rfl

theorem of_init (dev : DevState) : (init dev).Tended where
  noDriver := fun _ => rfl
  driver := fun d hd => by cases hd
  lost := fun hne => absurd rfl hne

theorem step (h : s.Tended) (hst : s.step l = some s') : s'.Tended := by
  cases l with
  | rx =>
    obtain rfl := Option.some.inj hst
    have hsame : s.twaiRxTask.hal = s.hal ∧ s.twaiRxTask.ctrl = s.ctrl ∧
        s.twaiRxTask.lost = s.lost := by
      unfold twaiRxTask
      cases s.rx <;> exact ⟨rfl, rfl, rfl⟩
    obtain ⟨hhal, hctrl, hlost⟩ := hsame
    exact ⟨by rw [hhal, hctrl]; exact h.noDriver, by rw [hhal, hctrl]; exact h.driver,
      by rw [hlost, hctrl]; exact h.lost⟩
  | tx answer =>
    obtain rfl := Option.some.inj hst
    obtain ⟨-, -, hctrl, -, hlost⟩ := s.canTxTask_frame answer
    -- a running driver may have got a copy
    rcases s.canTxTask_hal answer with hhal | ⟨d, c, hd, hrun, hhal⟩
    · exact ⟨by rw [hhal, hctrl]; exact h.noDriver, by rw [hhal, hctrl]; exact h.driver,
        by rw [hlost, hctrl]; exact h.lost⟩
    · refine ⟨fun hno => ?_, fun x hx => ?_, by rw [hlost, hctrl]; exact h.lost⟩
      · rw [hctrl] at hno
        have hnone := h.noDriver hno
        rw [hd] at hnone
        cases hnone
      · rw [hhal] at hx
        obtain rfl := Option.some.inj hx
        rw [hctrl]
        obtain ⟨hoff, hback, hpc, hpc'⟩ := (h.driver d hd).of_running hrun
        exact .running hrun hoff hback hpc hpc'
  | ctrl ok =>
    obtain rfl := Option.some.inj hst
    exact h.ctrlTask ok
  | host | command =>
    obtain rfl := Option.some.inj hst
    exact ⟨h.noDriver, h.driver, h.lost⟩
  | success | failure | busOff | recovered =>
    obtain ⟨d, d', hd, hm, rfl⟩ := controller_moves hst (by simp)
    refine ⟨fun hno => ?_, fun x hx => ?_, h.lost⟩
    · have hnone := h.noDriver hno
      rw [hd] at hnone
      cases hnone
    · obtain rfl := Option.some.inj hx
      exact (h.driver d hd).move hm

end Tended

end CanState

end Bridge

end Espcan32
