import Espcan32.Bridge.Reconfig

/-!
# Reconfigurations that fail

`reconfig_pending` is cleared before the snapshot is applied, and a driver call of the
reconfiguration can fail: the old driver cannot be uninstalled while the controller recovers from
bus-off, or the new one cannot be installed.  `passRecord` keeps, for the pass of `ctrl_task` under
way, whether it has cleared the flag, whether the reconfiguration has failed, and whether a command
that reconfigures has come since the flag was cleared.

* `PassInv.step` : once it is cleared, the flag is up exactly when such a command has come.
* `failed_retried_iff` : **at the end of a pass a failed reconfiguration is pending again only if a
  command came in between.**
* `retried_applied` : if one always does, the driver is what the host has asked for whenever nothing
  is pending; there is none while the bus is off.
* `busOff_forgotten` : a run in which the host switches the bus off, and the controller starts
  again.
-/

namespace Espcan32

namespace Bridge

open Pcan Twai

/-- The pass of `ctrl_task` under way, or the last one. -/
structure PassRecord where
  /-- The flag has been cleared. -/
  cleared : Bool
  /-- `pcan_twai_reconfigure()` or `pcan_twai_stop()` has returned an error. -/
  failed : Bool
  /-- A command that reconfigures has been handled since the flag was cleared. -/
  raced : Bool
  deriving DecidableEq, Repr

/-- The record at the begin of a pass. -/
def PassRecord.begin : PassRecord := ⟨false, false, false⟩

/-- Keep the record; it is about the last pass until the next one begins. -/
def passRecord (s : Device) (l : DeviceStep) (r : PassRecord) : PassRecord :=
  match l with
  | .command cmd => { r with raced := r.raced || decide (Reconfigures cmd) }
  | .can (.ctrl _) =>
    match s.can.ctrl with
    | .top => .begin
    | .clear => ⟨true, false, false⟩
    | _ => { r with failed := r.failed || !decide (DriverSucceeds s l) }
  | .can _ => r

/-! ### The flag -/

namespace CanState

variable (s : CanState) (ok : Bool)

/-- Nothing but the clearing writes what `ctrl_task` reads of the device state. -/
theorem ctrlTask_dev (h : s.ctrl ≠ .clear) : (s.ctrlTask ok).dev = s.dev := by
  unfold ctrlTask
  cases hpc : s.ctrl <;> dsimp only
  case clear => exact absurd hpc h
  case readAlerts q => split <;> rfl
  case recover q a =>
    split
    · exact s.dev_discarding _
    · rfl
  case restart q a => split <;> rfl
  case postOutcome q a => cases s.posting <;> rfl
  case postBusOff q a => split <;> rfl
  case stop c =>
    split
    · rfl
    · exact s.dev_discarding _
  case uninstall c =>
    split
    · rfl
    · split <;> rfl
  case postAbort => rfl

/-- A reconfiguration begins with the clearing of the flag. -/
theorem applying_of_ctrlTask (h : (s.ctrlTask ok).ctrl.Applying) :
    s.ctrl = .clear ∨ s.ctrl.Applying := by
  unfold ctrlTask at h
  cases hpc : s.ctrl <;> rw [hpc] at h <;> dsimp only at h
  case clear => exact .inl rfl
  case boot | begin | giveUp | postAbort | finish => simp [CtrlPc.Applying] at h
  case top => split at h <;> simp [CtrlPc.Applying] at h
  case awaitRx cycle | awaitTx cycle =>
    repeat' split at h
    all_goals simp [CtrlPc.Applying] at h
  case snapshot | stop c | uninstall c | install c => exact .inr trivial
  case readAlerts q =>
    refine .inr ?_
    split at h
    · cases q with
      | true => rfl
      | false => exact h.elim
    · exact h
  case recover q a | restart q a | postOutcome q a => exact .inr h
  case postBusOff q a =>
    cases q with
    | true => exact .inr rfl
    | false => exact h.elim

end CanState

/-- Within a pass a failure is kept. -/
theorem passRecord_ctrl {s : Device} {ok : Bool} {r : PassRecord} (htop : s.can.ctrl ≠ .top)
    (hclear : s.can.ctrl ≠ .clear) :
    passRecord s (.can (.ctrl ok)) r =
      { r with failed := r.failed || !decide (DriverSucceeds s (.can (.ctrl ok))) } := by
  unfold passRecord
  dsimp only
  split
  · exact absurd ‹_› htop
  · exact absurd ‹_› hclear
  · rfl

/-- Only the driver calls of a reconfiguration can fail. -/
theorem applying_of_fails {s : Device} {ok : Bool} (h : ¬DriverSucceeds s (.can (.ctrl ok))) :
    s.can.ctrl.Applying := by
  by_contra hno
  refine h ?_
  simp only [DriverSucceeds]
  split
  · rename_i hpc; rw [hpc] at hno; exact absurd trivial hno
  · rename_i hpc; rw [hpc] at hno; exact absurd trivial hno
  · trivial

/-- What holds between steps. -/
structure PassInv (s : Device) (r : PassRecord) : Prop where
  view : s.can.dev = devView s.st
  /-- Once it is cleared, the flag is up if a command has come since. -/
  flag : r.cleared = true → (s.st.reconfigPending = true ↔ r.raced = true)
  /-- Only what is committed can fail. -/
  failed : r.failed = true → r.cleared = true
  committed : s.can.ctrl.Applying → r.cleared = true

namespace PassInv

variable {s s' : Device} {l : DeviceStep} {r : PassRecord}

theorem command (hi : PassInv s r) (cmd : List UInt8) :
    PassInv ⟨(pcanCmdHandle s.st cmd).2.1,
      { s.can with dev := devView (pcanCmdHandle s.st cmd).2.1 }⟩
      { r with raced := r.raced || decide (Reconfigures cmd) } where
  view := rfl
  flag hc := by
    rw [(pcanCmdHandle_spec s.st cmd).2.2.2, hi.flag hc, Bool.or_eq_true, decide_eq_true_iff]
    exact or_comm
  failed := hi.failed
  committed := hi.committed

/-- A step that `ctrl_task` has no part in. -/
theorem other (hi : PassInv s r) {c : CanState} (hdev : c.dev = s.can.dev)
    (hctrl : c.ctrl = s.can.ctrl) :
    PassInv ⟨{ s.st with reconfigPending := c.dev.reconfigPending }, c⟩ r where
  view := by rw [hdev, hi.view]; rfl
  flag hc := by
    rw [← hi.flag hc, hdev, hi.view]
    rfl
  failed := hi.failed
  committed ha := hi.committed (hctrl ▸ ha)

/-- A step of `ctrl_task`. -/
theorem ctrl (hi : PassInv s r) (ok : Bool) :
    PassInv ⟨{ s.st with reconfigPending := (s.can.ctrlTask ok).dev.reconfigPending },
      s.can.ctrlTask ok⟩ (passRecord s (.can (.ctrl ok)) r) := by
  by_cases hclear : s.can.ctrl = .clear
  · -- the flag goes down, and no command has come yet
    have hr : passRecord s (.can (.ctrl ok)) r = ⟨true, false, false⟩ := by
      simp only [passRecord, hclear]
    rw [hr]
    have hdev : (s.can.ctrlTask ok).dev = { s.can.dev with reconfigPending := false } := by
      rw [CanState.ctrlTask, hclear]
    refine ⟨?_, fun _ => ?_, fun h => (by cases h), fun _ => rfl⟩
    · rw [hdev, hi.view]
      rfl
    · rw [hdev]
  have hdev := s.can.ctrlTask_dev ok hclear
  by_cases htop : s.can.ctrl = .top
  · have hr : passRecord s (.can (.ctrl ok)) r = .begin := by
      simp only [passRecord, htop]
    rw [hr]
    refine ⟨by rw [hdev, hi.view]; rfl, fun h => (by cases h), fun h => (by cases h), fun ha => ?_⟩
    rcases s.can.applying_of_ctrlTask ok ha with hc | ha
    · exact absurd hc hclear
    · rw [htop] at ha
      exact ha.elim
  rw [passRecord_ctrl htop hclear]
  refine ⟨by rw [hdev, hi.view]; rfl, fun hc => ?_, fun hf => ?_, fun ha => ?_⟩
  · rw [← hi.flag hc, hdev, hi.view]
    rfl
  · rcases Bool.or_eq_true_iff.1 hf with hf | hf
    · exact hi.failed hf
    · have hfails : ¬DriverSucceeds s (.can (.ctrl ok)) := by
        intro hsucc
        rw [decide_eq_true hsucc] at hf
        cases hf
      exact hi.committed (applying_of_fails hfails)
  · rcases s.can.applying_of_ctrlTask ok ha with hc | ha
    · exact absurd hc hclear
    · exact hi.committed ha

theorem step (hi : PassInv s r) (hst : s.step l = some s') : PassInv s' (passRecord s l r) := by
  cases l with
  | command cmd => obtain rfl := Option.some.inj hst; exact hi.command cmd
  | can l =>
    obtain ⟨c, hc, rfl⟩ := Option.map_eq_some_iff.1 hst
    cases l with
    | command dev => cases hc
    | host f lock => obtain rfl := Option.some.inj hc; exact hi.other rfl rfl
    | rx =>
      obtain rfl := Option.some.inj hc
      exact hi.other s.can.twaiRxTask_hal.1 s.can.twaiRxTask_frame.2.1
    | tx answer =>
      obtain rfl := Option.some.inj hc
      exact hi.other (s.can.canTxTask_config answer).2 (s.can.canTxTask_frame answer).2.2.1
    | ctrl ok => obtain rfl := Option.some.inj hc; exact hi.ctrl ok
    | success | failure | busOff | recovered =>
      obtain ⟨d, d', -, -, rfl⟩ := CanState.controller_eq hc
      exact hi.other rfl rfl

theorem init : PassInv .init .begin where
  view := rfl
  flag h := by cases h
  failed h := by cases h
  committed h := h.elim

end PassInv

/-! ### The end of a pass -/

/-- **A failed reconfiguration.**  In every run, from the moment at which
`pcan_twai_reconfigure()` or `pcan_twai_stop()` has failed in a pass of `ctrl_task`, and so at the
end of this pass, `reconfig_pending` is set exactly when a command that reconfigures has come since
the flag was cleared in the pass. -/
theorem failed_retried_iff {ls : List DeviceStep} {s : Device} {r : PassRecord}
    (hrun : (deviceSystem.withAux passRecord).Run (.init, .begin) ls (s, r)) :
    (r.failed = true → s.st.reconfigPending = true) ↔ (r.failed = true → r.raced = true) := by
  have hi : PassInv s r := by
    refine hrun.invariant (I := fun p => PassInv p.1 p.2) .init ?_
    rintro ⟨s, r⟩ l ⟨s', r'⟩ hi ⟨hst, rfl⟩
    exact hi.step hst
  exact forall_congr' fun hf => hi.flag (hi.failed hf)

/-! ### The driver when nothing is pending -/

/-- Keep the record of the passes, and the commands. -/
def passesAndCommands (s : Device) (l : DeviceStep) (x : PassRecord × List (List UInt8)) :
    PassRecord × List (List UInt8) :=
  (passRecord s l x.1, commands s l x.2)

/-- A failure of the pass is followed by a command that reconfigures. -/
def PassRecord.Retried (r : PassRecord) : Prop := r.failed = true → r.raced = true

/-- No pass begins behind one that has failed and left nothing pending. -/
def NothingForgotten (p : Device × PassRecord × List (List UInt8)) (_ : DeviceStep) : Prop :=
  p.1.can.ctrl = .top → p.2.1.Retried

/-- What holds between steps: unless a failure is forgotten, the driver is in the state it should
be in. -/
structure RetryInv (s : Device) (r : PassRecord) (cmds : List (List UInt8)) : Prop where
  pass : PassInv s r
  rate : s.st.bitrate ≠ 0
  owed : r.Retried → Owed (∃ cmd ∈ cmds, Reconfigures cmd) s.can

namespace RetryInv

variable {s s' : Device} {l : DeviceStep} {r : PassRecord} {cmds : List (List UInt8)}

theorem init : RetryInv .init .begin [] :=
  ⟨.init, DeviceInv.init.rate, fun _ => DeviceInv.init.owed⟩

theorem command (hi : RetryInv s r cmds) (cmd : List UInt8) :
    RetryInv ⟨(pcanCmdHandle s.st cmd).2.1,
      { s.can with dev := devView (pcanCmdHandle s.st cmd).2.1 }⟩
      { r with raced := r.raced || decide (Reconfigures cmd) } (cmds ++ [cmd]) where
  pass := hi.pass.command cmd
  rate := bitrate_handled s.st cmd hi.rate
  owed hretried := by
    refine .command cmd hi.pass.view fun hr => hi.owed fun hfailed => ?_
    -- a command that does not reconfigure does not count
    have hraced := hretried hfailed
    rw [decide_eq_false hr, Bool.or_false] at hraced
    exact hraced

/-- What is owed behind a step of `ctrl_task`. -/
theorem owed_ctrl (hi : RetryInv s r cmds) {ok : Bool} (hg : s.can.ctrl = .top → r.Retried)
    (hretried : (passRecord s (.can (.ctrl ok)) r).Retried) :
    Owed (∃ cmd ∈ cmds, Reconfigures cmd) (s.can.ctrlTask ok) := by
  have hrate : s.can.dev.bitrate ≠ 0 := by rw [hi.pass.view]; exact hi.rate
  have hsucceeds (hr : r.Retried) (hsucc : DriverSucceeds s (.can (.ctrl ok))) :
      Owed (∃ cmd ∈ cmds, Reconfigures cmd) (s.can.ctrlTask ok) :=
    (hi.owed hr).can hrate (show DriverSucceeds ⟨s.st, s.can⟩ _ from hsucc) rfl
  have hquiet (hno : ¬s.can.ctrl.Applying) : DriverSucceeds s (.can (.ctrl ok)) := by
    by_contra hfails
    exact hno (applying_of_fails hfails)
  by_cases hclear : s.can.ctrl = .clear
  · -- a new attempt begins, whatever has become of the last one
    have hctrl : (s.can.ctrlTask ok).ctrl = .readAlerts true := by rw [CanState.ctrlTask, hclear]
    refine Owed.inside ?_ ?_ ?_ <;> rw [hctrl]
    · rfl
    · simp
    · exact fun _ => id
  by_cases htop : s.can.ctrl = .top
  · exact hsucceeds (hg htop) (hquiet (by rw [htop]; exact id))
  rw [passRecord_ctrl htop hclear] at hretried
  by_cases hsucc : DriverSucceeds s (.can (.ctrl ok))
  · refine hsucceeds (fun hfailed => hretried ?_) hsucc
    rw [hfailed]
    rfl
  · -- the call fails, and a command has come since the flag was cleared
    have hraced : r.raced = true := hretried (by rw [decide_eq_false hsucc]; simp)
    refine .of_pending ?_
    rw [s.can.ctrlTask_dev ok hclear, hi.pass.view]
    exact (hi.pass.flag (hi.pass.committed (applying_of_fails hsucc))).2 hraced

theorem step (hi : RetryInv s r cmds) (hg : NothingForgotten (s, r, cmds) l)
    (hst : s.step l = some s') : RetryInv s' (passRecord s l r) (commands s l cmds) := by
  cases l with
  | command cmd => obtain rfl := Option.some.inj hst; exact hi.command cmd
  | can l =>
    have hpass := hi.pass.step hst
    obtain ⟨c, hc, rfl⟩ := Option.map_eq_some_iff.1 hst
    refine ⟨hpass, hi.rate, fun hretried => ?_⟩
    cases l with
    | ctrl ok => obtain rfl := Option.some.inj hc; exact hi.owed_ctrl hg hretried
    | _ =>
      refine (hi.owed hretried).can ?_ (?_ : DriverSucceeds ⟨s.st, s.can⟩ _) hc
      · rw [hi.pass.view]
        exact hi.rate
      · trivial

end RetryInv

/-- **Nothing is left unapplied.**  In every run in which each pass that fails is followed by a
command that reconfigures before the next pass begins, once such a command has been handled, nothing
is pending and `ctrl_task` is not applying a snapshot: there is no driver while the bus is off, else
one with the nearest bitrate and mode. -/
theorem retried_applied {ls : List DeviceStep} {s : Device} {r : PassRecord}
    {cmds : List (List UInt8)}
    (hrun : ((deviceSystem.withAux passesAndCommands).guard NothingForgotten).Run
      (.init, .begin, []) ls (s, r, cmds))
    (hretried : r.Retried) (hpending : s.st.reconfigPending = false)
    (happly : ¬s.can.ctrl.Applying) (hhandled : ∃ cmd ∈ cmds, Reconfigures cmd) :
    if s.st.busOn then
      s.can.hal.driver ≠ none ∧ s.can.hal.bitrate = nearestSupportedBitrate s.st.bitrate ∧
        s.can.hal.listenOnly = s.st.silent
    else s.can.hal.driver = none := by
  have hi : RetryInv s r cmds := by
    refine hrun.invariant (I := fun p => RetryInv p.1 p.2.1 p.2.2) .init ?_
    rintro ⟨s, r, cmds⟩ l ⟨s', r', cmds'⟩ hi ⟨hg, hst, hx⟩
    obtain ⟨rfl, rfl⟩ := Prod.mk.inj hx
    exact hi.step hg hst
  exact (hi.owed hretried).driver hi.pass.view hpending happly hhandled

/-- The host switches the bus on and `ctrl_task` installs the driver; the controller goes bus-off,
and its recovery begins. -/
def recovery : List DeviceStep :=
  .can (.ctrl true) :: .command (shortCommand Func.setBus usbBusXcver 1 0) ::
    (ctrls 2 ++ parking ++ ctrls 19 ++ [CanStep.busOff] ++ ctrls 6).map .can

/-- The host switches the bus off while the controller recovers, so that the driver cannot be
uninstalled; with commands `late` that come before the end of the pass. -/
def refusedStop (late : List (List UInt8)) : List DeviceStep :=
  .command (shortCommand Func.setBus usbBusXcver 0 0) ::
    (ctrls 2 ++ parking ++ ctrls 11).map .can ++ late.map .command ++ (ctrls 7).map .can

/-- Run the device, and keep the record of the passes. -/
def passes (ls : List DeviceStep) : Option (Device × PassRecord) :=
  System.exec Device.step (fun _ _ => True) passRecord (.init, .begin) ls

/-- The host asks for the bus off a second time, before the end of the pass. -/
theorem failed_retried_iff_twice :
    ∃ p, passes (recovery ++ refusedStop [shortCommand Func.setBus usbBusXcver 0 0]) = some p ∧
      p.2.failed = true ∧ p.1.st.reconfigPending = true := by
  have hr : (passes (recovery ++ refusedStop [shortCommand Func.setBus usbBusXcver 0 0])).map
      Prod.snd = some ⟨true, true, true⟩ := by decide +kernel
  obtain ⟨⟨s, r⟩, h, hr⟩ := Option.map_eq_some_iff.1 hr
  obtain rfl : r = ⟨true, true, true⟩ := hr
  exact ⟨_, h, rfl,
    (failed_retried_iff (System.Run.of_exec h).of_guard_withAux).2 (fun _ => rfl) rfl⟩

/-- `ctrl_task` is between two passes. -/
def CtrlPc.isTop : CtrlPc → Bool
  | .top => true
  | _ => false

theorem CtrlPc.eq_top {pc : CtrlPc} (h : pc.isTop = true) : pc = .top := by
  cases pc with
  | top => rfl
  | _ => cases h

/-- What is left of the request to switch the bus off. -/
def left (p : Device × PassRecord) : Bool × Bool × Bool × Bool × Option State :=
  (p.1.can.ctrl.isTop, p.2.failed, p.1.st.reconfigPending, p.1.st.busOn,
    p.1.can.hal.driver.map (·.state))

/-- At the end of the pass the request is forgotten; the controller then recovers, and without a
further command it runs again while the bus should be off. -/
theorem busOff_forgotten :
    (¬∀ ls s r, (deviceSystem.withAux passRecord).Run (.init, .begin) ls (s, r) →
      s.can.ctrl = .top → r.failed = true → s.st.reconfigPending = true) ∧
    (passes (recovery ++ refusedStop [] ++ [.can .recovered] ++ (ctrls 6).map .can)).map left =
      some (true, false, false, false, some .running) := by
  refine ⟨fun hall => ?_, by decide +kernel⟩
  have hleft : (passes (recovery ++ refusedStop [])).map left =
      some (true, true, false, false, some .recovering) := by decide +kernel
  obtain ⟨⟨s, r⟩, h, hleft⟩ := Option.map_eq_some_iff.1 hleft
  obtain ⟨htop, hleft⟩ := Prod.mk.inj hleft
  obtain ⟨hfailed, hleft⟩ := Prod.mk.inj hleft
  have hpending := hall _ s r (System.Run.of_exec h).of_guard_withAux (CtrlPc.eq_top htop) hfailed
  rw [(Prod.mk.inj hleft).1] at hpending
  cases hpending

end Bridge

end Espcan32
