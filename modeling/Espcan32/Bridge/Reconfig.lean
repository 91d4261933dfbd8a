import Espcan32.Bridge.Quiesce
import Espcan32.Pcan.Cmd

/-!
# Reconfiguration

The commands of the host change the device state and set `reconfig_pending`.  `ctrl_task` clears
the flag before it takes the snapshot that it applies, so that a command that comes in between is
applied the next time.

* `deviceSystem` : the tasks of the CAN side, with the commands that `pcan_cmd_handle()` executes.
* `Owed` : what the flag and the place of `ctrl_task` say about the driver.
* `reconfigured` : **when nothing is pending, the driver is what the last commands ask for.**
-/

namespace Espcan32

namespace Bridge

open Pcan Twai

/-! ### The system -/

/-- What `ctrl_task` reads of the device state. -/
def devView (st : PcanDevState) : DevState :=
  ⟨st.bitrate, st.silent, st.busOn, st.reconfigPending⟩

/-- The device state, and the tasks of the CAN side. -/
structure Device where
  st : PcanDevState
  can : CanState

/-- A step: `pcan_cmd_handle()` executes a command, under its lock, or the CAN side moves. -/
inductive DeviceStep where
  | command (cmd : List UInt8)
  | can (l : CanStep)
  deriving DecidableEq, Repr

namespace Device

/-- The commands come from the host only. -/
def canStep (s : CanState) : CanStep → Option CanState
  | .command _ => none
  | l => s.step l

/-- One step; the clearing of `reconfig_pending` is all that the tasks write of the device state. -/
def step (s : Device) : DeviceStep → Option Device
  | .command cmd =>
    let st := (pcanCmdHandle s.st cmd).2.1
    some ⟨st, { s.can with dev := devView st }⟩
  | .can l =>
    (canStep s.can l).map fun c => ⟨{ s.st with reconfigPending := c.dev.reconfigPending }, c⟩

/-- The start of the tasks, behind `pcan_cmd_init()`. -/
def init : Device := ⟨pcanCmdInit, .init (devView pcanCmdInit)⟩

end Device

/-- The device as a system. -/
def deviceSystem : System Device DeviceStep := .ofFun Device.step

/-- Keep the commands. -/
def commands (_ : Device) (l : DeviceStep) (cmds : List (List UInt8)) : List (List UInt8) :=
  match l with
  | .command cmd => cmds ++ [cmd]
  | .can _ => cmds

/-! ### What the driver should be -/

/-- What the driver runs with. -/
def halConfig (h : Hal Copy) : Option Config := h.driver.map fun _ => ⟨h.bitrate, h.listenOnly⟩

/-- What a snapshot of the device state asks for; nothing while the bus is off. -/
def wanted (dev : DevState) : Option Config :=
  if dev.busOn then some ⟨dev.bitrate, dev.silent⟩ else none

/-- The driver is what the device state asks for. -/
def Applied (h : Hal Copy) (dev : DevState) : Prop :=
  halConfig h = (wanted dev).map fun c => ⟨nearestSupportedBitrate c.bitrate, c.listenOnly⟩

/-- `ctrl_task` is between the clearing of `reconfig_pending` and the end of the
reconfiguration. -/
def CtrlPc.Applying : CtrlPc → Prop
  | .readAlerts q | .recover q _ | .restart q _ | .postOutcome q _ | .postBusOff q _ => q = true
  | .snapshot | .stop _ | .uninstall _ | .install _ => True
  | _ => False

instance : (pc : CtrlPc) → Decidable pc.Applying
  | .readAlerts q | .recover q _ | .restart q _ | .postOutcome q _ | .postBusOff q _ =>
    inferInstanceAs (Decidable (q = true))
  | .snapshot | .stop _ | .uninstall _ | .install _ => inferInstanceAs (Decidable True)
  | .boot | .top | .begin | .awaitRx _ | .awaitTx _ | .giveUp | .clear | .postAbort | .finish =>
    inferInstanceAs (Decidable False)

/-- `ctrl_task` has taken the snapshot `c`, and not applied it yet. -/
def CtrlPc.Carries (c : Option Config) : CtrlPc → Prop
  | .stop c' | .uninstall c' => c = c'
  | .install c' => c = some c'
  | _ => False

/-- What the flag and the place of `ctrl_task` say about the driver, once a command has been
`handled`. -/
structure Owed (handled : Prop) (s : CanState) : Prop where
  boot : s.ctrl = .boot → handled → s.dev.reconfigPending = true
  carried : ∀ c, s.ctrl.Carries c → s.dev.reconfigPending = false → c = wanted s.dev
  settled : s.ctrl ≠ .boot → ¬s.ctrl.Applying → handled → s.dev.reconfigPending = false →
    Applied s.hal s.dev

/-- The driver calls of a reconfiguration succeed. -/
def DriverSucceeds (s : Device) : DeviceStep → Prop
  | .can (.ctrl ok) =>
    match s.can.ctrl with
    | .uninstall _ => ∀ d ∈ s.can.hal.driver, d.CanUninstall
    | .install _ => ok = true
    | _ => True
  | _ => True

instance (s : Device) (l : DeviceStep) : Decidable (DriverSucceeds s l) := by
  unfold DriverSucceeds
  split
  · split <;> infer_instance
  · infer_instance

/-! ### Steps that leave the configuration alone -/

namespace CanState

variable (s : CanState)

@[simp] theorem halConfig_withDriver (f : Driver Copy → Driver Copy) :
    halConfig (s.withDriver f).hal = halConfig s.hal := by
  unfold withDriver halConfig
  cases s.hal.driver <;> rfl

@[simp] theorem halConfig_discarding (f : Driver Copy → Driver Copy × List Copy) :
    halConfig (s.discarding f).hal = halConfig s.hal := by
  unfold discarding halConfig
  cases h : s.hal.driver with
  | none => simp [h]
  | some d => rfl

@[simp] theorem dev_discarding (f : Driver Copy → Driver Copy × List Copy) :
    (s.discarding f).dev = s.dev := by
  unfold discarding; split <;> rfl

theorem halConfig_transmit (h : Hal Copy) (answer : TwaiAnswer) (m : Copy) :
    halConfig (h.transmit answer m).1 = halConfig h := by
  unfold Hal.transmit halConfig
  cases hd : h.driver with
  | none => simp [hd]
  | some d =>
    dsimp only
    split
    · simp [hd]
    · rfl

theorem twaiRxTask_hal : s.twaiRxTask.dev = s.dev ∧ s.twaiRxTask.hal = s.hal := by
  unfold twaiRxTask
  cases s.rx <;> exact ⟨rfl, rfl⟩

theorem canTxTask_config (answer : TwaiAnswer) :
    halConfig (s.canTxTask answer).hal = halConfig s.hal ∧ (s.canTxTask answer).dev = s.dev := by
  cases htx : s.tx with
  | transmit =>
    unfold canTxTask
    rw [htx]
    dsimp only
    cases hp : s.pending with
    | none => exact ⟨rfl, rfl⟩
    | some p =>
      have ht := halConfig_transmit s.hal answer ⟨p, s.subs⟩
      dsimp only
      split
      · exact ⟨ht, rfl⟩
      · exact ⟨rfl, rfl⟩
      · exact ⟨rfl, rfl⟩
  | top | pop | drain | confirm | echo | parked =>
    unfold canTxTask
    rw [htx]
    dsimp only
    repeat' split
    all_goals exact ⟨rfl, rfl⟩

end CanState

namespace Owed

variable {handled : Prop} {s s' : CanState} {l : CanStep}

/-- A step that leaves `ctrl_task`, the device state and the configuration alone. -/
theorem keep (h : Owed handled s) (hctrl : s'.ctrl = s.ctrl) (hdev : s'.dev = s.dev)
    (hhal : halConfig s'.hal = halConfig s.hal) : Owed handled s' := by
  refine ⟨?_, ?_, ?_⟩
  · rw [hctrl, hdev]; exact h.boot
  · rw [hctrl, hdev]; exact h.carried
  · rw [hctrl, hdev, Applied, hhal]; exact h.settled

/-- `ctrl_task` moves on, outside a reconfiguration. -/
theorem outside (h : Owed handled s) (hboot : s.ctrl ≠ .boot) (hout : ¬s.ctrl.Applying)
    (hboot' : s'.ctrl ≠ .boot) (hcarry : ∀ c, ¬s'.ctrl.Carries c) (hdev : s'.dev = s.dev)
    (hhal : halConfig s'.hal = halConfig s.hal) : Owed handled s' := by
  refine ⟨fun hb => absurd hb hboot', fun c hc => absurd hc (hcarry c), fun _ _ => ?_⟩
  rw [hdev, Applied, hhal]
  exact h.settled hboot hout

/-- `ctrl_task` is in a reconfiguration, before the snapshot. -/
theorem inside (happ : s'.ctrl.Applying) (hboot' : s'.ctrl ≠ .boot)
    (hcarry : ∀ c, ¬s'.ctrl.Carries c) : Owed handled s' :=
  ⟨fun hb => absurd hb hboot', fun c hc => absurd hc (hcarry c), fun _ hno => absurd happ hno⟩

/-- A step of `ctrl_service_alerts()`. -/
theorem alerts (h : Owed handled s) {q : Bool} (hboot : s.ctrl ≠ .boot)
    (hq : s.ctrl.Applying → q = true) (hboot' : s'.ctrl ≠ .boot)
    (happ : q = true → s'.ctrl.Applying) (hcarry : ∀ c, ¬s'.ctrl.Carries c) (hdev : s'.dev = s.dev)
    (hhal : halConfig s'.hal = halConfig s.hal) : Owed handled s' := by
  cases q with
  | true => exact inside (happ rfl) hboot' hcarry
  | false =>
    exact h.outside hboot (fun ha => absurd (hq ha) (by decide)) hboot' hcarry hdev hhal

/-- `ctrl_task` has taken its snapshot. -/
theorem snapshot (c : Option Config) (hc : s'.ctrl = .stop c) (hw : c = wanted s'.dev) :
    Owed handled s' := by
  refine ⟨fun hb => ?_, fun c' hc' _ => ?_, fun _ hno => ?_⟩
  · rw [hc] at hb; cases hb
  · rw [hc] at hc'
    obtain rfl : c' = c := hc'
    exact hw
  · rw [hc] at hno; exact absurd trivial hno

/-- The old driver is gone. -/
theorem gone (h : Owed handled s) {c : Option Config} (hc : s.ctrl.Carries c)
    (hctrl : s'.ctrl = CanState.afterStop c) (hdev : s'.dev = s.dev) (hhal : s'.hal.driver = none) :
    Owed handled s' := by
  cases c with
  | none =>
    refine ⟨fun hb => ?_, fun c' hc' => ?_, fun _ _ _ hpending => ?_⟩
    · rw [hctrl] at hb; cases hb
    · rw [hctrl] at hc'; exact hc'.elim
    · rw [hdev] at hpending ⊢
      rw [Applied, ← h.carried none hc hpending, halConfig, hhal]
      rfl
  | some c =>
    refine ⟨fun hb => ?_, fun c' hc' hpending => ?_, fun _ hno => ?_⟩
    · rw [hctrl] at hb; cases hb
    · rw [hctrl] at hc'
      obtain rfl : c' = some c := hc'
      rw [hdev] at hpending ⊢
      exact h.carried _ hc hpending
    · rw [hctrl] at hno; exact absurd trivial hno

/-- The new driver is installed. -/
theorem installed (h : Owed handled s) {c : Config} (hc : s.ctrl = .install c)
    (hrate : s.dev.bitrate ≠ 0) (hctrl : s'.ctrl = .postAbort) (hdev : s'.dev = s.dev)
    (hhal : s'.hal = s.hal.install c true) : Owed handled s' := by
  refine ⟨fun hb => ?_, fun c' hc' => ?_, fun _ _ _ hpending => ?_⟩
  · rw [hctrl] at hb; cases hb
  · rw [hctrl] at hc'; exact hc'.elim
  · rw [hdev] at hpending ⊢
    have hw := h.carried (some c) (by rw [hc]; rfl) hpending
    have hne : c.bitrate ≠ 0 := by
      unfold wanted at hw
      split at hw
      · obtain rfl := Option.some.inj hw
        exact hrate
      · cases hw
    rw [Applied, ← hw, hhal, Hal.install, if_pos rfl, if_neg hne]
    rfl

/-- One step of `ctrl_task`. -/
theorem ctrl (h : Owed handled s) (hrate : s.dev.bitrate ≠ 0) {ok : Bool}
    (huninstall : ∀ c, s.ctrl = .uninstall c → ∀ d ∈ s.hal.driver, d.CanUninstall)
    (hinstall : ∀ c, s.ctrl = .install c → ok = true) : Owed handled (s.ctrlTask ok) := by
  unfold CanState.ctrlTask
  cases hpc : s.ctrl <;> dsimp only
  case boot =>
    -- a command that comes before the driver is up is pending still
    exact ⟨fun hb => (by cases hb), fun c hc => hc.elim, fun _ _ hh hpending =>
      absurd (h.boot hpc hh) (by rw [show s.dev.reconfigPending = false from hpending]; decide)⟩
  case top =>
    refine h.outside (by simp [hpc]) (by simp [hpc, CtrlPc.Applying]) ?_ ?_ rfl rfl
    · dsimp only; split <;> simp
    · intro c; dsimp only; split <;> exact id
  case begin =>
    exact h.outside (by simp [hpc]) (by simp [hpc, CtrlPc.Applying]) (by simp) (fun c => id) rfl rfl
  case awaitRx cycle | awaitTx cycle =>
    refine h.outside (by simp [hpc]) (by simp [hpc, CtrlPc.Applying]) ?_ ?_ rfl rfl
    · dsimp only; repeat' split
      all_goals simp
    · intro c; dsimp only; repeat' split
      all_goals exact id
  case giveUp | finish =>
    exact h.outside (by simp [hpc]) (by simp [hpc, CtrlPc.Applying]) (by simp) (fun c => id) rfl rfl
  case clear => exact inside rfl (by simp) fun c => id
  case readAlerts q =>
    cases hd : s.hal.driver with
    | none =>
      refine h.alerts (q := q) (by simp [hpc]) (by rw [hpc]; exact id) ?_ ?_ ?_ rfl rfl
      all_goals cases q
      all_goals simp [CanState.afterAlerts, CtrlPc.Applying, CtrlPc.Carries]
    | some d =>
      exact h.alerts (q := q) (by simp [hpc]) (by rw [hpc]; exact id) (by simp) id (fun c => id) rfl
        (s.halConfig_withDriver _)
  case recover q a =>
    refine h.alerts (q := q) (by simp [hpc]) (by rw [hpc]; exact id) (by simp) id (fun c => id) ?_ ?_
    · dsimp only; split
      · exact s.dev_discarding _
      · rfl
    · dsimp only; split
      · exact s.halConfig_discarding _
      · rfl
  case restart q a =>
    refine h.alerts (q := q) (by simp [hpc]) (by rw [hpc]; exact id) (by simp) id (fun c => id) ?_ ?_
    · dsimp only; split <;> rfl
    · dsimp only; split
      · exact s.halConfig_withDriver _
      · rfl
  case postOutcome q a =>
    refine h.alerts (q := q) (by simp [hpc]) (by rw [hpc]; exact id) (by simp) id (fun c => id) ?_ ?_
    all_goals cases s.posting <;> rfl
  case postBusOff q a =>
    refine h.alerts (q := q) (by simp [hpc]) (by rw [hpc]; exact id) ?_ ?_ ?_ ?_ ?_
    · cases q <;> simp [CanState.afterAlerts]
    · cases q <;> simp [CanState.afterAlerts, CtrlPc.Applying]
    · cases q <;> exact fun c => id
    · dsimp only; split <;> rfl
    · dsimp only; split <;> rfl
  case snapshot => exact snapshot _ rfl rfl
  case stop c =>
    cases hd : s.hal.driver with
    | none => exact h.gone (by rw [hpc]; rfl) rfl rfl hd
    | some d =>
      refine ⟨fun hb => (by cases hb), fun c' hc' hpending => ?_, fun _ hno => absurd trivial hno⟩
      obtain rfl : c' = c := hc'
      rw [show ({ s.discarding Driver.stop with ctrl := .uninstall c' } : CanState).dev =
        s.dev from s.dev_discarding _] at hpending ⊢
      exact h.carried c' (by rw [hpc]; rfl) hpending
  case uninstall c =>
    cases hd : s.hal.driver with
    | none => exact h.gone (by rw [hpc]; rfl) rfl rfl hd
    | some d =>
      dsimp only
      rw [if_pos (huninstall c hpc d hd)]
      exact h.gone (by rw [hpc]; rfl) rfl rfl rfl
  case install c =>
    obtain rfl := hinstall c hpc
    exact h.installed hpc hrate rfl rfl rfl
  case postAbort =>
    exact h.outside (by simp [hpc]) (by simp [hpc, CtrlPc.Applying]) (by simp) (fun c => id) rfl rfl

/-- While a request is pending, nothing is owed. -/
theorem of_pending (hpending : s.dev.reconfigPending = true) : Owed handled s where
  boot _ _ := hpending
  carried _ _ hno := absurd (hpending.symm.trans hno) (by decide)
  settled _ _ _ hno := absurd (hpending.symm.trans hno) (by decide)

/-- A command that is nothing for `ctrl_task`. -/
theorem mono {handled' : Prop} (h : Owed handled s) (hhandled : handled' → handled) :
    Owed handled' s where
  boot hb hh := h.boot hb (hhandled hh)
  carried := h.carried
  settled hb ha hh := h.settled hb ha (hhandled hh)

/-- One step of the CAN side. -/
theorem can (h : Owed handled s) (hrate : s.dev.bitrate ≠ 0) {st : PcanDevState}
    (hg : DriverSucceeds ⟨st, s⟩ (.can l)) (hst : Device.canStep s l = some s') :
    Owed handled s' := by
  cases l with
  | command dev => cases hst
  | host f lock => obtain rfl := Option.some.inj hst; exact h.keep rfl rfl rfl
  | rx =>
    obtain rfl := Option.some.inj hst
    exact h.keep s.twaiRxTask_frame.2.1 s.twaiRxTask_hal.1 (by rw [s.twaiRxTask_hal.2])
  | tx answer =>
    obtain rfl := Option.some.inj hst
    have hconfig := s.canTxTask_config answer
    exact h.keep (s.canTxTask_frame answer).2.2.1 hconfig.2 hconfig.1
  | ctrl ok =>
    obtain rfl := Option.some.inj hst
    refine h.ctrl hrate (fun c hc => ?_) fun c hc => ?_
    all_goals
      simp only [DriverSucceeds, hc] at hg
      exact hg
  | success | failure | busOff | recovered =>
    obtain ⟨d, d', hd, -, rfl⟩ := CanState.controller_eq hst
    exact h.keep rfl rfl (by rw [halConfig, halConfig, hd]; rfl)

end Owed

/-! ### The device state -/

/-- The tasks leave the fields of a snapshot alone. -/
theorem Device.canStep_dev {s s' : CanState} {l : CanStep} (hst : Device.canStep s l = some s') :
    s'.dev = { s.dev with reconfigPending := s'.dev.reconfigPending } := by
  cases l with
  | command dev => cases hst
  | host f lock => obtain rfl := Option.some.inj hst; rfl
  | rx => obtain rfl := Option.some.inj hst; rw [s.twaiRxTask_hal.1]
  | tx answer => obtain rfl := Option.some.inj hst; rw [(s.canTxTask_config answer).2]
  | ctrl ok =>
    obtain rfl := Option.some.inj hst
    show (s.ctrlTask ok).dev = { s.dev with reconfigPending := (s.ctrlTask ok).dev.reconfigPending }
    unfold CanState.ctrlTask CanState.sendAbort CanState.send CanState.discarding Option.elim
    repeat' split
    all_goals rfl
  | success | failure | busOff | recovered =>
    obtain ⟨d, d', -, -, rfl⟩ := CanState.controller_eq hst
    rfl

/-- A command that does not reconfigure leaves what `ctrl_task` reads. -/
theorem devView_of_not_reconfigures (st : PcanDevState) {cmd : List UInt8}
    (h : ¬Reconfigures cmd) : devView (pcanCmdHandle st cmd).2.1 = devView st := by
  obtain ⟨hbitrate, hbusOn, hsilent, hpending⟩ := pcanCmdHandle_spec st cmd
  obtain ⟨hnone, hnone', hnone''⟩ := asksNothing_of_not_reconfigures h
  rw [devView, hbitrate, hbusOn, hsilent, hnone, hnone', hnone'',
    Bool.eq_iff_iff.2 (hpending.trans (or_iff_right h))]
  rfl

/-- A command leaves a bitrate. -/
theorem bitrate_handled (st : PcanDevState) (cmd : List UInt8) (h : st.bitrate ≠ 0) :
    (pcanCmdHandle st cmd).2.1.bitrate ≠ 0 := by
  rw [(pcanCmdHandle_spec st cmd).1]
  cases hbr : bitrateOf cmd with
  | none => exact h
  | some br => exact bitrateOf_ne_zero hbr

/-- A command is nothing for `ctrl_task`, or it will find it pending. -/
theorem Owed.command {s : CanState} {st : PcanDevState} {cmds : List (List UInt8)}
    (cmd : List UInt8) (hview : s.dev = devView st)
    (h : ¬Reconfigures cmd → Owed (∃ c ∈ cmds, Reconfigures c) s) :
    Owed (∃ c ∈ cmds ++ [cmd], Reconfigures c)
      { s with dev := devView (pcanCmdHandle st cmd).2.1 } := by
  by_cases hr : Reconfigures cmd
  · exact .of_pending ((pcanCmdHandle_spec st cmd).2.2.2.2 (.inl hr))
  · rw [devView_of_not_reconfigures st hr, ← hview]
    refine (h hr).mono fun ⟨c, hc, hrc⟩ => ?_
    rcases List.mem_append.1 hc with hc | hc
    · exact ⟨c, hc, hrc⟩
    · rw [List.mem_singleton.1 hc] at hrc
      exact absurd hrc hr

/-- When nothing is pending and no snapshot is being applied, the driver is what the device state
asks for. -/
theorem Owed.driver {handled : Prop} {s : Device} (h : Owed handled s.can)
    (hview : s.can.dev = devView s.st) (hpending : s.st.reconfigPending = false)
    (happly : ¬s.can.ctrl.Applying) (hhandled : handled) :
    if s.st.busOn then
      s.can.hal.driver ≠ none ∧ s.can.hal.bitrate = nearestSupportedBitrate s.st.bitrate ∧
        s.can.hal.listenOnly = s.st.silent
    else s.can.hal.driver = none := by
  have hdev : s.can.dev.reconfigPending = false := by rw [hview]; exact hpending
  -- before the boot is over no request has been taken up
  have hboot : s.can.ctrl ≠ .boot := fun hb => absurd (h.boot hb hhandled) (by simp [hdev])
  have happlied := h.settled hboot happly hhandled hdev
  rw [hview, Applied, halConfig, wanted, devView] at happlied
  dsimp only at happlied
  split
  · rename_i hon
    rw [if_pos hon] at happlied
    obtain ⟨d, hd, hc⟩ := Option.map_eq_some_iff.1 happlied
    obtain ⟨hrate, hmode⟩ := Config.mk.inj hc
    exact ⟨by rw [hd]; simp, hrate, hmode⟩
  · rename_i hoff
    rw [if_neg hoff] at happlied
    exact Option.map_eq_none_iff.1 happlied

/-- What holds between steps. -/
structure DeviceInv (s : Device) (cmds : List (List UInt8)) : Prop where
  view : s.can.dev = devView s.st
  rate : s.st.bitrate ≠ 0
  owed : Owed (∃ cmd ∈ cmds, Reconfigures cmd) s.can
  bitrate : s.st.bitrate = lastOf bitrateOf cmds defaultBitrate
  busOn : s.st.busOn = lastOf busOnOf cmds false
  silent : s.st.silent = lastOf silentOf cmds false

namespace DeviceInv

variable {s s' : Device} {l : DeviceStep} {cmds : List (List UInt8)}

theorem init : DeviceInv Device.init [] where
  view := rfl
  rate := by decide
  owed := ⟨fun _ ⟨_, h, _⟩ => by simp at h, fun _ h => h.elim, fun _ _ ⟨_, h, _⟩ => by simp at h⟩
  bitrate := rfl
  busOn := rfl
  silent := rfl

theorem command (hi : DeviceInv s cmds) (cmd : List UInt8) :
    DeviceInv ⟨(pcanCmdHandle s.st cmd).2.1,
      { s.can with dev := devView (pcanCmdHandle s.st cmd).2.1 }⟩ (cmds ++ [cmd]) := by
  obtain ⟨hbitrate, hbusOn, hsilent, -⟩ := pcanCmdHandle_spec s.st cmd
  refine ⟨rfl, bitrate_handled s.st cmd hi.rate, Owed.command cmd hi.view fun _ => hi.owed, ?_, ?_,
    ?_⟩
  · rw [lastOf_snoc, ← hi.bitrate]; exact hbitrate
  · rw [lastOf_snoc, ← hi.busOn]; exact hbusOn
  · rw [lastOf_snoc, ← hi.silent]; exact hsilent

theorem step (hi : DeviceInv s cmds) (hg : DriverSucceeds s l) (hst : s.step l = some s') :
    DeviceInv s' (commands s l cmds) := by
  cases l with
  | command cmd => obtain rfl := Option.some.inj hst; exact hi.command cmd
  | can l =>
    obtain ⟨c, hc, rfl⟩ := Option.map_eq_some_iff.1 hst
    refine ⟨?_, hi.rate, hi.owed.can ?_ hg hc, hi.bitrate, hi.busOn, hi.silent⟩
    · dsimp only
      rw [Device.canStep_dev hc, hi.view]
      rfl
    · rw [hi.view]; exact hi.rate

end DeviceInv

/-! ### Runs -/

/-- **When nothing is pending, the driver is what the last commands ask for.**  In every run in
which the driver calls of a reconfiguration succeed, once a command that reconfigures has been
handled, nothing is pending and `ctrl_task` is not applying a snapshot: there is no driver while
the bus is off, else one with the nearest bitrate and mode; and the fields are those of the last
command for each. -/
theorem reconfigured {ls : List DeviceStep} {s : Device} {cmds : List (List UInt8)}
    (hrun : ((deviceSystem.guard DriverSucceeds).withAux commands).Run (.init, []) ls (s, cmds))
    (hpending : s.st.reconfigPending = false) (happly : ¬s.can.ctrl.Applying)
    (hhandled : ∃ cmd ∈ cmds, Reconfigures cmd) :
    (if s.st.busOn then
      s.can.hal.driver ≠ none ∧ s.can.hal.bitrate = nearestSupportedBitrate s.st.bitrate ∧
        s.can.hal.listenOnly = s.st.silent
    else s.can.hal.driver = none) ∧
      s.st.bitrate = lastOf bitrateOf cmds defaultBitrate ∧
      s.st.busOn = lastOf busOnOf cmds false ∧ s.st.silent = lastOf silentOf cmds false := by
  have hi : DeviceInv s cmds := by
    refine hrun.invariant (I := fun p => DeviceInv p.1 p.2) .init ?_
    rintro ⟨s, cmds⟩ l ⟨s', cmds'⟩ hi ⟨⟨hg, hst⟩, rfl⟩
    exact hi.step hg hst
  exact ⟨hi.owed.driver hi.view hpending happly hhandled, hi.bitrate, hi.busOn, hi.silent⟩

/-- A command with two bytes of arguments. -/
def shortCommand (func num arg0 arg1 : UInt8) : List UInt8 :=
  func :: num :: arg0 :: arg1 :: List.replicate 12 0

/-- The host opens the bus with 250 kbit/s; it asks for silence when `ctrl_task` has already taken
its snapshot, so that the tasks park a second time. -/
def lateSilence : Option (Device × List (List UInt8)) :=
  System.exec Device.step DriverSucceeds commands (.init, [])
    ([.command (shortCommand Func.bitrate usbSet 0x1C 0x01),
      .command (shortCommand Func.setBus usbBusXcver 1 0)] ++
      (ctrls 3 ++ parking ++ ctrls 9).map .can ++
      [.command (shortCommand Func.setBus usbBusSilentMode 1 0)] ++
      (ctrls 12 ++ parking ++ ctrls 14).map .can)

theorem reconfigured_lateSilence :
    ∃ p, lateSilence = some p ∧ p.1.st.busOn = true ∧ p.1.can.hal.driver ≠ none ∧
      p.1.can.hal.bitrate = 250000 ∧ p.1.can.hal.listenOnly = true := by
  have hst : lateSilence.map (fun p => (p.1.st.reconfigPending, p.1.st.busOn, p.1.st.silent,
      nearestSupportedBitrate p.1.st.bitrate, decide p.1.can.ctrl.Applying,
      decide (∃ cmd ∈ p.2, Reconfigures cmd))) =
      some (false, true, true, 250000, false, true) := by decide +kernel
  obtain ⟨⟨s, cmds⟩, h, hst⟩ := Option.map_eq_some_iff.1 hst
  simp only [Prod.mk.injEq, decide_eq_true_eq, decide_eq_false_iff_not] at hst
  obtain ⟨hpending, hon, hsilent, hrate, happly, hcmds⟩ := hst
  have hfinal := (reconfigured (System.Run.of_exec h) hpending happly hcmds).1
  rw [if_pos hon, hrate, hsilent] at hfinal
  exact ⟨(s, cmds), h, hon, hfinal⟩

end Bridge

end Espcan32
