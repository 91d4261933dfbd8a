import Espcan32.Bridge.Tended

/-!
# The controller comes back from bus-off

`ctrl_task` starts the recovery of a controller that is bus-off, and starts the driver again when
the bus has recovered; in between it waits for the bus.  A reconfiguration under way ends with a new
driver or without one.

* `CtrlPc.toRevive` : how many steps of `ctrl_task` are left before it has done so.
* `controller_revives` : **the controller is never left bus-off or stopped.**
-/

namespace Espcan32

namespace Bridge

open Pcan Twai

/-- The controller runs, or waits for the bus to recover, or there is no driver. -/
def CanState.Alive (s : CanState) : Prop :=
  ∀ d ∈ s.hal.driver, d.state = .running ∨ d.state = .recovering

/-- How many steps a `ctrl_task` at rest has before it at most until a bus-off or stopped controller
is taken care of. -/
def CtrlPc.toRevive : CtrlPc → ℕ
  | .recover _ a => if a.busOff = true ∨ a.busRecovered = true then 4 else 10
  | .restart _ a => if a.busRecovered = true then 3 else 9
  | .postOutcome _ _ => 8
  | .postBusOff _ _ | .boot => 7
  | .top => 6
  | .readAlerts _ => 5
  | _ => 0

theorem CtrlPc.toRevive_le (pc : CtrlPc) : pc.toRevive ≤ 10 := by
  cases pc <;> simp only [toRevive] <;> repeat' split
  all_goals omega

namespace CanState

variable {s s' : CanState} {l : CanStep} {ok : Bool}

/-- Each step of a `ctrl_task` at rest counts. -/
theorem Tended.toRevive_ctrlTask (h : s.Tended) (hrest : s.AtRest) (halive : ¬s.Alive) :
    (s.ctrlTask ok).Alive ∨ (s.ctrlTask ok).ctrl.toRevive < s.ctrl.toRevive := by
  obtain ⟨hdev, hphase, hbegin⟩ := hrest
  -- a driver is there, and it is bus-off or stopped
  have hstate : ∃ d, s.hal.driver = some d ∧ (d.state = .busOff ∨ d.state = .stopped) := by
    by_contra hno
    refine halive fun d hd => ?_
    cases hst : d.state with
    | running => exact .inl rfl
    | recovering => exact .inr rfl
    | busOff => exact absurd ⟨d, hd, .inl hst⟩ hno
    | stopped => exact absurd ⟨d, hd, .inr hst⟩ hno
  obtain ⟨d, hd, hst⟩ := hstate
  have htends := h.driver d hd
  cases hpc : s.ctrl <;> rw [hpc] at hphase htends <;> first
    | exact absurd hpc hbegin
    | cases hphase
    | skip
  case boot => rw [h.noDriver (.inl hpc)] at hd; cases hd
  case top =>
    refine .inr ?_
    simp [CanState.ctrlTask, hpc, hdev, CtrlPc.toRevive]
  case readAlerts q =>
    refine .inr ?_
    -- the alert is still there
    have hread : d.alerts.busOff = true ∨ d.alerts.busRecovered = true := by
      rcases hst with hst | hst
      · exact (htends.off.1 hst).imp id fun hno => absurd hno Bool.false_ne_true
      · rcases htends.stopped hst with hb | hno | hno
        · exact .inr hb
        · exact absurd hno Bool.false_ne_true
        · exact absurd hno Bool.false_ne_true
    simp only [CanState.ctrlTask, hpc, hd, CtrlPc.toRevive, if_pos hread]
    omega
  case recover q a =>
    by_cases ha : a.busOff = true
    · refine .inl fun x hx => .inr ?_
      have hoff : d.state = .busOff := htends.off.2 (.inr ha)
      simp only [CanState.ctrlTask, hpc, if_pos ha, discarding, hd] at hx
      obtain rfl := Option.some.inj hx
      rw [Driver.initiateRecovery, if_pos hoff]
    · refine .inr ?_
      by_cases hb : a.busRecovered = true <;>
        simp [CanState.ctrlTask, hpc, CtrlPc.toRevive, ha, hb]
  case restart q a =>
    by_cases ha : a.busRecovered = true
    · refine .inl fun x hx => .inl ?_
      have hstopped : d.state = .stopped := htends.back (.inr ha)
      simp only [CanState.ctrlTask, hpc, if_pos ha, withDriver, hd, Option.map_some] at hx
      obtain rfl := Option.some.inj hx
      rw [Driver.start, if_pos hstopped]
    · refine .inr ?_
      simp [CanState.ctrlTask, hpc, CtrlPc.toRevive, ha]
  case postOutcome q a =>
    refine .inr ?_
    simp [CanState.ctrlTask, hpc, CtrlPc.toRevive]
  case postBusOff q a =>
    refine .inr ?_
    cases q
    · simp [CanState.ctrlTask, hpc, CtrlPc.toRevive, afterAlerts]
    · cases hphase

end CanState

/-- At rest, the controller is taken care of within a few rounds. -/
theorem revives_at_rest : (canSystem.guard Settling).LeadsIn CanStep.task 11
    (fun s => s.Orderly ∧ s.Tended ∧ s.AtRest) CanState.Alive := by
  refine System.Ranks.leadsIn (fun s => s.ctrl.toRevive) (fun _ => Task.ctrl) ?_
    fun s _ => Nat.lt_succ_of_le s.ctrl.toRevive_le
  rintro s l s' ⟨h, htended, hrest⟩ halive ⟨hg, hst⟩
  have hI : s'.Orderly ∧ s'.Tended ∧ s'.AtRest :=
    ⟨h.step hst hg.1, htended.step hst, hrest.step hg hst⟩
  by_cases hl : l.task = some .ctrl
  · cases l with
    | ctrl ok =>
      obtain rfl := Option.some.inj hst
      exact (htended.toRevive_ctrlTask hrest halive).imp id fun hlt => ⟨hI, .inl hlt⟩
    | rx | tx _ | host | command | success | failure | busOff | recovered => cases hl
  · exact .inr ⟨hI, .inr ⟨congrArg CtrlPc.toRevive (CanState.step_ctrl hst hl), rfl, hl⟩⟩

/-- **The controller is never left bus-off or stopped.**  In every run in which no cycle reuses a
number that an acknowledgement still shows, from every state: if the three tasks go on in any order,
`ctrl_task` does not run out of time in its wait and no further reconfiguration is asked for, then
after at most sixty-five rounds the controller runs, or is recovering and waits for the bus, or
there is no driver. -/
theorem controller_revives {dev : DevState} {ls : List CanStep} {s : CanState}
    (hrun : (canSystem.guard FreshCycle).Run (.init dev) ls s) {ls' : List CanStep} {s' : CanState}
    (hrun' : (canSystem.guard Settling).Run s ls' s') (hrounds : Rounds CanStep.task 65 ls') :
    (canSystem.guard Settling).Through CanState.Alive s ls' s' := by
  have htended : s.Tended :=
    hrun.invariant (.of_init dev) fun _ _ _ h hst => h.step hst.2
  have hrest : (canSystem.guard Settling).LeadsIn CanStep.task 54
      (fun s => s.Orderly ∧ s.Tended) fun s => s.Alive ∨ s.Orderly ∧ s.Tended ∧ s.AtRest :=
    leadsIn_rest fun s l s' _ h _ _ hst => .inr (h.step hst)
  exact hrest.trans revives_at_rest s ls' s' ⟨orderly_of_run hrun, htended⟩ hrun' hrounds

/-- A controller that has been started goes bus-off, while a reconfiguration is about to begin. -/
def offState : Option (CanState × Unit) :=
  System.exec CanState.step FreshCycle (fun _ _ x => x) (.init ⟨500000, false, true, false⟩, ())
    [.ctrl true, .busOff, .command ⟨250000, false, true, true⟩, .rx, .tx .accept, .ctrl true]

/-- The three tasks take turns. -/
def settle (s : CanState) : Option (CanState × Unit) :=
  System.exec CanState.step Settling (fun _ _ x => x) (s, ())
    (List.replicate 65 [.rx, .tx .timeout, .ctrl true]).flatten

theorem controller_revives_busOff :
    ∃ p q, offState = some p ∧ settle p.1 = some q ∧
      p.1.hal.driver.map Driver.state = some .busOff ∧
      (canSystem.guard Settling).Through CanState.Alive p.1
        (List.replicate 65 [.rx, .tx .timeout, .ctrl true]).flatten q.1 := by
  have hstate : offState.map (fun p => (p.1.hal.driver.map Driver.state, (settle p.1).isSome)) =
      some (some .busOff, true) := by
    decide +kernel
  obtain ⟨p, hp, hstate⟩ := Option.map_eq_some_iff.1 hstate
  obtain ⟨hoff, hsome⟩ := Prod.mk.inj hstate
  obtain ⟨q, hq⟩ := Option.isSome_iff_exists.1 hsome
  exact ⟨p, q, hp, hq, hoff, controller_revives (System.Run.of_exec hp).of_withAux
    (System.Run.of_exec hq).of_withAux (rounds_turns 65)⟩

end Bridge

end Espcan32
