import Espcan32.Bridge.Granted
import Espcan32.Bridge.Retry

/-!
# The passes of `ctrl_task`

A pass of `ctrl_task` from the top of its loop to the next has a bounded number of steps, but for
the wait for the two tasks, which is over soon.  A reconfiguration that is pending is taken up by
the next pass, so that, if no command asks for another one, `ctrl_task` soon does nothing but read
alerts.

* `Settling` : the steps in which no time runs out and no command reconfigures again.
* `CanState.AtRest` : `ctrl_task` does nothing but read alerts.
* `Orderly.rest_step` : every round of the three tasks brings this nearer.
-/

namespace Espcan32

namespace Bridge

open Twai

/-- No command asks for a reconfiguration that is not pending yet. -/
def NoRequest (s : CanState) : CanStep → Prop
  | .command dev => dev.reconfigPending = true → s.dev.reconfigPending = true
  | _ => True

instance (s : CanState) : (l : CanStep) → Decidable (NoRequest s l)
  | .command _ => @instDecidableForall _ _ (instDecidableEqBool _ _) (instDecidableEqBool _ _)
  | .host .. | .rx | .tx _ | .ctrl _ | .success | .failure | .busOff | .recovered =>
    instDecidableTrue

/-- No cycle reuses a number that an acknowledgement still shows, `ctrl_task` does not run out of
time in its wait, and no command asks for another reconfiguration. -/
def Settling (s : CanState) (l : CanStep) : Prop := FreshCycle s l ∧ TimeLeft s l ∧ NoRequest s l

instance (s : CanState) (l : CanStep) : Decidable (Settling s l) :=
  inferInstanceAs (Decidable (_ ∧ _ ∧ _))

/-- `ctrl_task` is in a pass, and neither waits nor is about to. -/
def CtrlPc.Passing : CtrlPc → Prop
  | .begin | .awaitRx _ | .awaitTx _ | .clear => False
  | _ => True

/-- How many steps `ctrl_task` has before it at most until it is at the top of its loop. -/
def CtrlPc.toTop : CtrlPc → ℕ
  | .top => 0
  | .boot => 1
  | .postBusOff q _ => if q then 12 else 1
  | .postOutcome q _ => if q then 13 else 2
  | .restart q _ => if q then 14 else 3
  | .recover q _ => if q then 15 else 4
  | .readAlerts q => if q then 16 else 5
  | .finish | .giveUp => 6
  | .postAbort => 7
  | .install _ => 8
  | .uninstall _ => 9
  | .stop _ => 10
  | .snapshot => 11
  | .clear => 17
  -- the wait comes on top
  | .awaitRx _ | .awaitTx _ => 18
  | .begin => 36

/-- `ctrl_task` is outside every cycle, and not about to open one. -/
def CtrlPc.Idle (pc : CtrlPc) : Prop := pc.phase = .closed ∧ pc ≠ .begin

theorem CtrlPc.Passing.toTop_le {pc : CtrlPc} (h : pc.Passing) : pc.toTop ≤ 16 := by
  cases pc <;> first | exact h.elim | skip
  all_goals simp only [toTop]
  all_goals repeat' split
  all_goals omega

namespace CanState

/-- No reconfiguration is pending or under way. -/
def AtRest (s : CanState) : Prop := s.dev.reconfigPending = false ∧ s.ctrl.Idle

/-- How many rounds of the three tasks are left at most before `ctrl_task` is at rest, less one. -/
def toRest (s : CanState) : ℕ :=
  match s.ctrl with
  | .awaitRx cycle | .awaitTx cycle => 18 + s.toGrant cycle
  | .begin => 36
  | .clear => 17
  -- a reconfiguration that is pending is left to the next pass
  | pc => (if s.dev.reconfigPending then 37 else 0) + pc.toTop

/-- The task whose next step brings the rest nearer. -/
def restHelper (s : CanState) : Task :=
  match s.ctrl with
  | .awaitRx cycle | .awaitTx cycle => s.helper cycle
  | _ => .ctrl

variable {s s' : CanState} {l : CanStep} {cycle : UInt32} {ok : Bool}

theorem toRest_of_awaits (hw : s.ctrl.Awaits cycle) : s.toRest = 18 + s.toGrant cycle := by
  rcases CtrlPc.awaits_iff.1 hw with hpc | hpc <;> simp only [toRest, hpc]

theorem restHelper_of_awaits (hw : s.ctrl.Awaits cycle) : s.restHelper = s.helper cycle := by
  rcases CtrlPc.awaits_iff.1 hw with hpc | hpc <;> simp only [restHelper, hpc]

theorem toRest_of_passing (h : s.ctrl.Passing) :
    s.toRest = (if s.dev.reconfigPending then 37 else 0) + s.ctrl.toTop := by
  unfold toRest
  cases hpc : s.ctrl <;> rw [hpc] at h <;> first | rfl | exact h.elim

/-- Within a pass each step leads nearer to the top. -/
theorem ctrlTask_toTop (ok : Bool) (h : s.ctrl.Passing) (htop : s.ctrl ≠ .top) :
    (s.ctrlTask ok).ctrl.Passing ∧ (s.ctrlTask ok).ctrl.toTop < s.ctrl.toTop := by
  have hstop (c : Option Config) : (afterStop c).Passing ∧ (afterStop c).toTop < 9 := by
    cases c <;> exact ⟨trivial, by simp [afterStop, CtrlPc.toTop]⟩
  unfold ctrlTask
  cases hpc : s.ctrl <;> dsimp only
  case begin | awaitRx | awaitTx | clear => rw [hpc] at h; exact h.elim
  case top => exact absurd hpc htop
  case readAlerts q =>
    cases s.hal.driver <;> cases q <;> exact ⟨trivial, by simp [CtrlPc.toTop, afterAlerts]⟩
  case recover q a | restart q a | postOutcome q a | postBusOff q a =>
    cases q <;> exact ⟨trivial, by simp [CtrlPc.toTop, afterAlerts]⟩
  case stop c =>
    split
    · exact ⟨(hstop c).1, Nat.lt_succ_of_lt (hstop c).2⟩
    · exact ⟨trivial, by simp [CtrlPc.toTop]⟩
  case uninstall c =>
    split
    · exact hstop c
    · split
      · exact hstop c
      · exact ⟨trivial, by simp [CtrlPc.toTop]⟩
  all_goals exact ⟨trivial, by simp [CtrlPc.toTop]⟩

/-- Each step of `ctrl_task` outside its wait brings the rest nearer. -/
theorem Orderly.toRest_ctrlTask (h : (s.ctrlTask ok).Orderly) (hrest : ¬s.AtRest)
    (hw : ∀ cycle, ¬s.ctrl.Awaits cycle) : (s.ctrlTask ok).toRest < s.toRest := by
  have hdev (hne : s.ctrl ≠ .clear) : (s.ctrlTask ok).dev = s.dev := s.ctrlTask_dev ok hne
  cases hpc : s.ctrl
  case awaitRx c => exact absurd (CtrlPc.awaits_iff.2 (.inl hpc)) (hw c)
  case awaitTx c => exact absurd (CtrlPc.awaits_iff.2 (.inr hpc)) (hw c)
  case begin =>
    have hw' : (s.ctrlTask ok).ctrl.Awaits (s.seq + 1) := by
      simp only [ctrlTask, hpc]
      exact .inl rfl
    rw [toRest_of_awaits hw', show s.toRest = 36 by simp only [toRest, hpc]]
    have hle := h.toGrant_le (s.seq + 1)
    omega
  case clear =>
    have hnext : (s.ctrlTask ok).toRest = 16 := by simp [toRest, ctrlTask, hpc, CtrlPc.toTop]
    rw [hnext, show s.toRest = 17 by simp only [toRest, hpc]]
    exact Nat.lt_succ_self 16
  case top =>
    -- the pending reconfiguration is taken up
    have hpending : s.dev.reconfigPending = true := by
      by_contra hno
      exact hrest ⟨Bool.not_eq_true _ ▸ hno, by rw [hpc]; exact ⟨rfl, by simp⟩⟩
    have hnext : (s.ctrlTask ok).toRest = 36 := by simp [toRest, ctrlTask, hpc, hpending]
    rw [hnext, toRest_of_passing (by rw [hpc]; trivial), if_pos hpending]
    omega
  all_goals
    have hpass : s.ctrl.Passing := by rw [hpc]; trivial
    obtain ⟨hpass', hlt⟩ := ctrlTask_toTop ok hpass (by rw [hpc]; simp)
    rw [toRest_of_passing hpass, toRest_of_passing hpass', hdev (by rw [hpc]; simp)]
    omega

theorem restHelper_of_not_awaits (hw : ∀ cycle, ¬s.ctrl.Awaits cycle) : s.restHelper = .ctrl := by
  unfold restHelper
  split
  · exact absurd (CtrlPc.awaits_iff.2 (.inl ‹_›)) (hw _)
  · exact absurd (CtrlPc.awaits_iff.2 (.inr ‹_›)) (hw _)
  · rfl

/-- A command may drop the reconfiguration that is pending. -/
theorem toRest_le (hctrl : s'.ctrl = s.ctrl)
    (hdev : s'.dev.reconfigPending = true → s.dev.reconfigPending = true)
    (hw : ∀ cycle, ¬s.ctrl.Awaits cycle) : s'.toRest ≤ s.toRest := by
  by_cases hpass : s.ctrl.Passing
  · rw [toRest_of_passing hpass, toRest_of_passing (hctrl ▸ hpass), hctrl]
    by_cases hp : s'.dev.reconfigPending = true
    · rw [if_pos hp, if_pos (hdev hp)]
    · rw [if_neg hp]
      omega
  · cases hpc : s.ctrl <;> rw [hpc] at hpass <;> try exact absurd trivial hpass
    case begin | clear => simp only [toRest, hctrl, hpc, le_refl]
    case awaitRx c => exact absurd (CtrlPc.awaits_iff.2 (.inl hpc)) (hw c)
    case awaitTx c => exact absurd (CtrlPc.awaits_iff.2 (.inr hpc)) (hw c)

theorem Orderly.toRest_lt (h : s.Orderly) : s.toRest < 54 := by
  by_cases hpass : s.ctrl.Passing
  · have hle := hpass.toTop_le
    rw [toRest_of_passing hpass]
    split <;> omega
  · cases hpc : s.ctrl <;> rw [hpc] at hpass <;> try exact absurd trivial hpass
    case begin | clear => simp [toRest, hpc]
    case awaitRx c | awaitTx c =>
      have hle := h.toGrant_le c
      simp only [toRest, hpc]
      omega

/-- While `ctrl_task` has not reached its rest, each step brings it nearer, or leaves the one who
helps. -/
theorem Orderly.rest_step (h : s.Orderly) (hrest : ¬s.AtRest) (hg : Settling s l)
    (hst : s.step l = some s') :
    s'.toRest < s.toRest ∨ s'.toRest = s.toRest ∧ s'.restHelper = s.restHelper ∧
      l.task ≠ some s.restHelper := by
  have h' := h.step hst hg.1
  by_cases hw : ∃ cycle, s.ctrl.Awaits cycle
  · obtain ⟨cycle, hw⟩ := hw
    rw [toRest_of_awaits hw, restHelper_of_awaits hw]
    have hwaits : s.ctrl ≠ .clear := by
      rcases CtrlPc.awaits_iff.1 hw with hpc | hpc <;> rw [hpc] <;> simp
    rcases waits_rank cycle s l s' ⟨h, hw⟩ hwaits ⟨hg.2.1, hst⟩ with
      hclear | ⟨⟨-, hw'⟩, hrank⟩
    · refine .inl ?_
      rw [show s'.toRest = 17 by simp only [toRest, hclear]]
      omega
    · rw [toRest_of_awaits hw', restHelper_of_awaits hw']
      exact hrank.imp (fun hlt => by omega) fun ⟨heq, hrest⟩ => ⟨by rw [heq], hrest⟩
  · have hw' : ∀ cycle, ¬s.ctrl.Awaits cycle := fun cycle hc => hw ⟨cycle, hc⟩
    -- the other tasks and the controller leave the pass alone
    have hother (hctrl : s'.ctrl = s.ctrl)
        (hdev : s'.dev.reconfigPending = true → s.dev.reconfigPending = true)
        (hl : l.task ≠ some .ctrl) : s'.toRest < s.toRest ∨ s'.toRest = s.toRest ∧
          s'.restHelper = s.restHelper ∧ l.task ≠ some s.restHelper := by
      rw [restHelper_of_not_awaits hw', restHelper_of_not_awaits (hctrl ▸ hw')]
      rcases Nat.lt_or_eq_of_le (toRest_le hctrl hdev hw') with hlt | heq
      · exact .inl hlt
      · exact .inr ⟨heq, rfl, hl⟩
    cases l with
    | ctrl ok =>
      obtain rfl := Option.some.inj hst
      exact .inl (h'.toRest_ctrlTask hrest hw')
    | rx =>
      obtain rfl := Option.some.inj hst
      refine hother s.twaiRxTask_frame.2.1 ?_ (by simp [CanStep.task])
      rw [(twaiRxTask_hal s).1]
      exact id
    | tx answer =>
      obtain rfl := Option.some.inj hst
      refine hother (s.canTxTask_frame answer).2.2.1 ?_ (by simp [CanStep.task])
      rw [(canTxTask_config s answer).2]
      exact id
    | host f lock =>
      obtain rfl := Option.some.inj hst
      exact hother rfl id (by simp [CanStep.task])
    | command dev =>
      obtain rfl := Option.some.inj hst
      exact hother rfl hg.2.2 (by simp [CanStep.task])
    | success | failure | busOff | recovered =>
      obtain ⟨d, d', -, -, rfl⟩ := controller_eq hst
      exact hother rfl id (by simp [CanStep.task])

/-- `ctrl_task` is moved by its own steps only. -/
theorem step_ctrl (hst : s.step l = some s') (hl : l.task ≠ some .ctrl) : s'.ctrl = s.ctrl := by
  cases l with
  | ctrl ok => exact absurd rfl hl
  | rx => obtain rfl := Option.some.inj hst; exact s.twaiRxTask_frame.2.1
  | tx answer => obtain rfl := Option.some.inj hst; exact (s.canTxTask_frame answer).2.2.1
  | host | command => obtain rfl := Option.some.inj hst; rfl
  | success | failure | busOff | recovered =>
    obtain ⟨d, d', -, -, rfl⟩ := controller_eq hst
    rfl

/-- Once at rest, `ctrl_task` does nothing but read alerts. -/
theorem AtRest.step (h : s.AtRest) (hg : Settling s l) (hst : s.step l = some s') : s'.AtRest := by
  obtain ⟨hdev, hphase, hbegin⟩ := h
  cases l with
  | rx =>
    obtain rfl := Option.some.inj hst
    rw [AtRest, (twaiRxTask_hal s).1, s.twaiRxTask_frame.2.1]
    exact ⟨hdev, hphase, hbegin⟩
  | tx answer =>
    obtain rfl := Option.some.inj hst
    rw [AtRest, (canTxTask_config s answer).2, (s.canTxTask_frame answer).2.2.1]
    exact ⟨hdev, hphase, hbegin⟩
  | ctrl ok =>
    obtain rfl := Option.some.inj hst
    have hclear : s.ctrl ≠ .clear := fun hpc => by rw [hpc] at hphase; cases hphase
    refine ⟨by rw [s.ctrlTask_dev ok hclear, hdev], ?_⟩
    unfold ctrlTask
    cases hpc : s.ctrl <;> rw [hpc] at hphase <;> first | exact absurd hpc hbegin | skip
    case boot => exact ⟨rfl, by simp⟩
    case top => dsimp only; rw [hdev]; exact ⟨rfl, by simp⟩
    case readAlerts q =>
      cases q
      · dsimp only
        split <;> exact ⟨rfl, by simp [afterAlerts]⟩
      · cases hphase
    case recover q a | restart q a | postOutcome q a =>
      cases q
      · exact ⟨rfl, by simp⟩
      · cases hphase
    case postBusOff q a =>
      cases q
      · exact ⟨rfl, by simp [afterAlerts]⟩
      · cases hphase
    all_goals cases hphase
  | host f lock => obtain rfl := Option.some.inj hst; exact ⟨hdev, hphase, hbegin⟩
  | command dev =>
    obtain rfl := Option.some.inj hst
    refine ⟨?_, hphase, hbegin⟩
    by_contra hp
    exact Bool.false_ne_true (hdev.symm.trans (hg.2.2 (Bool.not_eq_false _ ▸ hp)))
  | success | failure | busOff | recovered =>
    obtain ⟨d, d', -, -, rfl⟩ := controller_eq hst
    exact ⟨hdev, hphase, hbegin⟩

end CanState

/-- Whatever the steps keep until the end, they keep it until the end or until `ctrl_task` is at
rest. -/
theorem leadsIn_rest {K E : CanState → Prop}
    (hK : ∀ s l s', s.Orderly → K s → ¬E s → Settling s l → s.step l = some s' → E s' ∨ K s') :
    (canSystem.guard Settling).LeadsIn CanStep.task 54 (fun s => s.Orderly ∧ K s)
      fun s => E s ∨ s.Orderly ∧ K s ∧ s.AtRest := by
  refine System.Ranks.leadsIn CanState.toRest CanState.restHelper ?_
    fun s h => h.1.toRest_lt
  rintro s l s' ⟨h, hk⟩ hT ⟨hg, hst⟩
  have hE : ¬E s := fun hE => hT (.inl hE)
  have hrest : ¬s.AtRest := fun hrest => hT (.inr ⟨h, hk, hrest⟩)
  rcases hK s l s' h hk hE hg hst with hE' | hk'
  · exact .inl (.inl hE')
  · exact .inr ⟨⟨h.step hst hg.1, hk'⟩, h.rest_step hrest hg hst⟩

end Bridge

end Espcan32
