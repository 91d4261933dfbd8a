import Espcan32.Bridge.Verdict

/-!
# Once on the wire

A frame is submitted again only if its copy is known to be gone.  Before a reconfiguration tears the
driver down, `ctrl_task` reads the alerts, so that a success reaches `can_tx_task` before the abort
does.  A success that comes behind this read is erased with the driver, and the abort speaks for a
frame that is on the wire.

* `CtrlPc.Closing` : `ctrl_task` has read the alerts, and not stopped the driver yet.
* `Once` : a frame in hand that is on the wire has its success in an alert, or in the next event.
* `wire_nodup` : **no frame is on the wire twice**, in every run in which no verdict is mistaken and
  no copy is completed while `ctrl_task` is closing the driver.
* `lateSuccess_duplicates` : a copy that is completed in between is on the wire a second time.
-/

namespace Espcan32

namespace Bridge

open Pcan Twai

/-- In a reconfiguration, between the read of the alerts and the stop of the driver. -/
def CtrlPc.Closing : CtrlPc → Prop
  | .recover q _ | .restart q _ | .postOutcome q _ | .postBusOff q _ => q = true
  | .snapshot | .stop _ => True
  | _ => False

instance (pc : CtrlPc) : Decidable pc.Closing := by
  unfold CtrlPc.Closing
  split <;> infer_instance

/-- In a reconfiguration, between the read of the alerts and the end of the driver. -/
def CtrlPc.Emptied : CtrlPc → Prop
  | .uninstall _ => True
  | pc => pc.Closing

theorem CtrlPc.Closing.emptied {pc : CtrlPc} (h : pc.Closing) : pc.Emptied := by
  cases pc <;> first | exact h | trivial

/-- No copy is completed behind the last read of the alerts. -/
def CompletesInTime (s : CanState) : CanStep → Prop
  | .success => ¬s.ctrl.Closing
  | _ => True

instance (s : CanState) (l : CanStep) : Decidable (CompletesInTime s l) := by
  unfold CompletesInTime
  split <;> infer_instance

/-- The success of the frame in hand is latched, or read, or is the next event. -/
def CanState.SuccessDue (s : CanState) : Prop :=
  s.successes ≠ [] ∨ s.inflight = true ∧ s.txDone.head?.map (·.ev) = some .ok

/-- No frame was on the wire twice, and the one in hand only if its success is on the way. -/
structure Once (s : CanState) (r : CanRecord) : Prop where
  owned : Owned s r
  nodup : r.wire.Nodup
  due : ∀ p ∈ s.pending, p.no ∈ r.wire → s.SuccessDue
  emptied : s.ctrl.Emptied → latched s.hal = []

theorem latched_of_empty {h : Hal Copy} (hempty : h.messages = []) : latched h = [] := by
  rw [latched]
  cases hd : h.driver with
  | none => rfl
  | some d =>
    rw [Hal.messages, hd] at hempty
    exact (List.append_eq_nil_iff.1 (List.append_eq_nil_iff.1 hempty).2).1

/-! ### Steps that leave the successes alone -/

section Successes

variable (s : CanState)

theorem latched_discarding {f : Driver Copy → Driver Copy × List Copy}
    (hf : ∀ d, (f d).1.alerts = d.alerts) : latched (s.discarding f).hal = latched s.hal := by
  unfold CanState.discarding latched
  cases hd : s.hal.driver with
  | none => simp only [hd]
  | some d => simp only [hf]

theorem latched_withDriver {f : Driver Copy → Driver Copy} (hf : ∀ d, (f d).alerts = d.alerts) :
    latched (s.withDriver f).hal = latched s.hal := by
  unfold CanState.withDriver latched
  cases hd : s.hal.driver with
  | none => simp only [Option.map_none]
  | some d => simp only [Option.map_some, hf]

/-- The alerts change when they are read, and with the driver. -/
theorem ctrlTask_latched (ok : Bool) (hread : ∀ q, s.ctrl ≠ .readAlerts q)
    (huninstall : ∀ c, s.ctrl ≠ .uninstall c) (hboot : s.ctrl ≠ .boot)
    (hinstall : ∀ c, s.ctrl ≠ .install c) : latched (s.ctrlTask ok).hal = latched s.hal := by
  unfold CanState.ctrlTask
  cases hpc : s.ctrl <;> dsimp only
  case readAlerts q => exact absurd hpc (hread q)
  case uninstall c => exact absurd hpc (huninstall c)
  case boot => exact absurd hpc hboot
  case install c => exact absurd hpc (hinstall c)
  case recover q a =>
    split
    · exact latched_discarding s Driver.initiateRecovery_alerts
    · rfl
  case restart q a =>
    split
    · exact latched_withDriver s Driver.start_alerts
    · rfl
  case postOutcome q a => cases s.posting <;> rfl
  case postBusOff q a => split <;> rfl
  case stop c =>
    split
    · rfl
    · exact latched_discarding s Driver.stop_alerts
  all_goals rfl

/-- They are taken up when they are read, and until they are posted. -/
theorem ctrlTask_unposted (ok : Bool) (hread : ∀ q, s.ctrl ≠ .readAlerts q)
    (hpost : ∀ q a, s.ctrl ≠ .postOutcome q a) :
    (s.ctrlTask ok).ctrl.unposted = s.ctrl.unposted := by
  unfold CanState.ctrlTask
  cases hpc : s.ctrl <;> dsimp only
  case readAlerts q => exact absurd hpc (hread q)
  case postOutcome q a => exact absurd hpc (hpost q a)
  case postBusOff q a => cases q <;> rfl
  case top => split <;> rfl
  case awaitRx | awaitTx => repeat' split
                            all_goals rfl
  case stop c => split <;> cases c <;> rfl
  case uninstall c =>
    split
    · cases c <;> rfl
    · split <;> cases c <;> rfl
  all_goals rfl

/-- `ctrl_task` never removes an event. -/
theorem ctrlTask_head (ok : Bool) {e : TxEvent} (he : s.txDone.head? = some e) :
    (s.ctrlTask ok).txDone.head? = some e := by
  have hsend (e' : TxEvent) : (s.send e').txDone.head? = some e := by
    unfold CanState.send
    dsimp only
    split
    · rw [List.head?_append, he]; rfl
    · exact he
  unfold CanState.ctrlTask
  cases hpc : s.ctrl <;> dsimp only
  case postOutcome q a =>
    cases s.posting with
    | none => exact he
    | some e' => exact hsend e'
  case postBusOff q a =>
    split
    · exact hsend _
    · exact he
  case postAbort => exact hsend _
  case readAlerts q => split <;> exact he
  case recover q a =>
    split
    · unfold CanState.discarding; split <;> exact he
    · exact he
  case restart q a => split <;> exact he
  case stop c =>
    split
    · exact he
    · unfold CanState.discarding; split <;> exact he
  case uninstall c =>
    split
    · exact he
    · split <;> exact he
  all_goals exact he

theorem afterStop_not_emptied (c : Option Config) : ¬(CanState.afterStop c).Emptied := by
  cases c <;> exact id

/-- `ctrl_task` starts to close the driver when it reads the alerts. -/
theorem ctrlTask_emptied (ok : Bool) (hread : ∀ q, s.ctrl ≠ .readAlerts q)
    (h : (s.ctrlTask ok).ctrl.Emptied) : s.ctrl.Closing := by
  unfold CanState.ctrlTask at h
  cases hpc : s.ctrl <;> simp only [hpc] at h
  case readAlerts q => exact absurd hpc (hread q)
  case recover q a | restart q a | postOutcome q a => exact h
  case postBusOff q a =>
    cases q
    · exact h.elim
    · rfl
  case snapshot | stop => trivial
  case uninstall c =>
    split at h
    · exact (afterStop_not_emptied c h).elim
    · split at h
      · exact (afterStop_not_emptied c h).elim
      · exact h.elim
  case top => split at h <;> exact h.elim
  case awaitRx | awaitTx =>
    repeat' split at h
    all_goals exact h.elim
  all_goals exact h.elim

theorem canTxTask_successes (answer : TwaiAnswer) :
    latched (s.canTxTask answer).hal = latched s.hal ∧
      (s.canTxTask answer).successes = s.successes := by
  have hlatched : latched (s.canTxTask answer).hal = latched s.hal := by
    unfold CanState.canTxTask
    cases s.tx <;> dsimp only
    case transmit =>
      cases s.pending with
      | none => rfl
      | some p =>
        have ht : latched (s.hal.transmit answer ⟨p, s.subs⟩).1 = latched s.hal := by
          rcases s.hal.transmit_cases answer ⟨p, s.subs⟩ with ⟨d, hd, -, ht⟩ | ⟨ht, -⟩
          · rw [ht, latched, latched, hd]
          · rw [ht]
        dsimp only
        split <;> first | exact ht | rfl
    all_goals repeat' split
    all_goals rfl
  refine ⟨hlatched, ?_⟩
  rw [CanState.successes, CanState.successes, hlatched, (s.canTxTask_frame answer).2.2.1]

end Successes

/-! ### The invariant -/

namespace Once

variable {s s' : CanState} {r r' : CanRecord}

theorem of_init (dev : DevState) : Once (.init dev) .none where
  owned := .of_init dev
  nodup := .nil
  due := nofun
  emptied := fun _ => rfl

/-- A step that puts nothing on the wire. -/
theorem keep (h : Once s r) (howned : Owned s' r') (hwire : r'.wire = r.wire)
    (hpend : ∀ p ∈ s'.pending, p ∈ s.pending) (hdue : s.SuccessDue → s'.SuccessDue)
    (hemptied : s'.ctrl.Emptied → latched s'.hal = []) : Once s' r' where
  owned := howned
  nodup := by rw [hwire]; exact h.nodup
  due := by
    intro p hp hmem
    rw [hwire] at hmem
    exact hdue (h.due p (hpend p hp) hmem)
  emptied := hemptied

/-- A copy in the queue of the driver is the only one, and its frame was never on the wire. -/
theorem queued (h : Once s r) {d : Driver Copy} (hd : s.hal.driver = some d) {c : Copy}
    (hc : c ∈ d.queue) : s.pending = some c.popped ∧ c.popped.no ∉ r.wire := by
  obtain ⟨hone, -, hpend, hdone⟩ := h.owned.copy_of_mem (c := c) (by
    rw [CanState.unreported, Hal.messages, hd]
    simp [Driver.messages, hc])
  refine ⟨hpend, fun hmem => ?_⟩
  rw [CanState.unreported, Hal.messages, hd, ← List.append_assoc] at hone
  obtain ⟨hfront, -, halerts⟩ := singleton_middle hone (List.ne_nil_of_mem hc)
  have hread := (List.append_eq_nil_iff.1 (List.append_eq_nil_iff.1 hfront).2).1
  have hlatched := (List.append_eq_nil_iff.1 halerts).1
  rcases h.due _ hpend hmem with hdue | ⟨-, hhead⟩
  · refine hdue ?_
    rw [CanState.successes, latched, hd, hread]
    exact hlatched
  · rw [hdone] at hhead
    cases hhead

/-- The copy is completed in time, and for the first time. -/
theorem success (h : Once s r) (htime : ¬s.ctrl.Closing) (hst : s.step .success = some s')
    (howned : Owned s' (canRecord s .success r)) : Once s' (canRecord s .success r) := by
  obtain ⟨d, d', hd, hf, rfl⟩ := CanState.controller_eq hst
  obtain ⟨⟨c, d''⟩, hc, rfl⟩ := Option.map_eq_some_iff.1 hf
  obtain ⟨hrun, hd'', hqueue⟩ := Driver.success_eq hc
  obtain ⟨hpend, hnew⟩ := h.queued hd (c := c) (by rw [hqueue]; exact List.mem_cons_self)
  have hr : canRecord s .success r = { r with wire := r.wire ++ [c.popped.no] } := by
    simp only [canRecord, hd, Option.bind_some, hc]
  rw [hr] at howned ⊢
  refine ⟨howned, ?_, fun _ _ _ => .inl ?_, ?_⟩
  · refine List.nodup_append.2 ⟨h.nodup, List.pairwise_singleton .., fun n hn m hm => ?_⟩
    rw [List.mem_singleton.1 hm]
    exact fun heq => hnew (heq ▸ hn)
  · rw [CanState.successes, latched, hd'']
    simp
  · -- the driver has stopped before it is uninstalled
    intro hemptied
    unfold CtrlPc.Emptied at hemptied
    split at hemptied
    · rename_i hpc
      have hfits := h.owned.ctrl
      rw [show s.ctrl = _ from hpc] at hfits
      exact absurd hrun (hfits d hd)
    · exact absurd hemptied htime

/-- The controller moves, and completes no copy. -/
theorem moved (h : Once s r) {d d' : Driver Copy} (hd : s.hal.driver = some d)
    (hsucc : d'.alerts.txSuccess = d.alerts.txSuccess)
    (howned : Owned { s with hal := { s.hal with driver := some d' } } r) :
    Once { s with hal := { s.hal with driver := some d' } } r := by
  have hlatched : latched { s.hal with driver := some d' } = latched s.hal := by
    rw [latched, latched, hd]
    exact hsucc
  refine h.keep howned rfl (fun _ => id) (fun hdue => ?_) ?_
  · unfold CanState.SuccessDue CanState.successes at hdue ⊢
    rw [hlatched]
    exact hdue
  · rw [hlatched]
    exact h.emptied

/-- Nothing but a success is due while no copy is out. -/
theorem due_of_idle (hin : s.inflight = false) (h : s.SuccessDue) : s.successes ≠ [] := by
  rcases h with h | ⟨hin', -⟩
  · exact h
  · exact absurd (hin.symm.trans hin') nofun

/-- One step of `can_tx_task`. -/
theorem tx (h : Once s r) {answer : TwaiAnswer}
    (howned : Owned (s.canTxTask answer) (canRecord s (.tx answer) r)) :
    Once (s.canTxTask answer) (canRecord s (.tx answer) r) := by
  obtain ⟨hlatched, hsucc⟩ := canTxTask_successes s answer
  have hctrl := (s.canTxTask_frame answer).2.2.1
  have hwire : (canRecord s (.tx answer) r).wire = r.wire := by
    simp only [canRecord]
    repeat' split
    all_goals rfl
  have hemptied : (s.canTxTask answer).ctrl.Emptied → latched (s.canTxTask answer).hal = [] := by
    rw [hctrl, hlatched]
    exact h.emptied
  have htask := h.owned.task
  cases htx : s.tx with
  | top | echo | parked =>
    refine h.keep howned hwire ?_ (fun hdue => ?_) hemptied
    · simp only [CanState.canTxTask, htx]; exact fun _ => id
    · rcases hdue with hdue | hdue
      · exact .inl (by rw [hsucc]; exact hdue)
      · refine .inr ?_
        simp only [CanState.canTxTask, htx]
        exact hdue
  | pop =>
    cases hring : s.txRing with
    | nil =>
      rw [CanState.canTxTask_pop_nil answer htx hring] at howned hemptied ⊢
      exact h.keep howned hwire (fun _ => id) id hemptied
    | cons f ring =>
      rw [CanState.canTxTask_pop_cons answer htx hring] at howned hemptied ⊢
      refine ⟨howned, by rw [hwire]; exact h.nodup, fun p hp hmem => ?_, hemptied⟩
      -- the frame is new
      obtain rfl := Option.some.inj hp
      rw [hwire] at hmem
      exact absurd (h.owned.below _ hmem) (lt_irrefl _)
  | drain =>
    rw [htx] at htask
    refine h.keep howned hwire ?_ (fun hdue => .inl ?_) hemptied
    · simp only [CanState.canTxTask, htx]
      split <;> exact fun _ => id
    · rw [hsucc]
      exact due_of_idle htask.2 hdue
  | transmit =>
    rw [htx] at htask
    refine h.keep howned hwire ?_ (fun hdue => .inl ?_) hemptied
    · intro p hp
      simp only [CanState.canTxTask, htx] at hp
      split at hp
      · exact hp
      · split at hp
        · exact hp
        · cases hp
        · exact hp
    · rw [hsucc]
      exact due_of_idle htask.2 hdue
  | confirm =>
    have hin : s.inflight = true := by
      rw [htx] at htask
      exact htask
    cases hdone : s.txDone with
    | nil =>
      rw [CanState.canTxTask_confirm_nil answer htx hdone] at howned hemptied ⊢
      exact h.keep howned hwire (fun _ => id) id hemptied
    | cons e events =>
      rw [CanState.canTxTask_confirm_cons answer htx hdone] at howned hemptied hsucc ⊢
      refine ⟨howned, by rw [hwire]; exact h.nodup, fun p hp hmem => .inl ?_, hemptied⟩
      rw [hwire] at hmem
      dsimp only at hp
      split at hp
      · cases hp
      · -- the verdict is no success
        rw [hsucc]
        rcases h.due p hp hmem with hdue | ⟨-, hok⟩
        · exact hdue
        · rw [hdone] at hok
          exact absurd (Option.some.inj hok) ‹¬e.ev = .ok›

/-- One step of `ctrl_task`. -/
theorem ctrl (h : Once s r) {ok : Bool} (howned : Owned (s.ctrlTask ok) (canRecord s (.ctrl ok) r)) :
    Once (s.ctrlTask ok) (canRecord s (.ctrl ok) r) := by
  obtain ⟨-, -, hpend, hin, -, -, -⟩ := s.ctrlTask_frame ok
  have hwire : (canRecord s (.ctrl ok) r).wire = r.wire := by
    simp only [canRecord]
    split <;> rfl
  have hfits := h.owned.ctrl
  -- an event stays; a success that is no event yet may become one
  have hkeep (hsucc : s.successes ≠ [] → (s.ctrlTask ok).SuccessDue)
      (hemptied : (s.ctrlTask ok).ctrl.Emptied → latched (s.ctrlTask ok).hal = []) :
      Once (s.ctrlTask ok) (canRecord s (.ctrl ok) r) := by
    refine h.keep howned hwire (by rw [hpend]; exact fun _ => id) (fun hdue => ?_) hemptied
    rcases hdue with hdue | ⟨hin', hhead⟩
    · exact hsucc hdue
    · obtain ⟨e, he, hev⟩ := Option.map_eq_some_iff.1 hhead
      exact .inr ⟨hin.trans hin', by rw [ctrlTask_head s ok he, Option.map_some, hev]⟩
  by_cases hread : ∃ q, s.ctrl = .readAlerts q
  · obtain ⟨q, hpc⟩ := hread
    cases hd : s.hal.driver with
    | none =>
      have hs : s.ctrlTask ok = { s with ctrl := CanState.afterAlerts q } := by
        simp only [CanState.ctrlTask, hpc, hd]
      have hnone : latched s.hal = [] := by rw [latched, hd]
      refine hkeep (fun hsucc => ?_) fun _ => by rw [hs]; exact hnone
      rw [CanState.successes, hpc, hnone] at hsucc
      exact absurd rfl hsucc
    | some d =>
      have hs : s.ctrlTask ok =
          { s with
            hal := { s.hal with driver := some d.readAlerts }
            ctrl := .recover q d.alerts } := by
        simp only [CanState.ctrlTask, hpc, hd, CanState.withDriver, Option.map_some]
      refine hkeep (fun hsucc => .inl ?_) fun _ => by rw [hs]; rfl
      rw [CanState.successes, hpc, latched, hd] at hsucc
      rw [hs]
      show d.alerts.txSuccess ++ [] ≠ []
      rw [List.append_nil]
      exact hsucc
  have hread (q : Bool) : s.ctrl ≠ .readAlerts q := fun hq => hread ⟨q, hq⟩
  -- without a driver, no success is due
  have hnone (hd : s.hal.driver = none) (hunposted : s.ctrl.unposted = .none) : s.successes = [] := by
    rw [CanState.successes, hunposted, latched, hd]
    rfl
  cases hpc : s.ctrl with
  | boot | install c =>
    rw [hpc] at hfits
    refine hkeep (fun hsucc => absurd (hnone hfits (by rw [hpc]; rfl)) hsucc) fun hemptied => ?_
    simp only [CanState.ctrlTask, hpc] at hemptied
    exact hemptied.elim
  | uninstall c =>
    -- the alerts that go with the driver hold no success
    have hempty := h.emptied (by rw [hpc]; trivial)
    refine hkeep (fun hsucc => ?_) fun hemptied => ?_
    · rw [CanState.successes, hpc, hempty] at hsucc
      exact absurd rfl hsucc
    · have hclosing := ctrlTask_emptied s ok hread hemptied
      rw [hpc] at hclosing
      exact hclosing.elim
  | postOutcome q a =>
    have hlatched := ctrlTask_latched s ok hread (by simp [hpc]) (by simp [hpc]) (by simp [hpc])
    refine hkeep (fun hsucc => ?_) fun hemptied => by
      rw [hlatched]
      exact h.emptied (ctrlTask_emptied s ok hread hemptied).emptied
    rw [CanState.successes, hpc] at hsucc
    by_cases hmessages : a.messages = []
    · -- nothing is posted
      rw [show (CtrlPc.postOutcome q a).unposted.txSuccess = [] from
        (List.append_eq_nil_iff.1 hmessages).1] at hsucc
      refine .inl fun hnil => hsucc ?_
      rw [CanState.successes, hlatched] at hnil
      rw [(List.append_eq_nil_iff.1 hnil).2]
      rfl
    · -- the one copy that is out has succeeded, so an OK is posted
      obtain ⟨c, hc⟩ := List.exists_mem_of_ne_nil _ hmessages
      have hcopies : s.unreported = s.lost ++ (a.messages ++ s.hal.messages) := by
        rw [CanState.unreported, hpc]; rfl
      obtain ⟨hone, hin', -, hdone⟩ := h.owned.copy_of_mem (c := c) (by rw [hcopies]; simp [hc])
      obtain ⟨-, hone, hempty⟩ := singleton_middle (hcopies ▸ hone) hmessages
      rw [latched_of_empty hempty, List.append_nil] at hsucc
      have hsucc : a.txSuccess ≠ [] := hsucc
      have hfailed : a.txFailed = [] := by
        rcases List.append_eq_singleton_iff.1 hone with ⟨hnil, -⟩ | ⟨-, hnil⟩
        · exact absurd hnil hsucc
        · exact hnil
      have hev : outcome a = some .ok := by
        rw [outcome, if_neg (not_not.2 hfailed), if_pos hsucc]
      have hposting : s.posting = some ⟨.ok, s.posts, a.messages.map (·.sub)⟩ := by
        rw [CanState.posting, hpc]; simp only [hev]; rfl
      refine .inr ⟨hin.trans hin', ?_⟩
      simp only [CanState.ctrlTask, hpc, hposting, Option.elim_some, CanState.send, hdone]
      rfl
  | _ =>
    have hlatched := ctrlTask_latched s ok hread (by simp [hpc]) (by simp [hpc]) (by simp [hpc])
    have hunposted := ctrlTask_unposted s ok hread (by simp [hpc])
    refine hkeep (fun hsucc => .inl ?_) fun hemptied => ?_
    · rw [CanState.successes, hlatched, hunposted]
      exact hsucc
    · rw [hlatched]
      exact h.emptied (ctrlTask_emptied s ok hread hemptied).emptied

/-- Every step keeps the invariant. -/
theorem step (h : Once s r) {l : CanStep} (hg : Undisturbed s l) (htime : CompletesInTime s l)
    (hst : s.step l = some s') : Once s' (canRecord s l r) := by
  have howned := h.owned.step hg.1 hg.2 hst
  cases l with
  | host f lock => obtain rfl := Option.some.inj hst; exact ⟨howned, h.nodup, h.due, h.emptied⟩
  | command dev => obtain rfl := Option.some.inj hst; exact ⟨howned, h.nodup, h.due, h.emptied⟩
  | rx =>
    obtain rfl := Option.some.inj hst
    cases hrx : s.rx <;> simp only [CanState.twaiRxTask, hrx] at howned ⊢ <;>
      exact ⟨howned, h.nodup, h.due, h.emptied⟩
  | tx answer => obtain rfl := Option.some.inj hst; exact h.tx howned
  | ctrl ok => obtain rfl := Option.some.inj hst; exact h.ctrl howned
  | success => exact h.success htime hst howned
  | failure =>
    obtain ⟨d, d', hd, hf, rfl⟩ := CanState.controller_eq hst
    exact h.moved hd (Driver.failure_txSuccess hf) howned
  | busOff =>
    obtain ⟨d, d', hd, hf, rfl⟩ := CanState.controller_eq hst
    exact h.moved hd (Driver.goBusOff_txSuccess hf) howned
  | recovered =>
    obtain ⟨d, d', hd, hf, rfl⟩ := CanState.controller_eq hst
    exact h.moved hd (Driver.recovered_txSuccess hf) howned

end Once

/-! ### Runs -/

/-- The condition on the steps. -/
def Timely (s : CanState) (l : CanStep) : Prop := Undisturbed s l ∧ CompletesInTime s l

instance (s : CanState) (l : CanStep) : Decidable (Timely s l) := by
  unfold Timely; infer_instance

/-- **No frame is on the wire twice.**  In every run in which the driver accepts a copy only while no
event is left in `s_tx_done`, no quiesce cycle reuses a number that an acknowledgement still shows,
and no copy is completed between the read of the alerts in a reconfiguration and the stop of the
driver, every frame popped from `tx_ring` is transmitted at most once. -/
theorem wire_nodup {dev : DevState} {ls : List CanStep} {s : CanState} {r : CanRecord}
    (hrun : ((canSystem.guard Timely).withAux canRecord).Run (.init dev, .none) ls (s, r)) :
    r.wire.Nodup := by
  have hi : Once s r := by
    refine hrun.invariant (I := fun p => Once p.1 p.2) (.of_init dev) ?_
    rintro ⟨s, r⟩ l ⟨s', r'⟩ hi ⟨⟨hg, hst⟩, rfl⟩
    exact hi.step hg.1 hg.2 hst
  exact hi.nodup

/-- The second quiesce cycle, with the driver as it is; `can_tx_task` is behind an acceptance. -/
def closing : List CanStep :=
  [.command ⟨250000, false, true, true⟩] ++ ctrls 7 ++ parking

/-- The copy is completed before `ctrl_task` reads the alerts: the success is posted before the
abort, and the frame is done. -/
def earlySuccess : Option (CanState × CanRecord) :=
  System.exec CanState.step Timely canRecord (.init ⟨500000, false, true, true⟩, .none)
    (opening ++ [.host (emptyFrame 0x100) true] ++ txs 6 ++ closing ++ [.success] ++ ctrls 14 ++
      txs 3 ++ [.host (emptyFrame 0x101) true] ++ txs 5 ++ [.success])

theorem wire_nodup_earlySuccess :
    ∃ p, earlySuccess = some p ∧ p.2.wire = [0, 1] ∧ p.2.wire.Nodup := by
  have hwire : earlySuccess.map (·.2.wire) = some [0, 1] := by decide +kernel
  obtain ⟨⟨s, r⟩, h, hwire⟩ := Option.map_eq_some_iff.1 hwire
  exact ⟨(s, r), h, hwire, wire_nodup (System.Run.of_exec h)⟩

/-- The copy is completed behind the read of the alerts: its success is erased with the driver, and
the abort makes `can_tx_task` submit the frame again. -/
def lateSuccess : Option (CanState × CanRecord) :=
  System.exec CanState.step Undisturbed canRecord (.init ⟨500000, false, true, true⟩, .none)
    (opening ++ [.host (emptyFrame 0x100) true] ++ txs 6 ++ closing ++ ctrls 4 ++ [.success] ++
      ctrls 10 ++ txs 6 ++ [.success])

theorem lateSuccess_duplicates :
    ¬ ∀ (dev : DevState) (ls : List CanStep) (s : CanState) (r : CanRecord),
      (canSystem.withAux canRecord).Run (.init dev, .none) ls (s, r) → r.wire.Nodup := by
  intro hall
  have hwire : lateSuccess.map (·.2.wire) = some [0, 0] := by decide +kernel
  obtain ⟨⟨s, r⟩, h, hwire⟩ := Option.map_eq_some_iff.1 hwire
  have hnodup := hall _ _ s r (System.Run.of_exec h).of_guard_withAux
  rw [show r.wire = [0, 0] from hwire] at hnodup
  exact absurd hnodup (by decide)

end Bridge

end Espcan32
