import Espcan32.Bridge.Once
import Espcan32.Bridge.Tended

/-!
# `can_tx_task` is never left waiting

`can_tx_task` waits for an event on the copy it has handed over, without a timeout that would end
the wait.  The driver may send the copy, give it up, or drop it without a word, and `ctrl_task` may
tear the driver down meanwhile; in each case an event comes, and the task takes it.

* `CanState.flying` : the copies that a running controller has still to send.
* `CanState.due` : the other copies of which no event tells yet.
* `CanState.Accounted` : the copy of a task that waits is one of them, or an event is there.
* `CanState.Owed` : the controller is done with this copy.
* `confirmation_comes` : **the wait ends**, once the controller is done with the copy.
-/

namespace Espcan32

namespace Bridge

open Pcan Twai

namespace CanState

/-- The copies that a running controller has still to send. -/
def flying (s : CanState) : List Copy :=
  match s.hal.driver with
  | some d => if d.state = .running then d.queue else []
  | none => []

/-- The copies on which the controller is done, and of which no event tells yet. -/
def due (s : CanState) : List Copy :=
  s.lost ++ (s.ctrl.unposted.messages ++
    match s.hal.driver with
    | some d => d.alerts.messages ++ if d.state = .running then [] else d.queue
    | none => [])

/-- An event is there, or the copy handed over last is still somewhere. -/
def Accounted (s : CanState) : Prop :=
  s.inflight = true → s.txDone ≠ [] ∨ ∃ c ∈ s.flying ++ s.due, c.sub + 1 = s.subs

variable {s s' : CanState} {l : CanStep} {c : Copy}

theorem mem_flying :
    c ∈ s.flying ↔ ∃ d, s.hal.driver = some d ∧ d.state = .running ∧ c ∈ d.queue := by
  unfold flying
  cases hd : s.hal.driver with
  | none => simp
  | some d =>
    by_cases hst : d.state = .running
    · simp [hst]
    · simp [hst]

theorem mem_due : c ∈ s.due ↔ c ∈ s.lost ∨ c ∈ s.ctrl.unposted.messages ∨
    ∃ d, s.hal.driver = some d ∧ (c ∈ d.alerts.messages ∨ d.state ≠ .running ∧ c ∈ d.queue) := by
  unfold due
  cases hd : s.hal.driver with
  | none => simp
  | some d =>
    by_cases hst : d.state = .running
    · simp [hst]
    · simp [hst]

/-- What becomes of a copy that is due is a question about the driver only. -/
theorem due_of_driver {d d' : Driver Copy} (hd : s.hal.driver = some d)
    (hd' : s'.hal.driver = some d') (hlost : c ∈ s.lost → c ∈ s'.lost)
    (hun : c ∈ s.ctrl.unposted.messages → c ∈ s'.ctrl.unposted.messages)
    (hdriver : c ∈ d.alerts.messages ∨ d.state ≠ .running ∧ c ∈ d.queue →
      c ∈ s'.lost ∨ c ∈ d'.alerts.messages ∨ d'.state ≠ .running ∧ c ∈ d'.queue)
    (hc : c ∈ s.due) : c ∈ s'.due := by
  refine mem_due.2 ?_
  rcases mem_due.1 hc with hc | hc | ⟨x, hx, hc⟩
  · exact .inl (hlost hc)
  · exact .inr (.inl (hun hc))
  · obtain rfl := Option.some.inj (hd.symm.trans hx)
    exact (hdriver hc).imp id fun hc => .inr ⟨d', hd', hc⟩

/-- Without a driver, what is due is on the mind of `ctrl_task`. -/
theorem due_of_none (hd : s.hal.driver = none) (hlost : c ∈ s.lost → c ∈ s'.lost)
    (hun : c ∈ s.ctrl.unposted.messages → c ∈ s'.ctrl.unposted.messages) (hc : c ∈ s.due) :
    c ∈ s'.due := by
  refine mem_due.2 ?_
  rcases mem_due.1 hc with hc | hc | ⟨x, hx, -⟩
  · exact .inl (hlost hc)
  · exact .inr (.inl (hun hc))
  · rw [hd] at hx
    cases hx

/-! ### The steps of `ctrl_task` -/

/-- After a post the queue is not empty. -/
theorem send_ne_nil (s : CanState) (e : TxEvent) : (s.send e).txDone ≠ [] := by
  unfold send
  dsimp only
  split
  · simp
  · intro hnil
    rename_i hfull
    exact hfull (by rw [hnil]; decide)

/-- The outcome that `ctrl_task` has read is posted. -/
theorem posting_ne_nil {q : Bool} {a : Alerts Copy} (hpc : s.ctrl = .postOutcome q a)
    (hmess : a.messages ≠ []) : (s.posting.elim s s.send).txDone ≠ [] := by
  have hposting : s.posting ≠ none := by
    simp only [posting, hpc, ne_eq, Option.map_eq_none_iff]
    unfold outcome
    rw [Alerts.messages, ne_eq, List.append_eq_nil_iff, not_and] at hmess
    split
    · simp
    · rename_i hfailed
      rw [if_pos fun hsucc => hfailed (hmess hsucc)]
      simp
  obtain ⟨e, he⟩ := Option.ne_none_iff_exists'.1 hposting
  rw [he]
  exact s.send_ne_nil e

/-- The copies that a running controller has to send are taken from it only by a stop. -/
theorem Tended.flying_ctrlTask (h : s.Tended) (ok : Bool) (hc : c ∈ s.flying) :
    c ∈ (s.ctrlTask ok).flying ∨ c ∈ (s.ctrlTask ok).due := by
  obtain ⟨d, hd, hst, hq⟩ := mem_flying.1 hc
  have hkeep {t : CanState} (ht : t.hal.driver = some d) : c ∈ t.flying ∨ c ∈ t.due :=
    .inl (mem_flying.2 ⟨d, ht, hst, hq⟩)
  have htends := h.driver d hd
  unfold CanState.ctrlTask
  cases hpc : s.ctrl <;> rw [hpc] at htends <;> dsimp only
  case boot => rw [h.noDriver (.inl hpc)] at hd; cases hd
  case install c' => rw [h.noDriver (.inr ⟨c', hpc⟩)] at hd; cases hd
  case readAlerts q =>
    rw [hd]
    refine .inl (mem_flying.2 ⟨d.readAlerts, ?_, hst, hq⟩)
    simp [withDriver, hd]
  case recover q a =>
    split
    · -- a running controller is not bus-off
      rename_i ha
      have := hst.symm.trans (htends.off.2 (.inr ha))
      cases this
    · exact hkeep hd
  case restart q a =>
    split
    · rename_i ha
      have := hst.symm.trans (htends.back (.inr ha))
      cases this
    · exact hkeep hd
  case postOutcome q a => cases s.posting <;> exact hkeep hd
  case postBusOff q a => split <;> exact hkeep hd
  case stop c' =>
    rw [hd]
    refine .inr (mem_due.2 (.inl ?_))
    simp [discarding, hd, Driver.stop, hst, hq]
  case uninstall c' =>
    rw [hd]
    dsimp only
    split
    · exact .inr (mem_due.2 (.inl (List.mem_append_right _ (List.mem_append_left _ hq))))
    · exact hkeep hd
  all_goals exact hkeep hd

/-- Copies of which no event tells yet are not forgotten. -/
theorem Tended.due_ctrlTask (h : s.Tended) (ok : Bool) (hc : c ∈ s.due) :
    (s.ctrlTask ok).txDone ≠ [] ∨ c ∈ (s.ctrlTask ok).due := by
  have hkeep {pc : CtrlPc} {t : CanState} (hpc : s.ctrl = pc) (hhal : t.hal = s.hal)
      (hlost : t.lost = s.lost) (hun : t.ctrl.unposted = pc.unposted) : c ∈ t.due := by
    rw [due, hpc] at hc
    rw [due, hhal, hlost, hun]
    exact hc
  have hcases := mem_due.1 hc
  unfold CanState.ctrlTask
  cases hpc : s.ctrl <;> rw [hpc] at hcases <;> dsimp only
  case readAlerts q =>
    cases hd : s.hal.driver with
    | none => cases q <;> exact .inr (hkeep hpc rfl rfl rfl)
    | some d =>
      refine .inr (mem_due.2 ?_)
      rcases hcases with hc | hc | ⟨d', hd', hc | ⟨hst, hc⟩⟩
      · exact .inl hc
      · cases hc
      · obtain rfl := Option.some.inj (hd.symm.trans hd')
        exact .inr (.inl hc)
      · obtain rfl := Option.some.inj (hd.symm.trans hd')
        exact .inr (.inr ⟨d.readAlerts, by simp [withDriver, hd], .inr ⟨hst, hc⟩⟩)
  case recover q a =>
    split
    · rename_i ha
      unfold discarding
      cases hd : s.hal.driver with
      | none => exact .inr (due_of_none hd id (fun hc => by rw [hpc] at hc; exact hc) hc)
      | some d =>
        have htends := h.driver d hd
        rw [hpc] at htends
        have hoff : d.state = .busOff := htends.off.2 (.inr ha)
        have hrec : d.initiateRecovery = ({ d with state := .recovering, queue := [] }, d.queue) :=
          if_pos hoff
        dsimp only
        rw [hrec]
        -- the recovery drops the queue
        refine .inr (due_of_driver hd rfl (List.mem_append_left _) (fun hc => ?_) (fun hc => ?_) hc)
        · rw [hpc] at hc
          exact hc
        · rcases hc with hc | ⟨-, hc⟩
          · exact .inr (.inl hc)
          · exact .inl (List.mem_append_right _ hc)
    · exact .inr (hkeep hpc rfl rfl rfl)
  case restart q a =>
    split
    · rename_i ha
      cases hd : s.hal.driver with
      | none => exact .inr (due_of_none hd id (fun hc => by rw [hpc] at hc; exact hc) hc)
      | some d =>
        have htends := h.driver d hd
        rw [hpc] at htends
        have hstopped : d.state = .stopped := htends.back (.inr ha)
        refine .inr (due_of_driver hd (?_ : _ = some d.start) id (fun hc => ?_) (fun hc => ?_) hc)
        · simp [withDriver, hd]
        · rw [hpc] at hc
          exact hc
        · -- a stopped driver holds nothing in its queue
          rw [htends.empty (.inl hstopped)] at hc
          rw [d.start_alerts]
          rcases hc with hc | ⟨-, hc⟩
          · exact .inr (.inl hc)
          · cases hc
    · exact .inr (hkeep hpc rfl rfl rfl)
  case postOutcome q a =>
    by_cases hmess : a.messages = []
    · have hun : (CtrlPc.postOutcome q a).unposted.messages = [] := hmess
      refine .inr (mem_due.2 ?_)
      rw [hun] at hcases
      cases s.posting <;> exact hcases
    · exact .inl (posting_ne_nil hpc hmess)
  case postBusOff q a =>
    split
    · exact .inl (s.send_ne_nil _)
    · cases q <;> exact .inr (hkeep hpc rfl rfl rfl)
  case stop c' =>
    cases hd : s.hal.driver with
    | none => cases c' <;> exact .inr (hkeep hpc rfl rfl rfl)
    | some d =>
      simp only [discarding, hd]
      refine .inr (due_of_driver hd rfl (List.mem_append_left _) (fun hc => ?_) (fun hc => ?_) hc)
      · rw [hpc] at hc
        cases hc
      · refine .inr (hc.imp (fun hc => by rw [d.stop_alerts]; exact hc) ?_)
        rintro ⟨hst, hc⟩
        rw [Driver.stop, if_neg hst]
        exact ⟨hst, hc⟩
  case uninstall c' =>
    cases hd : s.hal.driver with
    | none => cases c' <;> exact .inr (hkeep hpc rfl rfl rfl)
    | some d =>
      dsimp only
      split
      · refine .inr (mem_due.2 (.inl ?_))
        rcases hcases with hc | hc | ⟨d', hd', hc⟩
        · exact List.mem_append_left _ hc
        · cases hc
        · obtain rfl := Option.some.inj (hd.symm.trans hd')
          refine List.mem_append_right _ ?_
          rcases hc with hc | ⟨-, hc⟩
          · exact List.mem_append_right _ hc
          · exact List.mem_append_left _ hc
      · exact .inr (hkeep hpc rfl rfl rfl)
  case boot =>
    refine .inr (due_of_none (h.noDriver (.inl hpc)) id (fun hc => ?_) hc)
    rw [hpc] at hc
    exact hc
  case install c' =>
    refine .inr (due_of_none (h.noDriver (.inr ⟨c', hpc⟩)) id (fun hc => ?_) hc)
    rw [hpc] at hc
    exact hc
  case postAbort => exact .inl (s.send_ne_nil _)
  case top => split <;> exact .inr (hkeep hpc rfl rfl rfl)
  case awaitRx | awaitTx =>
    repeat' split
    all_goals exact .inr (hkeep hpc rfl rfl rfl)
  case begin | giveUp | clear | snapshot | finish => exact .inr (hkeep hpc rfl rfl rfl)

/-- `ctrl_task` takes no event away. -/
theorem ctrlTask_ne_nil (ok : Bool) (h : s.txDone ≠ []) : (s.ctrlTask ok).txDone ≠ [] := by
  obtain ⟨e, events, hdone⟩ := List.exists_cons_of_ne_nil h
  have hhead := ctrlTask_head s ok (show s.txDone.head? = some e by rw [hdone]; rfl)
  intro hnil
  rw [hnil] at hhead
  cases hhead

/-! ### The other steps -/

/-- Messages that are latched stay so while the controller moves. -/
theorem mem_alerts_of_move {d d' : Driver Copy} (hm : d.Move d') (hc : c ∈ d.alerts.messages) :
    c ∈ d'.alerts.messages := by
  cases hm with
  | success h =>
    obtain ⟨-, rfl, -⟩ := Driver.success_eq h
    simp only [Alerts.messages, List.mem_append] at hc ⊢
    tauto
  | failure h =>
    obtain ⟨m, -, rfl, -⟩ := Driver.failure_eq h
    simp only [Alerts.messages, List.mem_append] at hc ⊢
    tauto
  | goBusOff h => obtain ⟨-, rfl⟩ := Driver.goBusOff_eq h; exact hc
  | recovered h => obtain ⟨-, rfl⟩ := Driver.recovered_eq h; exact hc

/-- Only a running controller takes messages from its queue. -/
theorem queue_of_move {d d' : Driver Copy} (hm : d.Move d') (hst : d.state ≠ .running) :
    d'.state ≠ .running ∧ d'.queue = d.queue := by
  cases hm with
  | success h => exact absurd (Driver.success_eq h).1 hst
  | failure h =>
    obtain ⟨m, hrun, -⟩ := Driver.failure_eq h
    exact absurd hrun hst
  | goBusOff h => exact absurd (Driver.goBusOff_eq h).1 hst
  | recovered h =>
    obtain ⟨-, rfl⟩ := Driver.recovered_eq h
    exact ⟨by simp, rfl⟩

/-- A move of the controller forgets nothing that it has to send. -/
theorem flying_move {d d' : Driver Copy} (hd : s.hal.driver = some d) (hm : d.Move d')
    (hc : c ∈ s.flying) : c ∈ CanState.flying { s with hal := { s.hal with driver := some d' } } ∨
      c ∈ CanState.due { s with hal := { s.hal with driver := some d' } } := by
  have hin : c ∈ d'.messages ↔ c ∈ d.messages := hm.messages_perm.mem_iff
  rw [Driver.messages, Driver.messages, List.mem_append, List.mem_append] at hin
  obtain ⟨x, hx, hst, hq⟩ := mem_flying.1 hc
  obtain rfl := Option.some.inj (hd.symm.trans hx)
  rcases hin.2 (.inl hq) with hq' | ha'
  · by_cases hst' : d'.state = .running
    · exact .inl (mem_flying.2 ⟨d', rfl, hst', hq'⟩)
    · exact .inr (mem_due.2 (.inr (.inr ⟨d', rfl, .inr ⟨hst', hq'⟩⟩)))
  · exact .inr (mem_due.2 (.inr (.inr ⟨d', rfl, .inl ha'⟩)))

/-- Nor does it forget anything on which it is done. -/
theorem due_move {d d' : Driver Copy} (hd : s.hal.driver = some d) (hm : d.Move d')
    (hc : c ∈ s.due) : c ∈ CanState.due { s with hal := { s.hal with driver := some d' } } := by
  refine due_of_driver hd rfl id id (fun hc => .inr ?_) hc
  rcases hc with hc | ⟨hst, hc⟩
  · exact .inl (mem_alerts_of_move hm hc)
  · obtain ⟨hst', hq⟩ := queue_of_move hm hst
    exact .inr ⟨hst', hq ▸ hc⟩

/-- While a copy is out, `can_tx_task` receives an event, or does not touch what concerns it. -/
theorem Orderly.canTxTask_waits (h : s.Orderly) (hin : s.inflight = true) (answer : TwaiAnswer) :
    (s.canTxTask answer).inflight = false ∨
      s.canTxTask answer =
        { s with tx := (s.canTxTask answer).tx, txAck := (s.canTxTask answer).txAck } := by
  have htask := h.task
  cases htx : s.tx with
  | top => rw [canTxTask_top answer htx]; exact .inr rfl
  | echo cycle => rw [canTxTask_echo answer htx]; exact .inr rfl
  | parked => rw [canTxTask_parked answer htx]; exact .inr rfl
  | pop => rw [htx] at htask; exact absurd htask (h.hand hin)
  | drain | transmit =>
    rw [htx] at htask
    exact absurd (htask.2.symm.trans hin) Bool.false_ne_true
  | confirm =>
    by_cases hdone : s.txDone = []
    · rw [canTxTask_confirm_nil answer htx hdone]
      exact .inr rfl
    · obtain ⟨e, events, hdone⟩ := List.exists_cons_of_ne_nil hdone
      rw [canTxTask_confirm_cons answer htx hdone]
      exact .inl rfl

/-- A copy is out only after the driver has accepted it. -/
theorem Orderly.canTxTask_submits (h : s.Orderly) (hin : s.inflight = false) {answer : TwaiAnswer}
    (hin' : (s.canTxTask answer).inflight = true) :
    ∃ c ∈ (s.canTxTask answer).flying, c.sub + 1 = (s.canTxTask answer).subs := by
  have htask := h.task
  have hout {t : CanState} (hs : s.canTxTask answer = t) (ht : t.inflight = s.inflight) : False :=
    Bool.false_ne_true (hin.symm.trans (ht.symm.trans (hs ▸ hin')))
  cases htx : s.tx with
  | top => exact (hout (canTxTask_top answer htx) rfl).elim
  | echo cycle => exact (hout (canTxTask_echo answer htx) rfl).elim
  | parked => exact (hout (canTxTask_parked answer htx) rfl).elim
  | pop =>
    cases hring : s.txRing with
    | nil => exact (hout (canTxTask_pop_nil answer htx hring) rfl).elim
    | cons f ring => exact (hout (canTxTask_pop_cons answer htx hring) rfl).elim
  | drain =>
    cases hdone : s.txDone with
    | nil => exact (hout (canTxTask_drain_nil answer htx hdone) rfl).elim
    | cons e events => exact (hout (canTxTask_drain_cons answer htx hdone) rfl).elim
  | transmit =>
    rw [htx] at htask
    obtain ⟨p, hp⟩ := Option.ne_none_iff_exists'.1 htask.1
    rcases canTxTask_transmit answer htx hp with ⟨d, hd, hst, -, hs⟩ | ⟨-, hs⟩ | ⟨-, -, hs⟩
    · rw [hs]
      exact ⟨⟨p, s.subs⟩, mem_flying.2 ⟨_, rfl, hst, by simp⟩, rfl⟩
    · exact (hout hs rfl).elim
    · exact (hout hs rfl).elim
  | confirm =>
    rw [htx] at htask
    exact absurd (hin.symm.trans htask) Bool.false_ne_true

/-- A step to `s'` that does not take the event on the copy that is out: what is there stays, or
goes the way to the event. -/
structure Forwards (s s' : CanState) : Prop where
  inflight : s'.inflight = s.inflight
  subs : s'.subs = s.subs
  events : s.txDone ≠ [] → s'.txDone ≠ []
  flying : ∀ c ∈ s.flying, c ∈ s'.flying ∨ c ∈ s'.due
  due : ∀ c ∈ s.due, s'.txDone ≠ [] ∨ c ∈ s'.due

/-- Nothing that concerns the copy that is out is touched. -/
theorem Forwards.of_eq (hin : s'.inflight = s.inflight) (hsubs : s'.subs = s.subs)
    (hdone : s'.txDone = s.txDone) (hhal : s'.hal = s.hal) (hctrl : s'.ctrl = s.ctrl)
    (hlost : s'.lost = s.lost) : s.Forwards s' where
  inflight := hin
  subs := hsubs
  events := fun hne => hdone ▸ hne
  flying := fun c hc => .inl (by rwa [CanState.flying, hhal])
  due := fun c hc => .inr (by rwa [CanState.due, hhal, hctrl, hlost])

/-- Every step but that of `can_tx_task` that takes the event leaves the copy on its way. -/
theorem Orderly.forwards (h : s.Orderly) (htended : s.Tended) (hin : s.inflight = true)
    (hst : s.step l = some s') : s'.inflight = false ∨ s.Forwards s' := by
  cases l with
  | host | command =>
    obtain rfl := Option.some.inj hst
    exact .inr (.of_eq rfl rfl rfl rfl rfl rfl)
  | rx =>
    obtain rfl := Option.some.inj hst
    refine .inr ?_
    unfold twaiRxTask
    cases s.rx <;> exact .of_eq rfl rfl rfl rfl rfl rfl
  | tx answer =>
    obtain rfl := Option.some.inj hst
    refine (h.canTxTask_waits hin answer).imp id fun hs => ?_
    rw [hs]
    exact .of_eq rfl rfl rfl rfl rfl rfl
  | ctrl ok =>
    obtain rfl := Option.some.inj hst
    obtain ⟨-, -, -, hin', -, -, hsubs⟩ := s.ctrlTask_frame ok
    exact .inr ⟨hin', hsubs, ctrlTask_ne_nil ok, fun c => htended.flying_ctrlTask ok,
      fun c => htended.due_ctrlTask ok⟩
  | success | failure | busOff | recovered =>
    obtain ⟨d, d', hd, hm, rfl⟩ := controller_moves hst (by simp)
    exact .inr ⟨rfl, rfl, id, fun c => flying_move hd hm, fun c hc => .inr (due_move hd hm hc)⟩

/-- A copy gets out only when the driver accepts it. -/
theorem Orderly.step_submits (h : s.Orderly) (hin : s.inflight = false)
    (hst : s.step l = some s') (hin' : s'.inflight = true) :
    ∃ c ∈ s'.flying, c.sub + 1 = s'.subs := by
  have hout (hsame : s'.inflight = s.inflight) : False :=
    Bool.false_ne_true (hin.symm.trans (hsame.symm.trans hin'))
  cases l with
  | tx answer =>
    obtain rfl := Option.some.inj hst
    exact h.canTxTask_submits hin hin'
  | host | command =>
    obtain rfl := Option.some.inj hst
    exact (hout rfl).elim
  | rx =>
    obtain rfl := Option.some.inj hst
    refine (hout ?_).elim
    unfold twaiRxTask
    cases s.rx <;> rfl
  | ctrl ok =>
    obtain rfl := Option.some.inj hst
    obtain ⟨-, -, -, hsame, -⟩ := s.ctrlTask_frame ok
    exact (hout hsame).elim
  | success | failure | busOff | recovered =>
    obtain ⟨d, d', -, -, rfl⟩ := controller_eq hst
    exact (hout rfl).elim

/-- Every step keeps account of the copy that is out. -/
theorem Accounted.step (h : s.Accounted) (hord : s.Orderly) (htended : s.Tended)
    (hst : s.step l = some s') : s'.Accounted := by
  intro hin'
  cases hin : s.inflight with
  | false =>
    obtain ⟨c, hc, hsub⟩ := hord.step_submits hin hst hin'
    exact .inr ⟨c, List.mem_append_left _ hc, hsub⟩
  | true =>
    rcases hord.forwards htended hin hst with hno | hf
    · exact absurd (hno.symm.trans hin') Bool.false_ne_true
    rcases h hin with hne | ⟨c, hc, hsub⟩
    · exact .inl (hf.events hne)
    have hsub' := hsub.trans hf.subs.symm
    rcases List.mem_append.1 hc with hc | hc
    · exact .inr ⟨c, List.mem_append.2 (hf.flying c hc), hsub'⟩
    · exact (hf.due c hc).imp id fun hc => ⟨c, List.mem_append_right _ hc, hsub'⟩

/-- `can_tx_task` waits, and the controller is done with its copy. -/
def Owed (s : CanState) : Prop :=
  s.inflight = true ∧ (s.txDone ≠ [] ∨ ∃ c ∈ s.due, c.sub + 1 = s.subs)

/-- The event stays owed until `can_tx_task` takes it. -/
theorem Owed.step (h : s.Owed) (hord : s.Orderly) (htended : s.Tended)
    (hst : s.step l = some s') : s'.inflight = false ∨ s'.Owed := by
  refine (hord.forwards htended h.1 hst).imp id fun hf => ⟨hf.inflight.trans h.1, ?_⟩
  rcases h.2 with hne | ⟨c, hc, hsub⟩
  · exact .inl (hf.events hne)
  · exact (hf.due c hc).imp id fun hc => ⟨c, hc, hsub.trans hf.subs.symm⟩

/-! ### The event is posted -/

end CanState

/-- Alerts of which `ctrl_service_alerts()` tells `can_tx_task`. -/
def tells (a : Alerts Copy) : Bool := !a.messages.isEmpty || a.busOff

/-- How many steps `ctrl_task` has before it at most, at rest, until it posts an event that is
owed. -/
def CtrlPc.toPost : CtrlPc → ℕ
  | .postBusOff _ a => if a.busOff then 1 else 7
  | .postOutcome _ a => if tells a then 2 else 8
  | .restart _ a => if tells a then 3 else 9
  | .recover _ a => if tells a then 4 else 10
  | .readAlerts _ => 5
  | .top => 6
  | _ => 7

theorem CtrlPc.toPost_le (pc : CtrlPc) : pc.toPost ≤ 10 := by
  cases pc <;> simp only [toPost]
  all_goals repeat' split
  all_goals omega

namespace CanState

variable {s s' : CanState} {l : CanStep} {c : Copy}

/-- The alerts that `ctrl_task` is about to read tell of a copy that is due. -/
theorem Tended.tells_alerts (h : s.Tended) {q : Bool} (hpc : s.ctrl = .readAlerts q)
    (hc : c ∈ s.due) : ∃ d, s.hal.driver = some d ∧ tells d.alerts = true := by
  rcases mem_due.1 hc with hlost | hun | ⟨d, hd, hc⟩
  · have haborts := h.lost (List.ne_nil_of_mem hlost)
    rw [hpc] at haborts
    exact haborts.elim
  · rw [hpc] at hun
    cases hun
  · refine ⟨d, hd, ?_⟩
    have htends := h.driver d hd
    rw [hpc] at htends
    rw [tells, Bool.or_eq_true]
    rcases hc with hc | ⟨hst, hc⟩
    · refine .inl ?_
      rw [Bool.not_eq_true', List.isEmpty_eq_false_iff]
      exact List.ne_nil_of_mem hc
    · -- only a controller that is bus-off keeps what it does not send
      cases hstate : d.state with
      | running => exact absurd hstate hst
      | busOff =>
        exact .inr ((htends.off.1 hstate).elim id fun hno => absurd hno Bool.false_ne_true)
      | stopped =>
        rw [htends.empty (.inl hstate)] at hc
        cases hc
      | recovering =>
        rw [htends.empty (.inr hstate)] at hc
        cases hc

/-- At rest, each step of `ctrl_task` brings the post nearer. -/
theorem Owed.toPost_ctrlTask (h : s.Owed) (htended : s.Tended) (hrest : s.AtRest) (ok : Bool) :
    (s.ctrlTask ok).txDone ≠ [] ∨ (s.ctrlTask ok).ctrl.toPost < s.ctrl.toPost := by
  obtain ⟨hdev, hphase, hbegin⟩ := hrest
  rcases h.2 with hne | ⟨c, hc, -⟩
  · exact .inl (ctrlTask_ne_nil ok hne)
  cases hpc : s.ctrl <;> rw [hpc] at hphase <;> first
    | exact absurd hpc hbegin
    | cases hphase; done
    | skip
  case boot => exact .inr (by simp [ctrlTask, hpc, CtrlPc.toPost])
  case top => exact .inr (by simp [ctrlTask, hpc, hdev, CtrlPc.toPost])
  case readAlerts q =>
    obtain ⟨d, hd, htells⟩ := htended.tells_alerts hpc hc
    exact .inr (by simp [ctrlTask, hpc, hd, CtrlPc.toPost, htells])
  case recover q a =>
    refine .inr ?_
    simp only [ctrlTask, hpc, CtrlPc.toPost]
    split <;> omega
  case restart q a =>
    refine .inr ?_
    simp only [ctrlTask, hpc, CtrlPc.toPost]
    split <;> omega
  case postOutcome q a =>
    by_cases hmess : a.messages = []
    · refine .inr ?_
      simp only [ctrlTask, hpc, CtrlPc.toPost, tells, hmess]
      cases a.busOff <;> simp
    · refine .inl ?_
      simp only [ctrlTask, hpc]
      exact posting_ne_nil hpc hmess
  case postBusOff q a =>
    cases ha : a.busOff
    · cases q
      · exact .inr (by simp [ctrlTask, hpc, ha, afterAlerts, CtrlPc.toPost])
      · cases hphase
    · refine .inl ?_
      simp only [ctrlTask, hpc, ha, if_true]
      exact s.send_ne_nil _

/-! ### The event is taken -/

end CanState

/-- How many steps `can_tx_task` has before it at most, while no cycle is open, until it takes the
event that it waits for, less one. -/
def TxPc.toConfirm : TxPc → ℕ
  | .confirm => 0
  | .top => 1
  | .parked => 2
  | _ => 3

theorem TxPc.toConfirm_le (pc : TxPc) : pc.toConfirm ≤ 3 := by
  cases pc <;> simp [toConfirm]

namespace CanState

variable {s s' : CanState} {l : CanStep}

/-- While no cycle is open, each step of `can_tx_task` brings the event nearer. -/
theorem Orderly.toConfirm_canTxTask (h : s.Orderly) (hrest : s.AtRest) (hin : s.inflight = true)
    (hdone : s.txDone ≠ []) (answer : TwaiAnswer) :
    (s.canTxTask answer).inflight = false ∨
      (s.canTxTask answer).tx.toConfirm < s.tx.toConfirm := by
  have hseq : ¬ParkRequested s.seq := by
    have hshaken := h.shaken
    rw [Shaken, hrest.2.1] at hshaken
    exact hshaken
  have hpending : s.pending.isNone = false := by
    rw [Option.isNone_eq_false_iff, Option.isSome_iff_ne_none]
    exact h.hand hin
  have htask := h.task
  cases htx : s.tx with
  | top =>
    refine .inr ?_
    rw [canTxTask_top answer htx]
    simp [hseq, hpending, txNext, hin, TxPc.toConfirm]
  | echo cycle =>
    refine .inr ?_
    rw [canTxTask_echo answer htx]
    simp [TxPc.toConfirm]
  | parked =>
    refine .inr ?_
    rw [canTxTask_parked answer htx]
    simp [hseq, TxPc.toConfirm]
  | pop => rw [htx] at htask; exact absurd htask (h.hand hin)
  | drain | transmit =>
    rw [htx] at htask
    exact absurd (htask.2.symm.trans hin) Bool.false_ne_true
  | confirm =>
    obtain ⟨e, events, hdone⟩ := List.exists_cons_of_ne_nil hdone
    rw [canTxTask_confirm_cons answer htx hdone]
    exact .inl rfl

/-- `can_tx_task` is moved by its own steps only. -/
theorem step_tx (hst : s.step l = some s') (hl : l.task ≠ some .tx) : s'.tx = s.tx := by
  cases l with
  | tx answer => exact absurd rfl hl
  | rx =>
    obtain rfl := Option.some.inj hst
    unfold twaiRxTask
    cases s.rx <;> rfl
  | ctrl ok =>
    obtain rfl := Option.some.inj hst
    obtain ⟨-, -, -, -, htx, -⟩ := s.ctrlTask_frame ok
    exact htx
  | host | command => obtain rfl := Option.some.inj hst; rfl
  | success | failure | busOff | recovered =>
    obtain ⟨d, d', -, -, rfl⟩ := controller_eq hst
    rfl

/-- At rest, with an event there for the task that waits. -/
structure Posted (s : CanState) : Prop where
  orderly : s.Orderly
  tended : s.Tended
  rest : s.AtRest
  inflight : s.inflight = true
  event : s.txDone ≠ []

end CanState

/-- At rest, the event that is owed is posted within a few rounds. -/
theorem posts_at_rest : (canSystem.guard Settling).LeadsIn CanStep.task 11
    (fun s => s.Orderly ∧ (s.Tended ∧ s.Owed) ∧ s.AtRest)
    fun s => s.inflight = false ∨ s.Posted := by
  refine System.Ranks.leadsIn (fun s => s.ctrl.toPost) (fun _ => Task.ctrl) ?_
    fun s _ => Nat.lt_succ_of_le s.ctrl.toPost_le
  rintro s l s' ⟨h, ⟨htended, howed⟩, hrest⟩ hT ⟨hg, hst⟩
  have h' := h.step hst hg.1
  have htended' := htended.step hst
  have hrest' := hrest.step hg hst
  rcases howed.step h htended hst with hin | howed'
  · exact .inl (.inl hin)
  by_cases hl : l.task = some .ctrl
  · cases l with
    | ctrl ok =>
      obtain rfl := Option.some.inj hst
      rcases howed.toPost_ctrlTask htended hrest ok with hne | hlt
      · exact .inl (.inr ⟨h', htended', hrest', howed'.1, hne⟩)
      · exact .inr ⟨⟨h', ⟨htended', howed'⟩, hrest'⟩, .inl hlt⟩
    | rx | tx _ | host | command | success | failure | busOff | recovered => cases hl
  · exact .inr ⟨⟨h', ⟨htended', howed'⟩, hrest'⟩,
      .inr ⟨congrArg CtrlPc.toPost (CanState.step_ctrl hst hl), rfl, hl⟩⟩

/-- The event that has been posted is taken within a few rounds. -/
theorem takes_posted : (canSystem.guard Settling).LeadsIn CanStep.task 4 CanState.Posted
    fun s => s.inflight = false := by
  refine System.Ranks.leadsIn (fun s => s.tx.toConfirm) (fun _ => Task.tx) ?_
    fun s _ => Nat.lt_succ_of_le s.tx.toConfirm_le
  rintro s l s' h - ⟨hg, hst⟩
  rcases h.orderly.forwards h.tended h.inflight hst with hin | hf
  · exact .inl hin
  have h' : s'.Posted := ⟨h.orderly.step hst hg.1, h.tended.step hst, h.rest.step hg hst,
    hf.inflight.trans h.inflight, hf.events h.event⟩
  by_cases hl : l.task = some .tx
  · cases l with
    | tx answer =>
      obtain rfl := Option.some.inj hst
      exact (h.orderly.toConfirm_canTxTask h.rest h.inflight h.event answer).imp id fun hlt =>
        ⟨h', .inl hlt⟩
    | rx | ctrl _ | host | command | success | failure | busOff | recovered => cases hl
  · exact .inr ⟨h', .inr ⟨congrArg TxPc.toConfirm (CanState.step_tx hst hl), rfl, hl⟩⟩

/-- **The wait of `can_tx_task` ends.**  In every run in which no cycle reuses a number that an
acknowledgement still shows, from every state in which the task waits for an event on its copy and
no running controller has this copy still to send, whatever has become of it: if the three tasks go
on in any order, `ctrl_task` does not run out of time in its wait and no further reconfiguration is
asked for, then after at most sixty-nine rounds the task has received an event. -/
theorem confirmation_comes {dev : DevState} {ls : List CanStep} {s : CanState}
    (hrun : (canSystem.guard FreshCycle).Run (.init dev) ls s) (hin : s.inflight = true)
    (hdone : ∀ c ∈ s.flying, c.sub + 1 ≠ s.subs) {ls' : List CanStep} {s' : CanState}
    (hrun' : (canSystem.guard Settling).Run s ls' s') (hrounds : Rounds CanStep.task 69 ls') :
    (canSystem.guard Settling).Through (fun t => t.inflight = false) s ls' s' := by
  obtain ⟨h, htended, haccounted⟩ : s.Orderly ∧ s.Tended ∧ s.Accounted := by
    refine hrun.invariant (I := fun s => s.Orderly ∧ s.Tended ∧ s.Accounted)
      ⟨.of_init dev, .of_init dev, fun hno => absurd hno Bool.false_ne_true⟩ ?_
    rintro s l s' ⟨h, htended, haccounted⟩ ⟨hg, hst⟩
    exact ⟨h.step hst hg, htended.step hst, haccounted.step h htended hst⟩
  have howed : s.Owed := by
    refine ⟨hin, (haccounted hin).imp id ?_⟩
    rintro ⟨c, hc, hsub⟩
    rcases List.mem_append.1 hc with hc | hc
    · exact absurd hsub (hdone c hc)
    · exact ⟨c, hc, hsub⟩
  have hrest : (canSystem.guard Settling).LeadsIn CanStep.task 54
      (fun s => s.Orderly ∧ s.Tended ∧ s.Owed)
      fun s => s.inflight = false ∨ s.Orderly ∧ (s.Tended ∧ s.Owed) ∧ s.AtRest :=
    leadsIn_rest fun s l s' h ⟨htended, howed⟩ _ _ hst =>
      (howed.step h htended hst).imp id fun howed' => ⟨htended.step hst, howed'⟩
  exact hrest.trans (posts_at_rest.trans takes_posted) s ls' s' ⟨h, htended, howed⟩ hrun' hrounds

/-- The controller goes bus-off with the copy that `can_tx_task` waits for. -/
def stranded : Option (CanState × Unit) :=
  System.exec CanState.step FreshCycle (fun _ _ x => x) (.init ⟨500000, false, true, true⟩, ())
    (opening ++ [.host (emptyFrame 0x100) true] ++ txs 6 ++ [.busOff])

/-- The three tasks take turns. -/
def outlast (s : CanState) : Option (CanState × Unit) :=
  System.exec CanState.step Settling (fun _ _ x => x) (s, ())
    (List.replicate 69 [.rx, .tx .timeout, .ctrl true]).flatten

theorem confirmation_comes_busOff :
    ∃ p q, stranded = some p ∧ outlast p.1 = some q ∧ p.1.inflight = true ∧
      (canSystem.guard Settling).Through (fun t => t.inflight = false) p.1
        (List.replicate 69 [.rx, .tx .timeout, .ctrl true]).flatten q.1 := by
  have hstate : stranded.map (fun p => (p.1.inflight, p.1.flying.isEmpty, (outlast p.1).isSome)) =
      some (true, true, true) := by
    decide +kernel
  obtain ⟨p, hp, hstate⟩ := Option.map_eq_some_iff.1 hstate
  obtain ⟨hin, hstate⟩ := Prod.mk.inj hstate
  obtain ⟨hempty, hsome⟩ := Prod.mk.inj hstate
  obtain ⟨q, hq⟩ := Option.isSome_iff_exists.1 hsome
  have hnone : ∀ c ∈ p.1.flying, c.sub + 1 ≠ p.1.subs := by
    rw [List.isEmpty_iff.1 hempty]
    simp
  exact ⟨p, q, hp, hq, hin, confirmation_comes (System.Run.of_exec hp).of_withAux hin hnone
    (System.Run.of_exec hq).of_withAux (rounds_turns 69)⟩

end Bridge

end Espcan32
