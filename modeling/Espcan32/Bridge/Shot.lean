import Espcan32.Bridge.Once

/-!
# Single-shot frames

The host asks for a single attempt with the flag `PCAN_FRAME_FLAG_SS`, and the driver gets it with
the message.  `can_tx_task` does not look at it: every verdict but a success keeps the frame in
hand, to be submitted again.  So a `TX_FAILED` that `ctrl_task` reads for a single-shot frame is the
end of the frame only if the task has let go of it, or is about to for an event that was there
before.

* `OneAttempt` : every call of `pcan_twai_transmit()` is for a frame popped after the single-shot
  frames of which `TX_FAILED` had been read.
* `CanState.Harmless` : the frames that the read reports are not in hand, or the next event is an
  `OK`.
* `Owned.harmless_iff` : while no verdict is mistaken, no read of a failure is harmless.
* `oneAttempt_iff` : **single shot is at most one attempt** exactly if every read that a call has
  followed was harmless.
* `failedShot_resubmitted` : a run in which one was not.
-/

namespace Espcan32

namespace Bridge

open Pcan Twai

/-! ### What happened to the single-shot frames -/

namespace CanState

variable (s : CanState)

/-- The single-shot frames of which `ctrl_task` reads `TX_FAILED` in its next step. -/
def failing : List Popped :=
  match s.ctrl, s.hal.driver with
  | .readAlerts _, some d => (d.alerts.txFailed.map (·.popped)).filter (·.frame.ss)
  | _, _ => []

/-- None of them is in hand, or its copy is out and the next event that `can_tx_task` receives is an
`OK`. -/
def Harmless : Prop :=
  ∀ q ∈ s.failing, s.pending = some q →
    s.inflight = true ∧ s.txDone.head?.map (·.ev) = some .ok

instance : Decidable s.Harmless := by unfold Harmless; infer_instance

/-- The frame of the call of `pcan_twai_transmit()` that `can_tx_task` makes in its next step. -/
def calling : Option Popped := if s.tx = .transmit then s.pending else none

end CanState

/-- A call of `pcan_twai_transmit()`, with the single-shot frames that had failed before. -/
structure Call where
  frame : Popped
  failed : List Popped
  deriving DecidableEq, Repr

/-- A read of `TX_FAILED` for single-shot frames: the number of calls made before it, and whether it
was harmless. -/
structure Report where
  calls : ℕ
  harmless : Bool
  deriving DecidableEq, Repr

/-- The single-shot frames that have failed, the reports of that, and the calls. -/
structure ShotRecord where
  failed : List Popped
  reports : List Report
  calls : List Call
  deriving DecidableEq, Repr

/-- Nothing has happened. -/
def ShotRecord.none : ShotRecord := ⟨[], [], []⟩

namespace ShotRecord

variable (r : ShotRecord)

/-- `pcan_twai_transmit()` is called for the frame. -/
def call (p : Popped) : ShotRecord := { r with calls := r.calls ++ [⟨p, r.failed⟩] }

/-- `TX_FAILED` is read for the frames. -/
def report (frames : List Popped) (harmless : Bool) : ShotRecord :=
  { r with
    failed := r.failed ++ frames
    reports := r.reports ++ [⟨r.calls.length, harmless⟩] }

end ShotRecord

/-- Keep the record. -/
def shotRecord (s : CanState) (l : CanStep) (r : ShotRecord) : ShotRecord :=
  match l with
  | .tx _ => s.calling.elim r r.call
  | .ctrl _ => if s.failing = [] then r else r.report s.failing (decide s.Harmless)
  | _ => r

/-- Every call is for a frame popped after the single-shot frames that had failed. -/
def OneAttempt (r : ShotRecord) : Prop := ∀ c ∈ r.calls, ∀ q ∈ c.failed, q.no < c.frame.no

/-- Every report that a call has followed was harmless. -/
def FinalFailure (r : ShotRecord) : Prop :=
  ∀ x ∈ r.reports, x.calls < r.calls.length → x.harmless = true

instance (r : ShotRecord) : Decidable (FinalFailure r) := by unfold FinalFailure; infer_instance

/-- Every report since the last call is harmless. -/
def HarmlessSince (r : ShotRecord) : Prop :=
  ∀ x ∈ r.reports, x.calls = r.calls.length → x.harmless = true

/-! ### The invariant -/

/-- The next event that `can_tx_task` receives is no `OK`: it is there, or `ctrl_task` has read the
failure that it tells of. -/
def CanState.FailureNext (s : CanState) : Prop :=
  (∃ e, s.txDone.head? = some e ∧ e.ev ≠ .ok) ∨ s.txDone = [] ∧ s.ctrl.unposted.txFailed ≠ []

/-- A frame in hand that has failed is not submitted again. -/
def Saved (s : CanState) (r : ShotRecord) : Prop :=
  ∀ p ∈ s.pending, p ∈ r.failed → s.inflight = true ∧ s.txDone.head?.map (·.ev) = some .ok

/-- The next call is for a frame that has failed. -/
def Doomed (s : CanState) (r : ShotRecord) : Prop :=
  ∃ p, s.pending = some p ∧ p ∈ r.failed ∧ (s.inflight = true → s.FailureNext)

/-- A frame that has been popped; the one in hand is known by its number. -/
def Known (s : CanState) (q : Popped) : Prop :=
  q.no < s.pops ∧ ∀ p ∈ s.pending, q.no = p.no → q = p

/-- What holds between steps: the frames are known, and the reports since the last call decide what
the next one is for. -/
structure ShotInv (s : CanState) (r : ShotRecord) : Prop where
  task : s.tx.Fits s.pending s.inflight
  current : ∀ p ∈ s.pending, p.no + 1 = s.pops
  copies : ∀ c ∈ s.hal.messages, Known s c.popped
  failed : ∀ q ∈ r.failed, Known s q
  reports : ∀ x ∈ r.reports, x.calls ≤ r.calls.length
  attempt : OneAttempt r ↔ FinalFailure r
  saved : OneAttempt r → HarmlessSince r → Saved s r
  doomed : ¬HarmlessSince r → Doomed s r

/-- A frame in hand was popped after those known, itself excepted. -/
theorem Known.lt_iff {s : CanState} {p q : Popped} (hq : Known s q) (hp : s.pending = some p)
    (hno : p.no + 1 = s.pops) : q.no < p.no ↔ q ≠ p := by
  constructor
  · rintro hlt rfl
    exact lt_irrefl _ hlt
  · intro hne
    have hlt := hq.1
    have hdiff : q.no ≠ p.no := fun h => hne (hq.2 p hp h)
    omega

/-- A failing frame is that of a copy whose failure is latched. -/
theorem CanState.exists_of_failing {s : CanState} {q : Popped} (hq : q ∈ s.failing) :
    ∃ b d c, s.ctrl = .readAlerts b ∧ s.hal.driver = some d ∧ c ∈ d.alerts.txFailed ∧
      c.popped = q := by
  unfold failing at hq
  split at hq
  · rename_i b d hpc hd
    obtain ⟨c, hc, hcq⟩ := List.mem_map.1 (List.mem_filter.1 hq).1
    exact ⟨b, d, c, hpc, hd, hc, hcq⟩
  · cases hq

/-- While no verdict is mistaken, only the read of nothing is harmless: the frame is in hand, and
its event is still to come. -/
theorem Owned.harmless_iff {s : CanState} {r : CanRecord} (h : Owned s r) :
    s.Harmless ↔ s.failing = [] := by
  constructor
  · intro hharm
    by_contra hne
    obtain ⟨q, hq⟩ := List.exists_mem_of_ne_nil _ hne
    obtain ⟨b, d, c, -, hd, hc, rfl⟩ := CanState.exists_of_failing hq
    obtain ⟨-, -, hpend, hdone⟩ := h.copy_of_mem (c := c) (by
      rw [CanState.unreported, Hal.messages, hd]
      simp [Driver.messages, Alerts.messages, hc])
    obtain ⟨-, hhead⟩ := hharm _ hq hpend
    rw [hdone] at hhead
    cases hhead
  · intro hnil q hq
    rw [hnil] at hq
    cases hq

/-! ### The record -/

namespace ShotRecord

variable {r : ShotRecord}

@[simp] theorem call_reports (p : Popped) : (r.call p).reports = r.reports := rfl

@[simp] theorem length_call (p : Popped) : (r.call p).calls.length = r.calls.length + 1 :=
  List.length_append

/-- A further call comes behind every report made so far. -/
theorem finalFailure_call (hreports : ∀ x ∈ r.reports, x.calls ≤ r.calls.length) (p : Popped) :
    FinalFailure (r.call p) ↔ FinalFailure r ∧ HarmlessSince r := by
  unfold FinalFailure HarmlessSince
  simp only [call_reports, length_call]
  constructor
  · intro h
    exact ⟨fun x hx hlt => h x hx (by omega), fun x hx heq => h x hx (by omega)⟩
  · rintro ⟨hbefore, hsince⟩ x hx -
    rcases (hreports x hx).lt_or_eq with hlt | heq
    · exact hbefore x hx hlt
    · exact hsince x hx heq

/-- No report has come since this call. -/
theorem harmlessSince_call (hreports : ∀ x ∈ r.reports, x.calls ≤ r.calls.length) (p : Popped) :
    HarmlessSince (r.call p) := by
  intro x hx heq
  have hle := hreports x hx
  rw [length_call] at heq
  omega

/-- A report comes behind every call made so far. -/
theorem finalFailure_report (frames : List Popped) (harmless : Bool) :
    FinalFailure (r.report frames harmless) ↔ FinalFailure r := by
  unfold FinalFailure report
  rw [List.forall_mem_append, List.forall_mem_singleton]
  exact and_iff_left fun h => absurd h (lt_irrefl _)

theorem harmlessSince_report (frames : List Popped) (harmless : Bool) :
    HarmlessSince (r.report frames harmless) ↔ HarmlessSince r ∧ harmless = true := by
  unfold HarmlessSince report
  rw [List.forall_mem_append, List.forall_mem_singleton]
  exact and_congr_right fun _ => ⟨fun h => h rfl, fun h _ => h⟩

end ShotRecord

/-! ### Steps of `ctrl_task` -/

section CtrlTask

variable (s : CanState)

theorem messages_discarding {f : Driver Copy → Driver Copy × List Copy}
    (hf : ∀ d, (f d).2 ++ (f d).1.messages = d.messages) :
    (s.discarding f).hal.messages ⊆ s.hal.messages := by
  unfold CanState.discarding Hal.messages
  cases hd : s.hal.driver with
  | none => simp only [hd, List.Subset.refl]
  | some d =>
    dsimp only
    rw [← hf d]
    exact List.subset_append_right _ _

/-- `ctrl_task` submits nothing. -/
theorem ctrlTask_messages (ok : Bool) : (s.ctrlTask ok).hal.messages ⊆ s.hal.messages := by
  have hinstall (c : Config) : (s.hal.install c ok).messages ⊆ s.hal.messages := by
    cases ok with
    | true => exact List.nil_subset _
    | false => exact List.Subset.refl _
  have hchange {f : Driver Copy → Driver Copy} (hf : ∀ d, (f d).messages ⊆ d.messages) :
      (s.withDriver f).hal.messages ⊆ s.hal.messages := by
    unfold CanState.withDriver Hal.messages
    cases hd : s.hal.driver with
    | none => exact List.Subset.refl _
    | some d => exact hf d
  unfold CanState.ctrlTask
  cases hpc : s.ctrl <;> dsimp only
  case boot | install => exact hinstall _
  case readAlerts q =>
    split
    · exact List.Subset.refl _
    · refine hchange fun d => ?_
      -- the queue stays, the alerts are cleared
      show d.queue ++ [] ⊆ d.queue ++ d.alerts.messages
      rw [List.append_nil]
      exact List.subset_append_left _ _
  case recover q a =>
    split
    · exact messages_discarding s Driver.initiateRecovery_messages
    · exact List.Subset.refl _
  case restart q a =>
    split
    · exact hchange fun d => by rw [Driver.start_messages]; exact List.Subset.refl _
    · exact List.Subset.refl _
  case postOutcome q a => cases s.posting <;> exact List.Subset.refl _
  case postBusOff q a => split <;> exact List.Subset.refl _
  case stop c =>
    split
    · exact List.Subset.refl _
    · exact messages_discarding s Driver.stop_messages
  case uninstall c =>
    split
    · exact List.Subset.refl _
    · split
      · exact List.nil_subset _
      · exact List.Subset.refl _
  all_goals exact List.Subset.refl _

/-- A failure that has been read is posted before anything else. -/
theorem ctrlTask_failureNext (ok : Bool) (h : s.FailureNext) : (s.ctrlTask ok).FailureNext := by
  rcases h with ⟨e, he, hev⟩ | ⟨hdone, hfailed⟩
  · exact .inl ⟨e, ctrlTask_head s ok he, hev⟩
  · unfold CanState.ctrlTask
    cases hpc : s.ctrl <;> rw [hpc] at hfailed <;> try exact absurd rfl hfailed
    case recover q a =>
      refine .inr ⟨?_, hfailed⟩
      dsimp only
      split
      · unfold CanState.discarding; split <;> exact hdone
      · exact hdone
    case restart q a =>
      refine .inr ⟨?_, hfailed⟩
      dsimp only
      split <;> exact hdone
    case postOutcome q a =>
      have hfailed : a.txFailed ≠ [] := hfailed
      have hposting : s.posting = some ⟨.fail, s.posts, a.messages.map (·.sub)⟩ := by
        rw [CanState.posting, hpc]
        dsimp only
        rw [outcome, if_pos hfailed]
        rfl
      refine .inl ⟨⟨.fail, s.posts, a.messages.map (·.sub)⟩, ?_, by simp⟩
      simp only [hposting, Option.elim_some, CanState.send, hdone]
      rfl

end CtrlTask

namespace ShotInv

variable {s s' : CanState} {l : CanStep} {r : ShotRecord}

theorem init (dev : DevState) : ShotInv (.init dev) .none where
  task := trivial
  current := nofun
  copies := nofun
  failed := nofun
  reports := nofun
  attempt := iff_of_true nofun nofun
  saved := nofun
  doomed h := absurd nofun h

/-- A step that leaves the frame in hand and the event that decides on it, and submits nothing. -/
theorem keep (hi : ShotInv s r) (htask : s'.tx.Fits s.pending s.inflight)
    (hpend : s'.pending = s.pending) (hin : s'.inflight = s.inflight) (hpops : s'.pops = s.pops)
    (hcopies : s'.hal.messages ⊆ s.hal.messages)
    (hok : s.inflight = true → s.txDone.head?.map (·.ev) = some .ok →
      s'.txDone.head?.map (·.ev) = some .ok)
    (hfail : s.inflight = true → s.FailureNext → s'.FailureNext) : ShotInv s' r where
  task := by rw [hpend, hin]; exact htask
  current := by rw [hpend, hpops]; exact hi.current
  copies c hc := by
    rw [Known, hpend, hpops]
    exact hi.copies c (hcopies hc)
  failed q hq := by
    rw [Known, hpend, hpops]
    exact hi.failed q hq
  reports := hi.reports
  attempt := hi.attempt
  saved hone hsince := by
    rw [Saved, hpend, hin]
    intro p hp hmem
    obtain ⟨hflight, hhead⟩ := hi.saved hone hsince p hp hmem
    exact ⟨hflight, hok hflight hhead⟩
  doomed hsince := by
    rw [Doomed, hpend, hin]
    obtain ⟨p, hp, hmem, hnext⟩ := hi.doomed hsince
    exact ⟨p, hp, hmem, fun hflight => hfail hflight (hnext hflight)⟩

/-- A step that has to do with neither the frame nor the events. -/
theorem still (hi : ShotInv s r) (htask : s'.tx.Fits s.pending s.inflight)
    (hpend : s'.pending = s.pending) (hin : s'.inflight = s.inflight) (hpops : s'.pops = s.pops)
    (hcopies : s'.hal.messages ⊆ s.hal.messages) (hdone : s'.txDone = s.txDone)
    (hctrl : s'.ctrl = s.ctrl) : ShotInv s' r := by
  refine hi.keep htask hpend hin hpops hcopies (fun _ => ?_) fun _ => ?_
  · rw [hdone]
    exact id
  · rw [CanState.FailureNext, CanState.FailureNext, hdone, hctrl]
    exact id

/-! ### The steps of `can_tx_task` -/

/-- Outside a call, nothing is recorded. -/
theorem shotRecord_tx (answer : TwaiAnswer) (hcall : s.tx ≠ .transmit) :
    shotRecord s (.tx answer) r = r := by
  unfold shotRecord
  dsimp only
  rw [CanState.calling, if_neg hcall]
  rfl

theorem tx_pop (hi : ShotInv s r) (htx : s.tx = .pop) (answer : TwaiAnswer) :
    ShotInv (s.canTxTask answer) r := by
  have hnone : s.pending = none := by
    have htask := hi.task
    rw [htx] at htask
    exact htask
  cases hring : s.txRing with
  | nil =>
    rw [CanState.canTxTask_pop_nil answer htx hring]
    exact hi.still trivial rfl rfl rfl (List.Subset.refl _) rfl rfl
  | cons f ring =>
    rw [CanState.canTxTask_pop_cons answer htx hring]
    -- the new frame has a number that no other frame has
    have hknown (q : Popped) (hq : Known s q) (t : TxPc) :
        Known { s with txRing := ring, pending := some ⟨s.pops, f⟩, pops := s.pops + 1, tx := t }
          q := by
      refine ⟨Nat.lt_succ_of_lt hq.1, fun p hp hno => ?_⟩
      obtain rfl := Option.some.inj hp
      exact absurd hno (Nat.ne_of_lt hq.1)
    refine ⟨s.txNext_fits (by simp), ?_, fun c hc => hknown _ (hi.copies c hc) _,
      fun q hq => hknown q (hi.failed q hq) _, hi.reports, hi.attempt, fun _ _ => ?_,
      fun hsince => ?_⟩
    · intro p hp
      obtain rfl := Option.some.inj hp
      rfl
    · intro p hp hmem
      obtain rfl := Option.some.inj hp
      exact absurd (hi.failed _ hmem).1 (lt_irrefl _)
    · obtain ⟨p, hp, -⟩ := hi.doomed hsince
      exact absurd (hnone.symm.trans hp) nofun

/-- The call is for the frame in hand, which must not have failed. -/
theorem oneAttempt_call (hi : ShotInv s r) {p : Popped} (hp : s.pending = some p) :
    OneAttempt (r.call p) ↔ OneAttempt r ∧ p ∉ r.failed := by
  unfold OneAttempt ShotRecord.call
  rw [List.forall_mem_append, List.forall_mem_singleton]
  refine and_congr_right fun _ => ⟨fun h hmem => lt_irrefl _ (h p hmem), fun h q hq => ?_⟩
  refine ((hi.failed q hq).lt_iff hp (hi.current p hp)).2 ?_
  rintro rfl
  exact h hq

/-- The reports since the last call have decided whether it has. -/
theorem attempt_call (hi : ShotInv s r) (hin : s.inflight = false) {p : Popped}
    (hp : s.pending = some p) : OneAttempt (r.call p) ↔ FinalFailure (r.call p) := by
  rw [hi.oneAttempt_call hp, ShotRecord.finalFailure_call hi.reports, hi.attempt]
  refine and_congr_right fun hfinal => ⟨fun hmem => ?_, fun hsince hmem => ?_⟩
  · by_contra hsince
    obtain ⟨p', hp', hmem', -⟩ := hi.doomed hsince
    obtain rfl := Option.some.inj (hp.symm.trans hp')
    exact hmem hmem'
  · have hflight := (hi.saved (hi.attempt.2 hfinal) hsince p hp hmem).1
    exact absurd (hin.symm.trans hflight) (by decide)

/-- `can_tx_task` calls `pcan_twai_transmit()`. -/
theorem tx_transmit (hi : ShotInv s r) (htx : s.tx = .transmit) (answer : TwaiAnswer) :
    ShotInv (s.canTxTask answer) (shotRecord s (.tx answer) r) := by
  have htask := hi.task
  rw [htx] at htask
  obtain ⟨hsome, hin⟩ := htask
  obtain ⟨p, hp⟩ := Option.ne_none_iff_exists'.1 hsome
  have hr : shotRecord s (.tx answer) r = r.call p := by
    unfold shotRecord
    dsimp only
    rw [CanState.calling, if_pos htx, hp]
    rfl
  rw [hr]
  have hreports : ∀ x ∈ (r.call p).reports, x.calls ≤ (r.call p).calls.length := by
    intro x hx
    rw [ShotRecord.length_call]
    exact Nat.le_succ_of_le (hi.reports x hx)
  have hattempt := hi.attempt_call hin hp
  have hsince := ShotRecord.harmlessSince_call hi.reports p
  have hinhand : ∀ q ∈ s.pending, q = p := fun q hq => Option.some.inj (hq.symm.trans hp)
  have hsaved {t : CanState} (hpend : ∀ q ∈ t.pending, q = p) (h : OneAttempt (r.call p)) :
      Saved t (r.call p) := by
    intro q hq hmem
    rw [hpend q hq] at hmem
    exact absurd hmem ((hi.oneAttempt_call hp).1 h).2
  rcases CanState.canTxTask_transmit answer htx hp with
    ⟨d, hd, hst, hok, hs⟩ | ⟨hno, hs⟩ | ⟨hno, hno', hs⟩
  all_goals rw [hs]
  · -- the copy is queued
    refine ⟨trivial, hi.current, fun c hc => ?_, hi.failed, hreports, hattempt,
      fun h _ => hsaved hinhand h, fun h => absurd hsince h⟩
    have hc : c ∈ d.queue ++ [⟨p, s.subs⟩] ++ d.alerts.messages := hc
    have hold (hmem : c ∈ d.queue ++ d.alerts.messages) : Known s c.popped :=
      hi.copies c (by rw [Hal.messages, hd]; exact hmem)
    rcases List.mem_append.1 hc with hc | hc
    · rcases List.mem_append.1 hc with hc | hc
      · exact hold (List.mem_append_left _ hc)
      · obtain rfl := List.mem_singleton.1 hc
        have hno := hi.current p hp
        exact ⟨by dsimp only; omega, fun p' hp' _ => (hinhand p' hp').symm⟩
    · exact hold (List.mem_append_right _ hc)
  · -- listen-only mode: the frame is given up
    exact ⟨trivial, by simp, fun c hc => ⟨(hi.copies c hc).1, by simp⟩,
      fun q hq => ⟨(hi.failed q hq).1, by simp⟩, hreports, hattempt,
      fun h _ => hsaved (by simp) h, fun h => absurd hsince h⟩
  · exact ⟨trivial, hi.current, hi.copies, hi.failed, hreports, hattempt,
      fun h _ => hsaved hinhand h, fun h => absurd hsince h⟩

/-- A verdict is received, if there is one. -/
theorem tx_confirm (hi : ShotInv s r) (htx : s.tx = .confirm) (answer : TwaiAnswer) :
    ShotInv (s.canTxTask answer) r := by
  have hin : s.inflight = true := by
    have htask := hi.task
    rw [htx] at htask
    exact htask
  cases hdone : s.txDone with
  | nil =>
    rw [CanState.canTxTask_confirm_nil answer htx hdone]
    exact hi.still trivial rfl rfl rfl (List.Subset.refl _) rfl rfl
  | cons e events =>
    have hhead : s.txDone.head? = some e := by rw [hdone]; rfl
    rw [CanState.canTxTask_confirm_cons answer htx hdone]
    have hmem {p : Popped} (hp : p ∈ if e.ev = .ok then none else s.pending) :
        e.ev ≠ .ok ∧ s.pending = some p := by
      split at hp
      · cases hp
      · exact ⟨‹_›, hp⟩
    refine ⟨trivial, fun p hp => hi.current p (hmem hp).2,
      fun c hc => ⟨(hi.copies c hc).1, fun p hp => (hi.copies c hc).2 p (hmem hp).2⟩,
      fun q hq => ⟨(hi.failed q hq).1, fun p hp => (hi.failed q hq).2 p (hmem hp).2⟩,
      hi.reports, hi.attempt, fun hone hsince p hp hfailed => ?_, fun hsince => ?_⟩
    · -- a frame that has failed goes with the `OK`
      obtain ⟨hne, hp⟩ := hmem hp
      obtain ⟨-, hok⟩ := hi.saved hone hsince p hp hfailed
      rw [hhead] at hok
      exact absurd (Option.some.inj hok) hne
    · -- the event is no `OK`
      obtain ⟨p, hp, hfailed, hnext⟩ := hi.doomed hsince
      have hne : e.ev ≠ .ok := by
        rcases hnext hin with ⟨e', he', hne⟩ | ⟨hnil, -⟩
        · obtain rfl := Option.some.inj (hhead.symm.trans he')
          exact hne
        · rw [hdone] at hnil
          cases hnil
      exact ⟨p, by rw [if_neg hne]; exact hp, hfailed, nofun⟩

/-- One step of `can_tx_task`. -/
theorem tx (hi : ShotInv s r) (answer : TwaiAnswer) :
    ShotInv (s.canTxTask answer) (shotRecord s (.tx answer) r) := by
  cases htx : s.tx with
  | transmit => exact hi.tx_transmit htx answer
  | confirm =>
    rw [shotRecord_tx answer (by simp [htx])]
    exact hi.tx_confirm htx answer
  | pop =>
    rw [shotRecord_tx answer (by simp [htx])]
    exact hi.tx_pop htx answer
  | top =>
    rw [shotRecord_tx answer (by simp [htx]), CanState.canTxTask_top answer htx]
    exact hi.still s.txTop_fits rfl rfl rfl (List.Subset.refl _) rfl rfl
  | drain =>
    rw [shotRecord_tx answer (by simp [htx])]
    have htask := hi.task
    rw [htx] at htask
    -- no copy is out, so no event decides on the frame
    have hin (h : s.inflight = true) : False := absurd (htask.2.symm.trans h) nofun
    cases hdone : s.txDone with
    | nil =>
      rw [CanState.canTxTask_drain_nil answer htx hdone]
      exact hi.keep htask rfl rfl rfl (List.Subset.refl _) (fun h => (hin h).elim)
        fun h => (hin h).elim
    | cons e events =>
      rw [CanState.canTxTask_drain_cons answer htx hdone]
      exact hi.keep hi.task rfl rfl rfl (List.Subset.refl _) (fun h => (hin h).elim)
        fun h => (hin h).elim
  | echo cycle =>
    rw [shotRecord_tx answer (by simp [htx]), CanState.canTxTask_echo answer htx]
    exact hi.still trivial rfl rfl rfl (List.Subset.refl _) rfl rfl
  | parked =>
    rw [shotRecord_tx answer (by simp [htx]), CanState.canTxTask_parked answer htx]
    refine hi.still ?_ rfl rfl rfl (List.Subset.refl _) rfl rfl
    dsimp only
    split <;> trivial

/-! ### The steps of `ctrl_task` -/

/-- A failure is read of frames that the driver has held. -/
theorem failing_known (hi : ShotInv s r) {q : Popped} (hq : q ∈ s.failing) : Known s q := by
  obtain ⟨b, d, c, -, hd, hc, rfl⟩ := CanState.exists_of_failing hq
  refine hi.copies c ?_
  rw [Hal.messages, hd]
  exact List.mem_append_right _ (List.mem_append_right _ hc)

/-- Behind a read that is not harmless, a frame that has failed is in hand to be submitted again. -/
theorem read_doomed (ok : Bool) (hharm : ¬s.Harmless) :
    ∃ p, s.pending = some p ∧ p ∈ s.failing ∧
      (s.inflight = true → (s.ctrlTask ok).FailureNext) := by
  unfold CanState.Harmless at hharm
  push Not at hharm
  obtain ⟨p, hp, hhand, hnext⟩ := hharm
  refine ⟨p, hhand, hp, fun hin => ?_⟩
  cases hhead : s.txDone.head? with
  | some e =>
    -- the event is there
    refine .inl ⟨e, ctrlTask_head s ok hhead, fun hev => hnext hin ?_⟩
    rw [hhead, Option.map_some, hev]
  | none =>
    -- nothing comes before the event that `ctrl_task` makes of the failure
    obtain ⟨b, d, c, hpc, hd, hc, -⟩ := CanState.exists_of_failing hp
    have hs : s.ctrlTask ok =
        { s.withDriver Driver.readAlerts with ctrl := .recover b d.alerts } := by
      simp only [CanState.ctrlTask, hpc, hd]
    rw [hs]
    exact .inr ⟨List.head?_eq_none_iff.1 hhead, List.ne_nil_of_mem hc⟩

/-- One step of `ctrl_task`. -/
theorem ctrl (hi : ShotInv s r) (ok : Bool) :
    ShotInv (s.ctrlTask ok) (shotRecord s (.ctrl ok) r) := by
  obtain ⟨-, -, hpend, hin, htx, hpops, -⟩ := s.ctrlTask_frame ok
  have hok (h : s.txDone.head?.map (·.ev) = some .ok) :
      (s.ctrlTask ok).txDone.head?.map (·.ev) = some .ok := by
    obtain ⟨e, he, hev⟩ := Option.map_eq_some_iff.1 h
    rw [ctrlTask_head s ok he, Option.map_some, hev]
  have hi' : ShotInv (s.ctrlTask ok) r :=
    hi.keep (by rw [htx]; exact hi.task) hpend hin hpops (ctrlTask_messages s ok) (fun _ => hok)
      fun _ => ctrlTask_failureNext s ok
  unfold shotRecord
  dsimp only
  split
  · exact hi'
  · have hsince := ShotRecord.harmlessSince_report (r := r) s.failing (decide s.Harmless)
    rw [decide_eq_true_iff] at hsince
    refine ⟨hi'.task, hi'.current, hi'.copies, fun q hq => ?_, ?_, ?_, fun hone h => ?_,
      fun h => ?_⟩
    · rcases List.mem_append.1 hq with hq | hq
      · exact hi'.failed q hq
      · rw [Known, hpend, hpops]
        exact hi.failing_known hq
    · exact List.forall_mem_append.2 ⟨hi.reports, List.forall_mem_singleton.2 (Nat.le_refl _)⟩
    · rw [ShotRecord.finalFailure_report]
      exact hi.attempt
    · obtain ⟨hbefore, hharm⟩ := hsince.1 h
      rw [Saved, hpend, hin]
      intro p hp hmem
      rcases List.mem_append.1 hmem with hmem | hmem
      · obtain ⟨hflight, hhead⟩ := hi.saved hone hbefore p hp hmem
        exact ⟨hflight, hok hhead⟩
      · obtain ⟨hflight, hhead⟩ := hharm p hmem hp
        exact ⟨hflight, hok hhead⟩
    · rw [Doomed, hpend, hin]
      by_cases hbefore : HarmlessSince r
      · obtain ⟨p, hp, hmem, hnext⟩ := read_doomed ok fun hharm => h (hsince.2 ⟨hbefore, hharm⟩)
        exact ⟨p, hp, List.mem_append_right _ hmem, hnext⟩
      · obtain ⟨p, hp, hmem, hnext⟩ := hi.doomed hbefore
        exact ⟨p, hp, List.mem_append_left _ hmem, fun h => ctrlTask_failureNext s ok (hnext h)⟩

/-! ### Every step -/

/-- The controller moves. -/
theorem moved (hi : ShotInv s r) {d d' : Driver Copy} (hd : s.hal.driver = some d)
    (hm : d.Move d') : ShotInv { s with hal := { s.hal with driver := some d' } } r := by
  refine hi.still hi.task rfl rfl rfl ?_ rfl rfl
  show d'.messages ⊆ _
  rw [Hal.messages, hd]
  exact hm.messages_perm.subset

theorem step (hi : ShotInv s r) (hst : s.step l = some s') : ShotInv s' (shotRecord s l r) := by
  cases l with
  | tx answer => obtain rfl := Option.some.inj hst; exact hi.tx answer
  | ctrl ok => obtain rfl := Option.some.inj hst; exact hi.ctrl ok
  | host f lock | command dev =>
    obtain rfl := Option.some.inj hst
    exact hi.still hi.task rfl rfl rfl (List.Subset.refl _) rfl rfl
  | rx =>
    obtain rfl := Option.some.inj hst
    unfold CanState.twaiRxTask
    cases s.rx <;>
      exact hi.still hi.task rfl rfl rfl (List.Subset.refl _) rfl rfl
  | success =>
    obtain ⟨d, d', hd, hf, rfl⟩ := CanState.controller_eq hst
    obtain ⟨⟨c, d''⟩, hc, rfl⟩ := Option.map_eq_some_iff.1 hf
    exact hi.moved hd (.success hc)
  | failure =>
    obtain ⟨d, d', hd, hf, rfl⟩ := CanState.controller_eq hst
    exact hi.moved hd (.failure hf)
  | busOff =>
    obtain ⟨d, d', hd, hf, rfl⟩ := CanState.controller_eq hst
    exact hi.moved hd (.goBusOff hf)
  | recovered =>
    obtain ⟨d, d', hd, hf, rfl⟩ := CanState.controller_eq hst
    exact hi.moved hd (.recovered hf)

end ShotInv

/-! ### Runs -/

/-- **Single shot is at most one attempt** exactly in the runs in which every read of `TX_FAILED`
for a single-shot frame that a call of `pcan_twai_transmit()` has followed was harmless: then, and
only then, every call is for a frame popped after the single-shot frames of which `TX_FAILED` had
been read. -/
theorem oneAttempt_iff {dev : DevState} {ls : List CanStep} {s : CanState} {r : ShotRecord}
    (hrun : (canSystem.withAux shotRecord).Run (.init dev, .none) ls (s, r)) :
    OneAttempt r ↔ FinalFailure r := by
  have hi : ShotInv s r := by
    refine hrun.invariant (I := fun p => ShotInv p.1 p.2) (.init dev) ?_
    rintro ⟨s, r⟩ l ⟨s', r'⟩ hi ⟨hst, rfl⟩
    exact hi.step hst
  exact hi.attempt

/-- A single-shot frame of the host. -/
def shotFrame (id : UInt32) : Frame := { emptyFrame id with flags := frameFlagSs }

/-- Run the tasks, and keep the record of the single-shot frames. -/
def shots (ls : List CanStep) : Option (CanState × ShotRecord) :=
  System.exec CanState.step (fun _ _ => True) shotRecord (.init ⟨500000, false, true, true⟩, .none)
    (opening ++ [CanStep.host (shotFrame 0x100) true] ++ ls)

/-- A run like `staleAbort`: the frame is out a second time, and the success of its first copy is
the next event, when the second copy fails.  The frame is given up for that event. -/
def staleShot : Option (CanState × ShotRecord) :=
  shots (txs 5 ++ [.busOff] ++ ctrls 5 ++ [.recovered] ++ ctrls 4 ++ txs 6 ++ [.success] ++
    ctrls 7 ++ [.failure] ++ ctrls 7 ++ txs 2 ++ [.host (shotFrame 0x101) true] ++ txs 6)

theorem oneAttempt_iff_staleShot :
    ∃ p, staleShot = some p ∧ p.2.calls.map (fun c => (c.frame.no, c.failed.map (·.no))) =
      [(0, []), (0, []), (1, [0])] ∧ p.2.reports = [⟨2, true⟩] ∧ OneAttempt p.2 := by
  have hr : staleShot.map (fun p => (p.2.calls.map fun c => (c.frame.no, c.failed.map (·.no)),
      p.2.reports, decide (FinalFailure p.2))) =
        some ([(0, []), (0, []), (1, [0])], [⟨2, true⟩], true) := by decide +kernel
  obtain ⟨⟨s, r⟩, h, hr⟩ := Option.map_eq_some_iff.1 hr
  obtain ⟨hcalls, hr⟩ := Prod.mk.inj hr
  obtain ⟨hreports, hfinal⟩ := Prod.mk.inj hr
  exact ⟨(s, r), h, hcalls, hreports,
    (oneAttempt_iff (System.Run.of_exec h).of_guard_withAux).2 (of_decide_eq_true hfinal)⟩

/-- The frame fails, `ctrl_task` posts the failure, and `can_tx_task` submits the frame again. -/
def failedShot : Option (CanState × ShotRecord) :=
  shots (txs 6 ++ [.failure] ++ ctrls 4 ++ txs 5)

theorem failedShot_resubmitted :
    ¬ ∀ (dev : DevState) (ls : List CanStep) (s : CanState) (r : ShotRecord),
      (canSystem.withAux shotRecord).Run (.init dev, .none) ls (s, r) →
        ∀ c ∈ r.calls, c.frame.frame.ss = true → c.frame ∉ c.failed := by
  intro hall
  have hcalls : failedShot.map (·.2.calls) =
      some [⟨⟨0, shotFrame 0x100⟩, []⟩, ⟨⟨0, shotFrame 0x100⟩, [⟨0, shotFrame 0x100⟩]⟩] := by
    decide +kernel
  obtain ⟨⟨s, r⟩, h, hcalls⟩ := Option.map_eq_some_iff.1 hcalls
  have hno := hall _ _ s r (System.Run.of_exec h).of_guard_withAux
  rw [show r.calls = _ from hcalls] at hno
  exact absurd hno (by decide +kernel)

end Bridge

end Espcan32
