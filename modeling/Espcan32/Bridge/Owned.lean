import Espcan32.Bridge.Flight

/-!
# Every step keeps the copy in one place

`Owned` is kept by the steps of `can_tx_task` and `ctrl_task` and by the moves of the controller, if
no cycle reuses a number that an acknowledgement still shows (`FreshCycle`), and the driver accepts
a copy only while `s_tx_done` is empty (`DrainedAtSubmit`).

* `Owned.tx` : `can_tx_task` hands over a copy, or receives its verdict.
* `Owned.moved` : the controller moves.
* `Owned.ctrl_step` : `ctrl_task` moves the copy, or posts the event on it.
* `Owned.step` : every step.
-/

namespace Espcan32

namespace Bridge

open Pcan Twai

namespace Owned

variable {s s' : CanState} {r : CanRecord}

/-! ### The steps of `can_tx_task` -/

theorem tx_top (h : Owned s r) (htx : s.tx = .top) {answer : TwaiAnswer}
    (hshaken : (s.canTxTask answer).Shaken) : Owned (s.canTxTask answer) r := by
  rw [CanState.canTxTask_top answer htx] at hshaken ⊢
  exact h.move hshaken rfl rfl rfl rfl rfl rfl rfl rfl rfl s.txTop_fits

theorem tx_pop (h : Owned s r) (htx : s.tx = .pop) {answer : TwaiAnswer}
    (hshaken : (s.canTxTask answer).Shaken) : Owned (s.canTxTask answer) r := by
  have hpend : s.pending = none := by
    have htask := h.task
    rw [htx] at htask
    exact htask
  -- a copy that is out belongs to a frame in hand
  have hin : s.inflight = false := by
    cases h.flight with
    | idle hin => exact hin
    | flying c xs _ hp => rw [hpend] at hp; cases hp
    | landed c xs e events first _ hp => rw [hpend] at hp; cases hp
  obtain ⟨hcopies, hsettled⟩ := h.idle_of hin
  cases hring : s.txRing with
  | nil =>
    rw [CanState.canTxTask_pop_nil answer htx hring] at hshaken ⊢
    exact h.move hshaken rfl rfl rfl rfl rfl rfl rfl rfl rfl trivial
  | cons f ring =>
    rw [CanState.canTxTask_pop_cons answer htx hring] at hshaken ⊢
    refine ⟨hshaken, h.sound, h.ctrl, ?_, .idle hin hcopies hsettled, h.posts, h.subs, h.wired, ?_,
      fun n hn => Nat.lt_succ_of_lt (h.below n hn), h.order, fun n hn => ?_⟩
    · exact s.txNext_fits (by simp)
    · intro p hp
      obtain rfl := Option.some.inj hp
      rfl
    · rcases Nat.lt_succ_iff_lt_or_eq.1 hn with hn | rfl
      · rcases h.frames n hn with ⟨p, hp, -⟩ | hn
        · rw [hpend] at hp; cases hp
        · exact .inr hn
      · exact .inl ⟨_, rfl, rfl⟩

theorem tx_drain (h : Owned s r) (htx : s.tx = .drain) {answer : TwaiAnswer}
    (hshaken : (s.canTxTask answer).Shaken) : Owned (s.canTxTask answer) r := by
  have htask := h.task
  rw [htx] at htask
  obtain ⟨hcopies, hsettled⟩ := h.idle_of htask.2
  cases hdone : s.txDone with
  | nil =>
    rw [CanState.canTxTask_drain_nil answer htx hdone] at hshaken ⊢
    exact h.move hshaken rfl rfl rfl rfl rfl rfl rfl rfl rfl htask
  | cons e events =>
    rw [CanState.canTxTask_drain_cons answer htx hdone] at hshaken ⊢
    exact ⟨hshaken, h.sound, h.ctrl, h.task, .idle htask.2 hcopies hsettled, h.posts, h.subs,
      h.wired, h.current, h.below, h.order, h.frames⟩

/-- The driver accepts the copy, or refuses it. -/
theorem tx_transmit (h : Owned s r) (htx : s.tx = .transmit) {answer : TwaiAnswer}
    (hg : DrainedAtSubmit s (.tx answer)) (hshaken : (s.canTxTask answer).Shaken) :
    Owned (s.canTxTask answer) (canRecord s (.tx answer) r) := by
  have htask := h.task
  rw [htx] at htask
  obtain ⟨hsome, hin⟩ := htask
  obtain ⟨p, hp⟩ := Option.ne_none_iff_exists'.1 hsome
  obtain ⟨hcopies, hsettled⟩ := h.idle_of hin
  simp only [DrainedAtSubmit, htx, hp] at hg
  rcases CanState.canTxTask_transmit answer htx hp with
    ⟨d, hd, hst, hok, hs⟩ | ⟨hno, hs⟩ | ⟨hno, hno', hs⟩
  · -- accepted
    have hr : canRecord s (.tx answer) r = { r with subs := r.subs ++ [⟨s.posts, none⟩] } := by
      simp only [canRecord, htx, hp, hok]
    -- the abort is posted while the task is parked
    have hctrl : s.ctrl ≠ .postAbort := fun hpc =>
      (h.shaken.outside (by rw [hpc]; rfl)).2 htx
    have hdriver := h.ctrl
    rw [hd] at hdriver
    rw [hs] at hshaken ⊢
    rw [hr]
    refine ⟨hshaken, ?_, hdriver.submit hst hctrl _, trivial,
      .flying ⟨p, s.subs⟩ r.subs rfl hp ?_ (hg hok) rfl h.subs.symm hsettled, h.posts, ?_,
      ?_, h.current, h.below, h.order, h.frames⟩
    · intro x hx
      obtain rfl := Option.some.inj hx
      exact (h.sound d hd).submitted hst _
    · -- the driver was empty
      rw [CanState.unreported, Hal.messages, hd] at hcopies
      obtain ⟨hlost, hcopies⟩ := List.append_eq_nil_iff.1 hcopies
      obtain ⟨hread, hcopies⟩ := List.append_eq_nil_iff.1 hcopies
      obtain ⟨hqueue, halerts⟩ := List.append_eq_nil_iff.1 hcopies
      show s.lost ++ (s.ctrl.unposted.messages ++ ((d.queue ++ [_]) ++ d.alerts.messages)) = _
      rw [hlost, hread, hqueue, halerts]
      rfl
    · rw [List.length_append, h.subs]; rfl
    · have hwired := h.wired
      rw [CanState.successes, latched, hd] at hwired
      exact hwired
  · -- refused for good
    have hr : canRecord s (.tx answer) r = { r with refused := r.refused ++ [p.no] } := by
      simp only [canRecord, htx, hp, hno]
    rw [hs] at hshaken ⊢
    rw [hr]
    refine ⟨hshaken, h.sound, h.ctrl, trivial, .idle hin hcopies hsettled, h.posts, h.subs, h.wired,
      by simp, h.below, h.order, fun n hn => ?_⟩
    rcases h.frames n hn with ⟨q, hq, rfl⟩ | hn | hn
    · rw [hp] at hq
      obtain rfl := Option.some.inj hq
      exact .inr (.inr (by simp))
    · exact .inr (.inl hn)
    · exact .inr (.inr (List.mem_append_left _ hn))
  · -- kept in hand
    have hr : canRecord s (.tx answer) r = r := by
      unfold canRecord
      rw [htx, hp]
      dsimp only
      split
      · exact absurd ‹_› hno
      · exact absurd ‹_› hno'
      · rfl
    rw [hs] at hshaken ⊢
    rw [hr]
    exact h.move hshaken rfl rfl rfl rfl rfl rfl rfl rfl rfl trivial

/-- The verdict on the copy is received, if it is there. -/
theorem tx_confirm (h : Owned s r) (htx : s.tx = .confirm) {answer : TwaiAnswer}
    (hshaken : (s.canTxTask answer).Shaken) :
    Owned (s.canTxTask answer) (canRecord s (.tx answer) r) := by
  have hin : s.inflight = true := by
    have htask := h.task
    rw [htx] at htask
    exact htask
  cases h.flight with
  | idle hin' => rw [hin] at hin'; cases hin'
  | flying c xs _ hpend hcopies hdone hsubs hno hold =>
    have hs := CanState.canTxTask_confirm_nil answer htx hdone
    have hr : canRecord s (.tx answer) r = r := by simp only [canRecord, htx, hdone]
    rw [hs] at hshaken ⊢
    rw [hr]
    exact h.move hshaken rfl rfl rfl rfl rfl rfl rfl rfl rfl trivial
  | landed c xs e events first _ hpend hcopies hdone hsubs hno hposted habout hok hold =>
    have hs := CanState.canTxTask_confirm_cons answer htx hdone
    -- the verdict belongs to the submission made last
    have hlen : s.subs - 1 = xs.length := by
      rw [← h.subs, hsubs, List.length_append]
      rfl
    have hr : canRecord s (.tx answer) r = { r with subs := xs ++ [⟨first, some e⟩] } := by
      simp only [canRecord, htx, hdone, hlen, hsubs]
      rw [List.modify_eq_take_cons_drop (by simp)]
      simp
    rw [hs] at hshaken ⊢
    rw [hr]
    refine ⟨hshaken, h.sound, h.ctrl, trivial, .idle rfl hcopies ?_, h.posts, ?_, h.wired, ?_,
      h.below, h.order, ?_⟩
    · exact hold.snoc ⟨e, rfl, hposted, by rw [habout, hno]⟩
    · rw [← h.subs, hsubs, List.length_append, List.length_append]
      rfl
    · intro p hp
      dsimp only at hp
      split at hp
      · cases hp
      · exact h.current p hp
    -- the frame is on the wire, or stays in hand
    · intro n hn
      rcases h.frames n hn with ⟨q, hq, rfl⟩ | hn
      · dsimp only
        split
        · rw [hpend] at hq
          obtain rfl := Option.some.inj hq
          exact .inr (.inl (hok ‹_›))
        · exact .inl ⟨q, hq, rfl⟩
      · exact .inr hn

/-- One step of `can_tx_task`. -/
theorem tx (h : Owned s r) {answer : TwaiAnswer} (hg : DrainedAtSubmit s (.tx answer))
    (hshaken : (s.canTxTask answer).Shaken) :
    Owned (s.canTxTask answer) (canRecord s (.tx answer) r) := by
  have hr (hne : s.tx ≠ .transmit) (hne' : s.tx ≠ .confirm) : canRecord s (.tx answer) r = r := by
    cases hpc : s.tx <;> first
      | exact absurd hpc hne
      | exact absurd hpc hne'
      | simp only [canRecord, hpc]
  cases htx : s.tx with
  | top => rw [hr (by simp [htx]) (by simp [htx])]; exact h.tx_top htx hshaken
  | pop => rw [hr (by simp [htx]) (by simp [htx])]; exact h.tx_pop htx hshaken
  | drain => rw [hr (by simp [htx]) (by simp [htx])]; exact h.tx_drain htx hshaken
  | transmit => exact h.tx_transmit htx hg hshaken
  | confirm => exact h.tx_confirm htx hshaken
  | echo cycle =>
    rw [hr (by simp [htx]) (by simp [htx])]
    rw [CanState.canTxTask_echo answer htx] at hshaken ⊢
    exact h.move hshaken rfl rfl rfl rfl rfl rfl rfl rfl rfl trivial
  | parked =>
    rw [hr (by simp [htx]) (by simp [htx])]
    rw [CanState.canTxTask_parked answer htx] at hshaken ⊢
    refine h.move hshaken rfl rfl rfl rfl rfl rfl rfl rfl rfl ?_
    dsimp only
    split <;> trivial

/-! ### The moves of the controller -/

/-- The controller moves; a success goes on the wire. -/
theorem moved (h : Owned s r) {d d' : Driver Copy} (hd : s.hal.driver = some d) (hm : d.Move d')
    {r' : CanRecord} (hsubs : r'.subs = r.subs) (hposted : r'.posted = r.posted)
    (hrefused : r'.refused = r.refused) (hwire : r.wire ⊆ r'.wire)
    (hwired : ∀ c ∈ s.ctrl.unposted.txSuccess ++ d'.alerts.txSuccess, c.popped.no ∈ r'.wire)
    (hbelow : ∀ n ∈ r'.wire, n < s.pops) (horder : r'.wire.Pairwise (· ≤ ·)) :
    Owned { s with hal := { s.hal with driver := some d' } } r' where
  shaken := h.shaken
  sound := by
    intro x hx
    obtain rfl := Option.some.inj hx
    exact hm.sound (h.sound d hd)
  ctrl := by
    have hctrl := h.ctrl
    rw [hd] at hctrl
    exact hctrl.move hm
  task := h.task
  flight := by
    refine h.flight.keep ⟨rfl, rfl, rfl, rfl, ?_, hsubs, hposted, hwire⟩
    rw [CanState.unreported, CanState.unreported, Hal.messages, Hal.messages, hd]
    exact (hm.messages_perm.append_left _).append_left _
  posts := by rw [hposted]; exact h.posts
  subs := by rw [hsubs]; exact h.subs
  wired := hwired
  current := h.current
  below := hbelow
  order := horder
  frames := by
    intro n hn
    rw [hrefused]
    exact (h.frames n hn).imp_right fun hn => hn.imp_left fun hn => hwire hn

/-- A copy in the driver is the one of the frame in hand. -/
theorem copy_of_mem (h : Owned s r) {c : Copy} (hc : c ∈ s.unreported) :
    s.unreported = [c] ∧ s.inflight = true ∧ s.pending = some c.popped ∧ s.txDone = [] := by
  cases h.flight with
  | idle _ hcopies => rw [hcopies] at hc; cases hc
  | flying c' xs hin hpend hcopies hdone =>
    rw [hcopies] at hc
    obtain rfl := List.mem_singleton.1 hc
    exact ⟨hcopies, hin, hpend, hdone⟩
  | landed c' xs e events first _ _ hcopies => rw [hcopies] at hc; cases hc

theorem success (h : Owned s r) (hst : s.step .success = some s') :
    Owned s' (canRecord s .success r) := by
  obtain ⟨d, d', hd, hf, rfl⟩ := CanState.controller_eq hst
  obtain ⟨⟨c, d''⟩, hc, rfl⟩ := Option.map_eq_some_iff.1 hf
  obtain ⟨hrun, hd'', hqueue⟩ := Driver.success_eq hc
  have hmem : c ∈ s.unreported := by
    rw [CanState.unreported, Hal.messages, hd]
    simp only [Driver.messages]
    rw [hqueue]
    simp
  obtain ⟨-, -, hpend, -⟩ := h.copy_of_mem hmem
  have hno := h.current c.popped hpend
  have hr : canRecord s .success r = { r with wire := r.wire ++ [c.popped.no] } := by
    simp only [canRecord, hd, Option.bind_some, hc]
  rw [hr]
  -- the frame in hand was popped last, so that the order is kept
  refine h.moved hd (.success hc) rfl rfl rfl (List.subset_append_left ..) ?_ ?_ ?_
  · intro c' hc'
    have hwired := h.wired
    rw [CanState.successes, latched, hd] at hwired
    rw [hd''] at hc'
    dsimp only at hc'
    rw [← List.append_assoc] at hc'
    rcases List.mem_append.1 hc' with hc' | hc'
    · exact List.mem_append_left _ (hwired c' hc')
    · rw [List.mem_singleton.1 hc']
      exact List.mem_append_right _ (List.mem_singleton.2 rfl)
  · intro n hn
    rcases List.mem_append.1 hn with hn | hn
    · exact h.below n hn
    · rw [List.mem_singleton.1 hn]
      omega
  · refine List.pairwise_append.2 ⟨h.order, List.pairwise_singleton .., fun n hn m hm => ?_⟩
    have hlt := h.below n hn
    rw [List.mem_singleton.1 hm]
    omega

/-- The other moves put nothing on the wire. -/
theorem moved_silently (h : Owned s r) {d d' : Driver Copy} (hd : s.hal.driver = some d)
    (hm : d.Move d') (hsucc : d'.alerts.txSuccess = d.alerts.txSuccess) :
    Owned { s with hal := { s.hal with driver := some d' } } r := by
  refine h.moved hd hm rfl rfl rfl (fun _ => id) ?_ h.below h.order
  have hwired := h.wired
  rw [CanState.successes, latched, hd] at hwired
  rw [hsucc]
  exact hwired

/-! ### The steps of `ctrl_task` -/

/-- A step that hands over no copy and posts nothing. -/
theorem ctrl_quiet (h : Owned s r) {ok : Bool} (hshaken : (s.ctrlTask ok).Shaken)
    (hposting : s.posting = none) (hdone : (s.ctrlTask ok).txDone = s.txDone)
    (hposts : (s.ctrlTask ok).posts = s.posts)
    (hcopies : (s.ctrlTask ok).unreported.Perm s.unreported)
    (hsucc : ∀ c ∈ (s.ctrlTask ok).successes, c ∈ s.successes)
    (hsound : ∀ d ∈ (s.ctrlTask ok).hal.driver, d.Sound)
    (hfits : (s.ctrlTask ok).ctrl.Fits (s.ctrlTask ok).hal.driver) :
    Owned (s.ctrlTask ok) (canRecord s (.ctrl ok) r) := by
  obtain ⟨-, -, hpend, hin, htx, hpops, hsubs⟩ := s.ctrlTask_frame ok
  obtain ⟨n, hr⟩ := canRecord_quiet s ok r hposting
  rw [hr]
  exact {
    shaken := hshaken
    sound := hsound
    ctrl := hfits
    task := by rw [htx, hpend, hin]; exact h.task
    flight := h.flight.keep ⟨hin, hpend, hdone, hposts, hcopies, rfl, rfl, fun _ => id⟩
    posts := by rw [hposts]; exact h.posts
    subs := by rw [hsubs]; exact h.subs
    wired := fun c hc => h.wired c (hsucc c hc)
    current := by rw [hpend, hpops]; exact h.current
    below := by rw [hpops]; exact h.below
    order := h.order
    frames := by rw [hpops, hpend]; exact h.frames }

/-- A step that touches neither the driver nor an alert. -/
theorem ctrl_walk (h : Owned s r) {ok : Bool} (hshaken : (s.ctrlTask ok).Shaken)
    (hposting : s.posting = none) (hdone : (s.ctrlTask ok).txDone = s.txDone)
    (hposts : (s.ctrlTask ok).posts = s.posts) (hlost : (s.ctrlTask ok).lost = s.lost)
    (hhal : (s.ctrlTask ok).hal = s.hal) (hunposted : s.ctrl.unposted = .none)
    (hunposted' : (s.ctrlTask ok).ctrl.unposted = .none)
    (hfits : (s.ctrlTask ok).ctrl.Fits s.hal.driver) :
    Owned (s.ctrlTask ok) (canRecord s (.ctrl ok) r) := by
  refine h.ctrl_quiet hshaken hposting hdone hposts ?_ ?_ (by rw [hhal]; exact h.sound)
    (by rw [hhal]; exact hfits)
  · rw [CanState.unreported, CanState.unreported, hlost, hhal, hunposted, hunposted']
  · rw [CanState.successes, CanState.successes, hhal, hunposted, hunposted']
    exact fun _ => id

/-- The steps outside the driver calls. -/
theorem ctrl_outside (h : Owned s r) {ok : Bool} (hshaken : (s.ctrlTask ok).Shaken)
    (hpc : s.ctrl = .top ∨ s.ctrl = .begin ∨ (∃ c, s.ctrl = .awaitRx c) ∨ (∃ c, s.ctrl = .awaitTx c) ∨
      s.ctrl = .giveUp ∨ s.ctrl = .clear ∨ s.ctrl = .snapshot ∨ s.ctrl = .finish) :
    Owned (s.ctrlTask ok) (canRecord s (.ctrl ok) r) := by
  rcases hpc with hpc | hpc | ⟨c, hpc⟩ | ⟨c, hpc⟩ | hpc | hpc | hpc | hpc
  all_goals
    refine h.ctrl_walk hshaken ?_ ?_ ?_ ?_ ?_ ?_ ?_ ?_
    all_goals simp only [CanState.posting, CanState.ctrlTask, hpc]
    all_goals try (first | rfl | trivial)
    all_goals repeat' split
    all_goals first | rfl | trivial

/-- The alerts of the driver are read. -/
theorem ctrl_readAlerts (h : Owned s r) {ok q : Bool} (hpc : s.ctrl = .readAlerts q)
    (hshaken : (s.ctrlTask ok).Shaken) : Owned (s.ctrlTask ok) (canRecord s (.ctrl ok) r) := by
  have hposting : s.posting = none := by rw [CanState.posting, hpc]
  cases hd : s.hal.driver with
  | none =>
    have hs : s.ctrlTask ok = { s with ctrl := CanState.afterAlerts q } := by
      simp only [CanState.ctrlTask, hpc, hd]
    rw [hs] at hshaken
    refine h.ctrl_walk (hs ▸ hshaken) hposting ?_ ?_ ?_ ?_ (by rw [hpc]; rfl) ?_ ?_
    all_goals rw [hs]
    all_goals cases q
    all_goals first | rfl | trivial
  | some d =>
    have hs : s.ctrlTask ok =
        { s with
          hal := { s.hal with driver := some d.readAlerts }
          ctrl := .recover q d.alerts } := by
      simp only [CanState.ctrlTask, hpc, hd, CanState.withDriver, Option.map_some]
    rw [hs] at hshaken ⊢
    refine hs ▸ h.ctrl_quiet (hs ▸ hshaken) hposting ?_ ?_ ?_ ?_ ?_ ?_
    all_goals rw [hs]
    -- what the driver had latched is in the hands of the task now
    · show (s.lost ++ (d.alerts.messages ++ (d.queue ++ []))).Perm _
      rw [CanState.unreported, hpc, Hal.messages, hd, List.append_nil]
      exact List.perm_append_comm.append_left _
    · intro c hc
      rw [CanState.successes, hpc, latched, hd]
      simpa [CanState.successes, CtrlPc.unposted, latched, Driver.readAlerts, Alerts.none] using hc
    · intro x hx
      obtain rfl := Option.some.inj hx
      exact (h.sound d hd).readAlerts
    · intro x hx
      obtain rfl := Option.some.inj hx
      exact ⟨fun ha => ⟨(h.sound d hd).busOff ha, rfl⟩,
        fun ha => ⟨(h.sound d hd).busRecovered ha, rfl⟩⟩

/-- A recovery from bus-off is initiated. -/
theorem ctrl_recover (h : Owned s r) {ok q : Bool} {a : Alerts Copy} (hpc : s.ctrl = .recover q a)
    (hshaken : (s.ctrlTask ok).Shaken) : Owned (s.ctrlTask ok) (canRecord s (.ctrl ok) r) := by
  have hposting : s.posting = none := by rw [CanState.posting, hpc]
  have hfits := h.ctrl
  rw [hpc] at hfits
  -- without a driver in bus-off, nothing happens
  have hstay (hs : s.ctrlTask ok = { s with ctrl := .restart q a })
      (hno : ∀ d ∈ s.hal.driver, a.busOff = false) :
      Owned (s.ctrlTask ok) (canRecord s (.ctrl ok) r) := by
    refine h.ctrl_quiet hshaken hposting ?_ ?_ ?_ ?_ ?_ ?_
    all_goals rw [hs]
    · rw [CanState.unreported, CanState.unreported, hpc]; exact .refl _
    · rw [CanState.successes, CanState.successes, hpc]; exact fun _ => id
    · exact h.sound
    · intro d hd
      exact ⟨fun ha => absurd (ha.symm.trans (hno d hd)) (by decide),
        fun ha => ⟨hno d hd, (hfits d hd).2 ha⟩⟩
  by_cases ha : a.busOff = true
  · cases hd : s.hal.driver with
    | none =>
      refine hstay ?_ (by rw [hd]; simp)
      simp only [CanState.ctrlTask, hpc, ha, if_true, CanState.discarding, hd]
    | some d =>
      obtain ⟨hoff, hnone⟩ := (hfits d hd).1 ha
      have hinit := Driver.Sound.initiateRecovery hoff hnone
      have hs : s.ctrlTask ok =
          { s with
            hal := { s.hal with driver := some d.initiateRecovery.1 }
            lost := s.lost ++ d.initiateRecovery.2
            ctrl := .restart q a } := by
        simp only [CanState.ctrlTask, hpc, ha, if_true, CanState.discarding, hd]
      refine h.ctrl_quiet hshaken hposting ?_ ?_ ?_ ?_ ?_ ?_
      all_goals rw [hs]
      · show (s.lost ++ d.initiateRecovery.2 ++
          (a.messages ++ d.initiateRecovery.1.messages)).Perm _
        rw [CanState.unreported, hpc, Hal.messages, hd]
        dsimp only [CtrlPc.unposted]
        rw [← d.initiateRecovery_messages]
        exact discard_perm
      · rw [CanState.successes, CanState.successes, hpc, latched, latched, hd]
        dsimp only
        rw [Driver.initiateRecovery, if_pos hoff]
        exact fun _ => id
      · intro x hx
        obtain rfl := Option.some.inj hx
        exact hinit.1
      · intro x hx
        obtain rfl := Option.some.inj hx
        exact ⟨fun _ => hinit.2,
          fun ha' => absurd (hoff.symm.trans ((hfits d hd).2 ha').1) (by decide)⟩
  · refine hstay ?_ fun _ _ => Bool.not_eq_true _ ▸ ha
    simp only [CanState.ctrlTask, hpc, ha, if_false, Bool.false_eq_true]

/-- A recovered controller is started again. -/
theorem ctrl_restart (h : Owned s r) {ok q : Bool} {a : Alerts Copy} (hpc : s.ctrl = .restart q a)
    (hshaken : (s.ctrlTask ok).Shaken) : Owned (s.ctrlTask ok) (canRecord s (.ctrl ok) r) := by
  have hposting : s.posting = none := by rw [CanState.posting, hpc]
  have hfits := h.ctrl
  rw [hpc] at hfits
  by_cases ha : a.busRecovered = true
  · have hs : s.ctrlTask ok =
        { s with
          hal := { s.hal with driver := s.hal.driver.map Driver.start }
          ctrl := .postOutcome q a } := by
      simp only [CanState.ctrlTask, hpc, ha, if_true, CanState.withDriver]
    refine h.ctrl_quiet hshaken hposting ?_ ?_ ?_ ?_ ?_ ?_
    all_goals rw [hs]
    · rw [CanState.unreported, CanState.unreported, hpc, Hal.messages, Hal.messages]
      cases hd : s.hal.driver with
      | none => exact .refl _
      | some d => simp only [Option.map_some, d.start_messages]; exact .refl _
    · rw [CanState.successes, CanState.successes, hpc, latched, latched]
      cases hd : s.hal.driver with
      | none => exact fun _ => id
      | some d => simp only [Option.map_some, d.start_alerts]; exact fun _ => id
    · intro x hx
      obtain ⟨d, hd, rfl⟩ := Option.map_eq_some_iff.1 hx
      obtain ⟨-, hst, hnone⟩ := (hfits d hd).2 ha
      exact Driver.Sound.start hst hnone
    · intro x hx ha'
      obtain ⟨d, hd, rfl⟩ := Option.map_eq_some_iff.1 hx
      exact absurd (ha'.symm.trans ((hfits d hd).2 ha).1) (by decide)
  · have hs : s.ctrlTask ok = { s with ctrl := .postOutcome q a } := by
      simp only [CanState.ctrlTask, hpc, ha, if_false, Bool.false_eq_true]
    refine h.ctrl_quiet hshaken hposting ?_ ?_ ?_ ?_ ?_ ?_
    all_goals rw [hs]
    · rw [CanState.unreported, CanState.unreported, hpc]; exact .refl _
    · rw [CanState.successes, CanState.successes, hpc]; exact fun _ => id
    · exact h.sound
    · exact fun d hd => (hfits d hd).1

theorem afterStop_unposted (c : Option Config) : (CanState.afterStop c).unposted = .none := by
  cases c <;> rfl

theorem afterStop_fits (c : Option Config) : (CanState.afterStop c).Fits none := by
  cases c with
  | none => exact fun d hd => by cases hd
  | some c => rfl

/-- Without a driver there is nothing to stop. -/
theorem ctrl_noDriver (h : Owned s r) {ok : Bool} {c : Option Config}
    (hpc : s.ctrl = .stop c ∨ s.ctrl = .uninstall c) (hd : s.hal.driver = none)
    (hshaken : (s.ctrlTask ok).Shaken) : Owned (s.ctrlTask ok) (canRecord s (.ctrl ok) r) := by
  have hposting : s.posting = none := by
    rcases hpc with hpc | hpc <;> rw [CanState.posting, hpc]
  have hunposted : s.ctrl.unposted = .none := by
    rcases hpc with hpc | hpc <;> rw [hpc] <;> rfl
  have hs : s.ctrlTask ok = { s with ctrl := CanState.afterStop c } := by
    rcases hpc with hpc | hpc <;> simp only [CanState.ctrlTask, hpc, hd]
  refine h.ctrl_walk hshaken hposting ?_ ?_ ?_ ?_ hunposted ?_ ?_
  all_goals rw [hs]
  · exact afterStop_unposted c
  · rw [hd]; exact afterStop_fits c

/-- The driver is stopped. -/
theorem ctrl_stop (h : Owned s r) {ok : Bool} {c : Option Config} (hpc : s.ctrl = .stop c)
    (hshaken : (s.ctrlTask ok).Shaken) : Owned (s.ctrlTask ok) (canRecord s (.ctrl ok) r) := by
  have hposting : s.posting = none := by rw [CanState.posting, hpc]
  cases hd : s.hal.driver with
  | none => exact h.ctrl_noDriver (.inl hpc) hd hshaken
  | some d =>
    have hs : s.ctrlTask ok =
        { s with
          hal := { s.hal with driver := some d.stop.1 }
          lost := s.lost ++ d.stop.2
          ctrl := .uninstall c } := by
      simp only [CanState.ctrlTask, hpc, hd, CanState.discarding]
    refine h.ctrl_quiet hshaken hposting ?_ ?_ ?_ ?_ ?_ ?_
    all_goals rw [hs]
    · show (s.lost ++ d.stop.2 ++ ([] ++ d.stop.1.messages)).Perm _
      rw [CanState.unreported, hpc, Hal.messages, hd]
      dsimp only [CtrlPc.unposted]
      rw [← d.stop_messages]
      exact discard_perm
    · show ∀ x ∈ [] ++ d.stop.1.alerts.txSuccess, x ∈ s.successes
      rw [CanState.successes, hpc, latched, hd, d.stop_alerts]
      exact fun _ => id
    · intro x hx
      obtain rfl := Option.some.inj hx
      exact (h.sound d hd).stop.1
    · intro x hx
      obtain rfl := Option.some.inj hx
      exact (h.sound d hd).stop.2

/-- The driver is uninstalled, unless the controller is recovering. -/
theorem ctrl_uninstall (h : Owned s r) {ok : Bool} {c : Option Config} (hpc : s.ctrl = .uninstall c)
    (hshaken : (s.ctrlTask ok).Shaken) : Owned (s.ctrlTask ok) (canRecord s (.ctrl ok) r) := by
  have hposting : s.posting = none := by rw [CanState.posting, hpc]
  have hfits := h.ctrl
  rw [hpc] at hfits
  cases hd : s.hal.driver with
  | none => exact h.ctrl_noDriver (.inr hpc) hd hshaken
  | some d =>
    by_cases hcan : d.CanUninstall
    · have hs : s.ctrlTask ok =
          { s with
            hal := { s.hal with driver := none }
            lost := s.lost ++ d.messages
            ctrl := CanState.afterStop c } := by
        simp only [CanState.ctrlTask, hpc, hd, hcan, if_true]
      refine h.ctrl_quiet hshaken hposting ?_ ?_ ?_ ?_ ?_ ?_
      all_goals rw [hs]
      · show (s.lost ++ d.messages ++ ((CanState.afterStop c).unposted.messages ++ [])).Perm _
        rw [afterStop_unposted, CanState.unreported, hpc, Hal.messages, hd, List.append_assoc]
        exact .of_eq (by simp [CtrlPc.unposted, Alerts.messages, Alerts.none])
      · show ∀ x ∈ (CanState.afterStop c).unposted.txSuccess ++ [], x ∈ s.successes
        rw [afterStop_unposted]
        simp [Alerts.none]
      · simp
      · exact afterStop_fits c
    -- a driver that cannot be removed is recovering, and holds no message
    · have hs : s.ctrlTask ok = { s with ctrl := .postAbort } := by
        simp only [CanState.ctrlTask, hpc, hd, hcan, if_false]
      refine h.ctrl_walk hshaken hposting ?_ ?_ ?_ ?_ (by rw [hpc]; rfl) ?_ ?_
      all_goals rw [hs]
      · rfl
      · intro x hx
        obtain rfl := Option.some.inj (hd.symm.trans hx)
        refine (h.sound d hd).recovering ?_
        cases hst : d.state with
        | recovering => rfl
        | running => exact absurd hst (hfits d hd)
        | stopped => exact absurd (.inl hst) hcan
        | busOff => exact absurd (.inr hst) hcan

/-- A driver is installed, or none. -/
theorem ctrl_install (h : Owned s r) {ok : Bool} (c : Config) (pc : CtrlPc)
    (hs : s.ctrlTask ok = { s with hal := s.hal.install c ok, ctrl := pc })
    (hposting : s.posting = none) (hunposted : s.ctrl.unposted = .none) (hd : s.hal.driver = none)
    (hpc : pc.unposted = .none)
    (hfits : ∀ driver, (∀ d ∈ driver, d.messages = []) → pc.Fits driver)
    (hshaken : (s.ctrlTask ok).Shaken) : Owned (s.ctrlTask ok) (canRecord s (.ctrl ok) r) := by
  have hfresh : ∀ d ∈ (s.hal.install c ok).driver, d = ⟨.running, [], .none⟩ := by
    intro d hd'
    cases ok with
    | true => exact (Option.some.inj hd').symm
    | false => exact absurd (hd.symm.trans hd') (by simp)
  have hempty : (s.hal.install c ok).messages = [] ∧ latched (s.hal.install c ok) = [] := by
    rw [Hal.messages, latched]
    cases hd' : (s.hal.install c ok).driver with
    | none => exact ⟨rfl, rfl⟩
    | some d =>
      rw [hfresh d hd']
      exact ⟨rfl, rfl⟩
  refine h.ctrl_quiet hshaken hposting ?_ ?_ ?_ ?_ ?_ ?_
  all_goals rw [hs]
  · show (s.lost ++ (pc.unposted.messages ++ (s.hal.install c ok).messages)).Perm _
    rw [CanState.unreported, hpc, hunposted, hempty.1, Hal.messages, hd]
  · show ∀ x ∈ pc.unposted.txSuccess ++ latched (s.hal.install c ok), x ∈ s.successes
    rw [hpc, hempty.2]
    simp [Alerts.none]
  · intro d hd'
    rw [hfresh d hd']
    exact .fresh
  · exact hfits _ fun d hd' => by rw [hfresh d hd']; rfl

/-- A step that posts the event `e`. -/
theorem ctrl_post (h : Owned s r) {ok : Bool} {e : TxEvent} (hshaken : (s.ctrlTask ok).Shaken)
    (hposting : s.posting = some e) (hposts : (s.ctrlTask ok).posts = s.posts + 1)
    (hhal : (s.ctrlTask ok).hal = s.hal) (hunposted : (s.ctrlTask ok).ctrl.unposted = .none)
    (hfits : (s.ctrlTask ok).ctrl.Fits s.hal.driver)
    (hflight : Flight (s.ctrlTask ok)
      { r with posted := r.posted ++ [(e, decide (s.txDone.length < txDoneLen))] }) :
    Owned (s.ctrlTask ok) (canRecord s (.ctrl ok) r) := by
  obtain ⟨-, -, hpend, hin, htx, hpops, hsubs⟩ := s.ctrlTask_frame ok
  rw [canRecord_post s ok r hposting]
  exact {
    shaken := hshaken
    sound := by rw [hhal]; exact h.sound
    ctrl := by rw [hhal]; exact hfits
    task := by rw [htx, hpend, hin]; exact h.task
    flight := hflight
    posts := by rw [hposts, ← h.posts, List.length_append]; rfl
    subs := by rw [hsubs]; exact h.subs
    wired := by
      intro c hc
      rw [CanState.successes, hhal, hunposted] at hc
      exact h.wired c (List.mem_append_right _ hc)
    current := by rw [hpend, hpops]; exact h.current
    below := by rw [hpops]; exact h.below
    order := h.order
    frames := by rw [hpops, hpend]; exact h.frames }

/-- The event on a copy that is out is the first one behind its acceptance. -/
theorem posted_first (h : Owned s r) {x : TxEvent × Bool} : (r.posted ++ [x])[s.posts]? = some x := by
  rw [← h.posts]
  exact List.getElem?_concat_length

/-- An outcome is about the copy that is out. -/
theorem ctrl_postOutcome (h : Owned s r) {ok q : Bool} {a : Alerts Copy}
    (hpc : s.ctrl = .postOutcome q a) (hshaken : (s.ctrlTask ok).Shaken) :
    Owned (s.ctrlTask ok) (canRecord s (.ctrl ok) r) := by
  have hfits := h.ctrl
  rw [hpc] at hfits
  have hcopies : s.unreported = s.lost ++ (a.messages ++ s.hal.messages) := by
    rw [CanState.unreported, hpc]; rfl
  cases hev : outcome a with
  | none =>
    have hposting : s.posting = none := by rw [CanState.posting, hpc]; simp only [hev]; rfl
    have hnone : a.messages = [] ∧ a.txSuccess = [] := by
      unfold outcome at hev
      split at hev
      · cases hev
      split at hev
      · cases hev
      · rw [Alerts.messages, not_not.1 ‹¬a.txSuccess ≠ []›, not_not.1 ‹¬a.txFailed ≠ []›]
        exact ⟨rfl, rfl⟩
    have hs : s.ctrlTask ok = { s with ctrl := .postBusOff q a } := by
      simp only [CanState.ctrlTask, hpc, hposting, Option.elim_none]
    refine h.ctrl_quiet hshaken hposting ?_ ?_ ?_ ?_ ?_ ?_
    all_goals rw [hs]
    · rw [hcopies, hnone.1]; exact .refl _
    · rw [CanState.successes, CanState.successes, hpc]
      exact fun c hc => List.mem_append_right _ hc
    · exact h.sound
    · exact hfits
  | some ev =>
    have hposting : s.posting = some ⟨ev, s.posts, a.messages.map (·.sub)⟩ := by
      rw [CanState.posting, hpc]; simp only [hev]; rfl
    have hs : s.ctrlTask ok =
        { s.send ⟨ev, s.posts, a.messages.map (·.sub)⟩ with ctrl := .postBusOff q a } := by
      simp only [CanState.ctrlTask, hpc, hposting, Option.elim_some]
    -- there is an outcome, so there is a copy, and it is the one that is out
    have hmem : ∃ c, c ∈ a.messages ∧ (ev = .ok → c ∈ a.txSuccess) := by
      unfold outcome at hev
      split at hev
      · obtain ⟨c, hc⟩ := List.exists_mem_of_ne_nil _ ‹a.txFailed ≠ []›
        obtain rfl := Option.some.inj hev
        exact ⟨c, List.mem_append_right _ hc, fun he => by cases he⟩
      split at hev
      · obtain ⟨c, hc⟩ := List.exists_mem_of_ne_nil _ ‹a.txSuccess ≠ []›
        exact ⟨c, List.mem_append_left _ hc, fun _ => hc⟩
      · cases hev
    obtain ⟨c, hc, hsucc⟩ := hmem
    have hwired (he : ev = .ok) : c.popped.no ∈ r.wire := by
      refine h.wired c ?_
      rw [CanState.successes, hpc]
      exact List.mem_append_left _ (hsucc he)
    have hne : a.messages ≠ [] := List.ne_nil_of_mem hc
    cases h.flight with
    | idle _ hnone => rw [hcopies] at hnone; simp [hne] at hnone
    | landed c' xs e events first _ _ hnone => rw [hcopies] at hnone; simp [hne] at hnone
    | flying c' xs hin hpend hone hdone hsubs hno hold =>
      rw [hcopies] at hone
      obtain ⟨hlost, hmessages, hempty⟩ := singleton_middle hone hne
      rw [hmessages] at hc
      obtain rfl := List.mem_singleton.1 hc
      refine h.ctrl_post hshaken hposting (by rw [hs]; rfl) (by rw [hs]; rfl) (by rw [hs]; rfl)
        (by rw [hs]; exact hfits) ?_
      rw [hs, hdone]
      refine .landed c xs _ [] s.posts hin hpend ?_ ?_ hsubs hno h.posted_first ?_ hwired
        (hold.append _)
      · show s.lost ++ ([] ++ s.hal.messages) = []
        rw [hlost, hempty]
        rfl
      · simp only [CanState.send, hdone]
        rfl
      · simp only [hmessages]
        rfl

/-- An abort accounts for the copies lost, when the driver holds none. -/
theorem ctrl_abort (h : Owned s r) {ok : Bool} (pc : CtrlPc)
    (hs : s.ctrlTask ok = { s.sendAbort with ctrl := pc })
    (hposting : s.posting = some ⟨.abort, s.posts, s.lost.map (·.sub)⟩)
    (hunposted : s.ctrl.unposted = .none) (hempty : s.hal.messages = [])
    (hpc : pc.unposted = .none) (hfits : pc.Fits s.hal.driver)
    (hshaken : (s.ctrlTask ok).Shaken) : Owned (s.ctrlTask ok) (canRecord s (.ctrl ok) r) := by
  have hlost : s.unreported = s.lost := by
    rw [CanState.unreported, hunposted, hempty]
    exact List.append_nil _
  refine h.ctrl_post hshaken hposting (by rw [hs]; rfl) (by rw [hs]; rfl) (by rw [hs]; exact hpc)
    (by rw [hs]; exact hfits) ?_
  -- no copy is out any more
  have hcopies : ({ s.sendAbort with ctrl := pc } : CanState).unreported = [] := by
    show [] ++ (pc.unposted.messages ++ s.hal.messages) = []
    rw [hpc, hempty]
    rfl
  rw [hs]
  cases h.flight with
  | idle hin _ hsubs => exact .idle hin hcopies (hsubs.append _)
  | flying c xs hin hpend hone hdone hsubs hno hold =>
    rw [hlost] at hone
    rw [hdone]
    refine .landed c xs ⟨.abort, s.posts, s.lost.map (·.sub)⟩ [] s.posts hin hpend hcopies ?_ hsubs
      hno h.posted_first (by rw [hone]; rfl) (fun he => by cases he) (hold.append _)
    simp only [CanState.sendAbort, CanState.send, hdone]
    rfl
  | landed c xs e events first hin hpend _ hdone hsubs hno hposted habout hok hold =>
    refine .landed c xs e
      (if s.txDone.length < txDoneLen then events ++ [⟨.abort, s.posts, s.lost.map (·.sub)⟩]
      else events) first hin hpend hcopies ?_ hsubs hno ?_ habout hok (hold.append _)
    · simp only [CanState.sendAbort, CanState.send, hdone]
      split <;> rfl
    · rw [List.getElem?_append_left (List.getElem?_eq_some_iff.1 hposted).1]
      exact hposted

/-- An abort for a bus-off, behind the outcome. -/
theorem ctrl_postBusOff (h : Owned s r) {ok q : Bool} {a : Alerts Copy}
    (hpc : s.ctrl = .postBusOff q a) (hshaken : (s.ctrlTask ok).Shaken) :
    Owned (s.ctrlTask ok) (canRecord s (.ctrl ok) r) := by
  have hafter : (CanState.afterAlerts q).unposted = .none := by cases q <;> rfl
  have hfits : (CanState.afterAlerts q).Fits s.hal.driver := by cases q <;> trivial
  by_cases ha : a.busOff = true
  · refine h.ctrl_abort (CanState.afterAlerts q) ?_ ?_ (by rw [hpc]; rfl) ?_ hafter hfits
      hshaken
    · simp only [CanState.ctrlTask, hpc, ha, if_true]
    · simp only [CanState.posting, hpc, ha, if_true]
    · have hsilent := h.ctrl
      rw [hpc] at hsilent
      rw [Hal.messages]
      cases hd : s.hal.driver with
      | none => rfl
      | some d => exact (hsilent d hd ha).1
  · have hs : s.ctrlTask ok = { s with ctrl := CanState.afterAlerts q } := by
      simp only [CanState.ctrlTask, hpc, ha, if_false, Bool.false_eq_true]
    refine h.ctrl_walk hshaken ?_ ?_ ?_ ?_ ?_ (by rw [hpc]; rfl) ?_ ?_
    · simp only [CanState.posting, hpc, ha, if_false, Bool.false_eq_true]
    all_goals rw [hs]
    · exact hafter
    · exact hfits

/-- The abort of a reconfiguration. -/
theorem ctrl_postAbort (h : Owned s r) {ok : Bool} (hpc : s.ctrl = .postAbort)
    (hshaken : (s.ctrlTask ok).Shaken) : Owned (s.ctrlTask ok) (canRecord s (.ctrl ok) r) := by
  refine h.ctrl_abort .finish ?_ ?_ (by rw [hpc]; rfl) ?_ rfl trivial hshaken
  · simp only [CanState.ctrlTask, hpc]
  · simp only [CanState.posting, hpc]
  · have hempty := h.ctrl
    rw [hpc] at hempty
    rw [Hal.messages]
    cases hd : s.hal.driver with
    | none => rfl
    | some d => exact hempty d hd

/-- One step of `ctrl_task`. -/
theorem ctrl_step (h : Owned s r) (ok : Bool) (hshaken : (s.ctrlTask ok).Shaken) :
    Owned (s.ctrlTask ok) (canRecord s (.ctrl ok) r) := by
  cases hpc : s.ctrl with
  | top | begin | awaitRx | awaitTx | giveUp | clear | snapshot | finish =>
    exact h.ctrl_outside hshaken (by simp [hpc])
  | readAlerts q => exact h.ctrl_readAlerts hpc hshaken
  | recover q a => exact h.ctrl_recover hpc hshaken
  | restart q a => exact h.ctrl_restart hpc hshaken
  | postOutcome q a => exact h.ctrl_postOutcome hpc hshaken
  | postBusOff q a => exact h.ctrl_postBusOff hpc hshaken
  | stop c => exact h.ctrl_stop hpc hshaken
  | uninstall c => exact h.ctrl_uninstall hpc hshaken
  | postAbort => exact h.ctrl_postAbort hpc hshaken
  | boot =>
    have hd := h.ctrl
    rw [hpc] at hd
    exact h.ctrl_install ⟨defaultBitrate, true⟩ .top (by simp only [CanState.ctrlTask, hpc])
      (by simp only [CanState.posting, hpc]) (by rw [hpc]; rfl) hd rfl (fun _ _ => trivial) hshaken
  | install c =>
    have hd := h.ctrl
    rw [hpc] at hd
    exact h.ctrl_install c .postAbort (by simp only [CanState.ctrlTask, hpc])
      (by simp only [CanState.posting, hpc]) (by rw [hpc]; rfl) hd rfl (fun _ => id) hshaken

/-- Every step keeps the invariant. -/
theorem step (h : Owned s r) {l : CanStep} (hf : FreshCycle s l) (hg : DrainedAtSubmit s l)
    (hst : s.step l = some s') : Owned s' (canRecord s l r) := by
  have hshaken := CanState.handshake_step h.shaken hst hf
  cases l with
  | host f lock =>
    obtain rfl := Option.some.inj hst
    exact h.move hshaken rfl rfl rfl rfl rfl rfl rfl rfl rfl h.task
  | command dev =>
    obtain rfl := Option.some.inj hst
    exact h.move hshaken rfl rfl rfl rfl rfl rfl rfl rfl rfl h.task
  | rx =>
    obtain rfl := Option.some.inj hst
    cases hrx : s.rx <;> simp only [CanState.twaiRxTask, hrx] at hshaken ⊢ <;>
      exact h.move hshaken rfl rfl rfl rfl rfl rfl rfl rfl rfl h.task
  | tx answer => obtain rfl := Option.some.inj hst; exact h.tx hg hshaken
  | ctrl ok => obtain rfl := Option.some.inj hst; exact h.ctrl_step ok hshaken
  | success => exact h.success hst
  | failure =>
    obtain ⟨d, d', hd, hf, rfl⟩ := CanState.controller_eq hst
    exact h.moved_silently hd (.failure hf) (Driver.failure_txSuccess hf)
  | busOff =>
    obtain ⟨d, d', hd, hf, rfl⟩ := CanState.controller_eq hst
    exact h.moved_silently hd (.goBusOff hf) (Driver.goBusOff_txSuccess hf)
  | recovered =>
    obtain ⟨d, d', hd, hf, rfl⟩ := CanState.controller_eq hst
    exact h.moved_silently hd (.recovered hf) (Driver.recovered_txSuccess hf)

end Owned

end Bridge

end Espcan32
