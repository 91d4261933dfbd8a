import Espcan32.Usb.Glue

/-!
# No dead OUT endpoint

A receive transfer that cannot be submitted would leave its endpoint dead until the next
enumeration, and the host would wait for it in vain.  Six places of the code submit such transfers;
each failure sets a flag that `usb_glue_service()` looks at, and only an accepted transfer clears
it.

* `EndpointOk` : what holds of an OUT endpoint at each place of TinyUSB's task.
* `GlueState.endpoints_step` : every step keeps it for both endpoints.
* `GlueState.rearms` : the functions that the next `usb_glue_service()` has to hand over.
* `no_dead_endpoint` : **between two functions of TinyUSB's task, each OUT endpoint of an open
  interface is armed or flagged, and not both**.
-/

namespace Espcan32

namespace Usb

/-! ### One endpoint -/

/-- What the function in TinyUSB's task is about to do for an OUT endpoint. -/
inductive Duty where
  /-- Nothing. -/
  | settled
  /-- To clear the flag of an interface that is closed. -/
  | closing
  /-- To clear the flag of an interface that has been opened. -/
  | opening
  /-- To submit a transfer, or to set the flag. -/
  | bare
  /-- To submit a transfer again. -/
  | rearm (gen : UInt32)
  /-- To clear the flag if the transfer was accepted. -/
  | commit (gen : UInt32) (armed : Bool)

/-- What holds of an OUT endpoint, with its transfers and its flag. -/
def EndpointOk (itfOpen : Bool) (gen : UInt32) (armed : ℕ) (flag : Bool) : Duty → Prop
  | .settled =>
    if itfOpen then armed = 1 ∧ flag = false ∨ armed = 0 ∧ flag = true
    else armed = 0 ∧ flag = false
  | .closing => itfOpen = false ∧ armed = 0
  | .opening => itfOpen = true ∧ armed = 0
  | .bare => itfOpen = true ∧ armed = 0 ∧ flag = false
  | .rearm g => itfOpen = true ∧ g = gen ∧ armed = 0 ∧ flag = true
  | .commit g a => itfOpen = true ∧ g = gen ∧ flag = true ∧ armed = if a then 1 else 0

/-- An endpoint whose transfer completes. -/
theorem EndpointOk.of_armed {itfOpen flag : Bool} {gen : UInt32} {armed : ℕ}
    (h : EndpointOk itfOpen gen armed flag .settled) (hpos : 0 < armed) :
    itfOpen = true ∧ armed - 1 = 0 ∧ flag = false := by
  cases itfOpen with
  | false =>
    obtain ⟨h, -⟩ : armed = 0 ∧ flag = false := h
    omega
  | true =>
    obtain ⟨ha, hf⟩ | ⟨ha, -⟩ : armed = 1 ∧ flag = false ∨ armed = 0 ∧ flag = true := h
    · exact ⟨rfl, by omega, hf⟩
    · omega

/-- An endpoint is never armed twice. -/
theorem EndpointOk.armed_le_one {itfOpen flag : Bool} {gen : UInt32} {armed : ℕ} {duty : Duty}
    (h : EndpointOk itfOpen gen armed flag duty) : armed ≤ 1 := by
  cases duty with
  | settled => cases itfOpen <;> simp only [EndpointOk] at h <;> grind
  | closing | opening => exact h.2.le.trans (Nat.zero_le 1)
  | bare => exact h.2.1.le.trans (Nat.zero_le 1)
  | rearm g => exact h.2.2.1.le.trans (Nat.zero_le 1)
  | commit g a =>
    obtain ⟨-, -, -, h⟩ := h
    rw [h]
    split <;> omega

/-- The duty for EP 0x01. -/
def TaskPc.cmdDuty : TaskPc → Duty
  | .resetLocked | .deinitLocked => .closing
  | .openLocked => .opening
  | .openCmd | .openCmdFlag | .doneCmd | .doneCmdFlag => .bare
  | .cmdXfer gen => .rearm gen
  | .cmdCommit gen armed => .commit gen armed
  | _ => .settled

/-- The duty for EP 0x02. -/
def TaskPc.msgDuty : TaskPc → Duty
  | .resetLocked | .deinitLocked => .closing
  | .openLocked => .opening
  | .openCmd | .openCmdFlag | .openMsg | .openMsgFlag | .doneMsg _ | .doneMsgFlag => .bare
  | .outXfer gen => .rearm gen
  | .outCommit gen armed => .commit gen armed
  | _ => .settled

/-- How many calls of `usbd_defer_func()` `usb_tx_task` is about to make. -/
def CallerPc.requests : CallerPc → ℕ
  | .idle => 0
  | .deferIn _ | .deferMsg _ => 1
  | .deferCmd _ msg => if msg then 2 else 1

namespace GlueState

variable {s s' : GlueState} {l : GlueStep}

/-- EP 0x01 and EP 0x02 are in order. -/
structure Endpoints (s : GlueState) : Prop where
  cmd : EndpointOk s.itfOpen s.gen s.cmdArmed s.cmdRearm s.task.cmdDuty
  msg : EndpointOk s.itfOpen s.gen s.msgArmed s.msgRearm s.task.msgDuty

theorem endpoints_go (h : s.Endpoints) (ok : Bool) : (s.go ok).Endpoints := by
  obtain ⟨hc, hm⟩ := h
  unfold go
  cases ht : s.task <;> rw [ht] at hc hm <;> dsimp only
  case idle => exact ⟨by rw [ht]; exact hc, by rw [ht]; exact hm⟩
  -- the functions for EP2-IN do not touch the OUT endpoints
  case inStart | inXfer | inCommit => split <;> exact ⟨hc, hm⟩
  case doneIn => exact ⟨hc, hm⟩
  case outLoop gen =>
    split
    · exact ⟨hc, hm⟩
    · rename_i hlive
      split
      · exact ⟨hc, hm⟩
      · -- every frame is pushed: the endpoint may be armed again
        rw [not_or, not_or, Bool.not_eq_false, Bool.not_eq_false, not_not] at hlive
        obtain ⟨hopen, hgen, hflag⟩ := hlive
        refine ⟨hc, hopen, hgen, ?_, hflag⟩
        simpa [TaskPc.msgDuty, EndpointOk, hopen, hflag] using hm
  case outPush => split <;> exact ⟨hc, hm⟩
  case outNext => repeat' split
                  all_goals exact ⟨hc, hm⟩
  case outXfer gen =>
    obtain ⟨hopen, hgen, harmed, hflag⟩ := hm
    exact ⟨hc, hopen, hgen, hflag, by simp only [harmed]⟩
  case outCommit gen armed =>
    obtain ⟨hopen, hgen, hflag, harmed⟩ := hm
    cases armed
    · rw [if_neg (by simp)]
      exact ⟨hc, by simpa [TaskPc.msgDuty, EndpointOk, hopen, hflag] using harmed⟩
    · rw [if_pos ⟨hopen, hgen, rfl⟩]
      exact ⟨hc, by simpa [TaskPc.msgDuty, EndpointOk, hopen] using harmed⟩
  case cmdStart gen =>
    split
    · rename_i hlive
      obtain ⟨hopen, hgen, hflag⟩ := hlive
      refine ⟨⟨hopen, hgen, ?_, hflag⟩, hm⟩
      simpa [TaskPc.cmdDuty, EndpointOk, hopen, hflag] using hc
    · exact ⟨hc, hm⟩
  case cmdXfer gen =>
    obtain ⟨hopen, hgen, harmed, hflag⟩ := hc
    exact ⟨⟨hopen, hgen, hflag, by simp only [harmed]⟩, hm⟩
  case cmdCommit gen armed =>
    obtain ⟨hopen, hgen, hflag, harmed⟩ := hc
    cases armed
    · rw [if_neg (by simp)]
      exact ⟨by simpa [TaskPc.cmdDuty, EndpointOk, hopen, hflag] using harmed, hm⟩
    · rw [if_pos ⟨hopen, hgen, rfl⟩]
      exact ⟨by simpa [TaskPc.cmdDuty, EndpointOk, hopen] using harmed, hm⟩
  case doneCmd =>
    obtain ⟨hopen, harmed, hflag⟩ := hc
    cases ok
    · exact ⟨⟨hopen, harmed, hflag⟩, hm⟩
    · exact ⟨by simp [TaskPc.cmdDuty, EndpointOk, hopen, harmed, hflag], hm⟩
  case doneCmdFlag =>
    obtain ⟨hopen, harmed, hflag⟩ := hc
    exact ⟨by simp [TaskPc.cmdDuty, EndpointOk, hopen, harmed], hm⟩
  case doneMsg frames =>
    obtain ⟨hopen, harmed, hflag⟩ := hm
    split <;> exact ⟨hc, by simp [TaskPc.msgDuty, EndpointOk, countDrops, hopen, harmed]⟩
  case doneMsgFlag =>
    obtain ⟨hopen, harmed, hflag⟩ := hm
    exact ⟨hc, by simp [TaskPc.msgDuty, EndpointOk, hopen, harmed]⟩
  case resetLocked | deinitLocked =>
    obtain ⟨hopen, hca⟩ := hc
    obtain ⟨-, hma⟩ := hm
    split <;> exact ⟨by simp [TaskPc.cmdDuty, EndpointOk, countDrops, clearOut, hopen, hca],
      by simp [TaskPc.msgDuty, EndpointOk, countDrops, clearOut, hopen, hma]⟩
  case openLocked =>
    obtain ⟨hopen, hca⟩ := hc
    obtain ⟨-, hma⟩ := hm
    split <;> exact ⟨⟨hopen, hca, rfl⟩, ⟨hopen, hma, rfl⟩⟩
  case openCmd =>
    obtain ⟨hopen, harmed, hflag⟩ := hc
    cases ok
    · exact ⟨⟨hopen, harmed, hflag⟩, hm⟩
    · exact ⟨by simp [TaskPc.cmdDuty, EndpointOk, hopen, harmed, hflag], hm⟩
  case openCmdFlag =>
    obtain ⟨hopen, harmed, hflag⟩ := hc
    exact ⟨by simp [TaskPc.cmdDuty, EndpointOk, hopen, harmed], hm⟩
  case openMsg =>
    obtain ⟨hopen, harmed, hflag⟩ := hm
    cases ok
    · exact ⟨hc, ⟨hopen, harmed, hflag⟩⟩
    · exact ⟨hc, by simp [TaskPc.msgDuty, EndpointOk, hopen, harmed, hflag]⟩
  case openMsgFlag =>
    obtain ⟨hopen, harmed, hflag⟩ := hm
    exact ⟨hc, by simp [TaskPc.msgDuty, EndpointOk, hopen, harmed]⟩

theorem endpoints_step (h : s.Endpoints) (hst : s.step l = some s') : s'.Endpoints := by
  cases l with
  | go ok => obtain rfl := Option.some.inj hst; exact endpoints_go h ok
  | present | send | service | defer =>
    obtain ⟨_, _, _, _, _, _, _, _, _, rfl⟩ := caller_frame hst (by simp [GlueStep.Caller])
    exact ⟨h.cmd, h.msg⟩
  | takeStats => obtain rfl := Option.some.inj hst; exact ⟨h.cmd, h.msg⟩
  | wire success =>
    rw [step] at hst
    split at hst
    · obtain rfl := Option.some.inj hst; exact ⟨h.cmd, h.msg⟩
    · cases hst
  | run fn gen again =>
    rw [step] at hst
    split at hst
    · obtain ⟨hidle, rfl⟩ := callback_eq hst
      obtain ⟨hc, hm⟩ := h
      rw [hidle] at hc hm
      cases fn <;> exact ⟨hc, hm⟩
    · cases hst
  | completeCmd =>
    rw [step] at hst
    split at hst
    · obtain ⟨hidle, rfl⟩ := callback_eq hst
      obtain ⟨hc, hm⟩ := h
      rw [hidle] at hc hm
      exact ⟨hc.of_armed ‹_›, hm⟩
    · cases hst
  | completeMsg success data =>
    rw [step] at hst
    split at hst
    · obtain ⟨hidle, rfl⟩ := callback_eq hst
      obtain ⟨hc, hm⟩ := h
      rw [hidle] at hc hm
      have hbare := hm.of_armed ‹_›
      split <;> exact ⟨hc, hbare⟩
    · cases hst
  | completeIn =>
    rw [step] at hst
    split at hst
    · obtain ⟨hidle, rfl⟩ := callback_eq hst
      obtain ⟨hc, hm⟩ := h
      rw [hidle] at hc hm
      exact ⟨hc, hm⟩
    · cases hst
  | reset | deinit | openItf =>
    obtain ⟨-, rfl⟩ := callback_eq hst
    exact ⟨⟨rfl, rfl⟩, ⟨rfl, rfl⟩⟩

theorem endpoints_init : init.Endpoints := ⟨⟨rfl, rfl⟩, ⟨rfl, rfl⟩⟩

/-! ### The next `usb_glue_service()` -/

/-- The functions that arm the flagged endpoints, with the generation of the connection. -/
def rearms (s : GlueState) : List (Deferred × UInt32) :=
  (if s.cmdRearm then [(.cmdOut, s.gen)] else []) ++
    if s.msgRearm then [(.msgOut, s.gen)] else []

/-- `usb_tx_task` gets through the calls of `usbd_defer_func()` that it is about to make. -/
theorem runs_defer (kepts : List Bool) (hlen : kepts.length = s.caller.requests) :
    ∃ calls, System.runs step s (kepts.map .defer) =
      some { s with calls := calls, caller := .idle } := by
  cases hc : s.caller with
  | idle =>
    rw [hc] at hlen
    rw [List.length_eq_zero_iff.1 hlen]
    refine ⟨s.calls, congrArg some ?_⟩
    rw [← hc]
  | deferIn gen | deferMsg gen =>
    rw [hc] at hlen
    obtain ⟨kept, rfl⟩ := List.length_eq_one_iff.1 hlen
    cases kept <;> exact ⟨_, by simp [System.runs, step, defer, deferFunc, hc]; rfl⟩
  | deferCmd gen msg =>
    rw [hc] at hlen
    cases msg with
    | false =>
      obtain ⟨kept, rfl⟩ := List.length_eq_one_iff.1 hlen
      cases kept <;> exact ⟨_, by simp [System.runs, step, defer, deferFunc, hc]; rfl⟩
    | true =>
      obtain ⟨kept, kepts, rfl⟩ := List.exists_cons_of_length_eq_add_one hlen
      obtain ⟨kept', rfl⟩ := List.length_eq_one_iff.1 (Nat.succ.inj hlen)
      cases kept <;> cases kept' <;>
        exact ⟨_, by simp [System.runs, step, defer, deferFunc, hc]; rfl⟩

/-- A call of `usb_glue_service()` hands the functions over for the flagged endpoints. -/
theorem runs_service (hcaller : s.caller = .idle) (hopen : s.itfOpen = true) :
    ∃ n, System.runs step s (.service :: List.replicate n (.defer true)) =
      some { s with calls := s.calls ++ s.rearms } := by
  by_cases hcmd : s.cmdRearm = true <;> by_cases hmsg : s.msgRearm = true
  · refine ⟨2, ?_⟩
    simp [System.runs, step, service, serviceFlags, defer, deferFunc, rearms, hcaller, hopen, hcmd,
      hmsg, List.replicate]
  · refine ⟨1, ?_⟩
    simp [System.runs, step, service, serviceFlags, defer, deferFunc, rearms, hcaller, hopen, hcmd,
      hmsg]
  · refine ⟨1, ?_⟩
    simp [System.runs, step, service, serviceFlags, defer, deferFunc, rearms, hcaller, hopen, hcmd,
      hmsg]
  · -- nothing is flagged
    have hnone : s.rearms = [] := by rw [rearms, if_neg hcmd, if_neg hmsg]; rfl
    have hservice : s.service = some s := by
      simp only [service, serviceFlags, hcaller, Bool.not_eq_true _ ▸ hcmd, Bool.not_eq_true _ ▸ hmsg,
        Bool.and_false]
    refine ⟨0, ?_⟩
    rw [hnone, List.append_nil, List.replicate_zero, System.runs, step, hservice]
    rfl

end GlueState

/-! ### Runs -/

theorem endpoints_of_run {ls : List GlueStep} {s : GlueState} (hrun : glueSystem.Run .init ls s) :
    s.Endpoints :=
  hrun.invariant GlueState.endpoints_init fun _ _ _ h hst => GlueState.endpoints_step h hst

/-- An OUT endpoint has one transfer and no flag, or a flag and no transfer. -/
def ArmedOrFlagged (armed : ℕ) (flag : Bool) : Prop :=
  armed = 1 ∧ flag = false ∨ armed = 0 ∧ flag = true

/-- **No dead OUT endpoint.**  Whenever the interface is open and TinyUSB's task is between two
functions, each OUT endpoint is armed or flagged, and not both; when `usb_tx_task` has got through
the requests under way, whatever comes of them, its next `usb_glue_service()` hands over the
functions that arm the flagged endpoints; and never is a second transfer submitted. -/
theorem no_dead_endpoint {ls : List GlueStep} {s : GlueState} (hrun : glueSystem.Run .init ls s) :
    (s.itfOpen = true → s.task = .idle →
      ArmedOrFlagged s.cmdArmed s.cmdRearm ∧ ArmedOrFlagged s.msgArmed s.msgRearm ∧
        ∀ kepts : List Bool, kepts.length = s.caller.requests → ∃ calls n,
          System.runs GlueState.step s (kepts.map .defer) =
              some { s with calls := calls, caller := .idle } ∧
            System.runs GlueState.step { s with calls := calls, caller := .idle }
                (.service :: List.replicate n (.defer true)) =
              some { s with calls := calls ++ s.rearms, caller := .idle }) ∧
      s.cmdArmed ≤ 1 ∧ s.msgArmed ≤ 1 := by
  have h := endpoints_of_run hrun
  refine ⟨fun hopen hidle => ?_, h.cmd.armed_le_one, h.msg.armed_le_one⟩
  obtain ⟨hc, hm⟩ := h
  rw [hidle, hopen] at hc hm
  refine ⟨hc, hm, fun kepts hlen => ?_⟩
  obtain ⟨calls, hdefer⟩ := GlueState.runs_defer kepts hlen
  obtain ⟨n, hservice⟩ :=
    GlueState.runs_service (s := { s with calls := calls, caller := .idle }) rfl hopen
  exact ⟨calls, n, hdefer, hservice⟩

/-- EP 0x01 cannot be armed when the interface is opened; `usb_glue_service()` schedules its
re-arm, which is refused once more. -/
def refusedTwice : Option GlueState :=
  System.runs GlueState.step .init [.openItf, .go true, .go false, .go true, .go true, .service,
    .defer true, .run .cmdOut 2 false, .go true, .go false, .go true]

theorem no_dead_endpoint_refusedTwice :
    ∃ s calls n, refusedTwice = some s ∧ s.cmdArmed = 0 ∧ ArmedOrFlagged s.cmdArmed s.cmdRearm ∧
      System.runs GlueState.step { s with calls := calls, caller := .idle }
          (.service :: List.replicate n (.defer true)) =
        some { s with calls := calls ++ [(.cmdOut, 2)], caller := .idle } := by
  have hs : refusedTwice.map (fun s => (s.itfOpen, s.task, s.cmdArmed, s.caller.requests,
      decide (s.rearms = [(.cmdOut, 2)]))) = some (true, .idle, 0, 0, true) := by decide +kernel
  obtain ⟨s, h, hs⟩ := Option.map_eq_some_iff.1 hs
  rw [Prod.mk.injEq, Prod.mk.injEq, Prod.mk.injEq, Prod.mk.injEq] at hs
  obtain ⟨hopen, hidle, harmed, hcaller, hrearms⟩ := hs
  obtain ⟨hcmd, -, hservice⟩ := (no_dead_endpoint (System.Run.of_runs h)).1 hopen hidle
  obtain ⟨calls, n, -, hservice⟩ := hservice [] hcaller.symm
  rw [of_decide_eq_true hrearms] at hservice
  exact ⟨s, calls, n, h, harmed, hcmd, hservice⟩

end Usb

end Espcan32
