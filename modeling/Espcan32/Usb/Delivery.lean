import Espcan32.Usb.Rearm

/-!
# The frames of the host reach the ring

The frames of an EP2-OUT transfer are kept until each of them is in `tx_ring`, which may be full;
only then is the endpoint armed again.  `usb_glue_msg_out_deferred()` pushes them one by one, and
may stop and be called again at any frame.  A bus reset drops the frames that are left, and counts
them.

* `OutInv` : what was pushed and what is left make up what was received and not dropped.
* `OutInv.step` : every step keeps it, if the interface is only opened after a reset.
* `out_delivery` : **every received frame is pushed once, in order, or dropped and counted**.
-/

namespace Espcan32

namespace Usb

open Pcan

/-! ### The record -/

/-- The frames of a transfer, and the number of those at its end that a reset dropped. -/
structure OutTransfer where
  frames : List Frame
  dropped : ℕ
  deriving DecidableEq, Repr

/-- The frames that no reset dropped. -/
def OutTransfer.kept (t : OutTransfer) : List Frame := t.frames.take (t.frames.length - t.dropped)

/-- The frames pushed into `tx_ring`, the successful transfers, the latest first, and the drops
reported by `usb_glue_take_stats()`. -/
structure OutRecord where
  pushed : List Frame
  transfers : List OutTransfer
  taken : UInt32
  deriving DecidableEq, Repr

namespace OutRecord

variable (r : OutRecord)

/-- Nothing has happened. -/
def none : OutRecord := ⟨[], [], 0⟩

/-- A reset drops `n` frames of the latest transfer. -/
def drop (n : ℕ) : OutRecord :=
  { r with
    transfers :=
      match r.transfers with
      | [] => []
      | t :: ts => { t with dropped := t.dropped + n } :: ts }

/-- The frames to be pushed, in order. -/
def kept : List Frame := r.transfers.reverse.flatMap OutTransfer.kept

/-- The number of frames dropped. -/
def dropped : ℕ := (r.transfers.map OutTransfer.dropped).sum

@[simp] theorem kept_receive (frames : List Frame) :
    kept { r with transfers := ⟨frames, 0⟩ :: r.transfers } = r.kept ++ frames := by
  simp [kept, OutTransfer.kept]

@[simp] theorem dropped_receive (frames : List Frame) :
    dropped { r with transfers := ⟨frames, 0⟩ :: r.transfers } = r.dropped := by
  simp [dropped]

variable {r}

/-- What was pushed is what is kept once the frames that are left are dropped. -/
theorem kept_drop {u : List Frame}
    (hlast : u ≠ [] → ∃ t ts, r.transfers = t :: ts ∧ t.dropped = 0 ∧ u <:+ t.frames)
    (horder : r.pushed ++ u = r.kept) : (r.drop u.length).kept = r.pushed := by
  rcases hu : r.transfers with _ | ⟨t, ts⟩
  · have hkept : (r.drop u.length).kept = [] := by simp [drop, kept, hu]
    have hnil : r.pushed ++ u = [] := by rw [horder]; simp [kept, hu]
    rw [hkept, (List.append_eq_nil_iff.1 hnil).1]
  by_cases hne : u = []
  · subst hne
    rw [List.append_nil] at horder
    rw [horder]
    simp [drop, kept, hu, OutTransfer.kept]
  · obtain ⟨t', ts', ht, hd, pre, hpre⟩ := hlast hne
    rw [hu] at ht
    obtain ⟨rfl, rfl⟩ := List.cons.inj ht
    have hold : r.kept = ts.reverse.flatMap OutTransfer.kept ++ (pre ++ u) := by
      simp [kept, hu, OutTransfer.kept, hd, hpre]
    rw [hold, ← List.append_assoc] at horder
    have hnew : (r.drop u.length).kept = ts.reverse.flatMap OutTransfer.kept ++ pre := by
      simp [drop, kept, hu, OutTransfer.kept, hd, ← hpre]
    rw [hnew, List.append_cancel_right horder]

/-- The frames that are left are counted. -/
theorem dropped_drop {u : List Frame}
    (hlast : u ≠ [] → ∃ t ts, r.transfers = t :: ts ∧ t.dropped = 0 ∧ u <:+ t.frames) :
    (r.drop u.length).dropped = r.dropped + u.length := by
  rcases hu : r.transfers with _ | ⟨t, ts⟩
  · by_cases hne : u = []
    · simp [hne, drop, dropped, hu]
    · obtain ⟨t, ts, ht, -⟩ := hlast hne
      rw [hu] at ht
      cases ht
  · simp only [drop, dropped, hu, List.map_cons, List.sum_cons]
    omega

end OutRecord

/-- Keep the record. -/
def outRecord (s : GlueState) (l : GlueStep) (r : OutRecord) : OutRecord :=
  match l with
  | .takeStats => { r with taken := r.taken + s.resetDrops }
  | .completeMsg success data =>
    if success ∧ data ≠ [] then
      { r with transfers := ⟨GlueState.handleMsg data, 0⟩ :: r.transfers }
    else r
  | .go ok =>
    match s.task with
    | .outPush _ f => if ok then { r with pushed := r.pushed ++ [f] } else r
    | .resetLocked | .deinitLocked => r.drop (s.pending.length - s.index)
    | _ => r
  | _ => r

/-- The interface is only opened after it was closed. -/
def OpenAfterReset (s : GlueState) (l : GlueStep) : Prop := l = .openItf → s.itfOpen = false

instance (s : GlueState) (l : GlueStep) : Decidable (OpenAfterReset s l) := by
  unfold OpenAfterReset; infer_instance

/-! ### The invariant -/

namespace GlueState

variable (s : GlueState)

/-- The received frames that are still to be pushed. -/
def unpushed : List Frame :=
  match s.task with
  | .doneMsg frames => frames
  | .outNext _ => s.pending.drop (s.index + 1)
  | _ => s.pending.drop s.index

/-- What the place of TinyUSB's task says about the frames that are pending. -/
def PendingOk : TaskPc → Prop
  | .doneMsg _ | .outXfer _ | .outCommit _ _ | .openLocked => s.pending.drop s.index = []
  | .outPush gen f => gen = s.gen ∧ s.pending[s.index]? = some f ∧ s.msgRearm = true
  | .outNext gen => gen = s.gen ∧ s.index < s.pending.length ∧ s.msgRearm = true
  | _ => True

end GlueState

/-- What was pushed and what is left make up what was received and not dropped. -/
structure OutInv (s : GlueState) (r : OutRecord) : Prop where
  order : r.pushed ++ s.unpushed = r.kept
  last : s.unpushed ≠ [] → ∃ t ts, r.transfers = t :: ts ∧ t.dropped = 0 ∧ s.unpushed <:+ t.frames
  counted : s.resetDrops + r.taken = UInt32.ofNat r.dropped
  flag : s.msgRearm = false → s.pending.drop s.index = []
  task : s.PendingOk s.task

namespace OutInv

variable {s s' : GlueState} {r : OutRecord} {l : GlueStep}

/-- A step that leaves the frames alone. -/
theorem move (h : OutInv s r) (hp : s'.pending = s.pending) (hi : s'.index = s.index)
    (hu : s'.unpushed = s.unpushed) (hd : s'.resetDrops = s.resetDrops)
    (hf : s'.msgRearm = false → s.pending.drop s.index = []) (ht : s'.PendingOk s'.task) :
    OutInv s' r where
  order := by rw [hu]; exact h.order
  last := by rw [hu]; exact h.last
  counted := by rw [hd]; exact h.counted
  flag := by rw [hp, hi]; exact hf
  task := ht

/-- A reset drops the frames that are left, and counts them. -/
theorem reset (h : OutInv s r) (hs : s.unpushed = s.pending.drop s.index) (hp : s'.pending = [])
    (hu : s'.unpushed = [])
    (hd : s'.resetDrops = s.resetDrops + UInt32.ofNat (s.pending.length - s.index))
    (ht : s'.PendingOk s'.task) : OutInv s' (r.drop (s.pending.length - s.index)) := by
  have hlast := h.last
  rw [hs] at hlast
  refine ⟨?_, fun hne => absurd hu hne, ?_, fun _ => by rw [hp, List.drop_nil], ht⟩
  · have horder := h.order
    rw [hs] at horder
    rw [hu, List.append_nil, ← List.length_drop, OutRecord.kept_drop hlast horder]
    rfl
  · rw [← List.length_drop] at hd ⊢
    rw [OutRecord.dropped_drop hlast, UInt32.ofNat_add, ← h.counted, hd]
    show s.resetDrops + _ + r.taken = _
    rw [UInt32.add_assoc, UInt32.add_comm _ r.taken, ← UInt32.add_assoc]

/-- A frame is pushed. -/
theorem push (h : OutInv s r) {f : Frame} (hs : s.unpushed = f :: s'.unpushed)
    (hp : s'.pending = s.pending) (hi : s'.index = s.index)
    (hd : s'.resetDrops = s.resetDrops) (hf : s'.msgRearm = s.msgRearm)
    (ht : s'.PendingOk s'.task) : OutInv s' { r with pushed := r.pushed ++ [f] } where
  order := by
    have horder := h.order
    rw [hs] at horder
    show r.pushed ++ [f] ++ s'.unpushed = r.kept
    rw [List.append_assoc, ← horder]
    rfl
  last hne := by
    obtain ⟨t, ts, htr, hdr, hsuf⟩ := h.last (by rw [hs]; simp)
    rw [hs] at hsuf
    exact ⟨t, ts, htr, hdr, (List.suffix_cons _ _).trans hsuf⟩
  counted := by rw [hd]; exact h.counted
  flag := by rw [hp, hi, hf]; exact h.flag
  task := ht

/-- The next step of the function in TinyUSB's task. -/
theorem go (h : OutInv s r) (he : s.Endpoints) (ok : Bool) :
    OutInv (s.go ok) (outRecord s (.go ok) r) := by
  have htask := h.task
  have hmsg := he.msg
  unfold GlueState.go outRecord
  cases ht : s.task <;> rw [ht] at htask hmsg <;> dsimp only
  case idle => exact h
  case inStart | inXfer | inCommit | cmdStart | cmdCommit | openCmd | doneCmd =>
    split <;> exact h.move rfl rfl (by simp [GlueState.unpushed, ht]) rfl h.flag trivial
  case doneIn | cmdXfer | openCmdFlag | doneCmdFlag =>
    exact h.move rfl rfl (by simp [GlueState.unpushed, ht]) rfl h.flag trivial
  case outLoop gen =>
    split
    · exact h.move rfl rfl (by simp [GlueState.unpushed, ht]) rfl h.flag trivial
    rename_i hlive
    rw [not_or, not_or, Bool.not_eq_false, Bool.not_eq_false, not_not] at hlive
    obtain ⟨-, hgen, hflag⟩ := hlive
    split
    · rename_i f hf
      exact h.move rfl rfl (by simp [GlueState.unpushed, ht]) rfl h.flag ⟨hgen, hf, hflag⟩
    · rename_i hnone
      exact h.move rfl rfl (by simp [GlueState.unpushed, ht]) rfl h.flag
        (List.drop_eq_nil_of_le (List.getElem?_eq_none_iff.1 hnone))
  case outPush gen f =>
    obtain ⟨hgen, hf, hflag⟩ := htask
    obtain ⟨hlt, hget⟩ := List.getElem?_eq_some_iff.1 hf
    cases ok with
    | false => exact h.move rfl rfl (by simp [GlueState.unpushed, ht]) rfl h.flag trivial
    | true =>
      refine h.push ?_ rfl rfl rfl rfl ⟨hgen, hlt, hflag⟩
      rw [GlueState.unpushed, ht]
      exact (List.drop_eq_getElem_cons hlt).trans (by rw [hget]; rfl)
  case outNext gen =>
    obtain ⟨hgen, hlt, hflag⟩ := htask
    have hun : s.unpushed = s.pending.drop (s.index + 1) := by rw [GlueState.unpushed, ht]
    rw [if_pos ⟨hgen, hlt⟩]
    have hlast := h.last
    have horder := h.order
    rw [hun] at hlast horder
    split
    · rename_i hle
      rw [List.drop_eq_nil_of_le hle] at horder
      exact ⟨horder, fun hne => absurd rfl hne, h.counted, fun _ => rfl, trivial⟩
    · exact ⟨horder, hlast, h.counted, fun hf => absurd hf (by simp [hflag]), trivial⟩
  case outXfer gen => exact h.move rfl rfl (by simp [GlueState.unpushed, ht]) rfl h.flag htask
  case outCommit gen armed =>
    split
    · exact h.move rfl rfl (by simp [GlueState.unpushed, ht]) rfl (fun _ => htask) trivial
    · exact h.move rfl rfl (by simp [GlueState.unpushed, ht]) rfl h.flag trivial
  case doneMsg frames =>
    -- nothing is pending, so nothing is lost
    rw [if_neg (Nat.not_lt.2 (List.drop_eq_nil_iff.1 htask))]
    have hun : s.unpushed = frames := by rw [GlueState.unpushed, ht]
    have hlast := h.last
    have horder := h.order
    rw [hun] at hlast horder
    exact ⟨horder, hlast, h.counted, (fun hf => by cases hf), trivial⟩
  case doneMsgFlag | openMsgFlag =>
    exact h.move rfl rfl (by simp [GlueState.unpushed, ht]) rfl (fun hf => by cases hf) trivial
  case resetLocked | deinitLocked =>
    have hun : s.unpushed = s.pending.drop s.index := by rw [GlueState.unpushed, ht]
    split <;> exact h.reset hun rfl rfl rfl trivial
  case openLocked =>
    have hun : s.unpushed = [] := by rw [GlueState.unpushed, ht]; exact htask
    have horder := h.order
    rw [hun] at horder
    split <;> exact ⟨horder, fun hne => absurd rfl hne, h.counted, fun _ => rfl, trivial⟩
  case openMsg =>
    split <;> exact h.move rfl rfl (by simp [GlueState.unpushed, ht]) rfl h.flag trivial

theorem step (h : OutInv s r) (he : s.Endpoints) (hst : s.step l = some s')
    (hg : OpenAfterReset s l) : OutInv s' (outRecord s l r) := by
  cases l with
  | go ok => obtain rfl := Option.some.inj hst; exact h.go he ok
  | present | send | service | defer =>
    obtain ⟨_, _, _, _, _, _, _, _, _, rfl⟩ := GlueState.caller_frame hst (by simp [GlueStep.Caller])
    exact h.move rfl rfl rfl rfl h.flag h.task
  | takeStats =>
    obtain rfl := Option.some.inj hst
    refine ⟨h.order, h.last, ?_, h.flag, h.task⟩
    show 0 + (r.taken + s.resetDrops) = UInt32.ofNat r.dropped
    rw [← h.counted, UInt32.zero_add, UInt32.add_comm]
  | wire success =>
    rw [GlueState.step] at hst
    split at hst
    · obtain rfl := Option.some.inj hst
      exact h.move rfl rfl rfl rfl h.flag h.task
    · cases hst
  | run fn gen again =>
    rw [GlueState.step] at hst
    split at hst
    · obtain ⟨hidle, rfl⟩ := GlueState.callback_eq hst
      cases fn <;>
        exact h.move rfl rfl (by simp [GlueState.unpushed, hidle, GlueState.start]) rfl h.flag trivial
    · cases hst
  | completeCmd | completeIn =>
    rw [GlueState.step] at hst
    split at hst
    · obtain ⟨hidle, rfl⟩ := GlueState.callback_eq hst
      exact h.move rfl rfl (by simp [GlueState.unpushed, hidle]) rfl h.flag trivial
    · cases hst
  | completeMsg success data =>
    rw [GlueState.step] at hst
    split at hst
    · obtain ⟨hidle, rfl⟩ := GlueState.callback_eq hst
      -- an armed endpoint has no frame pending, so the transfer overwrites nothing
      have hnil : s.pending.drop s.index = [] := by
        have hm := he.msg
        rw [hidle] at hm
        exact h.flag (hm.of_armed ‹_›).2.2
      have hun : s.unpushed = [] := by rw [GlueState.unpushed, hidle]; exact hnil
      by_cases hdata : success = true ∧ data ≠ []
      · have horder := h.order
        rw [hun, List.append_nil] at horder
        rw [outRecord, if_pos hdata, if_pos hdata]
        refine ⟨?_, fun _ => ⟨_, _, rfl, rfl, List.suffix_refl _⟩, ?_, h.flag, hnil⟩
        · rw [OutRecord.kept_receive, ← horder]; rfl
        · rw [OutRecord.dropped_receive]; exact h.counted
      · rw [outRecord, if_neg hdata, if_neg hdata]
        exact h.move rfl rfl (by simp [GlueState.unpushed, hidle]) rfl h.flag trivial
    · cases hst
  | reset | deinit =>
    obtain ⟨hidle, rfl⟩ := GlueState.callback_eq hst
    exact h.move rfl rfl (by simp [GlueState.unpushed, hidle, GlueState.freshEndpoints]) rfl
      h.flag trivial
  | openItf =>
    obtain ⟨hidle, rfl⟩ := GlueState.callback_eq hst
    have hnil : s.pending.drop s.index = [] := by
      have hm := he.msg
      rw [hidle, hg rfl] at hm
      exact h.flag hm.2
    exact h.move rfl rfl (by simp [GlueState.unpushed, hidle, GlueState.freshEndpoints]) rfl
      h.flag hnil

end OutInv

/-! ### Runs -/

theorem OutInv.of_init : OutInv .init .none where
  order := rfl
  last h := absurd rfl h
  counted := rfl
  flag _ := rfl
  task := trivial

theorem outInv_of_run {ls : List GlueStep} {s : GlueState} {r : OutRecord}
    (hrun : ((glueSystem.guard OpenAfterReset).withAux outRecord).Run (.init, .none) ls (s, r)) :
    s.Endpoints ∧ OutInv s r := by
  refine hrun.invariant (I := fun p => p.1.Endpoints ∧ OutInv p.1 p.2)
    ⟨GlueState.endpoints_init, .of_init⟩ ?_
  rintro ⟨s, r⟩ l ⟨s', r'⟩ ⟨he, h⟩ ⟨⟨hg, hst⟩, rfl⟩
  exact ⟨GlueState.endpoints_step he hst, h.step he hst hg⟩

/-- **Every received frame is pushed once, in order, or dropped and counted.**  In every run that
opens the interface after resets only, the frames pushed into `tx_ring` and those still pending
are, in order, the frames of the successful EP2-OUT transfers without those a reset dropped;
`tx_pending_reset_drops`, with what has been reported of it, has grown by the number of these; and
a transfer only arrives when no frame is pending. -/
theorem out_delivery {ls : List GlueStep} {s : GlueState} {r : OutRecord}
    (hrun : ((glueSystem.guard OpenAfterReset).withAux outRecord).Run (.init, .none) ls (s, r)) :
    r.pushed ++ s.unpushed = r.kept ∧ s.resetDrops + r.taken = UInt32.ofNat r.dropped ∧
      (0 < s.msgArmed ∧ s.task = .idle ∨ (∃ frames, s.task = .doneMsg frames) →
        s.pending.drop s.index = []) := by
  obtain ⟨he, h⟩ := outInv_of_run hrun
  refine ⟨h.order, h.counted, ?_⟩
  rintro (⟨harmed, hidle⟩ | ⟨frames, ht⟩)
  · have hm := he.msg
    rw [hidle] at hm
    exact h.flag (hm.of_armed harmed).2.2
  · have htask := h.task
    rw [ht] at htask
    exact htask

/-- A transfer with two frames; the ring takes the first and is full; the bus is reset. -/
def halfPushed : Option (GlueState × OutRecord) :=
  System.exec GlueState.step OpenAfterReset outRecord (.init, .none)
    [.openItf, .go true, .go true, .go true,
      .completeMsg true [2, 2, 0x01, 0x20, 0x00, 0xAA, 0x00, 0x40, 0x00], .go true,
      .service, .defer true, .run .msgOut 2 false, .go true, .go true, .go true, .go true,
      .go false, .reset, .go true]

theorem out_delivery_halfPushed :
    ∃ p, halfPushed = some p ∧ p.2.pushed.map (·.id) = [1] ∧ p.2.dropped = 1 ∧
      p.2.pushed ++ p.1.unpushed = p.2.kept ∧
      p.1.resetDrops + p.2.taken = UInt32.ofNat p.2.dropped := by
  have hr : halfPushed.map (fun p => (p.2.pushed.map (·.id), p.2.dropped)) = some ([1], 1) := by
    decide +kernel
  obtain ⟨⟨s, r⟩, h, hr⟩ := Option.map_eq_some_iff.1 hr
  rw [Prod.mk.injEq] at hr
  obtain ⟨horder, hcounted, -⟩ := out_delivery (System.Run.of_exec h)
  exact ⟨(s, r), h, hr.1, hr.2, horder, hcounted⟩

end Usb

end Espcan32
