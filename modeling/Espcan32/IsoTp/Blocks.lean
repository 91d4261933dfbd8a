import Espcan32.IsoTp.Bounds

/-!
# Blocks of ConsecutiveFrames

The receive side grants a block of ConsecutiveFrames with every CTS it sends: the first one for
the FirstFrame, the next one whenever `bs` of them have come.  `rxCount` counts the
ConsecutiveFrames and the CTS frames of a reception, and keeps the counts of every message that
was completed.

* `InRange.frame_cases` : every effect of a frame on the receive side.
* `BlockInv.step` : how the counts hang together, whatever the calls.
* `flowControl_accounting` : **a CTS goes out for each FirstFrame and for each full block, and at
  no other time.**
* `cfs_wellFormed` : **a message takes as many ConsecutiveFrames as its length says**, as long as
  no ConsecutiveFrame that could complete it brings less than what is left.
-/

namespace Espcan32

namespace IsoTp

/-- A FlowControl frame that grants a block. -/
def CanFrame.IsCts (f : CanFrame) : Prop :=
  pciType (f.data.getD 0 0) = 3 ∧ pciLow (f.data.getD 0 0) = 0

instance (f : CanFrame) : Decidable f.IsCts := inferInstanceAs (Decidable (_ ∧ _))

namespace Link

/-- A call hands a CTS to `can_tx`. -/
def Grants (l : Link) (c : Call) : Prop := ∃ f ∈ l.handed c, f.IsCts

instance (l : Link) (c : Call) : Decidable (l.Grants c) :=
  inferInstanceAs (Decidable (∃ f ∈ l.handed c, f.IsCts))

/-- The frame that a call brings to the receive side, if it is accepted. -/
def accepted (l : Link) : Call → Option RxEvent
  | .frame _ id data => l.rxEvent id data
  | _ => none

end Link

/-- A message completed by ConsecutiveFrames, with the counts at its end. -/
structure Completed where
  len : ℕ
  cfs : ℕ
  grants : ℕ
  full : Bool
  deriving DecidableEq, Repr

/-- The counts of the reception that began last, and the messages completed so far. -/
structure RxCount where
  /-- The ConsecutiveFrames accepted since the FirstFrame. -/
  cfs : ℕ
  /-- The ConsecutiveFrames accepted since the last CTS. -/
  since : ℕ
  /-- The CTS frames since the FirstFrame, its own included. -/
  grants : ℕ
  /-- Each of these ConsecutiveFrames brought seven bytes, or all that was left. -/
  full : Bool
  done : List Completed
  deriving DecidableEq, Repr

/-- The counts at the start. -/
def RxCount.zero : RxCount := ⟨0, 0, 0, true, []⟩

namespace RxCount

variable (r : RxCount)

/-- A FirstFrame is accepted. -/
def ff : RxCount := { r with cfs := 0, since := 0, grants := 0, full := true }

/-- A ConsecutiveFrame is accepted; `all` says that it brought what it could. -/
def cf (all : Bool) : RxCount :=
  { r with cfs := r.cfs + 1, since := r.since + 1, full := r.full && all }

/-- A CTS is handed to `can_tx`. -/
def grant : RxCount := { r with since := 0, grants := r.grants + 1 }

/-- A ConsecutiveFrame has completed a message of `len` bytes. -/
def complete (len : ℕ) : RxCount :=
  { r with done := r.done ++ [⟨len, r.cfs, r.grants, r.full⟩] }

end RxCount

/-- The counts after a call. -/
def rxCount (l : Link) (c : Call) (r : RxCount) : RxCount :=
  let granted (r : RxCount) : RxCount := if l.Grants c then r.grant else r
  match l.accepted c with
  | some (.ff _ _) => granted r.ff
  | some (.cf p) =>
    let r := granted (r.cf (p.length = min (l.rx.len - l.rx.off) cfMaxData))
    if l.rx.len ≤ l.rx.off + p.length then r.complete l.rx.len else r
  | _ => granted r

/-- The number of ConsecutiveFrames that carry what the FirstFrame of `n` bytes leaves over. -/
def cfsFor (n : ℕ) : ℕ := (n - ffFirstData + (cfMaxData - 1)) / cfMaxData

/-! ### Which calls grant -/

namespace Link

variable {l : Link} (e : Env) (id : UInt32) (data : List UInt8)

/-- Every effect of a frame on the receive side, and what it sends: the frame is not accepted, or
it is a SingleFrame, a FirstFrame or a ConsecutiveFrame. -/
theorem InRange.frame_cases (h : l.InRange) :
    (l.rxEvent id data = none ∧ (l.isotpOnCanFrame e id data).2 = none ∧
      ((l.isotpOnCanFrame e id data).1.rx = l.rx ∨
        RxAborted (l.isotpOnCanFrame e id data).1.rx)) ∨
    (∃ p, l.rxEvent id data = some (.sf p) ∧ (l.isotpOnCanFrame e id data).2 = none ∧
      (l.isotpOnCanFrame e id data).1.rx.phase = .idle) ∨
    (l.rxEvent id data = some (.ff (ffDl data) (data.drop 2)) ∧
      (l.isotpOnCanFrame e id data).2 = some (l.sendFc .cts) ∧
      (l.isotpOnCanFrame e id data).1.rx = l.rxAfterFf data e.now) ∨
    (∃ p, l.rxEvent id data = some (.cf p) ∧ l.acceptsCf data = some p ∧ l.rx.phase = .recv ∧
      (l.isotpOnCanFrame e id data).2 = l.fcAfterCf p ∧
      (l.isotpOnCanFrame e id data).1.rx = l.rxAfterCf p e.now) := by
  unfold isotpOnCanFrame rxEvent
  by_cases hd : data.length < 1 ∨ isotpCanDl < data.length
  · rw [if_pos hd, if_pos hd]
    exact .inl ⟨rfl, rfl, .inl rfl⟩
  rw [if_neg hd, if_neg hd]
  cases ha : l.addressed id with
  | none => exact .inl ⟨rfl, rfl, .inl rfl⟩
  | some functional =>
    dsimp only
    rcases hp : pciType (data.getD 0 0) with _ | _ | _ | _ | n
    · cases hs : l.acceptsSf data functional with
      | none =>
        exact .inl ⟨by simp [hs], rfl, .inl (by simp only [handleSf_rx, hs])⟩
      | some p =>
        exact .inr (.inl ⟨p, by simp [hs], rfl, by simp only [handleSf_rx, hs]⟩)
    · cases functional with
      | true => exact .inl ⟨rfl, rfl, .inl rfl⟩
      | false =>
        by_cases hf : data.length = isotpCanDl ∧ sfMaxData < ffDl data
        · refine .inr (.inr (.inl ⟨if_pos hf, ?_⟩))
          simp [l.handleFf_accepts e data hf.1 hf.2]
        · refine .inl ⟨if_neg hf, ?_⟩
          simp [l.handleFf_ignores e data hf]
    · cases functional with
      | true => exact .inl ⟨rfl, rfl, .inl rfl⟩
      | false =>
        cases hc : l.acceptsCf data with
        | none =>
          obtain ⟨hn, ⟨-, hu⟩ | ⟨-, hr, -⟩⟩ :=
            l.handleCf_none e data h.len (fun hr => (h.recv hr).2) hc
          · exact .inl ⟨rfl, by simpa using hn, .inl (by simp [hu])⟩
          · exact .inl ⟨rfl, by simpa using hn, .inr (by simpa using hr)⟩
        | some p =>
          have hr : l.rx.phase = .recv := by
            unfold acceptsCf at hc
            split_ifs at hc with hcond
            exact hcond.1
          have hs := l.handleCf_some e data h.len (h.recv hr).2 hc
          exact .inr (.inr (.inr ⟨p, rfl, rfl, hr, by simp [hs], by simp [hs]⟩))
    · cases functional <;> exact .inl ⟨rfl, rfl, .inl (by simp)⟩
    · exact .inl ⟨rfl, rfl, .inl rfl⟩

/-- A ConsecutiveFrame is accepted in a reception only. -/
theorem InRange.of_accepted_cf (h : l.InRange) {c : Call} {p : List UInt8}
    (ha : l.accepted c = some (.cf p)) :
    ∃ e id data, c = .frame e id data ∧ l.acceptsCf data = some p ∧ l.rx.phase = .recv := by
  cases c with
  | send _ _ | poll _ | receive _ => cases ha
  | frame e id data =>
    rw [accepted] at ha
    rcases h.frame_cases e id data with
      ⟨hn, -⟩ | ⟨q, hs, -⟩ | ⟨hf, -⟩ | ⟨q, hc, hq, hp, -⟩
    · rw [hn] at ha; cases ha
    · rw [hs] at ha; cases ha
    · rw [hf] at ha; cases ha
    · rw [hc] at ha
      cases ha
      exact ⟨e, id, data, rfl, hq, hp⟩

theorem sendFc_isCts : (l.sendFc .cts).IsCts := by
  rw [CanFrame.IsCts, sendFc, txFrame_head]
  decide

/-- A SingleFrame, a FirstFrame or a ConsecutiveFrame is no FlowControl. -/
theorem txFrame_not_isCts {t : ℕ} (ht : t < 3) (n : ℕ) (buf : List UInt8) :
    ¬(l.txFrame (pciByte t n :: buf)).IsCts := by
  rintro ⟨h, -⟩
  rw [txFrame_head, pciType_pciByte n (by omega)] at h
  omega

theorem not_grants_of_none {c : Call} (h : l.handed c = none) : ¬l.Grants c := by
  rintro ⟨f, hf, -⟩
  rw [h] at hf
  cases hf

theorem grants_of_some {c : Call} (h : l.handed c = some (l.sendFc .cts)) : l.Grants c :=
  ⟨_, h, sendFc_isCts⟩

theorem not_grants_of_txFrame {c : Call} {t n : ℕ} {buf : List UInt8} (ht : t < 3)
    (h : l.handed c = some (l.txFrame (pciByte t n :: buf))) : ¬l.Grants c := by
  rintro ⟨f, hf, hcts⟩
  rw [h] at hf
  obtain rfl := Option.some.inj hf
  exact txFrame_not_isCts ht n buf hcts

/-- Only a frame makes the receive side grant. -/
theorem InRange.not_grants (h : l.InRange) {c : Call} (hc : ∀ e id data, c ≠ .frame e id data) :
    ¬l.Grants c := by
  cases c with
  | send e data =>
    rcases l.isotpSend_cases e data with
      ⟨-, -, -, hn⟩ | ⟨-, -, -, -, -, hs⟩ | ⟨-, -, -, -, -, hs⟩
    · exact not_grants_of_none hn
    · exact not_grants_of_txFrame (by decide) hs
    · exact not_grants_of_txFrame (by decide) hs
  | frame e id data => exact absurd rfl (hc e id data)
  | poll e =>
    rcases l.isotpPoll_cases e fun hs => (h.send (.inl hs)).2 with
      ⟨-, hn, -⟩ | ⟨-, -, -, hn⟩ | ⟨-, -, hs, -⟩
    · exact not_grants_of_none hn
    · exact not_grants_of_none hn
    · exact not_grants_of_txFrame (by decide) hs
  | receive outCap => exact not_grants_of_none rfl

/-- The call is due a grant: it brings a FirstFrame, or a ConsecutiveFrame that fills its block and
does not complete its message. -/
def GrantDue (l : Link) (c : Call) : Prop :=
  (∃ n six, l.accepted c = some (.ff n six)) ∨
    ∃ p, l.accepted c = some (.cf p) ∧ l.rx.off + p.length < l.rx.len ∧ l.BlockDone

/-- A frame to which nothing is answered is due no grant, unless it completes a block. -/
theorem not_grantDue {c : Call} (hff : ∀ n six, l.accepted c ≠ some (.ff n six))
    (hcf : ∀ p, l.accepted c = some (.cf p) → l.rx.off + p.length < l.rx.len → ¬l.BlockDone) :
    ¬l.GrantDue c := by
  rintro (⟨n, six, h⟩ | ⟨p, h, hlt, hb⟩)
  · exact hff n six h
  · exact hcf p h hlt hb

/-- A call that is due a grant hands it to `can_tx`, and any other call does not. -/
theorem InRange.grants_cases (h : l.InRange) (c : Call) :
    (l.GrantDue c ∧ l.handed c = some (l.sendFc .cts)) ∨ (¬l.GrantDue c ∧ ¬l.Grants c) := by
  cases c with
  | send _ _ | poll _ | receive _ =>
    exact .inr ⟨not_grantDue (fun _ _ ha => (by cases ha)) (fun _ ha => (by cases ha)),
      h.not_grants fun _ _ _ hc => (by cases hc)⟩
  | frame e id data =>
    rcases h.frame_cases e id data with
      ⟨ha, hn, -⟩ | ⟨p, ha, hn, -⟩ | ⟨ha, hs, -⟩ | ⟨p, ha, -, -, hs, -⟩
    · exact .inr ⟨not_grantDue (fun _ _ h => (by rw [accepted, ha] at h; cases h))
        (fun _ h => (by rw [accepted, ha] at h; cases h)), not_grants_of_none hn⟩
    · exact .inr ⟨not_grantDue (fun _ _ h => (by rw [accepted, ha] at h; cases h))
        (fun _ h => (by rw [accepted, ha] at h; cases h)), not_grants_of_none hn⟩
    · exact .inl ⟨.inl ⟨_, _, ha⟩, hs⟩
    · by_cases hdue : l.rx.off + p.length < l.rx.len ∧ l.BlockDone
      · rw [fcAfterCf, if_neg (Nat.not_le.2 hdue.1), if_pos hdue.2] at hs
        exact .inl ⟨.inr ⟨p, ha, hdue⟩, hs⟩
      · have hnone : l.fcAfterCf p = none := by
          unfold fcAfterCf
          split_ifs with h₁ h₂
          · rfl
          · exact absurd ⟨Nat.not_le.1 h₁, h₂⟩ hdue
          · rfl
        refine .inr ⟨not_grantDue (fun _ _ h => (by rw [accepted, ha] at h; cases h))
          fun q hq hlt hb => ?_, not_grants_of_none (hs.trans hnone)⟩
        rw [accepted, ha] at hq
        cases hq
        exact hdue ⟨hlt, hb⟩

theorem InRange.grants_iff (h : l.InRange) (c : Call) : l.Grants c ↔ l.GrantDue c := by
  rcases h.grants_cases c with ⟨hd, hs⟩ | ⟨hd, hg⟩
  · exact iff_of_true (grants_of_some hs) hd
  · exact iff_of_false hg hd

/-- Every CTS carries the block size and the separation time of the configuration. -/
theorem InRange.grant_frame (h : l.InRange) {c : Call} {f : CanFrame} (hf : l.handed c = some f)
    (hcts : f.IsCts) : f = l.sendFc .cts := by
  rcases h.grants_cases c with ⟨-, hs⟩ | ⟨-, hg⟩
  · exact Option.some.inj (hf.symm.trans hs)
  · exact absurd ⟨f, hf, hcts⟩ hg

end Link

/-! ### The counts -/

/-- The counts of a completed message: one grant for its FirstFrame and one for each full block
but the last, and as many ConsecutiveFrames as its length says if they were full. -/
def Completed.Accounted (bs : ℕ) (d : Completed) : Prop :=
  d.grants = (if bs = 0 then 1 else 1 + (d.cfs - 1) / bs) ∧
    (d.full = true → d.cfs = cfsFor d.len)

/-- How the counts hang together with the receive side. -/
structure BlockInv (bs : ℕ) (l : Link) (r : RxCount) : Prop where
  inRange : l.InRange
  bs_eq : l.cfg.bs.toNat = bs
  /-- Without a block size there is one grant. -/
  once : l.rx.phase = .recv → bs = 0 → r.grants = 1
  /-- With one, the ConsecutiveFrames are whole blocks and those of the block under way. -/
  block : l.rx.phase = .recv → bs ≠ 0 → l.rx.blockCf = r.since ∧ r.since < bs ∧
    ∃ blocks, r.grants = blocks + 1 ∧ r.cfs = blocks * bs + r.since
  full : l.rx.phase = .recv → r.full = true → l.rx.off = ffFirstData + cfMaxData * r.cfs
  done : ∀ d ∈ r.done, d.Accounted bs

namespace BlockInv

variable {bs : ℕ} {l : Link} {r : RxCount}

/-- Nothing to count: no grant, no FirstFrame and no ConsecutiveFrame. -/
theorem quiet (hi : BlockInv bs l r) {c : Call} (hg : ¬l.Grants c)
    (hff : ∀ n six, l.accepted c ≠ some (.ff n six)) (hcf : ∀ p, l.accepted c ≠ some (.cf p))
    (hrx : (∃ b, (l.step c).rx = { l.rx with complete := b }) ∨ (l.step c).rx.phase = .idle) :
    BlockInv bs (l.step c) (rxCount l c r) := by
  have hr : rxCount l c r = r := by
    unfold rxCount
    dsimp only
    split
    · exact absurd ‹_› (hff _ _)
    · exact absurd ‹_› (hcf _)
    · exact if_neg hg
  have hcfg : (l.step c).cfg.bs.toNat = bs := by rw [(l.step_sameConfig c).cfg, hi.bs_eq]
  rw [hr]
  rcases hrx with ⟨b, hrx⟩ | hidle
  · exact ⟨hi.inRange.step c, hcfg, by rw [hrx]; exact hi.once, by rw [hrx]; exact hi.block,
      by rw [hrx]; exact hi.full, hi.done⟩
  · have hne : (l.step c).rx.phase ≠ .recv := by rw [hidle]; decide
    exact ⟨hi.inRange.step c, hcfg, fun h => absurd h hne, fun h => absurd h hne,
      fun h => absurd h hne, hi.done⟩

/-- A FirstFrame is accepted: the first grant goes out. -/
theorem ff (hi : BlockInv bs l r) {c : Call} {n : ℕ} {six data : List UInt8} {now : UInt32}
    (ha : l.accepted c = some (.ff n six)) (hrx : (l.step c).rx = l.rxAfterFf data now) :
    BlockInv bs (l.step c) (rxCount l c r) := by
  have hg : l.Grants c := (hi.inRange.grants_iff c).2 (.inl ⟨n, six, ha⟩)
  have hr : rxCount l c r = r.ff.grant := by
    unfold rxCount
    rw [ha]
    exact if_pos hg
  rw [hr]
  refine ⟨hi.inRange.step c, by rw [(l.step_sameConfig c).cfg, hi.bs_eq], fun _ _ => rfl,
    fun _ hb => ?_, fun _ _ => ?_, hi.done⟩
  · rw [hrx]
    exact ⟨rfl, Nat.pos_of_ne_zero hb, 0, rfl, by simp [RxCount.ff, RxCount.grant]⟩
  · rw [hrx]
    rfl

/-- In a reception with a block size, the block is full with this ConsecutiveFrame. -/
theorem blockDone_iff (hi : BlockInv bs l r) (hp : l.rx.phase = .recv) :
    l.BlockDone ↔ bs ≠ 0 ∧ r.since + 1 = bs := by
  have h0 : l.cfg.bs = 0 ↔ bs = 0 := by
    rw [← hi.bs_eq, ← UInt8.toNat_inj]
    rfl
  have hlt := l.cfg.bs.toNat_lt
  rw [Link.BlockDone, ne_eq, h0, hi.bs_eq]
  rw [hi.bs_eq] at hlt
  refine and_congr_right fun hb => ?_
  obtain ⟨heq, hsince, -⟩ := hi.block hp hb
  rw [heq, Nat.mod_eq_of_lt (by omega)]
  omega

/-- A ConsecutiveFrame completes its message: no grant. -/
theorem cf_last (hi : BlockInv bs l r) {c : Call} {p : List UInt8}
    (ha : l.accepted c = some (.cf p)) (hp : l.rx.phase = .recv)
    (hfull : l.rx.len ≤ l.rx.off + p.length) (hidle : (l.step c).rx.phase = .idle) :
    BlockInv bs (l.step c) (rxCount l c r) := by
  have hg : ¬l.Grants c := fun h => by
    rcases (hi.inRange.grants_iff c).1 h with ⟨_, _, h⟩ | ⟨q, h, hlt, -⟩
    · rw [ha] at h; cases h
    · rw [ha] at h; cases h; omega
  have hr : rxCount l c r =
      (r.cf (p.length = min (l.rx.len - l.rx.off) cfMaxData)).complete l.rx.len := by
    unfold rxCount
    simp only [ha, if_neg hg, if_pos hfull]
  have hne : (l.step c).rx.phase ≠ .recv := by rw [hidle]; decide
  rw [hr]
  refine ⟨hi.inRange.step c, by rw [(l.step_sameConfig c).cfg, hi.bs_eq], fun h => absurd h hne,
    fun h => absurd h hne, fun h => absurd h hne, fun d hd => ?_⟩
  rcases List.mem_append.1 hd with hd | hd
  · exact hi.done d hd
  obtain rfl := List.mem_singleton.1 hd
  refine ⟨?_, fun hall => ?_⟩
  · dsimp only [RxCount.cf]
    split_ifs with hb
    · exact hi.once hp hb
    · obtain ⟨-, hsince, blocks, hgr, hcfs⟩ := hi.block hp hb
      rw [hgr, hcfs, Nat.add_sub_cancel, Nat.mul_comm, Nat.mul_add_div (Nat.pos_of_ne_zero hb),
        Nat.div_eq_of_lt hsince]
      omega
  · -- the last frame brought the rest, all before it seven bytes
    obtain ⟨hall, htake⟩ := Bool.and_eq_true_iff.1 hall
    have hoff := hi.full hp hall
    have hlen := (hi.inRange.recv hp).2
    have htake := of_decide_eq_true htake
    simp only [RxCount.cf, cfsFor, ffFirstData, cfMaxData] at hoff htake ⊢
    omega

/-- A ConsecutiveFrame is followed by more: a grant, if the block is full. -/
theorem cf_more (hi : BlockInv bs l r) {c : Call} {p : List UInt8} {now : UInt32}
    (ha : l.accepted c = some (.cf p)) (hp : l.rx.phase = .recv)
    (hlt : l.rx.off + p.length < l.rx.len) (hrx : (l.step c).rx = l.rxAfterCf p now) :
    BlockInv bs (l.step c) (rxCount l c r) := by
  have hg : l.Grants c ↔ l.BlockDone := by
    rw [hi.inRange.grants_iff c]
    constructor
    · rintro (⟨_, _, h⟩ | ⟨q, h, -, hb⟩)
      · rw [ha] at h; cases h
      · exact hb
    · exact fun hb => .inr ⟨p, ha, hlt, hb⟩
  have hr : rxCount l c r = if l.BlockDone then
      (r.cf (p.length = min (l.rx.len - l.rx.off) cfMaxData)).grant
      else r.cf (p.length = min (l.rx.len - l.rx.off) cfMaxData) := by
    unfold rxCount
    simp only [ha, if_neg (Nat.not_le.2 hlt), hg]
  have hoff : r.full = true → p.length = min (l.rx.len - l.rx.off) cfMaxData →
      l.rx.off + p.length = ffFirstData + cfMaxData * (r.cfs + 1) := fun hall htake => by
    have hoff := hi.full hp hall
    simp only [ffFirstData, cfMaxData] at hoff htake ⊢
    omega
  have hcfg : (l.step c).cfg.bs.toNat = bs := by rw [(l.step_sameConfig c).cfg, hi.bs_eq]
  by_cases hb : l.BlockDone
  · obtain ⟨hbs, hsince⟩ := (hi.blockDone_iff hp).1 hb
    obtain ⟨-, -, blocks, hgr, hcfs⟩ := hi.block hp hbs
    have hrx' := hrx.trans (by rw [Link.rxAfterCf, if_neg (Nat.not_le.2 hlt), if_pos hb])
    rw [hr, if_pos hb]
    refine ⟨hi.inRange.step c, hcfg, fun _ h => absurd h hbs, fun _ _ => ?_, fun _ hall => ?_,
      hi.done⟩
    · rw [hrx']
      refine ⟨rfl, Nat.pos_of_ne_zero hbs, blocks + 1, by simp [RxCount.cf, RxCount.grant, hgr], ?_⟩
      simp only [RxCount.cf, RxCount.grant, hcfs, Nat.succ_mul]
      omega
    · obtain ⟨hall, htake⟩ := Bool.and_eq_true_iff.1 hall
      rw [hrx']
      exact hoff hall (of_decide_eq_true htake)
  · have hrx' := hrx.trans (by rw [Link.rxAfterCf, if_neg (Nat.not_le.2 hlt), if_neg hb])
    rw [hr, if_neg hb]
    refine ⟨hi.inRange.step c, hcfg, fun _ => hi.once hp, fun _ hbs => ?_, fun _ hall => ?_,
      hi.done⟩
    · obtain ⟨heq, hsince, blocks, hgr, hcfs⟩ := hi.block hp hbs
      have hmore : r.since + 1 ≠ bs := fun h => hb ((hi.blockDone_iff hp).2 ⟨hbs, h⟩)
      have hlt := l.cfg.bs.toNat_lt
      rw [hi.bs_eq] at hlt
      rw [hrx']
      dsimp only [RxCount.cf]
      exact ⟨by rw [heq, Nat.mod_eq_of_lt (by omega)], by omega, blocks, hgr, by omega⟩
    · obtain ⟨hall, htake⟩ := Bool.and_eq_true_iff.1 hall
      rw [hrx']
      exact hoff hall (of_decide_eq_true htake)

/-- Every call keeps the counts. -/
theorem step (hi : BlockInv bs l r) (c : Call) : BlockInv bs (l.step c) (rxCount l c r) := by
  cases c with
  | send e data =>
    exact hi.quiet (hi.inRange.not_grants fun _ _ _ h => (by cases h)) (fun _ _ h => (by cases h))
      (fun _ h => (by cases h)) (.inl ⟨_, l.isotpSend_rx e data⟩)
  | poll e =>
    refine hi.quiet (hi.inRange.not_grants fun _ _ _ h => (by cases h))
      (fun _ _ h => (by cases h)) (fun _ h => (by cases h)) ?_
    exact (l.isotpPoll_rx e).imp (fun h => ⟨_, h⟩) fun h => h.1
  | receive outCap =>
    refine hi.quiet (Link.not_grants_of_none rfl) (fun _ _ h => (by cases h))
      (fun _ h => (by cases h)) (.inl ?_)
    simp only [Link.step, Link.isotpReceive]
    split_ifs <;> exact ⟨_, rfl⟩
  | frame e id data =>
    rcases hi.inRange.frame_cases e id data with
      ⟨ha, hn, hrx⟩ | ⟨p, ha, hn, hrx⟩ | ⟨ha, -, hrx⟩ | ⟨p, ha, -, hp, -, hrx⟩
    · exact hi.quiet (Link.not_grants_of_none hn)
        (fun _ _ h => (by rw [Link.accepted, ha] at h; cases h))
        (fun _ h => (by rw [Link.accepted, ha] at h; cases h))
        (hrx.imp (fun h => ⟨_, h⟩) fun h => h.1)
    · exact hi.quiet (Link.not_grants_of_none hn)
        (fun _ _ h => (by rw [Link.accepted, ha] at h; cases h))
        (fun _ h => (by rw [Link.accepted, ha] at h; cases h)) (.inr hrx)
    · exact hi.ff ha hrx
    · by_cases hfull : l.rx.len ≤ l.rx.off + p.length
      · refine hi.cf_last ha hp hfull ?_
        exact (congrArg RxSide.phase hrx).trans (by rw [Link.rxAfterCf, if_pos hfull])
      · exact hi.cf_more ha hp (Nat.not_le.1 hfull) hrx

theorem init (txId rxId funcId : UInt32) (cfg : Option Cfg) :
    BlockInv (initCfg cfg).bs.toNat (isotpInit txId rxId funcId cfg) .zero where
  inRange := Link.inRange_init txId rxId funcId cfg
  bs_eq := rfl
  once hp := by cases hp
  block hp := by cases hp
  full hp := by cases hp
  done _ hd := by cases hd

theorem of_run {txId rxId funcId : UInt32} {cfg : Option Cfg} {calls : List Call}
    (h : (linkSystem.withAux rxCount).Run (isotpInit txId rxId funcId cfg, .zero) calls (l, r)) :
    BlockInv (initCfg cfg).bs.toNat l r := by
  refine h.invariant (I := fun s => BlockInv (initCfg cfg).bs.toNat s.1 s.2)
    (init txId rxId funcId cfg) ?_
  rintro ⟨l, r⟩ c ⟨l', r'⟩ hi ⟨hst, rfl⟩
  obtain rfl : l.step c = l' := Option.some.inj hst
  exact hi.step c

end BlockInv

/-- **Flow-control accounting.**  In every run from `isotp_init()`, for every block size: a call
hands a CTS to `can_tx` exactly when it brings a FirstFrame that is accepted, or the `bs`-th
ConsecutiveFrame accepted since the last CTS and the message is not complete with it; in a
reception with a block size, `rx_block_cf` is the number of ConsecutiveFrames since the last CTS,
and below `bs`; and every message that was completed by `N` ConsecutiveFrames took
`1 + (N - 1) / bs` grants, or one without a block size, where `N` is what its length says if none
of its ConsecutiveFrames was short. -/
theorem flowControl_accounting {txId rxId funcId : UInt32} {cfg : Option Cfg} {calls : List Call}
    {l : Link} {r : RxCount}
    (h : (linkSystem.withAux rxCount).Run (isotpInit txId rxId funcId cfg, .zero) calls (l, r)) :
    (∀ c, l.Grants c ↔ (∃ n six, l.accepted c = some (.ff n six)) ∨
      ∃ p, l.accepted c = some (.cf p) ∧ l.rx.off + p.length < l.rx.len ∧
        (initCfg cfg).bs ≠ 0 ∧ r.since + 1 = (initCfg cfg).bs.toNat) ∧
    (∀ c f, l.handed c = some f → f.IsCts → f = l.sendFc .cts) ∧
    (l.rx.phase = .recv → (initCfg cfg).bs ≠ 0 →
      l.rx.blockCf = r.since ∧ r.since < (initCfg cfg).bs.toNat) ∧
    ∀ d ∈ r.done,
      d.grants = (if (initCfg cfg).bs = 0 then 1 else 1 + (d.cfs - 1) / (initCfg cfg).bs.toNat) ∧
      (d.full = true → d.cfs = cfsFor d.len) := by
  have hi := BlockInv.of_run h
  have h0 : (initCfg cfg).bs = 0 ↔ (initCfg cfg).bs.toNat = 0 := by
    rw [← UInt8.toNat_inj]
    rfl
  refine ⟨fun c => ?_, fun c f => hi.inRange.grant_frame, fun hp hb => ?_, fun d hd => ?_⟩
  · rw [hi.inRange.grants_iff c]
    refine or_congr_right (exists_congr fun p => and_congr_right fun ha => and_congr_right fun _ => ?_)
    obtain ⟨-, -, -, -, -, hp⟩ := hi.inRange.of_accepted_cf ha
    rw [hi.blockDone_iff hp, ne_eq, ne_eq, h0]
  · obtain ⟨heq, hlt, -⟩ := hi.block hp fun hb' => hb (h0.2 hb')
    exact ⟨heq, hlt⟩
  · have hd := hi.done d hd
    simp only [h0]
    exact hd

/-- A message of twenty bytes, block size one: the link, and the counts after it. -/
def twentyBytes : List Call :=
  [.frame ⟨0, true⟩ 0x7E0 [0x10, 20, 1, 2, 3, 4, 5, 6],
    .frame ⟨1, true⟩ 0x7E0 [0x21, 7, 8, 9, 10, 11, 12, 13],
    .frame ⟨2, true⟩ 0x7E0 [0x22, 14, 15, 16, 17, 18, 19, 20]]

/-- The counts after a list of calls. -/
def countsAfter (cfg : Option Cfg) (calls : List Call) : Link × RxCount :=
  calls.foldl (fun p c => (p.1.step c, rxCount p.1 c p.2))
    (isotpInit 0x7E8 0x7E0 0x7DF cfg, .zero)

theorem flowControl_accounting_twentyBytes :
    (countsAfter (some ⟨0, 0, 0, 0, 1, 0, 0, 0xFF⟩) twentyBytes).2.done = [⟨20, 2, 2, true⟩] ∧
      2 = cfsFor 20 := by
  have hdone : (countsAfter (some ⟨0, 0, 0, 0, 1, 0, 0, 0xFF⟩) twentyBytes).2.done =
      [⟨20, 2, 2, true⟩] := by decide +kernel
  have h := @flowControl_accounting _ _ _ (some ⟨0, 0, 0, 0, 1, 0, 0, 0xFF⟩) _ _ _
    (System.Run.foldl Link.step rxCount (isotpInit 0x7E8 0x7E0 0x7DF _, .zero) twentyBytes)
  refine ⟨hdone, (h.2.2.2 ⟨20, 2, 2, true⟩ ?_).2 rfl⟩
  exact hdone ▸ List.mem_singleton_self _

/-! ### Short ConsecutiveFrames -/

namespace Link

/-- A ConsecutiveFrame on the physical address with the sequence number that is due. -/
def IsNextCf (l : Link) : Call → Prop
  | .frame _ id data => (1 ≤ data.length ∧ data.length ≤ isotpCanDl) ∧
      l.addressed id = some false ∧ pciType (data.getD 0 0) = 2 ∧ pciLow (data.getD 0 0) = l.rx.sn
  | _ => False

/-- The payload bytes a frame has room for behind its first byte. -/
def payloadRoom : Call → ℕ
  | .frame _ _ data => data.length - 1
  | _ => 0

/-- A ConsecutiveFrame that could complete the message brings what is left of it. -/
def FullTail (l : Link) (c : Call) : Prop :=
  l.rx.phase = .recv → l.IsNextCf c → l.rx.len - l.rx.off ≤ cfMaxData →
    l.rx.len - l.rx.off ≤ payloadRoom c

/-- What the accept condition is to do in a call: a ConsecutiveFrame that is accepted has room for
seven bytes or for all that is left, and a shorter one ends the reception. -/
def CarriesAll (l : Link) (c : Call) : Prop :=
  (∀ p, l.accepted c = some (.cf p) → min (l.rx.len - l.rx.off) cfMaxData ≤ payloadRoom c) ∧
    (l.rx.phase = .recv → l.IsNextCf c → payloadRoom c < min (l.rx.len - l.rx.off) cfMaxData →
      RxAborted (l.step c).rx)

variable {l : Link} {c : Call}

theorem isotpOnCanFrame_nextCf {e : Env} {id : UInt32} {data : List UInt8}
    (h : l.IsNextCf (.frame e id data)) : l.isotpOnCanFrame e id data = l.handleCf e data :=
  l.isotpOnCanFrame_cf e data (by have := h.1; omega) h.2.1 h.2.2.1

theorem rxEvent_nextCf {e : Env} {id : UInt32} {data : List UInt8}
    (h : l.IsNextCf (.frame e id data)) : l.rxEvent id data = (l.acceptsCf data).map .cf := by
  obtain ⟨hd, ha, ht, -⟩ := h
  simp only [rxEvent, if_neg (by omega : ¬(data.length < 1 ∨ isotpCanDl < data.length)), ha, ht]

/-- Only the ConsecutiveFrame that is due is accepted. -/
theorem isNextCf_of_accepted {p : List UInt8} (h : l.accepted c = some (.cf p)) :
    l.IsNextCf c := by
  cases c with
  | send _ _ | poll _ | receive _ => cases h
  | frame e id data =>
    simp only [accepted, rxEvent] at h
    split at h
    · cases h
    rename_i hd
    split at h
    · simp at h
    · split at h <;> simp at h
    · rename_i ha ht
      obtain ⟨q, hq, -⟩ := Option.map_eq_some_iff.1 h
      unfold acceptsCf at hq
      split_ifs at hq with hc
      exact ⟨by omega, ha, ht, hc.2.1⟩
    · cases h

/-- The branch that takes less than what is left is not reached exactly when every
ConsecutiveFrame that is accepted carries what it has to. -/
theorem InRange.carriesAll_iff (h : l.InRange) : l.CarriesAll c ↔ l.FullTail c := by
  constructor
  · intro hc hp hn hle
    cases c with
    | send _ _ | poll _ | receive _ => exact hn.elim
    | frame e id data =>
      have ha : l.accepted (.frame e id data) = some (.cf ((data.drop 1).take
          (min (l.rx.len - l.rx.off) cfMaxData))) := by
        rw [accepted, rxEvent_nextCf hn, acceptsCf, if_pos ⟨hp, hn.2.2.2, .inl hle⟩]
        rfl
      have hroom := hc.1 _ ha
      rwa [min_eq_left hle] at hroom
  · intro hf
    have hacc : ∀ p, l.accepted c = some (.cf p) →
        min (l.rx.len - l.rx.off) cfMaxData ≤ payloadRoom c := fun p ha => by
      obtain ⟨e, id, data, rfl, hp, hr⟩ := h.of_accepted_cf ha
      have hn := isNextCf_of_accepted ha
      unfold acceptsCf at hp
      split_ifs at hp with hc
      rcases hc.2.2 with hle | hroom
      · exact (min_le_left _ _).trans (hf hr hn hle)
      · exact (min_le_right _ _).trans hroom
    refine ⟨hacc, fun hr hn hlt => ?_⟩
    cases c with
    | send _ _ | poll _ | receive _ => exact hn.elim
    | frame e id data =>
      cases hp : l.acceptsCf data with
      | some p =>
        have ha : l.accepted (.frame e id data) = some (.cf p) := by
          rw [accepted, rxEvent_nextCf hn, hp]
          rfl
        exact absurd (hacc p ha) (Nat.not_le.2 hlt)
      | none =>
        rw [Link.step, isotpOnCanFrame_nextCf hn]
        obtain ⟨-, ⟨hne, -⟩ | ⟨-, ha, -⟩⟩ :=
          l.handleCf_none e data h.len (fun hr => (h.recv hr).2) hp
        · exact absurd hr hne
        · exact ha

/-- Under the condition an accepted ConsecutiveFrame gives seven bytes or all that is left. -/
theorem InRange.length_accepted (h : l.InRange) (hf : l.FullTail c) {p : List UInt8}
    (ha : l.accepted c = some (.cf p)) : p.length = min (l.rx.len - l.rx.off) cfMaxData := by
  have hroom := (h.carriesAll_iff.2 hf).1 p ha
  obtain ⟨e, id, data, rfl, hp, -⟩ := h.of_accepted_cf ha
  unfold acceptsCf at hp
  split_ifs at hp
  obtain rfl := Option.some.inj hp
  rw [List.length_take, List.length_drop]
  exact min_eq_left hroom

end Link

/-- No ConsecutiveFrame of the record was short. -/
def RxCount.AllFull (r : RxCount) : Prop := r.full = true ∧ ∀ d ∈ r.done, d.full = true

theorem RxCount.AllFull.step {l : Link} {c : Call} {r : RxCount} (h : r.AllFull)
    (hall : ∀ p, l.accepted c = some (.cf p) →
      p.length = min (l.rx.len - l.rx.off) cfMaxData) : (rxCount l c r).AllFull := by
  have hgrant : ∀ s : RxCount, s.AllFull → (if l.Grants c then s.grant else s).AllFull :=
    fun s hs => by split_ifs <;> exact hs
  unfold rxCount
  dsimp only
  split
  · exact hgrant _ ⟨rfl, h.2⟩
  · rename_i p ha
    have hcf : (r.cf (p.length = min (l.rx.len - l.rx.off) cfMaxData)).AllFull :=
      ⟨by simp [RxCount.cf, h.1, hall p ha], h.2⟩
    have hg := hgrant _ hcf
    generalize (if l.Grants c then _ else _ : RxCount) = s at hg ⊢
    split_ifs
    · refine ⟨hg.1, fun d hd => ?_⟩
      rcases List.mem_append.1 hd with hd | hd
      · exact hg.2 d hd
      · rw [List.mem_singleton.1 hd]
        exact hg.1
    · exact hg
  · exact hgrant r h

/-- **Well-formed ConsecutiveFrames.**  In every run from `isotp_init()` in which each
ConsecutiveFrame that is due, and that could complete the message, brings what is left of it: a
reception that has accepted `k` ConsecutiveFrames is at offset `6 + 7 k`, every message of `n`
bytes was completed by `⌈(n - 6) / 7⌉` of them, and the next call accepts only what carries enough,
and gives the reception up otherwise, exactly when it meets the condition too. -/
theorem cfs_wellFormed {txId rxId funcId : UInt32} {cfg : Option Cfg} {calls : List Call}
    {l : Link} {r : RxCount}
    (h : ((linkSystem.guard Link.FullTail).withAux rxCount).Run
      (isotpInit txId rxId funcId cfg, .zero) calls (l, r)) :
    (l.rx.phase = .recv → l.rx.off = 6 + 7 * r.cfs) ∧ (∀ d ∈ r.done, d.cfs = cfsFor d.len) ∧
      ∀ c, l.CarriesAll c ↔ l.FullTail c := by
  have hi := BlockInv.of_run (System.Run.of_guard_withAux h)
  have hfull : r.AllFull := by
    refine (h.invariant (I := fun s => s.1.InRange ∧ s.2.AllFull)
      ⟨Link.inRange_init txId rxId funcId cfg, rfl, fun _ hd => by cases hd⟩ ?_).2
    rintro ⟨l, r⟩ c ⟨l', r'⟩ ⟨hin, ha⟩ ⟨⟨hf, hst⟩, rfl⟩
    obtain rfl : l.step c = l' := Option.some.inj hst
    exact ⟨hin.step c, ha.step fun p hp => hin.length_accepted hf hp⟩
  exact ⟨fun hp => hi.full hp hfull.1, fun d hd => (hi.done d hd).2 (hfull.2 d hd),
    fun c => hi.inRange.carriesAll_iff⟩

theorem cfs_wellFormed_twentyBytes :
    (countsAfter none twentyBytes).2.done = [⟨20, 2, 1, true⟩] ∧ 2 = cfsFor 20 := by
  have h₀ : ((linkSystem.guard Link.FullTail).withAux rxCount).Run
      (isotpInit 0x7E8 0x7E0 0x7DF none, .zero) [] _ := .nil
  have h₁ := h₀.snocFun (.frame ⟨0, true⟩ 0x7E0 [0x10, 20, 1, 2, 3, 4, 5, 6])
    fun hp => (by cases hp)
  have h₂ := h₁.snocFun (.frame ⟨1, true⟩ 0x7E0 [0x21, 7, 8, 9, 10, 11, 12, 13])
    fun _ _ hle => absurd hle (by decide +kernel)
  have h₃ := h₂.snocFun (.frame ⟨2, true⟩ 0x7E0 [0x22, 14, 15, 16, 17, 18, 19, 20])
    fun _ _ _ => (by decide +kernel)
  have hdone : (countsAfter none twentyBytes).2.done = [⟨20, 2, 1, true⟩] := by decide +kernel
  refine ⟨hdone, (cfs_wellFormed h₃).2.1 ⟨20, 2, 1, true⟩ ?_⟩
  exact hdone ▸ List.mem_singleton_self _

/-- A ConsecutiveFrame without a byte of payload, where four bytes are left of a message: it is
accepted, and the reception stays where it is. -/
theorem emptyCf_accepted : ¬∀ (calls : List Call) (l : Link) (r : RxCount),
    (linkSystem.withAux rxCount).Run (testLink, .zero) calls (l, r) →
      (l.rx.phase = .recv → l.rx.off = 6 + 7 * r.cfs) ∧ (∀ d ∈ r.done, d.cfs = cfsFor d.len) ∧
        ∀ c, l.CarriesAll c := by
  intro hall
  have h := hall [.frame ⟨0, true⟩ 0x7E0 [0x10, 10, 1, 2, 3, 4, 5, 6],
    .frame ⟨1, true⟩ 0x7E0 [0x21]] _ _ (System.Run.foldl Link.step rxCount _ _)
  exact absurd (h.1 (by decide +kernel)) (by decide +kernel)

end IsoTp

end Espcan32
