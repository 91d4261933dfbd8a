import Espcan32.IsoTp.Bounds

/-!
# The WAIT budget

A receiver that is not ready answers with FC.WAIT, and the sender starts its wait over; `wft_max`
bounds how often in a row.  `waitRecord` counts the FC.WAIT frames since the link began to wait
for flow control.  Any other FlowControl frame ends the wait, so these are consecutive ones.

The counter of the source is a byte, incremented before it is compared with `wft_max`.

* `WaitInv.step` : below the top of the byte, the counter is the number of FC.WAITs.
* `held` : with `wft_max = 255` the peer holds the sender for any number of FC.WAITs.
* `waitBudget_iff` : **the budget is kept exactly when `wft_max` is not 255.**
-/

namespace Espcan32

namespace IsoTp

namespace Link

/-- A FC.WAIT frame on the physical address. -/
def IsWait (l : Link) : Call → Prop
  | .frame _ id data => l.IsFc data id ∧ pciLow (data.getD 0 0) = 1
  | _ => False

instance (l : Link) : (c : Call) → Decidable (l.IsWait c)
  | .frame _ id data => inferInstanceAs (Decidable (l.IsFc data id ∧ pciLow (data.getD 0 0) = 1))
  | .send _ _ | .poll _ | .receive _ => .isFalse id

variable (l : Link) (e : Env) (data : List UInt8)

/-- What a FC.WAIT frame does while flow control is awaited. -/
theorem handleFc_wait (hw : l.tx.phase = .waitFc) (h1 : pciLow (data.getD 0 0) = 1) :
    (l.handleFc e data).tx =
      if l.cfg.wftMax.toNat < (l.tx.wft + 1) % 256 then
        { l.tx with
          phase := .idle, len := 0, off := 0, sn := 0, bsLeft := 0, stmin := 0, wft := 0 }
      else { l.tx with wft := (l.tx.wft + 1) % 256, timer := e.now } := by
  simp only [handleFc, hw, h1, ne_eq, not_true_eq_false, ↓reduceIte]
  split_ifs <;> simp [txReset]

end Link

/-- The FC.WAIT frames since the link began to wait for flow control. -/
def waitRecord (l : Link) (c : Call) (n : ℕ) : ℕ :=
  if l.tx.phase = .waitFc then if l.IsWait c then n + 1 else n else 0

/-- In every run from `isotp_init()`, while flow control is awaited: `wft_max` consecutive FC.WAIT
frames restart the wait and leave the transfer as it is, and the next one abandons it. -/
def WaitBudget (txId rxId funcId : UInt32) (cfg : Option Cfg) : Prop :=
  ∀ calls l n, (linkSystem.withAux waitRecord).Run (isotpInit txId rxId funcId cfg, 0) calls (l, n) →
    l.tx.phase = .waitFc →
      n ≤ (initCfg cfg).wftMax.toNat ∧
      ∀ e id data, l.IsWait (.frame e id data) →
        (n < (initCfg cfg).wftMax.toNat →
          (l.step (.frame e id data)).tx = { l.tx with wft := n + 1, timer := e.now }) ∧
        (n = (initCfg cfg).wftMax.toNat → (l.step (.frame e id data)).tx.phase = .idle)

/-! ### Below the top of the byte -/

/-- While flow control is awaited the counter is the number of FC.WAITs, which is within the
limit; a grant has cleared it. -/
structure WaitInv (limit : ℕ) (l : Link) (n : ℕ) : Prop where
  inRange : l.InRange
  limit_eq : l.cfg.wftMax.toNat = limit
  waitFc : l.tx.phase = .waitFc → l.tx.wft = n ∧ n ≤ limit
  send : l.tx.phase = .send → l.tx.wft = 0

namespace WaitInv

variable {limit n : ℕ} {l : Link} {e : Env} {id : UInt32} {data : List UInt8}

/-- The part of the invariant about the send side. -/
def Tx (limit n : ℕ) (t : TxSide) : Prop :=
  (t.phase = .waitFc → t.wft = n ∧ n ≤ limit) ∧ (t.phase = .send → t.wft = 0)

theorem tx_of_idle {t : TxSide} (h : t.phase = .idle) : Tx limit n t :=
  ⟨fun hp => (by rw [h] at hp; cases hp), fun hp => (by rw [h] at hp; cases hp)⟩

/-- A FC.WAIT frame within the budget, below the top of the byte. -/
theorem wait_lt (hi : WaitInv limit l n) (hlim : limit < 255) (hw : l.tx.phase = .waitFc)
    (h : l.IsWait (.frame e id data)) (hn : n < limit) :
    (l.step (.frame e id data)).tx = { l.tx with wft := n + 1, timer := e.now } := by
  have hwft := (hi.waitFc hw).1
  have hstep : l.step (.frame e id data) = l.handleFc e data :=
    congrArg Prod.fst (l.isotpOnCanFrame_fc e data h.1)
  rw [hstep, l.handleFc_wait e data hw h.2, hi.limit_eq, hwft, if_neg (by omega),
    Nat.mod_eq_of_lt (by omega)]

/-- The FC.WAIT frame beyond the budget. -/
theorem wait_eq (hi : WaitInv limit l n) (hlim : limit < 255) (hw : l.tx.phase = .waitFc)
    (h : l.IsWait (.frame e id data)) (hn : n = limit) :
    (l.step (.frame e id data)).tx.phase = .idle := by
  have hwft := (hi.waitFc hw).1
  have hstep : l.step (.frame e id data) = l.handleFc e data :=
    congrArg Prod.fst (l.isotpOnCanFrame_fc e data h.1)
  rw [hstep, l.handleFc_wait e data hw h.2, hi.limit_eq, hwft, if_pos (by omega)]

/-- A call that leaves the send side alone and is no FC.WAIT. -/
theorem tx_same (hi : WaitInv limit l n) {c : Call} (hc : ¬l.IsWait c)
    (ht : (l.step c).tx = l.tx) : Tx limit (waitRecord l c n) (l.step c).tx := by
  rw [ht, waitRecord]
  refine ⟨fun hw => ?_, hi.send⟩
  rw [if_pos hw, if_neg hc]
  exact hi.waitFc hw

theorem tx_frame (hi : WaitInv limit l n) (hlim : limit < 255) :
    Tx limit (waitRecord l (.frame e id data) n) (l.step (.frame e id data)).tx := by
  by_cases hf : l.IsFc data id
  swap
  · exact hi.tx_same (fun h => hf h.1) (l.isotpOnCanFrame_tx e data hf)
  have hstep : l.step (.frame e id data) = l.handleFc e data :=
    congrArg Prod.fst (l.isotpOnCanFrame_fc e data hf)
  by_cases h1 : l.tx.phase = .waitFc ∧ pciLow (data.getD 0 0) = 1
  · have hwait : l.IsWait (.frame e id data) := ⟨hf, h1.2⟩
    obtain ⟨hwft, hle⟩ := hi.waitFc h1.1
    rw [waitRecord, if_pos h1.1, if_pos hwait]
    rcases Nat.lt_or_eq_of_le hle with hlt | heq
    · rw [hi.wait_lt hlim h1.1 hwait hlt]
      exact ⟨fun _ => ⟨rfl, hlt⟩, fun hs => absurd (h1.1.symm.trans hs) (by decide)⟩
    · exact tx_of_idle (hi.wait_eq hlim h1.1 hwait heq)
  · rw [hstep]
    rcases l.handleFc_cases e data with ⟨hp, hu⟩ | ⟨-, _, _, -, hc⟩ | ⟨-, -, -, hidle⟩ |
      ⟨hw, hc, hg, -⟩
    · rw [hu]
      exact ⟨fun hw => absurd hw hp, hi.send⟩
    · rw [hc]
      exact ⟨fun hw => (by cases hw), fun _ => rfl⟩
    · exact tx_of_idle hidle
    · -- neither a grant nor the end of the transfer: a WAIT
      have h0 : pciLow (data.getD 0 0) ≠ 0 := fun h0 => by
        rw [Link.ctsOf, if_pos h0] at hc
        cases hc
      have h2 : ¬2 ≤ pciLow (data.getD 0 0) := fun h => hg (.inr h)
      exact absurd ⟨hw, by omega⟩ h1

theorem tx_send (hi : WaitInv limit l n) :
    Tx limit (waitRecord l (.send e data) n) (l.step (.send e data)).tx := by
  rcases l.isotpSend_cases e data with
    ⟨-, -, hu, -⟩ | ⟨-, -, -, -, hidle, -⟩ | ⟨hp, -, -, -, ⟨-, hs⟩ | ⟨-, hidle⟩, -⟩
  · exact hi.tx_same id (by rw [Link.step, hu])
  · exact tx_of_idle hidle
  · rw [Link.step, hs, waitRecord, if_neg (by rw [hp]; decide)]
    exact ⟨fun _ => ⟨rfl, Nat.zero_le _⟩, fun h => (by cases h)⟩
  · exact tx_of_idle hidle

theorem tx_poll (hi : WaitInv limit l n) :
    Tx limit (waitRecord l (.poll e) n) (l.step (.poll e)).tx := by
  rcases l.isotpPoll_cases e fun hs => (hi.inRange.send (.inl hs)).2 with
    ⟨hu, -⟩ | ⟨-, -, hidle, -⟩ | ⟨hs, -, -, ⟨-, hidle⟩ | ⟨-, -, hidle⟩ | ⟨-, -, hc⟩⟩
  · exact hi.tx_same id hu
  · exact tx_of_idle hidle
  · exact tx_of_idle hidle
  · exact tx_of_idle hidle
  · -- the last frame of a block begins a wait with a cleared counter
    rw [Link.step, hc, waitRecord, if_neg (by rw [hs]; decide)]
    exact ⟨fun _ => ⟨hi.send hs, Nat.zero_le _⟩, fun _ => hi.send hs⟩

/-- Below the top of the byte, every call keeps the counter equal to the number of FC.WAITs. -/
theorem step (hi : WaitInv limit l n) (hlim : limit < 255) (c : Call) :
    WaitInv limit (l.step c) (waitRecord l c n) := by
  have htx : Tx limit (waitRecord l c n) (l.step c).tx := by
    cases c with
    | send e data => exact hi.tx_send
    | frame e id data => exact hi.tx_frame hlim
    | poll e => exact hi.tx_poll
    | receive outCap => exact hi.tx_same id (l.isotpReceive_tx outCap)
  exact ⟨hi.inRange.step c, by rw [(l.step_sameConfig c).cfg, hi.limit_eq], htx.1, htx.2⟩

end WaitInv

/-! ### At the top of the byte -/

variable (txId rxId funcId : UInt32) {cfg : Option Cfg}

/-- With `wft_max = 255` the counter wraps before it can exceed the limit. -/
theorem held_step {l : Link} (hcfg : l.cfg.wftMax = 255) (hw : l.tx.phase = .waitFc) (e : Env) :
    (l.step (.frame e l.rxId [0x31])).tx.phase = .waitFc ∧ l.IsWait (.frame e l.rxId [0x31]) := by
  have hwait : l.IsWait (.frame e l.rxId [0x31]) :=
    ⟨⟨by decide, by rw [Link.addressed, if_pos rfl], by decide⟩, by decide⟩
  have hstep : l.step (.frame e l.rxId [0x31]) = l.handleFc e [0x31] :=
    congrArg Prod.fst (l.isotpOnCanFrame_fc e [0x31] hwait.1)
  have h255 : (255 : UInt8).toNat = 255 := rfl
  rw [hstep, l.handleFc_wait e [0x31] hw hwait.2, hcfg, h255, if_neg (by omega)]
  exact ⟨hw, hwait⟩

/-- With `wft_max = 255` the peer holds the sender for any number of FC.WAITs. -/
theorem held (hcfg : (initCfg cfg).wftMax = 255) (k : ℕ) : ∃ calls l,
    (linkSystem.withAux waitRecord).Run (isotpInit txId rxId funcId cfg, 0) calls (l, k) ∧
      l.tx.phase = .waitFc := by
  suffices h : ∃ calls l,
      (linkSystem.withAux waitRecord).Run (isotpInit txId rxId funcId cfg, 0) calls (l, k) ∧
        l.tx.phase = .waitFc ∧ l.cfg.wftMax = 255 by
    obtain ⟨calls, l, hrun, hw, -⟩ := h
    exact ⟨calls, l, hrun, hw⟩
  induction k with
  | zero =>
    refine ⟨_, _, .snoc (l := .send ⟨0, true⟩ (.replicate 8 0)) .nil ⟨rfl, ?_⟩, ?_, ?_⟩
    · rfl
    · rfl
    · exact hcfg
  | succ k ih =>
    obtain ⟨calls, l, hrun, hw, hl⟩ := ih
    obtain ⟨hphase, hwait⟩ := held_step hl hw ⟨0, true⟩
    have hst : (linkSystem.withAux waitRecord).step (l, k) (.frame ⟨0, true⟩ l.rxId [0x31])
        (l.step (.frame ⟨0, true⟩ l.rxId [0x31]), k + 1) :=
      ⟨rfl, by rw [waitRecord, if_pos hw, if_pos hwait]⟩
    exact ⟨_, _, .snoc hrun hst, hphase, by rw [(l.step_sameConfig _).cfg, hl]⟩

theorem not_waitBudget (hcfg : (initCfg cfg).wftMax = 255) :
    ¬WaitBudget txId rxId funcId cfg := by
  intro hb
  obtain ⟨calls, l, hrun, hw⟩ := held txId rxId funcId hcfg 256
  have hle := (hb calls l 256 hrun hw).1
  rw [hcfg] at hle
  exact absurd hle (by decide)

/-- **The WAIT budget.**  The link tolerates `wft_max` consecutive FC.WAIT frames and abandons the
transfer at the next one, in every run, exactly when `wft_max` is not 255. -/
theorem waitBudget_iff : WaitBudget txId rxId funcId cfg ↔ (initCfg cfg).wftMax ≠ 255 := by
  refine ⟨fun hb hcfg => not_waitBudget txId rxId funcId hcfg hb, fun hne calls l n hrun hw => ?_⟩
  have hlim : (initCfg cfg).wftMax.toNat < 255 := by
    have h := (initCfg cfg).wftMax.toNat_lt
    have h' : (initCfg cfg).wftMax.toNat ≠ 255 := fun h => hne (UInt8.toNat_inj.1 h)
    omega
  have hinv : WaitInv (initCfg cfg).wftMax.toNat l n := by
    refine hrun.invariant (I := fun s => WaitInv (initCfg cfg).wftMax.toNat s.1 s.2) ?_ ?_
    · exact ⟨Link.inRange_init txId rxId funcId cfg, rfl, fun h => (by cases h),
        fun h => (by cases h)⟩
    · rintro ⟨l, n⟩ c ⟨l', n'⟩ hi ⟨hst, rfl⟩
      obtain rfl : l.step c = l' := Option.some.inj hst
      exact hi.step hlim c
  exact ⟨(hinv.waitFc hw).2, fun e id data h =>
    ⟨fun hlt => hinv.wait_lt hlim hw h hlt, fun heq => hinv.wait_eq hlim hw h heq⟩⟩

/-- A configuration with `wft_max = 255` and no padding. -/
def wft255 : Cfg := ⟨0, 0, 0, 0, 0, 0, 255, 0xFF⟩

theorem waitBudget_wft255 : ¬WaitBudget 0x7E8 0x7E0 0x7DF (some wft255) :=
  not_waitBudget _ _ _ rfl

end IsoTp

end Espcan32
