import Espcan32.IsoTp.Basic
import Mathlib.Tactic.SplitIfs

/-!
# The two sides of a link

The send side and the receive side of a link share nothing but the addresses and the
configuration, which no call changes.  This file says which calls touch which side, and what the
calls that drive the send side do to it.

* `step_sameConfig` : no call changes the addresses or the configuration.
* `isotpSend_cases`, `handleFc_cases`, `isotpPoll_cases` : every way the send side can move.
-/

namespace Espcan32

namespace IsoTp

namespace Link

/-- Same addresses, same configuration. -/
structure SameConfig (l l' : Link) : Prop where
  txId : l'.txId = l.txId
  rxId : l'.rxId = l.rxId
  funcId : l'.funcId = l.funcId
  cfg : l'.cfg = l.cfg

namespace SameConfig

variable {l l' l'' : Link}

theorem refl (l : Link) : SameConfig l l := ⟨rfl, rfl, rfl, rfl⟩

theorem trans (h : SameConfig l l') (h' : SameConfig l' l'') : SameConfig l l'' :=
  ⟨h'.txId.trans h.txId, h'.rxId.trans h.rxId, h'.funcId.trans h.funcId, h'.cfg.trans h.cfg⟩

theorem txFrame (h : SameConfig l l') (buf : List UInt8) : l'.txFrame buf = l.txFrame buf := by
  simp only [Link.txFrame, h.txId, h.cfg]

theorem sendFc (h : SameConfig l l') (fs : Fs) : l'.sendFc fs = l.sendFc fs := by
  rw [Link.sendFc, Link.sendFc, h.txFrame, h.cfg]

theorem addressed (h : SameConfig l l') (id : UInt32) : l'.addressed id = l.addressed id := by
  simp only [Link.addressed, h.rxId, h.funcId]

end SameConfig

variable (l : Link) (e : Env) (data : List UInt8)

/-! ### What the handlers of one side leave alone -/

theorem handleSf_eq (functional : Bool) : ∃ rx, l.handleSf data functional = { l with rx := rx } := by
  unfold handleSf
  extract_lets len
  split
  · exact ⟨_, rfl⟩
  split
  · exact ⟨_, rfl⟩
  split <;> exact ⟨_, rfl⟩

theorem handleFf_eq : ∃ rx, (l.handleFf e data).1 = { l with rx := rx } := by
  unfold handleFf
  split
  · exact ⟨_, rfl⟩
  split
  · exact ⟨_, rfl⟩
  split <;> exact ⟨_, rfl⟩

theorem handleCf_eq : ∃ rx, (l.handleCf e data).1 = { l with rx := rx } := by
  unfold handleCf
  extract_lets dlc remaining avail take take' l'
  split
  · exact ⟨_, rfl⟩
  split
  · exact ⟨_, rfl⟩
  split
  · exact ⟨_, rfl⟩
  split
  · exact ⟨_, rfl⟩
  split <;> exact ⟨_, rfl⟩

theorem handleFc_eq : ∃ tx, l.handleFc e data = { l with tx := tx } := by
  unfold handleFc
  extract_lets dlc
  split
  · exact ⟨_, rfl⟩
  split
  · exact ⟨_, rfl⟩
  · split <;> exact ⟨_, rfl⟩
  · exact ⟨_, rfl⟩

theorem isotpSend_eq : ∃ tx, (l.isotpSend e data).1 = { l with tx := tx } := by
  unfold isotpSend
  dsimp only
  split_ifs <;> exact ⟨_, rfl⟩

theorem pollRx_eq : ∃ rx, l.pollRx e = { l with rx := rx } := by
  unfold pollRx
  split <;> exact ⟨_, rfl⟩

theorem cfSent_eq (f : CanFrame) (off : ℕ) : ∃ tx, (l.cfSent e f off).1 = { l with tx := tx } := by
  unfold cfSent
  dsimp only
  split_ifs <;> exact ⟨_, rfl⟩

theorem pollTx_eq : ∃ tx, (l.pollTx e).1 = { l with tx := tx } := by
  unfold pollTx
  split
  · split <;> exact ⟨_, rfl⟩
  split
  swap
  · exact ⟨_, rfl⟩
  split
  swap
  · exact ⟨_, rfl⟩
  extract_lets remaining n f
  split
  · exact ⟨_, rfl⟩
  · exact cfSent_eq l e f _

/-- A poll moves the send side by its send half and the receive side, unless the send half
returns, by its receive half. -/
theorem isotpPoll_eq : (l.isotpPoll e).1 = { l with
    tx := (l.pollTx e).1.tx, rx := if (l.pollTx e).2.2 then l.rx else (l.pollRx e).rx } := by
  obtain ⟨tx, h⟩ := pollTx_eq l e
  have hrx : ((l.pollTx e).1.pollRx e) = { l with tx := tx, rx := (l.pollRx e).rx } := by
    rw [h]; unfold pollRx; split <;> rfl
  simp only [isotpPoll]
  split
  · rw [h]
  · rw [hrx, h]

theorem isotpReceive_eq (outCap : ℕ) : ∃ rx, (l.isotpReceive outCap).1 = { l with rx := rx } := by
  unfold isotpReceive
  split
  · exact ⟨_, rfl⟩
  split <;> exact ⟨_, rfl⟩

/-- A frame moves one side only. -/
theorem isotpOnCanFrame_eq (id : UInt32) :
    (∃ rx, (l.isotpOnCanFrame e id data).1 = { l with rx := rx }) ∨
      ∃ tx, (l.isotpOnCanFrame e id data).1 = { l with tx := tx } := by
  unfold isotpOnCanFrame
  split
  · exact .inl ⟨_, rfl⟩
  split
  · exact .inl ⟨_, rfl⟩
  · rename_i functional _
    have hid : ∃ rx, l = { l with rx := rx } := ⟨l.rx, rfl⟩
    split
    · exact .inl (handleSf_eq l data functional)
    · split
      · exact .inl hid
      · exact .inl (handleFf_eq l e data)
    · split
      · exact .inl hid
      · exact .inl (handleCf_eq l e data)
    · split
      · exact .inl hid
      · exact .inr (handleFc_eq l e data)
    · exact .inl hid

@[simp] theorem handleSf_tx (functional : Bool) : (l.handleSf data functional).tx = l.tx := by
  obtain ⟨_, h⟩ := handleSf_eq l data functional; rw [h]

@[simp] theorem handleFf_tx : (l.handleFf e data).1.tx = l.tx := by
  obtain ⟨_, h⟩ := handleFf_eq l e data; rw [h]

@[simp] theorem handleCf_tx : (l.handleCf e data).1.tx = l.tx := by
  obtain ⟨_, h⟩ := handleCf_eq l e data; rw [h]

@[simp] theorem pollRx_tx : (l.pollRx e).tx = l.tx := by
  obtain ⟨_, h⟩ := pollRx_eq l e; rw [h]

@[simp] theorem isotpReceive_tx (outCap : ℕ) : (l.isotpReceive outCap).1.tx = l.tx := by
  obtain ⟨_, h⟩ := isotpReceive_eq l outCap; rw [h]

@[simp] theorem handleFc_rx : (l.handleFc e data).rx = l.rx := by
  obtain ⟨_, h⟩ := handleFc_eq l e data; rw [h]

@[simp] theorem isotpSend_rx : (l.isotpSend e data).1.rx = l.rx := by
  obtain ⟨_, h⟩ := isotpSend_eq l e data; rw [h]

/-! ### The configuration -/

theorem step_sameConfig (c : Call) : SameConfig l (l.step c) := by
  cases c with
  | send e data =>
    obtain ⟨_, h⟩ := isotpSend_eq l e data
    rw [step, h]; exact ⟨rfl, rfl, rfl, rfl⟩
  | frame e id data =>
    rw [step]
    obtain ⟨_, h⟩ | ⟨_, h⟩ := isotpOnCanFrame_eq l e data id <;>
      rw [h] <;> exact ⟨rfl, rfl, rfl, rfl⟩
  | poll e =>
    rw [step, isotpPoll_eq]; exact ⟨rfl, rfl, rfl, rfl⟩
  | receive outCap =>
    obtain ⟨_, h⟩ := isotpReceive_eq l outCap
    rw [step, h]; exact ⟨rfl, rfl, rfl, rfl⟩

/-! ### The receive side -/

/-- A reception given up: the phase is idle and no length is left. -/
def RxAborted (r : RxSide) : Prop := r.phase = .idle ∧ r.len = 0

theorem pollRx_rx : (l.pollRx e).rx = l.rx ∨ RxAborted (l.pollRx e).rx := by
  unfold pollRx
  split_ifs
  · exact .inr ⟨rfl, rfl⟩
  · exact .inl rfl

theorem isotpPoll_rx : (l.isotpPoll e).1.rx = l.rx ∨ RxAborted (l.isotpPoll e).1.rx := by
  rw [isotpPoll_eq]
  dsimp only
  split
  · exact .inl rfl
  · exact pollRx_rx l e

/-! ### The send side -/

/-- The send side after `isotp_send()` has sent the FirstFrame of `data`. -/
def txStarted (now : UInt32) : TxSide :=
  { l.tx with
    buf := l.tx.buf.copy 0 data, len := data.length, off := ffFirstData, sn := 1, wft := 0
    phase := .waitFc, timer := now }

/-- Every outcome of `isotp_send()`: refused, done at once, or begun. -/
theorem isotpSend_cases :
    ((l.tx.phase ≠ .idle ∨ data.length = 0 ∨ isotpMaxMsg < data.length) ∧
      ((l.isotpSend e data).2.1 = .nospace ∨ (l.isotpSend e data).2.1 = .length) ∧
      (l.isotpSend e data).1 = l ∧ (l.isotpSend e data).2.2 = none) ∨
    (l.tx.phase = .idle ∧ 0 < data.length ∧ data.length ≤ sfMaxData ∧
      (l.isotpSend e data).2.1 = (if e.canTx then .ok else .error) ∧
      (l.isotpSend e data).1.tx.phase = .idle ∧
      (l.isotpSend e data).2.2 = some (l.txFrame (pciByte 0 data.length :: data))) ∨
    (l.tx.phase = .idle ∧ sfMaxData < data.length ∧ data.length ≤ isotpMaxMsg ∧
      (l.isotpSend e data).2.1 = (if e.canTx then .inprogress else .error) ∧
      ((e.canTx = true ∧ (l.isotpSend e data).1.tx = l.txStarted data e.now) ∨
        (e.canTx = false ∧ (l.isotpSend e data).1.tx.phase = .idle)) ∧
      (l.isotpSend e data).2.2 = some (l.txFrame (pciByte 1 (data.length >>> 8) ::
        UInt8.ofNat (data.length &&& 0xFF) :: data.take ffFirstData))) := by
  by_cases hp : l.tx.phase = .idle
  swap
  · exact .inl ⟨.inl hp, by simp [isotpSend, hp]⟩
  by_cases hl : data.length = 0 ∨ isotpMaxMsg < data.length
  · exact .inl ⟨.inr hl, by simp only [isotpSend, hp, if_pos hl]; simp⟩
  by_cases hs : data.length ≤ sfMaxData
  · refine .inr (.inl ⟨hp, by omega, hs, ?_⟩)
    simp only [isotpSend, hp, if_neg hl, if_pos hs, Mem.read_copy]
    simp only [ne_eq, not_true_eq_false, ↓reduceIte, true_and]
    exact ⟨rfl, rfl⟩
  refine .inr (.inr ⟨hp, by omega, by omega, ?_⟩)
  have h6 : (l.tx.buf.copy 0 data).read 0 ffFirstData = data.take ffFirstData := by
    have h := Mem.take_read (l.tx.buf.copy 0 data) 0 data.length ffFirstData
    rw [Mem.read_copy, Nat.min_eq_left (by simp only [sfMaxData] at hs; simp; omega)] at h
    exact h.symm
  simp only [isotpSend, hp, if_neg hl, if_neg hs, h6]
  cases e.canTx
  · simpa using ⟨rfl, rfl⟩
  · simpa using ⟨rfl, rfl⟩

/-- The grant a FlowControl frame gives, if it is a CTS: block size and STmin. -/
def ctsOf (data : List UInt8) : Option (UInt8 × UInt8) :=
  if pciLow (data.getD 0 0) = 0 then
    some (if 1 < data.length then data.getD 1 0 else 0, if 2 < data.length then data.getD 2 0 else 0)
  else none

/-- The FlowControl frame ends the transfer: one WAIT too many, an overflow, a reserved status. -/
def fcGivesUp : Prop :=
  (pciLow (data.getD 0 0) = 1 ∧ l.cfg.wftMax.toNat < (l.tx.wft + 1) % 256) ∨
    2 ≤ pciLow (data.getD 0 0)

instance : Decidable (l.fcGivesUp data) := inferInstanceAs (Decidable (_ ∨ _))

/-- Every effect of a FlowControl frame on the send side: none, a grant, the end of the transfer,
or a wait. -/
theorem handleFc_cases :
    (l.tx.phase ≠ .waitFc ∧ l.handleFc e data = l) ∨
    (l.tx.phase = .waitFc ∧ ∃ bs st, ctsOf data = some (bs, st) ∧
      (l.handleFc e data).tx = { l.tx with
        bsLeft := bs.toNat, stmin := st, wft := 0, phase := .send, stTimer := e.now }) ∨
    (l.tx.phase = .waitFc ∧ ctsOf data = none ∧ l.fcGivesUp data ∧
      (l.handleFc e data).tx.phase = .idle) ∨
    (l.tx.phase = .waitFc ∧ ctsOf data = none ∧ ¬l.fcGivesUp data ∧ ∃ wft,
      (l.handleFc e data).tx = { l.tx with wft := wft, timer := e.now }) := by
  by_cases hp : l.tx.phase = .waitFc
  swap
  · exact .inl ⟨hp, by simp [handleFc, hp]⟩
  right
  rcases hf : pciLow (data.getD 0 0) with _ | _ | n
  · refine .inl ⟨hp, _, _, by rw [ctsOf, if_pos hf], ?_⟩
    simp only [handleFc, hp, hf]
    split_ifs <;> simp_all
  · have hc : ctsOf data = none := by rw [ctsOf, if_neg (by omega)]
    by_cases hw : l.cfg.wftMax.toNat < (l.tx.wft + 1) % 256
    · refine .inr (.inl ⟨hp, hc, .inl ⟨hf, hw⟩, ?_⟩)
      simp only [handleFc, hp, hf, ne_eq, not_true_eq_false, ↓reduceIte, Nat.zero_add, if_pos hw,
        txReset]
    · refine .inr (.inr ⟨hp, hc, ?_, (l.tx.wft + 1) % 256, ?_⟩)
      · rintro (h | h)
        · exact hw h.2
        · omega
      · simp only [handleFc, hp, hf, ne_eq, not_true_eq_false, ↓reduceIte, Nat.zero_add, if_neg hw]
  · have hc : ctsOf data = none := by rw [ctsOf, if_neg (by omega)]
    refine .inr (.inl ⟨hp, hc, .inr (by omega), ?_⟩)
    simp only [handleFc, hp, hf, ne_eq, not_true_eq_false, ↓reduceIte, txReset]

/-! ### The dispatch of a frame -/

theorem isotpOnCanFrame_ignores {id : UInt32} (h : (data.length < 1 ∨ isotpCanDl < data.length) ∨
    l.addressed id = none) : l.isotpOnCanFrame e id data = (l, none) := by
  unfold isotpOnCanFrame
  by_cases hd : data.length < 1 ∨ isotpCanDl < data.length
  · rw [if_pos hd]
  · rw [if_neg hd, h.resolve_left hd]

theorem isotpOnCanFrame_physical {id : UInt32}
    (hd : ¬(data.length < 1 ∨ isotpCanDl < data.length)) (ha : l.addressed id = some false) :
    l.isotpOnCanFrame e id data =
      match pciType (data.getD 0 0) with
      | 0 => (l.handleSf data false, none)
      | 1 => l.handleFf e data
      | 2 => l.handleCf e data
      | 3 => (l.handleFc e data, none)
      | _ => (l, none) := by
  rw [isotpOnCanFrame, if_neg hd, ha]
  rcases pciType (data.getD 0 0) with _ | _ | _ | _ | n <;>
    simp only [Bool.false_eq_true, if_false]

theorem isotpOnCanFrame_sf {id : UInt32} (hd : ¬(data.length < 1 ∨ isotpCanDl < data.length))
    (ha : l.addressed id = some false) (ht : pciType (data.getD 0 0) = 0) :
    l.isotpOnCanFrame e id data = (l.handleSf data false, none) := by
  rw [isotpOnCanFrame_physical l e data hd ha, ht]; rfl

theorem isotpOnCanFrame_ff {id : UInt32} (hd : ¬(data.length < 1 ∨ isotpCanDl < data.length))
    (ha : l.addressed id = some false) (ht : pciType (data.getD 0 0) = 1) :
    l.isotpOnCanFrame e id data = l.handleFf e data := by
  rw [isotpOnCanFrame_physical l e data hd ha, ht]; rfl

theorem isotpOnCanFrame_cf {id : UInt32} (hd : ¬(data.length < 1 ∨ isotpCanDl < data.length))
    (ha : l.addressed id = some false) (ht : pciType (data.getD 0 0) = 2) :
    l.isotpOnCanFrame e id data = l.handleCf e data := by
  rw [isotpOnCanFrame_physical l e data hd ha, ht]; rfl

theorem isotpOnCanFrame_functional {id : UInt32}
    (hd : ¬(data.length < 1 ∨ isotpCanDl < data.length)) (ha : l.addressed id = some true) :
    l.isotpOnCanFrame e id data =
      if pciType (data.getD 0 0) = 0 then (l.handleSf data true, none) else (l, none) := by
  rw [isotpOnCanFrame, if_neg hd, ha]
  rcases pciType (data.getD 0 0) with _ | _ | _ | _ | n <;> simp

/-- A FlowControl frame on the physical address. -/
def IsFc (id : UInt32) : Prop :=
  (1 ≤ data.length ∧ data.length ≤ isotpCanDl) ∧ l.addressed id = some false ∧
    pciType (data.getD 0 0) = 3

instance (id : UInt32) : Decidable (l.IsFc data id) := inferInstanceAs (Decidable (_ ∧ _))

theorem isotpOnCanFrame_fc {id : UInt32} (h : l.IsFc data id) :
    l.isotpOnCanFrame e id data = (l.handleFc e data, none) := by
  obtain ⟨hd, ha, ht⟩ := h
  rw [isotpOnCanFrame_physical l e data (by omega) ha, ht]
  rfl

theorem isotpOnCanFrame_tx {id : UInt32} (h : ¬l.IsFc data id) :
    (l.isotpOnCanFrame e id data).1.tx = l.tx := by
  unfold isotpOnCanFrame
  split
  · rfl
  rename_i hd
  split
  · rfl
  · rename_i functional ha
    split
    · simp
    · split <;> simp
    · split <;> simp
    · rename_i ht
      split
      · rfl
      · rename_i hf
        rw [Bool.not_eq_true] at hf
        exact absurd ⟨by omega, hf ▸ ha, ht⟩ h
    · rfl

theorem handleFf_frame :
    (l.handleFf e data).2 = none ∨ ∃ fs, (l.handleFf e data).2 = some (l.sendFc fs) := by
  unfold handleFf
  split
  · exact .inl rfl
  split
  · exact .inl rfl
  split <;> exact .inr ⟨_, rfl⟩

theorem handleCf_frame :
    (l.handleCf e data).2 = none ∨ ∃ fs, (l.handleCf e data).2 = some (l.sendFc fs) := by
  unfold handleCf
  extract_lets dlc remaining avail take take' l'
  split
  · exact .inl rfl
  split
  · exact .inl rfl
  split
  · exact .inl rfl
  split
  · exact .inl rfl
  split
  · exact .inr ⟨_, rfl⟩
  · exact .inl rfl

/-- The receive side transmits nothing but FlowControl. -/
theorem isotpOnCanFrame_frame (id : UInt32) : (l.isotpOnCanFrame e id data).2 = none ∨
    ∃ fs, (l.isotpOnCanFrame e id data).2 = some (l.sendFc fs) := by
  unfold isotpOnCanFrame
  split
  · exact .inl rfl
  split
  · exact .inl rfl
  split
  · exact .inl rfl
  · split
    · exact .inl rfl
    · exact handleFf_frame l e data
  · split
    · exact .inl rfl
    · exact handleCf_frame l e data
  · split <;> exact .inl rfl
  · exact .inl rfl

theorem isotpPoll_tx : (l.isotpPoll e).1.tx = (l.pollTx e).1.tx := by
  rw [isotpPoll_eq]

theorem isotpPoll_frame : (l.isotpPoll e).2 = (l.pollTx e).2.1 := by
  simp only [isotpPoll]; split <;> rfl

/-- The payload of the next ConsecutiveFrame: seven bytes, or what is left. -/
def nextCf : List UInt8 := l.tx.buf.read l.tx.off (min (l.tx.len - l.tx.off) cfMaxData)

/-- The send side after a ConsecutiveFrame that is not the last one. -/
def txAfterCf (now : UInt32) : TxSide :=
  { l.tx with
    off := l.tx.off + cfMaxData, sn := (l.tx.sn + 1) % 16, stTimer := now
    bsLeft := l.tx.bsLeft - 1
    phase := if l.tx.bsLeft = 1 then .waitFc else .send
    timer := if l.tx.bsLeft = 1 then now else l.tx.timer }

theorem cfSent_frame (f : CanFrame) (off : ℕ) : (l.cfSent e f off).2.1 = some f := by
  unfold cfSent
  dsimp only
  split_ifs <;> rfl

theorem cfSent_last (f : CanFrame) {off : ℕ} (h : l.tx.len ≤ off) :
    (l.cfSent e f off).1.tx.phase = .idle := by
  simp [cfSent, h, txReset]

theorem cfSent_more (hs : l.tx.phase = .send) (f : CanFrame) {off : ℕ}
    (h : off < l.tx.len) (h7 : off = l.tx.off + cfMaxData) :
    (l.cfSent e f off).1.tx = l.txAfterCf e.now := by
  simp only [cfSent, if_neg (Nat.not_le.2 h), txAfterCf, ← h7, ← and_low_nibble]
  by_cases h₀ : l.tx.bsLeft = 0
  · simp [h₀, hs]
  by_cases h₁ : l.tx.bsLeft = 1
  · simp [h₁]
  · rw [if_pos h₀, if_neg (by omega), if_neg h₁, if_neg h₁, hs]

/-- The send half of a poll that is due to send a ConsecutiveFrame: the frame goes out, and the
transfer is over because `can_tx` failed, is over because this was the last frame, or goes on. -/
theorem pollTx_cf (hs : l.tx.phase = .send)
    (hd : stminToMs l.tx.stmin ≤ elapsed e.now l.tx.stTimer) (hlt : l.tx.off < l.tx.len)
    (hle : l.tx.len ≤ isotpMaxMsg) :
    (l.pollTx e).2.1 = some (l.txFrame (pciByte 2 l.tx.sn :: l.nextCf)) ∧
      ((e.canTx = false ∧ (l.pollTx e).1.tx.phase = .idle) ∨
        (e.canTx = true ∧ l.tx.len ≤ l.tx.off + cfMaxData ∧ (l.pollTx e).1.tx.phase = .idle) ∨
        (e.canTx = true ∧ l.tx.off + cfMaxData < l.tx.len ∧
          (l.pollTx e).1.tx = l.txAfterCf e.now)) := by
  simp only [isotpMaxMsg] at hle
  have hrem : sub16 l.tx.len l.tx.off = l.tx.len - l.tx.off := sub16_of_le (by omega) hlt.le
  have hn : (if l.tx.len - l.tx.off < cfMaxData then (l.tx.len - l.tx.off) % 256 else cfMaxData) =
      min (l.tx.len - l.tx.off) cfMaxData := by
    have h7 : cfMaxData = 7 := rfl
    by_cases h : l.tx.len - l.tx.off < cfMaxData
    · rw [if_pos h]; omega
    · rw [if_neg h]; omega
  have hoff : wrap16 (l.tx.off + min (l.tx.len - l.tx.off) cfMaxData) =
      l.tx.off + min (l.tx.len - l.tx.off) cfMaxData := wrap16_of_lt (by omega)
  have hr : l.pollTx e = if e.canTx = false then
      (l.txReset, some (l.txFrame (pciByte 2 l.tx.sn :: l.nextCf)), true)
      else l.cfSent e (l.txFrame (pciByte 2 l.tx.sn :: l.nextCf))
        (l.tx.off + min (l.tx.len - l.tx.off) cfMaxData) := by
    rw [pollTx, if_neg (by rw [hs]; decide), if_pos hs, if_pos hd]
    simp only [hrem, hn, hoff, nextCf]
  rw [hr]
  cases hc : e.canTx with
  | false => exact ⟨rfl, .inl ⟨rfl, rfl⟩⟩
  | true =>
    rw [if_neg (by decide)]
    refine ⟨cfSent_frame l e _ _, .inr ?_⟩
    by_cases hl : l.tx.len ≤ l.tx.off + cfMaxData
    · exact .inl ⟨rfl, hl, cfSent_last l e _ (by omega)⟩
    · exact .inr ⟨rfl, by omega, cfSent_more l e hs _ (by omega) (by omega)⟩

/-- Every effect of a poll on the send side: none, the end of the wait for flow control, or a
ConsecutiveFrame, which may fail, be the last one, or be followed by more. -/
theorem isotpPoll_cases
    (h : l.tx.phase = .send → l.tx.off < l.tx.len ∧ l.tx.len ≤ isotpMaxMsg) :
    ((l.isotpPoll e).1.tx = l.tx ∧ (l.isotpPoll e).2 = none ∧
      ¬(l.tx.phase = .waitFc ∧ l.cfg.nBsMs ≤ elapsed e.now l.tx.timer) ∧
      ¬(l.tx.phase = .send ∧ stminToMs l.tx.stmin ≤ elapsed e.now l.tx.stTimer)) ∨
    (l.tx.phase = .waitFc ∧ l.cfg.nBsMs ≤ elapsed e.now l.tx.timer ∧
      (l.isotpPoll e).1.tx.phase = .idle ∧ (l.isotpPoll e).2 = none) ∨
    (l.tx.phase = .send ∧ stminToMs l.tx.stmin ≤ elapsed e.now l.tx.stTimer ∧
      (l.isotpPoll e).2 = some (l.txFrame (pciByte 2 l.tx.sn :: l.nextCf)) ∧
      ((e.canTx = false ∧ (l.isotpPoll e).1.tx.phase = .idle) ∨
        (e.canTx = true ∧ l.tx.len ≤ l.tx.off + cfMaxData ∧
          (l.isotpPoll e).1.tx.phase = .idle) ∨
        (e.canTx = true ∧ l.tx.off + cfMaxData < l.tx.len ∧
          (l.isotpPoll e).1.tx = l.txAfterCf e.now))) := by
  rw [isotpPoll_tx, isotpPoll_frame]
  by_cases hw : l.tx.phase = .waitFc
  · by_cases ht : l.cfg.nBsMs ≤ elapsed e.now l.tx.timer
    · exact .inr (.inl ⟨hw, ht, by simp [pollTx, hw, ht, txReset]⟩)
    · exact .inl (by simp [pollTx, hw, ht])
  by_cases hs : l.tx.phase = .send
  swap
  · exact .inl (by simp [pollTx, hw, hs])
  by_cases hd : stminToMs l.tx.stmin ≤ elapsed e.now l.tx.stTimer
  · exact .inr (.inr ⟨hs, hd, pollTx_cf l e hs hd (h hs).1 (h hs).2⟩)
  · exact .inl (by simp [pollTx, hs, hd])

end Link

end IsoTp

end Espcan32
