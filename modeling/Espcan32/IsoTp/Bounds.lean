import Espcan32.Lib.Checked
import Espcan32.IsoTp.Pci
import Espcan32.IsoTp.Receive

/-!
# Every access of a link is in bounds

`Link.InRange` says where the offsets and lengths of a link can be.  Every call keeps it, so it
holds in every link that calls can lead to from `isotp_init()`.

The functions in the namespace `Checked` are those of the source once more, with every index into
a frame, into one of the buffers and into a frame under construction checked, every difference of
lengths exact and every cast to a narrower type without loss.  They fail at the first access that
is not.

* `InRange.step` : every call keeps the offsets and lengths in range.
* `InRange.checked` : **in a link in range no check fails**, and the checked call does what the
  call does.
* `reachable_inBounds` : both, for every state of every run.
-/

namespace Espcan32

namespace IsoTp

namespace Link

/-- Where the offsets and lengths of a link can be. -/
structure InRange (l : Link) : Prop where
  /-- A reception under way has the bytes of its FirstFrame, and is not complete. -/
  recv : l.rx.phase = .recv → ffFirstData ≤ l.rx.off ∧ l.rx.off < l.rx.len
  len : l.rx.len ≤ isotpMaxMsg
  /-- A transfer under way has sent its FirstFrame, and not all of its message. -/
  send : l.tx.phase = .send ∨ l.tx.phase = .waitFc →
    ffFirstData ≤ l.tx.off ∧ l.tx.off < l.tx.len ∧ l.tx.len ≤ isotpMaxMsg

/-! ### The calls stay in range -/

/-- The part of `InRange` about the receive side. -/
def RxInRange (r : RxSide) : Prop :=
  (r.phase = .recv → ffFirstData ≤ r.off ∧ r.off < r.len) ∧ r.len ≤ isotpMaxMsg

/-- The part of `InRange` about the send side. -/
def TxInRange (t : TxSide) : Prop :=
  t.phase = .send ∨ t.phase = .waitFc → ffFirstData ≤ t.off ∧ t.off < t.len ∧ t.len ≤ isotpMaxMsg

theorem InRange.iff {l : Link} : l.InRange ↔ RxInRange l.rx ∧ TxInRange l.tx :=
  ⟨fun h => ⟨⟨h.recv, h.len⟩, h.send⟩, fun h => ⟨h.1.1, h.1.2, h.2⟩⟩

theorem rxInRange_of_aborted {r : RxSide} (h : RxAborted r) : RxInRange r :=
  ⟨fun hr => (by rw [h.1] at hr; cases hr), by rw [h.2]; exact Nat.zero_le _⟩

theorem txInRange_of_idle {t : TxSide} (h : t.phase = .idle) : TxInRange t := by
  rintro (hp | hp) <;> rw [h] at hp <;> cases hp

variable {l : Link} (e : Env) (data : List UInt8)

theorem RxInRange.sf (h : RxInRange l.rx) (functional : Bool) :
    RxInRange (l.handleSf data functional).rx := by
  rw [handleSf_rx]
  cases hs : l.acceptsSf data functional with
  | none => exact h
  | some p =>
    have hp := (length_acceptsSf l data hs).2
    exact ⟨fun hr => (by cases hr), hp.trans (by decide)⟩

theorem RxInRange.ff (h : RxInRange l.rx) : RxInRange (l.handleFf e data).1.rx := by
  by_cases hf : data.length = isotpCanDl ∧ sfMaxData < ffDl data
  · rw [l.handleFf_accepts e data hf.1 hf.2]
    exact ⟨fun _ => ⟨le_refl _, lt_trans (by decide : ffFirstData < sfMaxData) hf.2⟩, ffDl_le data⟩
  · rw [l.handleFf_ignores e data hf]
    exact h

theorem RxInRange.cf (h : RxInRange l.rx) : RxInRange (l.handleCf e data).1.rx := by
  cases ha : l.acceptsCf data with
  | none =>
    obtain ⟨-, ⟨-, hu⟩ | ⟨-, hr, -⟩⟩ := l.handleCf_none e data h.2 (fun hr => (h.1 hr).2) ha
    · rw [hu]; exact h
    · exact rxInRange_of_aborted hr
  | some p =>
    have hr : l.rx.phase = .recv := by
      unfold acceptsCf at ha
      split_ifs at ha with hc
      exact hc.1
    obtain ⟨hoff, hlt⟩ := h.1 hr
    rw [l.handleCf_some e data h.2 hlt ha]
    dsimp only [rxAfterCf]
    by_cases hfull : l.rx.len ≤ l.rx.off + p.length
    · rw [if_pos hfull]
      exact ⟨fun hr => (by cases hr), h.2⟩
    · rw [if_neg hfull]
      have hmore : ffFirstData ≤ l.rx.off + p.length ∧ l.rx.off + p.length < l.rx.len := by omega
      split
      · exact ⟨fun _ => hmore, h.2⟩
      · exact ⟨fun _ => hmore, h.2⟩

theorem TxInRange.fc (h : TxInRange l.tx) : TxInRange (l.handleFc e data).tx := by
  rcases l.handleFc_cases e data with ⟨-, hu⟩ | ⟨hw, _, _, -, hc⟩ | ⟨-, -, -, hi⟩ | ⟨hw, -, -, _, hc⟩
  · rw [hu]; exact h
  · rw [hc]
    exact fun _ => h (.inr hw)
  · exact txInRange_of_idle hi
  · rw [hc]
    exact fun _ => h (.inr hw)

theorem RxInRange.frame (h : RxInRange l.rx) (id : UInt32) :
    RxInRange (l.isotpOnCanFrame e id data).1.rx :=
  l.rx_of_frame e data (P := fun r _ => RxInRange r) id h (fun _ => h.sf data _) (h.ff e data)
    (h.cf e data)

theorem TxInRange.frame (h : TxInRange l.tx) (id : UInt32) :
    TxInRange (l.isotpOnCanFrame e id data).1.tx := by
  by_cases hf : l.IsFc data id
  · rw [l.isotpOnCanFrame_fc e data hf]
    exact h.fc e data
  · rw [l.isotpOnCanFrame_tx e data hf]
    exact h

theorem TxInRange.isotpSend (h : TxInRange l.tx) : TxInRange (l.isotpSend e data).1.tx := by
  rcases l.isotpSend_cases e data with
    ⟨-, -, hu, -⟩ | ⟨-, -, -, -, hi, -⟩ | ⟨-, hgt, hle, -, ⟨-, hs⟩ | ⟨-, hi⟩, -⟩
  · rw [hu]; exact h
  · exact txInRange_of_idle hi
  · rw [hs]
    exact fun _ => ⟨le_refl _, lt_trans (by decide : ffFirstData < sfMaxData) hgt, hle⟩
  · exact txInRange_of_idle hi

theorem TxInRange.poll (h : TxInRange l.tx) : TxInRange (l.isotpPoll e).1.tx := by
  rcases l.isotpPoll_cases e fun hs => (h (.inl hs)).2 with
    ⟨hu, -⟩ | ⟨-, -, hi, -⟩ | ⟨hs, -, -, ⟨-, hi⟩ | ⟨-, -, hi⟩ | ⟨-, hlt, hc⟩⟩
  · rw [hu]; exact h
  · exact txInRange_of_idle hi
  · exact txInRange_of_idle hi
  · exact txInRange_of_idle hi
  · rw [hc]
    obtain ⟨hoff, -, hle⟩ := h (.inl hs)
    exact fun _ => ⟨Nat.le_add_right_of_le hoff, hlt, hle⟩

theorem RxInRange.poll (h : RxInRange l.rx) : RxInRange (l.isotpPoll e).1.rx := by
  rcases l.isotpPoll_rx e with hu | ha
  · rw [hu]; exact h
  · exact rxInRange_of_aborted ha

theorem RxInRange.receive (h : RxInRange l.rx) (outCap : ℕ) :
    RxInRange (l.isotpReceive outCap).1.rx := by
  unfold isotpReceive
  split
  · exact h
  split <;> exact h

/-- Every call keeps the offsets and lengths in range. -/
theorem InRange.step (h : l.InRange) (c : Call) : (l.step c).InRange := by
  obtain ⟨hr, ht⟩ := iff.1 h
  rw [iff]
  cases c with
  | send e data => exact ⟨by rw [Link.step, isotpSend_rx]; exact hr, ht.isotpSend e data⟩
  | frame e id data => exact ⟨hr.frame e data id, ht.frame e data id⟩
  | poll e => exact ⟨hr.poll e, ht.poll e⟩
  | receive outCap => exact ⟨hr.receive outCap, by rw [Link.step, isotpReceive_tx]; exact ht⟩

theorem inRange_init (txId rxId funcId : UInt32) (cfg : Option Cfg) :
    (isotpInit txId rxId funcId cfg).InRange where
  recv hr := by cases hr
  len := Nat.zero_le _
  send hp := by rcases hp with hp | hp <;> cases hp

end Link

/-! ### The functions with every access checked -/

namespace Checked

variable (l : Link) (e : Env) (data : List UInt8)

/-- `tx_frame()`: the significant bytes fit the frame buffer. -/
def txFrame (buf : List UInt8) : Option CanFrame :=
  if buf.length ≤ isotpCanDl then some (l.txFrame buf) else none

/-- `send_fc()`. -/
def sendFc (fs : Fs) : Option CanFrame :=
  txFrame l [pciByte 3 fs.code, l.cfg.bs, l.cfg.stmin]

/-- `isotp_send()`. -/
def isotpSend : Option (Link × Option CanFrame) :=
  let size := data.length
  if l.tx.phase ≠ .idle then some (l, none)
  else if size = 0 ∨ isotpMaxMsg < size then some (l, none)
  else do
    let buf ← l.tx.buf.copyWithin isotpMaxMsg 0 data
    let l := { l with tx := { l.tx with buf := buf, len := size, off := 0, wft := 0 } }
    if size ≤ sfMaxData then
      let p ← l.tx.buf.readWithin isotpMaxMsg 0 size
      let f ← txFrame l (pciByte 0 size :: p)
      some (l.txReset, some f)
    else
      let p ← l.tx.buf.readWithin isotpMaxMsg 0 ffFirstData
      let f ← txFrame l (pciByte 1 (size >>> 8) :: UInt8.ofNat (size &&& 0xFF) :: p)
      if e.canTx then
        some ({ l with tx := { l.tx with
          off := ffFirstData, sn := 1, phase := .waitFc, timer := e.now } }, some f)
      else some (l.txReset, some f)

/-- `handle_sf()`. -/
def handleSf (functional : Bool) : Option Link := do
  let b0 ← data[0]?
  let len := pciLow b0
  if len = 0 ∨ sfMaxData < len then some l
  else
    let room ← exactSub data.length 1
    if room < len then some l
    else if functional ∧ (l.rx.phase = .recv ∨ l.rx.complete) then some l
    else
      let p ← blockWithin data 1 len
      let buf ← l.rx.buf.copyWithin isotpMaxMsg 0 p
      some { l with rx := { l.rx with
        buf := buf, len := len, off := len, phase := .idle, result := .ok
        functional := functional, complete := true } }

/-- `handle_ff()`. -/
def handleFf : Option (Link × Option CanFrame) :=
  if data.length ≠ isotpCanDl then some (l, none)
  else do
    let b0 ← data[0]?
    let b1 ← data[1]?
    let ffDl := pciLow b0 <<< 8 ||| b1.toNat
    if ffDl ≤ sfMaxData then some (l, none)
    else if isotpMaxMsg < ffDl then
      let f ← sendFc l .ovflw
      some (l.rxReset, some f)
    else
      let p ← blockWithin data 2 ffFirstData
      let buf ← l.rx.buf.copyWithin isotpMaxMsg 0 p
      let l := { l with rx := { l.rx with
        buf := buf, len := ffDl, off := ffFirstData, sn := 1, blockCf := 0, phase := .recv
        result := .ok, functional := false, timer := e.now } }
      let f ← sendFc l .cts
      some (l, some f)

/-- `handle_cf()`. -/
def handleCf : Option (Link × Option CanFrame) :=
  let dlc := data.length
  if l.rx.phase ≠ .recv then some (l, none)
  else do
    let b0 ← data[0]?
    if pciLow b0 ≠ l.rx.sn then
      some ({ l with rx := { l.rx with result := .wrongSn } }.rxReset, none)
    else
      let remaining ← exactSub l.rx.len l.rx.off
      let avail := if 1 < dlc then dlc - 1 else 0
      if cfMaxData < remaining ∧ avail < cfMaxData then
        some ({ l with rx := { l.rx with result := .length } }.rxReset, none)
      else
        let take := if remaining < cfMaxData then remaining else cfMaxData
        let take := if avail < take then avail else take
        let p ← blockWithin data 1 take
        let buf ← l.rx.buf.copyWithin isotpMaxMsg l.rx.off p
        let off ← exactIn 16 (l.rx.off + take)
        let l := { l with rx := { l.rx with
          buf := buf, off := off, sn := (l.rx.sn + 1) &&& 0x0F
          blockCf := (l.rx.blockCf + 1) % 256, timer := e.now } }
        if l.rx.len ≤ l.rx.off then
          some ({ l with rx := { l.rx with result := .ok, complete := true, phase := .idle } }, none)
        else if l.cfg.bs ≠ 0 ∧ l.cfg.bs.toNat ≤ l.rx.blockCf then
          let l := { l with rx := { l.rx with blockCf := 0 } }
          let f ← sendFc l .cts
          some (l, some f)
        else some (l, none)

/-- `handle_fc()`. -/
def handleFc : Option Link :=
  let dlc := data.length
  if l.tx.phase ≠ .waitFc then some l
  else do
    let b0 ← data[0]?
    match pciLow b0 with
    | 0 =>
      let bs ← (if 1 < dlc then data[1]? else some 0)
      let stmin ← (if 2 < dlc then data[2]? else some 0)
      some { l with tx := { l.tx with
        bsLeft := bs.toNat, stmin := stmin, wft := 0, phase := .send, stTimer := e.now } }
    | 1 =>
      let wft := (l.tx.wft + 1) % 256
      let l := { l with tx := { l.tx with wft := wft } }
      some (if l.cfg.wftMax.toNat < wft then l.txReset
        else { l with tx := { l.tx with timer := e.now } })
    | _ => some l.txReset

/-- `isotp_on_can_frame()`. -/
def isotpOnCanFrame (id : UInt32) : Option (Link × Option CanFrame) :=
  if data.length < 1 ∨ isotpCanDl < data.length then some (l, none)
  else
    match l.addressed id with
    | none => some (l, none)
    | some functional => do
      let b0 ← data[0]?
      match pciType b0 with
      | 0 => (handleSf l data functional).map fun l => (l, none)
      | 1 => if functional then some (l, none) else handleFf l e data
      | 2 => if functional then some (l, none) else handleCf l e data
      | 3 => if functional then some (l, none) else (handleFc l e data).map fun l => (l, none)
      | _ => some (l, none)

/-- The send half of `isotp_poll()`. -/
def pollTx : Option (Link × Option CanFrame × Bool) :=
  if l.tx.phase = .waitFc then
    if l.cfg.nBsMs ≤ elapsed e.now l.tx.timer then some (l.txReset, none, false)
    else some (l, none, false)
  else if l.tx.phase = .send then
    if stminToMs l.tx.stmin ≤ elapsed e.now l.tx.stTimer then do
      let remaining ← exactSub l.tx.len l.tx.off
      let n ← (if remaining < cfMaxData then exactIn 8 remaining else some cfMaxData)
      let p ← l.tx.buf.readWithin isotpMaxMsg l.tx.off n
      let f ← txFrame l (pciByte 2 l.tx.sn :: p)
      if e.canTx = false then some (l.txReset, some f, true)
      else
        let off ← exactIn 16 (l.tx.off + n)
        some (l.cfSent e f off)
    else some (l, none, false)
  else some (l, none, false)

/-- `isotp_poll()`. -/
def isotpPoll : Option (Link × Option CanFrame) := do
  let (l, f, returns) ← pollTx l e
  some (if returns then (l, f) else (l.pollRx e, f))

/-- `isotp_receive()`: the message fits the buffer of the caller. -/
def isotpReceive (outCap : ℕ) : Option (Link × Option CanFrame) :=
  if l.rx.complete = false then some (l, none)
  else if outCap < l.rx.len then some (l, none)
  else do
    let p ← l.rx.buf.readWithin isotpMaxMsg 0 l.rx.len
    let _ ← exactSub outCap p.length
    some ({ l with rx := { l.rx with complete := false } }, none)

/-- A call with every access checked: the link after it and the frame it hands to `can_tx`. -/
def step : Call → Option (Link × Option CanFrame)
  | .send e data => isotpSend l e data
  | .frame e id data => isotpOnCanFrame l e data id
  | .poll e => isotpPoll l e
  | .receive outCap => isotpReceive l outCap

/-! ### No check fails -/

variable {l} {data}

theorem txFrame_of_le {buf : List UInt8} (h : buf.length ≤ isotpCanDl) :
    txFrame l buf = some (l.txFrame buf) := if_pos h

theorem sendFc_eq (fs : Fs) : sendFc l fs = some (l.sendFc fs) := rfl

theorem handleSf_eq (hd : 0 < data.length) (functional : Bool) :
    handleSf l data functional = some (l.handleSf data functional) := by
  simp only [handleSf, Link.handleSf, getElem?_of_lt 0 hd, exactSub_of_le hd, Option.bind_eq_bind,
    Option.bind_some]
  by_cases h₁ : pciLow (data.getD 0 0) = 0 ∨ sfMaxData < pciLow (data.getD 0 0)
  · rw [if_pos h₁, if_pos h₁]
  by_cases h₂ : data.length - 1 < pciLow (data.getD 0 0)
  · rw [if_neg h₁, if_neg h₁, if_pos h₂, if_pos h₂]
  by_cases h₃ : functional = true ∧ (l.rx.phase = .recv ∨ l.rx.complete = true)
  · rw [if_neg h₁, if_neg h₁, if_neg h₂, if_neg h₂, if_pos h₃, if_pos h₃]
  have h7 : pciLow (data.getD 0 0) ≤ 7 := Nat.not_lt.1 fun h => h₁ (.inr h)
  rw [if_neg h₁, if_neg h₁, if_neg h₂, if_neg h₂, if_neg h₃, if_neg h₃,
    blockWithin_of_le (by omega), Option.bind_some,
    Mem.copyWithin_take _ (by simp only [isotpMaxMsg]; omega), Option.bind_some]

theorem handleFf_eq : handleFf l e data = some (l.handleFf e data) := by
  unfold handleFf Link.handleFf Link.ffDl
  by_cases hd : data.length = isotpCanDl
  swap
  · rw [if_pos hd, if_pos hd]
  have h8 : data.length = 8 := hd
  rw [if_neg (not_not.2 hd), if_neg (not_not.2 hd), getElem?_of_lt 0 (by omega),
    getElem?_of_lt 0 (by omega), blockWithin_of_le (by simp only [ffFirstData]; omega)]
  simp only [Mem.copyWithin_take _ (by decide : 0 + ffFirstData ≤ isotpMaxMsg), sendFc_eq,
    Option.bind_eq_bind, Option.bind_some]
  split_ifs <;> rfl

theorem handleCf_eq (hd : 0 < data.length) (hlen : l.rx.len ≤ isotpMaxMsg)
    (hoff : l.rx.phase = .recv → l.rx.off < l.rx.len) :
    handleCf l e data = some (l.handleCf e data) := by
  simp only [isotpMaxMsg] at hlen
  simp only [handleCf, Link.handleCf]
  by_cases hr : l.rx.phase = .recv
  swap
  · rw [if_pos hr, if_pos hr]
  have hlt := hoff hr
  rw [if_neg (not_not.2 hr), if_neg (not_not.2 hr), getElem?_of_lt 0 hd, exactSub_of_le hlt.le,
    sub16_of_le (by omega) hlt.le]
  simp only [Option.bind_eq_bind, Option.bind_some]
  by_cases hsn : pciLow (data.getD 0 0) = l.rx.sn
  swap
  · rw [if_pos hsn, if_pos hsn]
  rw [if_neg (not_not.2 hsn), if_neg (not_not.2 hsn)]
  generalize hav : (if 1 < data.length then data.length - 1 else 0) = avail
  generalize htk : (if avail < (if l.rx.len - l.rx.off < cfMaxData then l.rx.len - l.rx.off
    else cfMaxData) then avail
    else if l.rx.len - l.rx.off < cfMaxData then l.rx.len - l.rx.off else cfMaxData) = take
  -- the bytes taken are there, and they fit
  have hle : 1 + take ≤ data.length ∧ take ≤ l.rx.len - l.rx.off := by
    rw [← htk, ← hav]
    split_ifs <;> omega
  by_cases hsh : cfMaxData < l.rx.len - l.rx.off ∧ avail < cfMaxData
  · rw [if_pos hsh, if_pos hsh]
  rw [if_neg hsh, if_neg hsh, blockWithin_of_le hle.1, Option.bind_some,
    Mem.copyWithin_take _ (by simp only [isotpMaxMsg]; omega), Option.bind_some,
    exactIn_of_lt (by omega), Option.bind_some, wrap16_of_lt (by omega)]
  simp only [sendFc_eq, Option.bind_some]
  split_ifs <;> rfl

theorem handleFc_eq (hd : 0 < data.length) :
    handleFc l e data = some (l.handleFc e data) := by
  simp only [handleFc, Link.handleFc]
  by_cases hw : l.tx.phase = .waitFc
  swap
  · rw [if_pos hw, if_pos hw]
  have h₁ : (if 1 < data.length then data[1]? else some 0) =
      some (if 1 < data.length then data.getD 1 0 else 0) := by
    split_ifs with h
    · exact getElem?_of_lt 0 h
    · rfl
  have h₂ : (if 2 < data.length then data[2]? else some 0) =
      some (if 2 < data.length then data.getD 2 0 else 0) := by
    split_ifs with h
    · exact getElem?_of_lt 0 h
    · rfl
  rw [if_neg (not_not.2 hw), if_neg (not_not.2 hw), getElem?_of_lt 0 hd, h₁, h₂]
  simp only [Option.bind_eq_bind, Option.bind_some]
  rcases pciLow (data.getD 0 0) with _ | _ | n
  · split_ifs <;> rfl
  · rfl
  · rfl

theorem isotpOnCanFrame_eq (h : l.InRange) (id : UInt32) :
    isotpOnCanFrame l e data id = some (l.isotpOnCanFrame e id data) := by
  unfold isotpOnCanFrame Link.isotpOnCanFrame
  by_cases hd : data.length < 1 ∨ isotpCanDl < data.length
  · rw [if_pos hd, if_pos hd]
  have h0 : 0 < data.length := by omega
  rw [if_neg hd, if_neg hd]
  cases l.addressed id with
  | none => rfl
  | some functional =>
    simp only [getElem?_of_lt 0 h0, Option.bind_eq_bind, Option.bind_some]
    rcases pciType (data.getD 0 0) with _ | _ | _ | _ | n
    · simp only [handleSf_eq h0, Option.map_some]
    · cases functional
      · exact handleFf_eq e
      · rfl
    · cases functional
      · exact handleCf_eq e h0 h.len fun hr => (h.recv hr).2
      · rfl
    · cases functional
      · simp only [handleFc_eq e h0, Option.map_some]; rfl
      · rfl
    · rfl

theorem isotpSend_eq :
    isotpSend l e data = some ((l.isotpSend e data).1, (l.isotpSend e data).2.2) := by
  simp only [isotpSend, Link.isotpSend]
  by_cases hp : l.tx.phase = .idle
  swap
  · rw [if_pos hp, if_pos hp]
  by_cases hl : data.length = 0 ∨ isotpMaxMsg < data.length
  · rw [if_neg (not_not.2 hp), if_neg (not_not.2 hp), if_pos hl, if_pos hl]
  rw [if_neg (not_not.2 hp), if_neg (not_not.2 hp), if_neg hl, if_neg hl,
    Mem.copyWithin_of_le (by omega)]
  simp only [Option.bind_eq_bind, Option.bind_some]
  by_cases hs : data.length ≤ sfMaxData
  · have h7 : data.length ≤ 7 := hs
    rw [if_pos hs, if_pos hs, Mem.readWithin_of_le (by omega), Option.bind_some,
      txFrame_of_le (by simp; omega), Option.bind_some]
  · rw [if_neg hs, if_neg hs, Mem.readWithin_of_le (by decide), Option.bind_some,
      txFrame_of_le (by simp), Option.bind_some]
    split_ifs <;> rfl

theorem pollTx_eq (h : l.InRange) : pollTx l e = some (l.pollTx e) := by
  simp only [pollTx, Link.pollTx]
  by_cases hw : l.tx.phase = .waitFc
  · rw [if_pos hw, if_pos hw]
    split_ifs <;> rfl
  by_cases hs : l.tx.phase = .send
  swap
  · rw [if_neg hw, if_neg hw, if_neg hs, if_neg hs]
  obtain ⟨-, hlt, hle⟩ := h.send (.inl hs)
  simp only [isotpMaxMsg] at hle
  rw [if_neg hw, if_neg hw, if_pos hs, if_pos hs, exactSub_of_le hlt.le,
    sub16_of_le (by omega) hlt.le]
  simp only [Option.bind_eq_bind, Option.bind_some]
  -- the count fits a byte, the frame and the message
  obtain ⟨n, hn, hn', h7, hfit⟩ : ∃ n,
      (if l.tx.len - l.tx.off < cfMaxData then exactIn 8 (l.tx.len - l.tx.off)
        else some cfMaxData) = some n ∧
      (if l.tx.len - l.tx.off < cfMaxData then (l.tx.len - l.tx.off) % 256 else cfMaxData) = n ∧
      n ≤ 7 ∧ l.tx.off + n ≤ l.tx.len := by
    by_cases h : l.tx.len - l.tx.off < cfMaxData
    · have h7 : l.tx.len - l.tx.off < 7 := h
      exact ⟨l.tx.len - l.tx.off, by rw [if_pos h, exactIn_of_lt (by omega)],
        by rw [if_pos h, Nat.mod_eq_of_lt (by omega)], by omega, by omega⟩
    · have h7 : ¬l.tx.len - l.tx.off < 7 := h
      exact ⟨cfMaxData, if_neg h, if_neg h, le_refl _, by simp only [cfMaxData]; omega⟩
  rw [hn, hn', Option.bind_some, Mem.readWithin_of_le (by simp only [isotpMaxMsg]; omega),
    Option.bind_some, txFrame_of_le (by simp; omega), Option.bind_some, exactIn_of_lt (by omega),
    Option.bind_some, wrap16_of_lt (by omega)]
  split_ifs <;> rfl

theorem isotpPoll_eq (h : l.InRange) : isotpPoll l e = some (l.isotpPoll e) := by
  simp only [isotpPoll, pollTx_eq e h, Option.bind_eq_bind, Option.bind_some]
  rfl

theorem isotpReceive_eq (h : l.InRange) (outCap : ℕ) :
    isotpReceive l outCap = some ((l.isotpReceive outCap).1, none) := by
  unfold isotpReceive Link.isotpReceive
  by_cases hc : l.rx.complete = false
  · rw [if_pos hc, if_pos hc]
  by_cases hcap : outCap < l.rx.len
  · rw [if_neg hc, if_neg hc, if_pos hcap, if_pos hcap]
  have hlen := h.len
  rw [if_neg hc, if_neg hc, if_neg hcap, if_neg hcap, Mem.readWithin_of_le (by omega)]
  simp only [Option.bind_eq_bind, Option.bind_some, Mem.length_read]
  rw [exactSub_of_le (by omega), Option.bind_some]

end Checked

/-- In a link in range no check fails, and the checked call does what the call does. -/
theorem Link.InRange.checked {l : Link} (h : l.InRange) (c : Call) :
    Checked.step l c = some (l.step c, l.handed c) := by
  cases c with
  | send e data => exact Checked.isotpSend_eq e
  | frame e id data => exact Checked.isotpOnCanFrame_eq e h id
  | poll e => exact Checked.isotpPoll_eq e h
  | receive outCap => exact Checked.isotpReceive_eq h outCap

/-! ### The frames on the bus -/

namespace Link

variable {l : Link}

theorem length_txFrame {buf : List UInt8} (h : buf.length ≤ isotpCanDl) :
    (l.txFrame buf).data.length ≤ isotpCanDl := by
  obtain ⟨k, hk, hle⟩ := l.txFrame_data buf
  rw [hk, List.length_append, List.length_replicate]
  omega

theorem length_sendFc (fs : Fs) : (l.sendFc fs).data.length ≤ isotpCanDl :=
  length_txFrame (by simp)

theorem length_nextCf : l.nextCf.length ≤ cfMaxData := by
  rw [nextCf, Mem.length_read]
  exact min_le_right _ _

/-- A frame handed to `can_tx` has at most eight bytes. -/
theorem InRange.handed (h : l.InRange) {c : Call} {f : CanFrame} (hf : l.handed c = some f) :
    f.data.length ≤ isotpCanDl := by
  cases c with
  | send e data =>
    rcases l.isotpSend_cases e data with
      ⟨-, -, -, hn⟩ | ⟨-, -, hle, -, -, hs⟩ | ⟨-, -, -, -, -, hs⟩
    · rw [Link.handed, hn] at hf
      cases hf
    · obtain rfl := Option.some.inj (hs.symm.trans hf)
      have h7 : data.length ≤ 7 := hle
      exact length_txFrame (by simp only [List.length_cons, isotpCanDl]; omega)
    · obtain rfl := Option.some.inj (hs.symm.trans hf)
      have h6 : (data.take ffFirstData).length ≤ 6 := List.length_take_le 6 data
      exact length_txFrame (by simp only [List.length_cons, isotpCanDl]; omega)
  | frame e id data =>
    rcases l.isotpOnCanFrame_frame e data id with hn | ⟨fs, hs⟩
    · rw [Link.handed, hn] at hf
      cases hf
    · obtain rfl := Option.some.inj (hs.symm.trans hf)
      exact length_sendFc fs
  | poll e =>
    rcases l.isotpPoll_cases e fun hs => (h.send (.inl hs)).2 with
      ⟨-, hn, -⟩ | ⟨-, -, -, hn⟩ | ⟨-, -, hs, -⟩
    · rw [Link.handed, hn] at hf
      cases hf
    · rw [Link.handed, hn] at hf
      cases hf
    · obtain rfl := Option.some.inj (hs.symm.trans hf)
      have h7 : l.nextCf.length ≤ 7 := length_nextCf
      exact length_txFrame (by simp only [List.length_cons, isotpCanDl]; omega)
  | receive outCap => cases hf

end Link

/-! ### Every run -/

/-- The links that calls lead to from `isotp_init()` are in range. -/
theorem inRange_of_run {txId rxId funcId : UInt32} {cfg : Option Cfg} {calls : List Call}
    {l : Link} (h : linkSystem.Run (isotpInit txId rxId funcId cfg) calls l) : l.InRange :=
  h.invariant (Link.inRange_init txId rxId funcId cfg) fun _ c _ hi hst => by
    obtain rfl := Option.some.inj hst
    exact hi.step c

/-- **Offsets, lengths and every access stay in bounds.**  In every link that calls lead to from
`isotp_init()`: a reception under way has between the six bytes of its FirstFrame and all but one
of its message, a transfer under way likewise, and no message is longer than the buffers; and no
call fails a check, so that none leaves a frame or a buffer and no difference or cast loses
anything. -/
theorem reachable_inBounds {txId rxId funcId : UInt32} {cfg : Option Cfg} {calls : List Call}
    {l : Link} (h : linkSystem.Run (isotpInit txId rxId funcId cfg) calls l) :
    (l.rx.phase = .recv → 6 ≤ l.rx.off ∧ l.rx.off < l.rx.len ∧ l.rx.len ≤ 4095) ∧
      (l.tx.phase = .send ∨ l.tx.phase = .waitFc →
        6 ≤ l.tx.off ∧ l.tx.off < l.tx.len ∧ l.tx.len ≤ 4095) ∧
      l.rx.len ≤ 4095 ∧
      ∀ c, Checked.step l c = some (l.step c, l.handed c) ∧
        ∀ f, l.handed c = some f → f.data.length ≤ 8 := by
  have hi := inRange_of_run h
  exact ⟨fun hr => ⟨(hi.recv hr).1, (hi.recv hr).2, hi.len⟩, hi.send, hi.len,
    fun c => ⟨hi.checked c, fun _ hf => hi.handed hf⟩⟩

/-- The short last ConsecutiveFrame of a ten-byte message. -/
theorem reachable_inBounds_tenBytes :
    Checked.step (testLink.step (.frame ⟨0, true⟩ 0x7E0 [0x10, 10, 1, 2, 3, 4, 5, 6]))
        (.frame ⟨6, true⟩ 0x7E0 [0x21, 7, 8, 9, 10]) ≠ none := by
  have h := @reachable_inBounds 0x7E8 0x7E0 0x7DF none _ _
    (System.Run.single (l := .frame ⟨0, true⟩ 0x7E0 [0x10, 10, 1, 2, 3, 4, 5, 6]) rfl)
  rw [testLink, (h.2.2.2 _).1]
  exact Option.some_ne_none _

end IsoTp

end Espcan32
