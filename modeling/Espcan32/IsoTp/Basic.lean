import Espcan32.Lib.Bits
import Espcan32.Lib.Memory
import Espcan32.Lib.System

/-!
# The ISO-TP link

`isotp.c` is an ISO 15765-2 transport over classic CAN: SingleFrames, FirstFrames,
ConsecutiveFrames and FlowControl, one state machine for each direction, driven by the calls of
one task.  A `Link` is an `isotp_link_t`; the functions below are those of the source, under
their names.

The platform hooks `millis` and `can_tx` are read at most once by each entry point, so what they
return is the argument `Env` of the call.  A missing hook is the environment that always returns
`0` and that always fails.  Pointers are never null here: the guards of the source against null
arguments, which return before anything is touched, are left out.

Lengths, offsets and counters are natural numbers; where the source wraps or truncates one, the
model writes the remainder.
-/

namespace Espcan32

namespace IsoTp

/-! ### Constants -/

/-- `ISOTP_CAN_DL`. -/
@[simp] def isotpCanDl : ℕ := 8

/-- `ISOTP_MAX_MSG`. -/
@[simp] def isotpMaxMsg : ℕ := 4095

/-- `ISOTP_NO_FUNC_ID`: the link has no functional address. -/
def isotpNoFuncId : UInt32 := 0xFFFFFFFF

/-- `SF_MAX_DATA`. -/
@[simp] def sfMaxData : ℕ := 7

/-- `FF_FIRST_DATA`. -/
@[simp] def ffFirstData : ℕ := 6

/-- `CF_MAX_DATA`. -/
@[simp] def cfMaxData : ℕ := 7

/-- `DEF_N_MS`. -/
def defNMs : UInt32 := 1000

/-- `DEF_WFT_MAX`. -/
def defWftMax : UInt8 := 8

/-! ### Data model -/

/-- `isotp_fs_t`: flow-control status. -/
inductive Fs where
  | cts
  | wait
  | ovflw
  deriving DecidableEq, Repr

/-- The status nibble of a FlowControl frame. -/
def Fs.code : Fs → ℕ
  | .cts => 0
  | .wait => 1
  | .ovflw => 2

/-- `isotp_ret_t`. -/
inductive Ret where
  | ok
  | error
  | inprogress
  | overflow
  | wrongSn
  | noData
  | timeout
  | length
  | nospace
  deriving DecidableEq, Repr

/-- `isotp_phase_t`. -/
inductive Phase where
  | idle
  | send
  | waitFc
  | recv
  deriving DecidableEq, Repr

/-- `isotp_cfg_t`. -/
structure Cfg where
  nAsMs : UInt32
  nArMs : UInt32
  nBsMs : UInt32
  nCrMs : UInt32
  bs : UInt8
  stmin : UInt8
  wftMax : UInt8
  padByte : UInt8
  deriving DecidableEq, Repr

/-- The send side of an `isotp_link_t`. -/
structure TxSide where
  buf : Mem UInt8
  len : ℕ
  off : ℕ
  sn : ℕ
  bsLeft : ℕ
  stmin : UInt8
  wft : ℕ
  phase : Phase
  timer : UInt32
  stTimer : UInt32

/-- The receive side of an `isotp_link_t`. -/
structure RxSide where
  buf : Mem UInt8
  len : ℕ
  off : ℕ
  sn : ℕ
  blockCf : ℕ
  phase : Phase
  timer : UInt32
  result : Ret
  complete : Bool
  functional : Bool

/-- `isotp_link_t`. -/
structure Link where
  txId : UInt32
  rxId : UInt32
  funcId : UInt32
  cfg : Cfg
  tx : TxSide
  rx : RxSide

/-- A classic CAN frame as handed to `can_tx`; its `dlc` is the number of data bytes. -/
structure CanFrame where
  id : UInt32
  data : List UInt8
  deriving DecidableEq, Repr

/-- What the hooks return to one call: the millisecond clock, and whether `can_tx` succeeds. -/
structure Env where
  now : UInt32
  canTx : Bool
  deriving DecidableEq, Repr

/-- What `isotp_receive()` hands back. -/
structure Received where
  ret : Ret
  out : List UInt8
  functional : Bool
  deriving DecidableEq, Repr

/-! ### Helpers -/

/-- `PCI_TYPE(b0)`. -/
def pciType (b0 : UInt8) : ℕ := (b0 >>> 4).toNat

/-- `PCI_SF_LEN`, `PCI_CF_SN` and `PCI_FC_FS`: the low nibble of the first byte. -/
def pciLow (b0 : UInt8) : ℕ := (b0 &&& 0x0F).toNat

/-- The first byte of a frame: its N_PCI type and the low nibble of `n`. -/
def pciByte (t n : ℕ) : UInt8 := UInt8.ofNat (t <<< 4 ||| (n &&& 0x0F))

/-- `elapsed()`. -/
def elapsed (now start : UInt32) : UInt32 := now - start

/-- `stmin_to_ms()`. -/
def stminToMs (raw : UInt8) : UInt32 :=
  if raw ≤ 0x7F then raw.toUInt32
  else if 0xF1 ≤ raw ∧ raw ≤ 0xF9 then 1
  else 0x7F

namespace Link

/-- The frame `tx_frame()` builds from the significant bytes `buf`. -/
def txFrame (l : Link) (buf : List UInt8) : CanFrame where
  id := l.txId
  data :=
    if l.cfg.padByte ≠ 0xFF then buf ++ List.replicate (isotpCanDl - buf.length) l.cfg.padByte
    else buf

/-- The frame `send_fc()` hands to `can_tx`. -/
def sendFc (l : Link) (fs : Fs) : CanFrame :=
  l.txFrame [pciByte 3 fs.code, l.cfg.bs, l.cfg.stmin]

/-- `tx_reset()`. -/
def txReset (l : Link) : Link :=
  { l with tx := { l.tx with
      phase := .idle, len := 0, off := 0, sn := 0, bsLeft := 0, stmin := 0, wft := 0 } }

/-- `rx_reset()`. -/
def rxReset (l : Link) : Link :=
  { l with rx := { l.rx with phase := .idle, len := 0, off := 0, sn := 0, blockCf := 0 } }

end Link

/-! ### init -/

/-- The configuration `isotp_init()` stores. -/
def initCfg (cfg : Option Cfg) : Cfg :=
  let c := cfg.getD ⟨0, 0, 0, 0, 0, 0, 0, 0⟩
  let c := { c with
    nAsMs := if c.nAsMs = 0 then defNMs else c.nAsMs
    nArMs := if c.nArMs = 0 then defNMs else c.nArMs
    nBsMs := if c.nBsMs = 0 then defNMs else c.nBsMs
    nCrMs := if c.nCrMs = 0 then defNMs else c.nCrMs
    wftMax := if c.wftMax = 0 then defWftMax else c.wftMax }
  if cfg.isNone then { c with padByte := 0xCC, bs := 0, stmin := 0 } else c

/-- `isotp_init()`; `none` is the null configuration. -/
def isotpInit (txId rxId funcId : UInt32) (cfg : Option Cfg) : Link where
  txId := txId
  rxId := rxId
  funcId := funcId
  cfg := initCfg cfg
  tx := ⟨fun _ => 0, 0, 0, 0, 0, 0, 0, .idle, 0, 0⟩
  rx := ⟨fun _ => 0, 0, 0, 0, 0, .idle, 0, .ok, false, false⟩

namespace Link

variable (l : Link) (e : Env)

/-! ### send -/

/-- `isotp_send()`: the new link, the return code and the frame handed to `can_tx`. -/
def isotpSend (data : List UInt8) : Link × Ret × Option CanFrame :=
  let size := data.length
  if l.tx.phase ≠ .idle then (l, .nospace, none)
  else if size = 0 ∨ isotpMaxMsg < size then (l, .length, none)
  else
    let l := { l with tx := { l.tx with
      buf := l.tx.buf.copy 0 data, len := size, off := 0, wft := 0 } }
    if size ≤ sfMaxData then
      let f := l.txFrame (pciByte 0 size :: l.tx.buf.read 0 size)
      (l.txReset, if e.canTx then .ok else .error, some f)
    else
      let f := l.txFrame
        (pciByte 1 (size >>> 8) :: UInt8.ofNat (size &&& 0xFF) :: l.tx.buf.read 0 ffFirstData)
      if e.canTx then
        ({ l with tx := { l.tx with
            off := ffFirstData, sn := 1, phase := .waitFc, timer := e.now } }, .inprogress, some f)
      else (l.txReset, .error, some f)

/-! ### on_can_frame -/

/-- `handle_sf()`. -/
def handleSf (data : List UInt8) (functional : Bool) : Link :=
  let len := pciLow (data.getD 0 0)
  if len = 0 ∨ sfMaxData < len then l
  else if data.length - 1 < len then l
  -- a broadcast displaces neither a reception under way nor a PDU that waits
  else if functional ∧ (l.rx.phase = .recv ∨ l.rx.complete) then l
  else
    { l with rx := { l.rx with
        buf := l.rx.buf.copy 0 ((data.drop 1).take len)
        len := len, off := len, phase := .idle, result := .ok
        functional := functional, complete := true } }

/-- `FF_DL`, the length a FirstFrame declares. -/
def ffDl (data : List UInt8) : ℕ := pciLow (data.getD 0 0) <<< 8 ||| (data.getD 1 0).toNat

/-- `handle_ff()`. -/
def handleFf (data : List UInt8) : Link × Option CanFrame :=
  if data.length ≠ isotpCanDl then (l, none)
  else
    if ffDl data ≤ sfMaxData then (l, none)
    else if isotpMaxMsg < ffDl data then (l.rxReset, some (l.sendFc .ovflw))
    else
      let l := { l with rx := { l.rx with
        buf := l.rx.buf.copy 0 ((data.drop 2).take ffFirstData)
        len := ffDl data, off := ffFirstData, sn := 1, blockCf := 0, phase := .recv, result := .ok
        functional := false, timer := e.now } }
      (l, some (l.sendFc .cts))

/-- `handle_cf()`. -/
def handleCf (data : List UInt8) : Link × Option CanFrame :=
  let dlc := data.length
  if l.rx.phase ≠ .recv then (l, none)
  else if pciLow (data.getD 0 0) ≠ l.rx.sn then
    ({ l with rx := { l.rx with result := .wrongSn } }.rxReset, none)
  else
    let remaining := sub16 l.rx.len l.rx.off
    let avail := if 1 < dlc then dlc - 1 else 0
    -- only the last ConsecutiveFrame may be short
    if cfMaxData < remaining ∧ avail < cfMaxData then
      ({ l with rx := { l.rx with result := .length } }.rxReset, none)
    else
      let take := if remaining < cfMaxData then remaining else cfMaxData
      let take := if avail < take then avail else take
      let l := { l with rx := { l.rx with
        buf := l.rx.buf.copy l.rx.off ((data.drop 1).take take)
        off := wrap16 (l.rx.off + take)
        sn := (l.rx.sn + 1) &&& 0x0F
        blockCf := (l.rx.blockCf + 1) % 256
        timer := e.now } }
      if l.rx.len ≤ l.rx.off then
        ({ l with rx := { l.rx with result := .ok, complete := true, phase := .idle } }, none)
      else if l.cfg.bs ≠ 0 ∧ l.cfg.bs.toNat ≤ l.rx.blockCf then
        ({ l with rx := { l.rx with blockCf := 0 } }, some (l.sendFc .cts))
      else (l, none)

/-- `handle_fc()`. -/
def handleFc (data : List UInt8) : Link :=
  let dlc := data.length
  if l.tx.phase ≠ .waitFc then l
  else
    match pciLow (data.getD 0 0) with
    | 0 => -- ISOTP_FS_CTS
      { l with tx := { l.tx with
          bsLeft := if 1 < dlc then (data.getD 1 0).toNat else 0
          stmin := if 2 < dlc then data.getD 2 0 else 0
          wft := 0, phase := .send, stTimer := e.now } }
    | 1 => -- ISOTP_FS_WAIT
      let wft := (l.tx.wft + 1) % 256
      let l := { l with tx := { l.tx with wft := wft } }
      if l.cfg.wftMax.toNat < wft then l.txReset
      else { l with tx := { l.tx with timer := e.now } }
    | _ => l.txReset -- ISOTP_FS_OVFLW and the reserved values

/-- The address a frame arrives on: `some false` physical, `some true` functional. -/
def addressed (id : UInt32) : Option Bool :=
  if id = l.rxId then some false
  else if l.funcId ≠ isotpNoFuncId ∧ id = l.funcId then some true
  else none

/-- `isotp_on_can_frame()`: the new link and the frame handed to `can_tx`. -/
def isotpOnCanFrame (id : UInt32) (data : List UInt8) : Link × Option CanFrame :=
  if data.length < 1 ∨ isotpCanDl < data.length then (l, none)
  else
    match l.addressed id with
    | none => (l, none)
    | some functional =>
      match pciType (data.getD 0 0) with
      | 0 => (l.handleSf data functional, none)
      | 1 => if functional then (l, none) else l.handleFf e data
      | 2 => if functional then (l, none) else l.handleCf e data
      | 3 => if functional then (l, none) else (l.handleFc e data, none)
      | _ => (l, none)

/-! ### poll -/

/-- The rest of the send half of `isotp_poll()` once `can_tx` has taken the ConsecutiveFrame `f`,
which brings the offset to `off`: the new link, the frame, and whether the call returns here. -/
def cfSent (f : CanFrame) (off : ℕ) : Link × Option CanFrame × Bool :=
  let l := { l with tx := { l.tx with
    off := off, sn := (l.tx.sn + 1) &&& 0x0F, stTimer := e.now } }
  if l.tx.len ≤ l.tx.off then (l.txReset, some f, true)
  else if l.tx.bsLeft ≠ 0 then
    let l := { l with tx := { l.tx with bsLeft := l.tx.bsLeft - 1 } }
    if l.tx.bsLeft = 0 then
      ({ l with tx := { l.tx with phase := .waitFc, timer := e.now } }, some f, false)
    else (l, some f, false)
  else (l, some f, false)

/-- The send half of `isotp_poll()`, N_Bs timeout and CF pacing: the new link, the frame handed to
`can_tx`, and whether the call returns here. -/
def pollTx : Link × Option CanFrame × Bool :=
  if l.tx.phase = .waitFc then
    if l.cfg.nBsMs ≤ elapsed e.now l.tx.timer then (l.txReset, none, false)
    else (l, none, false)
  else if l.tx.phase = .send then
    if stminToMs l.tx.stmin ≤ elapsed e.now l.tx.stTimer then
      let remaining := sub16 l.tx.len l.tx.off
      -- the count is a `uint8_t`
      let n := if remaining < cfMaxData then remaining % 256 else cfMaxData
      let f := l.txFrame (pciByte 2 l.tx.sn :: l.tx.buf.read l.tx.off n)
      if e.canTx = false then (l.txReset, some f, true)
      else l.cfSent e f (wrap16 (l.tx.off + n))
    else (l, none, false)
  else (l, none, false)

/-- The receive half of `isotp_poll()`: the N_Cr timeout. -/
def pollRx : Link :=
  if l.rx.phase = .recv ∧ l.cfg.nCrMs ≤ elapsed e.now l.rx.timer then
    { l with rx := { l.rx with result := .timeout } }.rxReset
  else l

/-- `isotp_poll()`: the new link and the frame handed to `can_tx`. -/
def isotpPoll : Link × Option CanFrame :=
  let (l, f, returns) := l.pollTx e
  if returns then (l, f) else (l.pollRx e, f)

/-! ### receive -/

/-- `isotp_receive()` into a buffer of `outCap` bytes. -/
def isotpReceive (outCap : ℕ) : Link × Received :=
  if l.rx.complete = false then (l, ⟨.noData, [], false⟩)
  else if outCap < l.rx.len then (l, ⟨.nospace, [], false⟩)
  else
    ({ l with rx := { l.rx with complete := false } },
      ⟨.ok, l.rx.buf.read 0 l.rx.len, l.rx.functional⟩)

end Link

/-! ### Calls -/

/-- A call of one of the four entry points that drive a link. -/
inductive Call where
  | send (e : Env) (data : List UInt8)
  | frame (e : Env) (id : UInt32) (data : List UInt8)
  | poll (e : Env)
  | receive (outCap : ℕ)

/-- Whether `can_tx` succeeds in a call. -/
def Call.canTx : Call → Bool
  | .send e _ | .frame e _ _ | .poll e => e.canTx
  | .receive _ => false

/-- The frame a call hands to `can_tx`. -/
def Link.handed (l : Link) : Call → Option CanFrame
  | .send e data => (l.isotpSend e data).2.2
  | .frame e id data => (l.isotpOnCanFrame e id data).2
  | .poll e => (l.isotpPoll e).2
  | .receive _ => none

/-- The link after a call. -/
def Link.step (l : Link) : Call → Link
  | .send e data => (l.isotpSend e data).1
  | .frame e id data => (l.isotpOnCanFrame e id data).1
  | .poll e => (l.isotpPoll e).1
  | .receive outCap => (l.isotpReceive outCap).1

/-- The system of a link: every call is possible in every state. -/
def linkSystem : System Link Call := .ofFun fun l c => some (l.step c)

/-- The link of the host tests: replies on `0x7E8`, requests on `0x7E0`, broadcasts on `0x7DF`. -/
def testLink : Link := isotpInit 0x7E8 0x7E0 0x7DF none

end IsoTp

end Espcan32
