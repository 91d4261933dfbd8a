import Espcan32.Lib.Memory
import Espcan32.Pcan.Proto

/-!
# The record codec: building an EP2-IN batch

`pcan_msg.c` packs records into a buffer of 64 bytes: a two-byte header, then one record after
the other, each refused if it does not fit.  The first record of a batch that carries a timestamp
carries all of it, the ones after it only the low byte (`pcan_time.c`).
-/

namespace Espcan32

namespace Pcan

/-! ### Timestamps -/

/-- `pcan_time_now16()`, of the microseconds since `pcan_time_init()`. -/
def timeNow16 (us : ℕ) : UInt16 := UInt16.ofNat (us * 1000 % 2 ^ 64 / tsTickNs &&& 0xFFFF)

/-- `pcan_ts_batch_t`. -/
structure TsBatch where
  haveFirst : Bool
  lastTs16 : UInt16
  deriving DecidableEq, Repr

/-- The bytes `pcan_ts_append()` writes: two for the first timestamp of a batch, then one. -/
def tsBytes (haveFirst : Bool) (ts16 : UInt16) : List UInt8 :=
  if haveFirst then [(ts16 &&& 0xFF).toUInt8] else putLe16 ts16

/-- The tracker after `pcan_ts_append()`. -/
def TsBatch.append (_ : TsBatch) (ts16 : UInt16) : TsBatch := ⟨true, ts16⟩

/-! ### The batch -/

/-- `pcan_batch_t`. -/
structure Batch where
  buf : Mem UInt8
  len : ℕ
  recCnt : UInt8
  ts : TsBatch

namespace Batch

variable (b : Batch)

/-- `pcan_msg_ts_width()`. -/
def tsWidth : ℕ := if b.ts.haveFirst then 1 else 2

/-- `pcan_msg_batch_reset()`. -/
def reset : Batch where
  buf := (b.buf.copy 0 [msgTxCan]).copy 1 [0]
  len := msgHeaderLen
  recCnt := 0
  ts := ⟨false, 0⟩

/-- The end of the encoders: the bytes of the record stand at `len`, and the header counts it. -/
def put (bytes : List UInt8) (ts : TsBatch) : Batch where
  buf := (b.buf.copy b.len bytes).copy 1 [b.recCnt + 1]
  len := b.len + bytes.length
  recCnt := b.recCnt + 1
  ts := ts

end Batch

/-! ### Records -/

namespace Frame

variable (f : Frame)

/-- The emitted DLC, saturated at 8. -/
def wireDlc : UInt8 := if UInt8.ofNat frameMaxDlc < f.dlc then UInt8.ofNat frameMaxDlc else f.dlc

/-- `data_bytes`. -/
def dataBytes : ℕ := if f.rtr then 0 else f.wireDlc.toNat

/-- The flag bits packed into the id word. -/
def txFlags : UInt8 := (if f.srr then txSrr else 0) ||| (if f.ss then txAt else 0)

/-- The status/len byte. -/
def statusLen : UInt8 :=
  (f.wireDlc &&& statuslenDlc) ||| statuslenTimestamp ||| (if f.ext then statuslenExtId else 0) |||
    (if f.rtr then statuslenRtr else 0)

/-- The id word of an extended frame. -/
def extIdWord : UInt32 :=
  (f.id &&& 0x1FFFFFFF) <<< UInt32.ofNat extIdShift ||| f.txFlags.toUInt32

/-- The id word of a standard frame. -/
def stdIdWord : UInt16 :=
  ((f.id &&& 0x7FF) <<< UInt32.ofNat stdIdShift ||| f.txFlags.toUInt32).toUInt16

/-- The id word in little-endian order. -/
def idBytes : List UInt8 := if f.ext then putLe32 f.extIdWord else putLe16 f.stdIdWord

/-- The self-reception trailer, which only a data frame carries. -/
def trailer : List UInt8 := if f.srr ∧ f.rtr = false then [f.writerId] else []

/-- The record of a frame. -/
def record (haveFirst : Bool) : List UInt8 :=
  f.statusLen :: (f.idBytes ++ (tsBytes haveFirst f.ts16 ++
    (f.data.toList.take f.dataBytes ++ f.trailer)))

end Frame

/-- The record of a status or an error. -/
def statusRecord (haveFirst : Bool) (func num : UInt8) (payload : List UInt8) (withTs : Bool)
    (ts16 : UInt16) : List UInt8 :=
  ((UInt8.ofNat payload.length &&& statuslenDlc) ||| statuslenInternal |||
      (if withTs then statuslenTimestamp else 0)) ::
    func :: num :: ((if withTs then tsBytes haveFirst ts16 else []) ++ payload)

namespace Batch

variable (b : Batch)

/-- `pcan_msg_batch_add_frame()`. -/
def addFrame (f : Frame) : Batch × Bool :=
  let idBytes := if f.ext then 4 else 2
  let srrBytes := if f.srr ∧ f.rtr = false then 1 else 0
  let size := 1 + idBytes + b.tsWidth + f.dataBytes + srrBytes
  if usbTxBufferSize < b.len + size then (b, false)
  else (b.put (f.record b.ts.haveFirst) (b.ts.append f.ts16), true)

/-- `pcan_msg_batch_add_status()`. -/
def addStatus (func num : UInt8) (payload : List UInt8) (withTs : Bool) (ts16 : UInt16) :
    Batch × Bool :=
  if statuslenDlc.toNat < payload.length then (b, false)
  else
    let tsSize := if withTs then b.tsWidth else 0
    let size := 1 + 2 + tsSize + payload.length
    if usbTxBufferSize < b.len + size then (b, false)
    else
      (b.put (statusRecord b.ts.haveFirst func num payload withTs ts16)
        (if withTs then b.ts.append ts16 else b.ts), true)

/-- `pcan_msg_batch_add_calib_ts()`. -/
def addCalibTs (ts16 : UInt16) : Batch × Bool :=
  b.addStatus recTs 0 (putLe16 ts16) false 0

/-- `pcan_msg_batch_add_error()`. -/
def addError (errMask : UInt8) (ts16 : UInt16) : Batch × Bool :=
  b.addStatus recError errMask [] true ts16

end Batch

/-- What is added to a batch: a frame, an error mask, a calibration tick. -/
inductive Rec where
  | frame (f : Frame)
  | error (errMask : UInt8) (ts16 : UInt16)
  | calib (ts16 : UInt16)
  deriving DecidableEq, Repr

/-- Add a record with the encoder of its kind. -/
def Batch.add (b : Batch) : Rec → Batch × Bool
  | .frame f => b.addFrame f
  | .error errMask ts16 => b.addError errMask ts16
  | .calib ts16 => b.addCalibTs ts16

end Pcan

end Espcan32
