import Espcan32.Pcan.Msg

/-!
# The host's decoder

The tests carry a model of the decoder of the Linux driver.  It is transcribed here with its
quirks: it advances by the raw DLC nibble while copying eight bytes, it reads the tick of a
calibration record without advancing, it skips the self-reception trailer unchecked.

A step that returns `-1` is `none`.
-/

namespace Espcan32

namespace Pcan

/-- `HOST_MAX_REC`. -/
def hostMaxRec : ℕ := 32

/-- `host_frame_t`. -/
structure HostFrame where
  id : UInt32
  ext : Bool
  rtr : Bool
  len : UInt8
  data : List UInt8
  ts16 : UInt16
  deriving DecidableEq, Repr

/-- `host_mc_t`; `stop` is its `end`. -/
structure HostMc where
  frames : List HostFrame
  calib : List UInt16
  errMask : List UInt8
  consumed : ℕ
  ts16 : UInt16
  prevTs8 : UInt8
  ptr : ℕ
  stop : ℕ
  recCnt : UInt8
  recTsIdx : UInt8
  deriving DecidableEq, Repr

/-- `mc->ptr += n`. -/
def HostMc.advance (mc : HostMc) (n : ℕ) : HostMc := { mc with ptr := mc.ptr + n }

/-- Note an observation while there is room for it. -/
def noted {α : Type*} (l : List α) (x : α) : List α := if l.length < hostMaxRec then l ++ [x] else l

variable (buf : Mem UInt8)

/-- `host_decode_ts()`. -/
def hostDecodeTs (mc : HostMc) (firstPacket : Bool) : Option HostMc :=
  if firstPacket then
    if mc.stop < mc.ptr + 2 then none
    else
      let ts16 := getLe16 (buf mc.ptr) (buf (mc.ptr + 1))
      some ({ mc with ts16 := ts16, prevTs8 := (ts16 &&& 0x00FF).toUInt8 }.advance 2)
  else
    if mc.stop < mc.ptr + 1 then none
    else
      let ts8 := buf mc.ptr
      let ts16 := if ts8 < mc.prevTs8 then mc.ts16 + 0x100 else mc.ts16
      some ({ mc with ts16 := (ts16 &&& 0xFF00) ||| ts8.toUInt16, prevTs8 := ts8 }.advance 1)

/-- The timestamp of a record, and its count. -/
def hostRecordTs (mc : HostMc) : Option HostMc :=
  (hostDecodeTs buf mc (mc.recTsIdx == 0)).map fun mc => { mc with recTsIdx := mc.recTsIdx + 1 }

/-- The `switch` of `host_decode_status()` on the function code: the length of the payload, and
what is observed. -/
def hostStatusBody (mc : HostMc) (f n recLen : UInt8) : Option (HostMc × UInt8) :=
  if f = recError then some ({ mc with errMask := noted mc.errMask n }, recLen)
  else if f = recAnalog then some (mc, 2)
  else if f = recBusload then some (mc, 1)
  else if f = recTs then
    if mc.stop < mc.ptr + 2 then none
    else
      let ts16 := getLe16 (buf mc.ptr) (buf (mc.ptr + 1))
      some ({ mc with ts16 := ts16, calib := noted mc.calib ts16 }, recLen)
  else some (mc, recLen)

/-- `host_decode_status()`. -/
def hostDecodeStatus (mc : HostMc) (sl : UInt8) : Option HostMc :=
  let recLen := sl &&& statuslenDlc
  if mc.stop < mc.ptr + 2 then none
  else
    let f := buf mc.ptr
    let n := buf (mc.ptr + 1)
    let mc := mc.advance 2
    (if sl &&& statuslenTimestamp ≠ 0 then hostRecordTs buf mc else some mc).bind fun mc =>
      (hostStatusBody buf mc f n recLen).bind fun (mc, recLen) =>
        if mc.stop < mc.ptr + recLen.toNat then none
        else some (mc.advance recLen.toNat)

/-- The id word of a record: the word and the bytes it takes. -/
def hostIdWord (mc : HostMc) (ext : Bool) : Option (UInt32 × ℕ) :=
  if ext then
    if mc.stop < mc.ptr + 4 then none
    else some (getLe32 (buf mc.ptr) (buf (mc.ptr + 1)) (buf (mc.ptr + 2)) (buf (mc.ptr + 3)), 4)
  else
    if mc.stop < mc.ptr + 2 then none
    else some ((getLe16 (buf mc.ptr) (buf (mc.ptr + 1))).toUInt32, 2)

/-- `host_decode_data()`. -/
def hostDecodeData (mc : HostMc) (sl : UInt8) : Option HostMc :=
  let recLen := sl &&& statuslenDlc
  let ext : Bool := sl &&& statuslenExtId ≠ 0
  let rtr : Bool := sl &&& statuslenRtr ≠ 0
  (hostIdWord buf mc ext).bind fun (canIdFlags, idBytes) =>
    let id := canIdFlags >>> UInt32.ofNat (if ext then extIdShift else stdIdShift)
    let len : UInt8 := if 8 < recLen then 8 else recLen
    (hostRecordTs buf (mc.advance idBytes)).bind fun mc =>
      if rtr then
        let f : HostFrame := ⟨id, ext, rtr, len, List.replicate 8 0, mc.ts16⟩
        some { mc with frames := noted mc.frames f }
      else if mc.stop < mc.ptr + recLen.toNat then none
      else
        let data := buf.read mc.ptr len.toNat ++ List.replicate (8 - len.toNat) 0
        let f : HostFrame := ⟨id, ext, rtr, len, data, mc.ts16⟩
        let skip := if canIdFlags &&& txSrr.toUInt32 ≠ 0 then 1 else 0
        some ({ mc with frames := noted mc.frames f }.advance (recLen.toNat + skip))

/-- The loop of `host_decode_batch()` over the records that are left. -/
def hostDecodeRecs : ℕ → HostMc → Option HostMc
  | 0, mc => some mc
  | n + 1, mc =>
    if mc.stop ≤ mc.ptr then none
    else
      let sl := buf mc.ptr
      let mc := mc.advance 1
      (if sl &&& statuslenInternal ≠ 0 then hostDecodeStatus buf mc sl
        else hostDecodeData buf mc sl).bind (hostDecodeRecs n)

/-- `host_decode_batch()`. -/
def hostDecodeBatch (len : ℕ) : Option HostMc :=
  if len ≤ msgHeaderLen then none
  else
    (hostDecodeRecs buf (buf 1).toNat
      ⟨[], [], [], 0, 0, 0, msgHeaderLen, len, buf 1, 0⟩).map fun mc =>
        { mc with consumed := mc.ptr }

end Pcan

end Espcan32
