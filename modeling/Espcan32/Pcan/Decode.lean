import Espcan32.Lib.Memory
import Espcan32.Pcan.Proto

/-!
# The record codec: reading a batch of the host

`pcan_msg_decode_tx()` takes the frames out of an EP2-OUT transfer.  The records of the host carry
no timestamps; a self-reception request is followed by a trailer, and a full transfer ends with
the counter of the host, which every frame keeps as its writer id.  A record that does not fit
makes the whole batch malformed.
-/

namespace Espcan32

namespace Pcan

/-- The id word of a record of the host: the id, the flag bits below it, and its length. -/
def txIdWord (buf : Mem UInt8) (pos : ℕ) (ext : Bool) : UInt32 × UInt8 × ℕ :=
  if ext then
    let w := getLe32 (buf pos) (buf (pos + 1)) (buf (pos + 2)) (buf (pos + 3))
    (w >>> UInt32.ofNat extIdShift, (w &&& 0x7).toUInt8, 4)
  else
    let w := getLe16 (buf pos) (buf (pos + 1))
    ((w >>> UInt16.ofNat stdIdShift).toUInt32, (w &&& 0x1F).toUInt8, 2)

/-- The data record of the host at `pos`, behind its status/len byte `sl`, with the place of the
next record. -/
def decodeTxData (buf : Mem UInt8) (len : ℕ) (writerId sl : UInt8) (pos : ℕ) : Option (Frame × ℕ) :=
  let ext : Bool := sl &&& statuslenExtId ≠ 0
  let rtr : Bool := sl &&& statuslenRtr ≠ 0
  if len < pos + (if ext then 4 else 2) then none
  else
    let (id, txflags, idBytes) := txIdWord buf pos ext
    let pos := pos + idBytes
    let srr : Bool := txflags &&& txSrr ≠ 0
    let ss : Bool := txflags &&& txAt ≠ 0
    let raw := sl &&& statuslenDlc
    let dlc := if UInt8.ofNat frameMaxDlc < raw then UInt8.ofNat frameMaxDlc else raw
    let dataBytes := if rtr then 0 else dlc.toNat
    if len < pos + dataBytes then none
    else
      let f : Frame :=
        { id := id
          ts16 := 0
          dlc := dlc
          flags := (if ext then frameFlagExt else 0) ||| (if rtr then frameFlagRtr else 0) |||
            (if ss then frameFlagSs else 0) ||| (if srr then frameFlagSrr else 0)
          data := Vector.ofFn fun i => if i < dataBytes then buf (pos + i) else 0
          writerId := writerId }
      let pos := pos + dataBytes
      if srr then if len < pos + 1 then none else some (f, pos + 1)
      else some (f, pos)

/-- The loop of `pcan_msg_decode_tx()` over the records that are left. -/
def decodeTxRecs (buf : Mem UInt8) (len maxOut : ℕ) (writerId : UInt8) :
    ℕ → ℕ → List Frame → Option (List Frame)
  | 0, _, out => some out
  | n + 1, pos, out =>
    if maxOut ≤ out.length then some out
    else if len ≤ pos then none
    else
      let sl := buf pos
      let pos := pos + 1
      if sl &&& statuslenInternal ≠ 0 then
        let skip := 2 + (sl &&& statuslenDlc).toNat
        if len < pos + skip then none
        else decodeTxRecs buf len maxOut writerId n (pos + skip) out
      else
        match decodeTxData buf len writerId sl pos with
        | none => none
        | some (f, pos) => decodeTxRecs buf len maxOut writerId n pos (out ++ [f])

/-- `pcan_msg_decode_tx()`; `none` is the result `-1`. -/
def decodeTx (buf : Mem UInt8) (len maxOut : ℕ) : Option (List Frame) :=
  if maxOut = 0 then none
  else if len ≤ msgHeaderLen then none
  else
    let writerId := if usbTxBufferSize ≤ len then buf (usbTxBufferSize - 1) else 0
    decodeTxRecs buf len maxOut writerId (buf 1).toNat msgHeaderLen []

theorem decodeTxRecs_length {buf : Mem UInt8} {len maxOut : ℕ} {writerId : UInt8} {n pos : ℕ}
    {out fs : List Frame} (h : decodeTxRecs buf len maxOut writerId n pos out = some fs)
    (hout : out.length ≤ maxOut) : fs.length ≤ maxOut := by
  induction n generalizing pos out with
  | zero => obtain rfl := Option.some.inj h; exact hout
  | succ n ih =>
    rw [decodeTxRecs] at h
    split at h
    · obtain rfl := Option.some.inj h; exact hout
    split at h
    · cases h
    dsimp only at h
    split at h
    · split at h
      · cases h
      · exact ih h hout
    · split at h
      · cases h
      · exact ih h (by rw [List.length_append, List.length_singleton]; omega)

/-- The decoder never returns more frames than there is room for. -/
theorem decodeTx_length {buf : Mem UInt8} {len maxOut : ℕ} {fs : List Frame}
    (h : decodeTx buf len maxOut = some fs) : fs.length ≤ maxOut := by
  unfold decodeTx at h
  split at h
  · cases h
  split at h
  · cases h
  exact decodeTxRecs_length h (Nat.zero_le _)

end Pcan

end Espcan32
