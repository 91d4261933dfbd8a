import Espcan32.Lib.Checked
import Espcan32.Pcan.HostTx
import Espcan32.Usb.Glue

/-!
# What comes in on EP2-OUT

A transfer of the host is any bytes.  `pcan_msg_decode_tx()` walks over it by the lengths that its
records announce.

The functions in the namespace `Checked` are those of the decoder once more, with every index into
the transfer checked and every position within 16 bits.

* `Checked.decodeTx_eq` : no check fails, whatever the transfer holds.
* `announced` : the records that a transfer announces, read off its bytes.
* `decode_safe` : **a transfer is decoded as a whole or not at all**, and every frame is sound.
-/

namespace Espcan32

namespace Usb

open Pcan

/-! ### The decoder with its accesses checked -/

namespace Checked

/-- The id word of a record. -/
def txIdWord (bytes : List UInt8) (pos : ℕ) (ext : Bool) : Option (UInt32 × UInt8 × ℕ) :=
  if ext then do
    let w := getLe32 (← bytes[pos]?) (← bytes[pos + 1]?) (← bytes[pos + 2]?) (← bytes[pos + 3]?)
    some (w >>> UInt32.ofNat extIdShift, (w &&& 0x7).toUInt8, 4)
  else do
    let w := getLe16 (← bytes[pos]?) (← bytes[pos + 1]?)
    some ((w >>> UInt16.ofNat stdIdShift).toUInt32, (w &&& 0x1F).toUInt8, 2)

/-- A data record: the frame and the place of the next record, or `-1`. -/
def decodeTxData (bytes : List UInt8) (writerId sl : UInt8) (pos : ℕ) :
    Option (Option (Frame × ℕ)) :=
  let ext : Bool := sl &&& statuslenExtId ≠ 0
  let rtr : Bool := sl &&& statuslenRtr ≠ 0
  if bytes.length < pos + (if ext then 4 else 2) then some none
  else do
    let (id, txflags, idBytes) ← txIdWord bytes pos ext
    let pos ← exactIn 16 (pos + idBytes)
    let srr : Bool := txflags &&& txSrr ≠ 0
    let ss : Bool := txflags &&& txAt ≠ 0
    let raw := sl &&& statuslenDlc
    let dlc := if UInt8.ofNat frameMaxDlc < raw then UInt8.ofNat frameMaxDlc else raw
    let dataBytes := if rtr then 0 else dlc.toNat
    if bytes.length < pos + dataBytes then some none
    else do
      let block ← blockWithin bytes pos dataBytes
      let f : Frame :=
        { id := id
          ts16 := 0
          dlc := dlc
          flags := (if ext then frameFlagExt else 0) ||| (if rtr then frameFlagRtr else 0) |||
            (if ss then frameFlagSs else 0) ||| (if srr then frameFlagSrr else 0)
          data := Vector.ofFn fun i => block.getD i 0
          writerId := writerId }
      let pos ← exactIn 16 (pos + dataBytes)
      if srr then
        if bytes.length < pos + 1 then some none
        else do
          let pos ← exactIn 16 (pos + 1)
          some (some (f, pos))
      else some (some (f, pos))

/-- The loop over the records. -/
def decodeTxRecs (bytes : List UInt8) (maxOut : ℕ) (writerId : UInt8) :
    ℕ → ℕ → List Frame → Option (Option (List Frame))
  | 0, _, out => some (some out)
  | n + 1, pos, out =>
    if maxOut ≤ out.length then some (some out)
    else if bytes.length ≤ pos then some none
    else do
      let sl ← bytes[pos]?
      let pos ← exactIn 16 (pos + 1)
      if sl &&& statuslenInternal ≠ 0 then
        let skip := 2 + (sl &&& statuslenDlc).toNat
        if bytes.length < pos + skip then some none
        else do
          let pos ← exactIn 16 (pos + skip)
          decodeTxRecs bytes maxOut writerId n pos out
      else
        match ← decodeTxData bytes writerId sl pos with
        | none => some none
        | some (f, pos) => decodeTxRecs bytes maxOut writerId n pos (out ++ [f])

/-- `pcan_msg_decode_tx()`. -/
def decodeTx (bytes : List UInt8) (maxOut : ℕ) : Option (Option (List Frame)) :=
  if maxOut = 0 then some none
  else if bytes.length ≤ msgHeaderLen then some none
  else do
    let recCnt ← bytes[1]?
    let writerId ← if usbTxBufferSize ≤ bytes.length then bytes[usbTxBufferSize - 1]? else some 0
    decodeTxRecs bytes maxOut writerId recCnt.toNat msgHeaderLen []

/-! ### No check fails -/

/-- A transfer as the buffer that the decoder is given. -/
abbrev bufOf (bytes : List UInt8) : Mem UInt8 := fun i => bytes.getD i 0

variable {bytes : List UInt8}

theorem getElem?_bufOf {i : ℕ} (h : i < bytes.length) : bytes[i]? = some (bufOf bytes i) :=
  getElem?_of_lt 0 h

theorem txIdWord_eq {pos : ℕ} {ext : Bool} (h : pos + (if ext then 4 else 2) ≤ bytes.length) :
    txIdWord bytes pos ext = some (Pcan.txIdWord (bufOf bytes) pos ext) := by
  cases ext with
  | true =>
    have h4 : pos + 4 ≤ bytes.length := h
    rw [txIdWord, Pcan.txIdWord, getElem?_bufOf (by omega), getElem?_bufOf (by omega),
      getElem?_bufOf (by omega), getElem?_bufOf (by omega)]
    rfl
  | false =>
    have h2 : pos + 2 ≤ bytes.length := h
    rw [txIdWord, Pcan.txIdWord, getElem?_bufOf (by omega), getElem?_bufOf (by omega)]
    rfl

theorem idBytes_eq (buf : Mem UInt8) (pos : ℕ) (ext : Bool) :
    (Pcan.txIdWord buf pos ext).2.2 = if ext then 4 else 2 := by
  cases ext <;> rfl

/-- The block of a record is what the decoder copies. -/
theorem data_eq (pos n : ℕ) :
    (Vector.ofFn fun i : Fin frameMaxDlc => ((bytes.drop pos).take n).getD i 0) =
      Vector.ofFn fun i : Fin frameMaxDlc => if i < n then bufOf bytes (pos + i) else 0 := by
  congr 1
  funext i
  rw [List.getD_eq_getElem?_getD, List.getElem?_take]
  split
  · rw [List.getElem?_drop, ← List.getD_eq_getElem?_getD]
  · rfl

theorem decodeTxData_eq (hlen : bytes.length < 65536) (writerId sl : UInt8) (pos : ℕ) :
    decodeTxData bytes writerId sl pos =
      some (Pcan.decodeTxData (bufOf bytes) bytes.length writerId sl pos) := by
  unfold decodeTxData Pcan.decodeTxData
  dsimp only
  generalize decide (sl &&& statuslenExtId ≠ 0) = ext
  generalize decide (sl &&& statuslenRtr ≠ 0) = rtr
  generalize (if UInt8.ofNat frameMaxDlc < sl &&& statuslenDlc then UInt8.ofNat frameMaxDlc
    else sl &&& statuslenDlc) = dlc
  generalize (if rtr = true then 0 else dlc.toNat) = dataBytes
  by_cases hid : bytes.length < pos + (if ext = true then 4 else 2)
  · rw [if_pos hid, if_pos hid]
  rw [if_neg hid, if_neg hid, txIdWord_eq (Nat.not_lt.1 hid)]
  have hbytes := idBytes_eq (bufOf bytes) pos ext
  generalize Pcan.txIdWord (bufOf bytes) pos ext = w at hbytes
  obtain ⟨id, txflags, idBytes⟩ := w
  dsimp only at hbytes
  rw [← hbytes] at hid
  simp only [Option.bind_eq_bind, Option.bind_some]
  rw [exactIn_of_lt (by omega), Option.bind_some]
  by_cases hdata : bytes.length < pos + idBytes + dataBytes
  · rw [if_pos hdata, if_pos hdata]
  rw [if_neg hdata, if_neg hdata, blockWithin_of_le (Nat.not_lt.1 hdata), Option.bind_some,
    exactIn_of_lt (by omega), Option.bind_some, data_eq]
  by_cases hsrr : decide (txflags &&& txSrr ≠ 0) = true
  · rw [if_pos hsrr]
    by_cases htail : bytes.length < pos + idBytes + dataBytes + 1
    · simp only [if_pos htail, if_pos hsrr]
    · rw [if_neg htail, exactIn_of_lt (by omega)]
      simp only [if_neg htail, if_pos hsrr, Option.bind_some]
  · simp only [if_neg hsrr]

theorem decodeTxRecs_eq (hlen : bytes.length < 65536) (maxOut : ℕ) (writerId : UInt8) (n pos : ℕ)
    (out : List Frame) :
    decodeTxRecs bytes maxOut writerId n pos out =
      some (Pcan.decodeTxRecs (bufOf bytes) bytes.length maxOut writerId n pos out) := by
  induction n generalizing pos out with
  | zero => rfl
  | succ n ih =>
    rw [decodeTxRecs, Pcan.decodeTxRecs]
    by_cases hfull : maxOut ≤ out.length
    · rw [if_pos hfull, if_pos hfull]
    rw [if_neg hfull, if_neg hfull]
    by_cases hend : bytes.length ≤ pos
    · rw [if_pos hend, if_pos hend]
    rw [if_neg hend, if_neg hend, getElem?_bufOf (by omega), exactIn_of_lt (by omega)]
    simp only [Option.bind_eq_bind, Option.bind_some]
    generalize bufOf bytes pos = sl
    by_cases hint : sl &&& statuslenInternal ≠ 0
    · rw [if_pos hint, if_pos hint]
      by_cases hskip : bytes.length < pos + 1 + (2 + (sl &&& statuslenDlc).toNat)
      · rw [if_pos hskip, if_pos hskip]
      · rw [if_neg hskip, if_neg hskip, exactIn_of_lt (by omega), Option.bind_some]
        exact ih _ _
    · rw [if_neg hint, if_neg hint, decodeTxData_eq hlen, Option.bind_some]
      rcases Pcan.decodeTxData (bufOf bytes) bytes.length writerId sl (pos + 1) with _ | ⟨f, pos'⟩
      · rfl
      · exact ih _ _

/-- **No check fails**, whatever the transfer holds. -/
theorem decodeTx_eq (hlen : bytes.length < 65536) (maxOut : ℕ) :
    decodeTx bytes maxOut = some (Pcan.decodeTx (bufOf bytes) bytes.length maxOut) := by
  unfold decodeTx Pcan.decodeTx
  by_cases hmax : maxOut = 0
  · rw [if_pos hmax, if_pos hmax]
  rw [if_neg hmax, if_neg hmax]
  by_cases hempty : bytes.length ≤ msgHeaderLen
  · rw [if_pos hempty, if_pos hempty]
  have h2 : 2 < bytes.length := Nat.not_le.1 hempty
  rw [if_neg hempty, if_neg hempty, getElem?_bufOf (by omega), Option.bind_eq_bind,
    Option.bind_some]
  by_cases hfull : usbTxBufferSize ≤ bytes.length
  · have h64 : 64 ≤ bytes.length := hfull
    rw [if_pos hfull, getElem?_bufOf (by simp only [usbTxBufferSize]; omega)]
    simp only [if_pos hfull]
    exact decodeTxRecs_eq hlen _ _ _ _ _
  · simp only [if_neg hfull]
    exact decodeTxRecs_eq hlen _ _ _ _ _

end Checked

open Checked (bufOf)

/-! ### The records that a transfer announces -/

/-- The bytes of a data record behind its status/len byte `sl`; `b` is the first of them, and holds
the bit for a trailer. -/
def dataSize (sl b : UInt8) : ℕ :=
  (if sl &&& statuslenExtId ≠ 0 then 4 else 2) +
    (if sl &&& statuslenRtr ≠ 0 then 0 else min frameMaxDlc (sl &&& statuslenDlc).toNat) +
    (if b &&& txSrr ≠ 0 then 1 else 0)

/-- The bytes of a record, with its status/len byte. -/
def recordSize (sl b : UInt8) : ℕ :=
  if sl &&& statuslenInternal ≠ 0 then 3 + (sl &&& statuslenDlc).toNat else 1 + dataSize sl b

/-- The next `n` records of a transfer, and whether each of them is a data record; `none` if one of
them is cut off. -/
def announced : ℕ → List UInt8 → Option (List Bool)
  | 0, _ => some []
  | _ + 1, [] => none
  | n + 1, sl :: rest =>
    if recordSize sl (rest.getD 0 0) ≤ rest.length + 1 then
      (announced n ((sl :: rest).drop (recordSize sl (rest.getD 0 0)))).map
        (decide (sl &&& statuslenInternal = 0) :: ·)
    else none

theorem three_le_recordSize (sl b : UInt8) : 3 ≤ recordSize sl b := by
  unfold recordSize dataSize
  split
  · omega
  · have hid : 2 ≤ if sl &&& statuslenExtId ≠ 0 then 4 else 2 := by split <;> omega
    omega

/-- Every record has three bytes. -/
theorem announced_length {n : ℕ} {bytes : List UInt8} {kinds : List Bool}
    (h : announced n bytes = some kinds) : 3 * kinds.length ≤ bytes.length := by
  induction n generalizing bytes kinds with
  | zero =>
    obtain rfl := Option.some.inj h
    exact Nat.zero_le _
  | succ n ih =>
    rcases bytes with _ | ⟨sl, rest⟩
    · cases h
    rw [announced] at h
    split at h
    · rename_i hfit
      obtain ⟨kinds', hk, rfl⟩ := Option.map_eq_some_iff.1 h
      have hlen := ih hk
      have hthree := three_le_recordSize sl (rest.getD 0 0)
      rw [List.length_drop, List.length_cons] at hlen
      rw [List.length_cons, List.length_cons]
      omega
    · cases h

/-! ### What the decoder makes of them -/

/-- A frame that the bus can carry. -/
structure Sound (f : Frame) : Prop where
  dlc : f.dlc ≤ 8
  id : f.id.toNat < if f.ext then 2 ^ 29 else 2 ^ 11

/-- A byte that is shifted up has no low bit. -/
theorem shifted_mod_two (x w : ℕ) (h : 2 ∣ w) {k : ℕ} (hk : 0 < k) : x <<< k % w % 2 ^ 1 = 0 := by
  obtain ⟨k, rfl⟩ : ∃ j, k = j + 1 := ⟨k - 1, by omega⟩
  rw [Nat.pow_one, Nat.mod_mod_of_dvd _ h, Nat.shiftLeft_eq, Nat.pow_succ, ← Nat.mul_assoc,
    Nat.mul_mod_left]

theorem getLe32_mod_two (b0 b1 b2 b3 : UInt8) :
    (getLe32 b0 b1 b2 b3).toNat % 2 = b0.toNat % 2 := by
  simp only [getLe32, UInt32.toNat_or, UInt32.toNat_shiftLeft, UInt8.toNat_toUInt32]
  rw [show 2 = 2 ^ 1 from rfl, Nat.or_mod_two_pow, Nat.or_mod_two_pow, Nat.or_mod_two_pow,
    shifted_mod_two _ _ (by decide) (by decide), shifted_mod_two _ _ (by decide) (by decide),
    shifted_mod_two _ _ (by decide) (by decide)]
  simp

theorem getLe16_mod_two (b0 b1 : UInt8) : (getLe16 b0 b1).toNat % 2 = b0.toNat % 2 := by
  simp only [getLe16, UInt16.toNat_or, UInt16.toNat_shiftLeft, UInt8.toNat_toUInt16]
  rw [show 2 = 2 ^ 1 from rfl, Nat.or_mod_two_pow, shifted_mod_two _ _ (by decide) (by decide)]
  simp

/-- The bit for a trailer is in the first byte of the id word. -/
theorem txSrr_idWord (buf : Mem UInt8) (pos : ℕ) (ext : Bool) :
    (txIdWord buf pos ext).2.1 &&& txSrr = buf pos &&& txSrr := by
  apply UInt8.toNat_inj.1
  rw [UInt8.toNat_and, UInt8.toNat_and, show txSrr.toNat = 1 from rfl, Nat.and_one_is_mod,
    Nat.and_one_is_mod]
  cases ext with
  | true =>
    have hlow := getLe32_mod_two (buf pos) (buf (pos + 1)) (buf (pos + 2)) (buf (pos + 3))
    rw [txIdWord, if_pos rfl, UInt32.toNat_toUInt8, UInt32.toNat_and,
      show (0x7 : UInt32).toNat = 2 ^ 3 - 1 from rfl, Nat.and_two_pow_sub_one_eq_mod]
    omega
  | false =>
    have hlow := getLe16_mod_two (buf pos) (buf (pos + 1))
    rw [txIdWord, if_neg (by decide), UInt16.toNat_toUInt8, UInt16.toNat_and,
      show (0x1F : UInt16).toNat = 2 ^ 5 - 1 from rfl, Nat.and_two_pow_sub_one_eq_mod]
    omega

theorem txIdWord_id (buf : Mem UInt8) (pos : ℕ) (ext : Bool) :
    (txIdWord buf pos ext).1.toNat < if ext then 2 ^ 29 else 2 ^ 11 := by
  cases ext with
  | true =>
    have hw := (getLe32 (buf pos) (buf (pos + 1)) (buf (pos + 2)) (buf (pos + 3))).toNat_lt
    rw [txIdWord, if_pos rfl, if_pos rfl, UInt32.toNat_shiftRight, shiftAmount (by decide),
      Nat.shiftRight_eq_div_pow, extIdShift]
    omega
  | false =>
    have hw := (getLe16 (buf pos) (buf (pos + 1))).toNat_lt
    rw [txIdWord, if_neg (by decide), if_neg (by decide), UInt16.toNat_toUInt32,
      UInt16.toNat_shiftRight, show (UInt16.ofNat stdIdShift).toNat % 16 = 5 from rfl,
      Nat.shiftRight_eq_div_pow]
    omega

/-- A raw nibble is saturated at 8. -/
theorem toNat_saturated (raw : UInt8) :
    (if UInt8.ofNat frameMaxDlc < raw then UInt8.ofNat frameMaxDlc else raw).toNat =
      min frameMaxDlc raw.toNat := by
  have h8 : (UInt8.ofNat frameMaxDlc).toNat = 8 := rfl
  split
  · rename_i h
    rw [UInt8.lt_iff_toNat_lt, h8] at h
    rw [h8, frameMaxDlc]
    omega
  · rename_i h
    rw [UInt8.lt_iff_toNat_lt, h8] at h
    rw [frameMaxDlc]
    omega

/-- **A data record** is taken whole, as a frame that the bus can carry, or is cut off. -/
theorem decodeTxData_cases (buf : Mem UInt8) (len : ℕ) (writerId sl : UInt8) (pos : ℕ) :
    len < pos + dataSize sl (buf pos) ∧ decodeTxData buf len writerId sl pos = none ∨
      pos + dataSize sl (buf pos) ≤ len ∧ ∃ f, Sound f ∧
        decodeTxData buf len writerId sl pos = some (f, pos + dataSize sl (buf pos)) := by
  unfold dataSize decodeTxData
  rw [← toNat_saturated]
  dsimp only
  have hdlc := toNat_saturated (sl &&& statuslenDlc)
  generalize (if UInt8.ofNat frameMaxDlc < sl &&& statuslenDlc then UInt8.ofNat frameMaxDlc
    else sl &&& statuslenDlc) = dlc at hdlc
  have hext : (if sl &&& statuslenExtId ≠ 0 then 4 else 2) =
      if decide (sl &&& statuslenExtId ≠ 0) = true then 4 else 2 := by simp
  have hrtr : (if sl &&& statuslenRtr ≠ 0 then 0 else dlc.toNat) =
      if decide (sl &&& statuslenRtr ≠ 0) = true then 0 else dlc.toNat := by simp
  rw [hext, hrtr, ← txSrr_idWord buf pos (decide (sl &&& statuslenExtId ≠ 0))]
  generalize decide (sl &&& statuslenExtId ≠ 0) = ext
  generalize decide (sl &&& statuslenRtr ≠ 0) = rtr
  have hid := txIdWord_id buf pos ext
  have hbytes := Checked.idBytes_eq buf pos ext
  generalize txIdWord buf pos ext = w at hid hbytes
  obtain ⟨id, txflags, idBytes⟩ := w
  dsimp only at hid hbytes ⊢
  rw [← hbytes]
  generalize (if rtr = true then 0 else dlc.toNat) = dataBytes
  -- what is taken is sound, wherever the record ends
  have hsound (srr : Bool) : Sound
      { id := id
        ts16 := 0
        dlc := dlc
        flags := (if ext = true then frameFlagExt else 0) |||
          (if rtr = true then frameFlagRtr else 0) |||
            (if decide (txflags &&& txAt ≠ 0) = true then frameFlagSs else 0) |||
              (if srr = true then frameFlagSrr else 0)
        data := Vector.ofFn fun i : Fin frameMaxDlc =>
          if i < dataBytes then buf (pos + idBytes + i) else 0
        writerId := writerId } := by
    refine ⟨UInt8.le_iff_toNat_le.2 (by rw [hdlc]; exact Nat.min_le_left _ _), ?_⟩
    rw [Frame.ext, (TxRec.flags_bits ext rtr (decide (txflags &&& txAt ≠ 0)) srr).1]
    exact hid
  by_cases hsrr : txflags &&& txSrr ≠ 0
  · rw [if_pos hsrr]
    simp only [decide_eq_true hsrr, if_true]
    by_cases hlen : len < pos + (idBytes + dataBytes + 1)
    · refine .inl ⟨hlen, ?_⟩
      split_ifs <;> first | rfl | omega
    · refine .inr ⟨Nat.not_lt.1 hlen, _, hsound true, ?_⟩
      rw [if_neg (by omega), if_neg (by omega), if_neg (by omega), Nat.add_assoc pos,
        Nat.add_assoc pos]
      rfl
  · rw [if_neg hsrr]
    simp only [decide_eq_false hsrr, Bool.false_eq_true, if_false]
    by_cases hlen : len < pos + (idBytes + dataBytes + 0)
    · refine .inl ⟨hlen, ?_⟩
      split_ifs <;> first | rfl | omega
    · refine .inr ⟨Nat.not_lt.1 hlen, _, hsound false, ?_⟩
      rw [if_neg (by omega), if_neg (by omega), Nat.add_assoc pos]
      rfl

/-- What has been decoded behind `out` is a frame for each data record, or nothing at all if one of
the records is cut off. -/
def Walked (kinds : Option (List Bool)) (out : List Frame) (r : Option (List Frame)) : Prop :=
  match kinds with
  | none => r = none
  | some kinds => ∃ fs, r = some (out ++ fs) ∧ fs.length = kinds.count true

namespace Walked

variable {kinds : Option (List Bool)} {out : List Frame} {r : Option (List Frame)}

/-- A record without a frame. -/
theorem skip (h : Walked kinds out r) : Walked (kinds.map (false :: ·)) out r := by
  cases kinds with
  | none => exact h
  | some kinds =>
    obtain ⟨fs, hfs, hcount⟩ := h
    exact ⟨fs, hfs, by rw [hcount, List.count_cons_of_ne (by decide)]⟩

/-- A data record. -/
theorem take {f : Frame} (h : Walked kinds (out ++ [f]) r) :
    Walked (kinds.map (true :: ·)) out r := by
  cases kinds with
  | none => exact h
  | some kinds =>
    obtain ⟨fs, hfs, hcount⟩ := h
    refine ⟨f :: fs, ?_, by rw [List.length_cons, hcount, List.count_cons_self]⟩
    rw [hfs, List.append_assoc, List.singleton_append]

end Walked

/-- What is announced behind the position of a record. -/
theorem announced_drop {bytes : List UInt8} {pos : ℕ} (hpos : pos < bytes.length) (n : ℕ) :
    announced (n + 1) (bytes.drop pos) =
      let size := recordSize (bufOf bytes pos) (bufOf bytes (pos + 1))
      if pos + size ≤ bytes.length then
        (announced n (bytes.drop (pos + size))).map
          (decide (bufOf bytes pos &&& statuslenInternal = 0) :: ·)
      else none := by
  have hsl : bufOf bytes pos = bytes[pos] := List.getD_eq_getElem _ _ hpos
  have hfirst : (bytes.drop (pos + 1)).getD 0 0 = bufOf bytes (pos + 1) := by
    rw [List.getD_eq_getElem?_getD, List.getElem?_drop, ← List.getD_eq_getElem?_getD]
  have hthree := three_le_recordSize bytes[pos] (bufOf bytes (pos + 1))
  rw [List.drop_eq_getElem_cons hpos, announced, hfirst, List.length_drop,
    ← List.drop_eq_getElem_cons hpos, List.drop_drop, hsl]
  dsimp only
  by_cases hfit : pos + recordSize bytes[pos] (bufOf bytes (pos + 1)) ≤ bytes.length
  · rw [if_pos hfit, if_pos (by omega)]
  · rw [if_neg hfit, if_neg (by omega)]

/-- **The walk of the decoder**: with room for a frame behind every three bytes, it takes the
announced records, or none if one of them is cut off. -/
theorem decodeTxRecs_walk {bytes : List UInt8} {maxOut : ℕ} (writerId : UInt8) (n pos : ℕ)
    (out : List Frame) (hroom : out.length + (bytes.length - pos) / 3 < maxOut) :
    Walked (announced n (bytes.drop pos)) out
      (decodeTxRecs (bufOf bytes) bytes.length maxOut writerId n pos out) := by
  induction n generalizing pos out with
  | zero => exact ⟨[], by rw [decodeTxRecs, List.append_nil], rfl⟩
  | succ n ih =>
    rw [decodeTxRecs, if_neg (by omega)]
    by_cases hend : bytes.length ≤ pos
    · rw [if_pos hend, List.drop_eq_nil_of_le hend]
      rfl
    rw [if_neg hend, announced_drop (Nat.not_le.1 hend)]
    have hthree := three_le_recordSize (bufOf bytes pos) (bufOf bytes (pos + 1))
    dsimp only
    generalize hsize : recordSize (bufOf bytes pos) (bufOf bytes (pos + 1)) = size at hthree
    rw [recordSize] at hsize
    generalize bufOf bytes pos = sl at hsize
    by_cases hint : sl &&& statuslenInternal ≠ 0
    · rw [if_pos hint] at hsize ⊢
      have hpos' : pos + 1 + (2 + (sl &&& statuslenDlc).toNat) = pos + size := by omega
      rw [hpos', decide_eq_false hint]
      by_cases hfit : pos + size ≤ bytes.length
      · rw [if_pos hfit, if_neg (by omega)]
        exact (ih (pos + size) out (by omega)).skip
      · rw [if_neg hfit, if_pos (by omega)]
        rfl
    · rw [if_neg hint] at hsize ⊢
      have hpos' : pos + 1 + dataSize sl (bufOf bytes (pos + 1)) = pos + size := by omega
      have hdata := decodeTxData_cases (bufOf bytes) bytes.length writerId sl (pos + 1)
      rw [hpos'] at hdata
      rw [decide_eq_true (not_not.1 hint)]
      rcases hdata with ⟨hshort, hdata⟩ | ⟨hle, f, -, hdata⟩
      · rw [hdata, if_neg (by omega)]
        rfl
      · rw [hdata, if_pos hle]
        refine (ih (pos + size) (out ++ [f]) ?_).take
        rw [List.length_append, List.length_singleton]
        omega

theorem decodeTxRecs_sound {buf : Mem UInt8} {len maxOut : ℕ} {writerId : UInt8} {n pos : ℕ}
    {out fs : List Frame} (h : decodeTxRecs buf len maxOut writerId n pos out = some fs)
    (hout : ∀ f ∈ out, Sound f) : ∀ f ∈ fs, Sound f := by
  induction n generalizing pos out with
  | zero =>
    obtain rfl := Option.some.inj h
    exact hout
  | succ n ih =>
    rw [decodeTxRecs] at h
    split at h
    · obtain rfl := Option.some.inj h
      exact hout
    split at h
    · cases h
    dsimp only at h
    split at h
    · split at h
      · cases h
      · exact ih h hout
    · rcases decodeTxData_cases buf len writerId (buf pos) (pos + 1) with
        ⟨-, hdata⟩ | ⟨-, f, hf, hdata⟩
      · rw [hdata] at h
        cases h
      · rw [hdata] at h
        refine ih h fun g hg => ?_
        rcases List.mem_append.1 hg with hg | hg
        · exact hout g hg
        · rw [List.mem_singleton.1 hg]
          exact hf

theorem decodeTx_sound {buf : Mem UInt8} {len maxOut : ℕ} {fs : List Frame}
    (h : decodeTx buf len maxOut = some fs) : ∀ f ∈ fs, Sound f := by
  unfold decodeTx at h
  split at h
  · cases h
  split at h
  · cases h
  exact decodeTxRecs_sound h fun f hf => by cases hf

/-- The number of frames that a transfer brings, if none of its records is cut off. -/
def frameCount (bytes : List UInt8) : Option ℕ :=
  if bytes.length ≤ 2 then none
  else (announced (bytes.getD 1 0).toNat (bytes.drop 2)).map (List.count true)

/-- A transfer of the endpoint is decoded as a whole or not at all; there is always room. -/
theorem decodeTx_whole {bytes : List UInt8} (hlen : bytes.length ≤ 64) :
    (decodeTx (bufOf bytes) bytes.length 32).map List.length = frameCount bytes ∧
      ∀ fs, decodeTx (bufOf bytes) bytes.length 32 = some fs → fs.length ≤ 20 := by
  unfold decodeTx frameCount
  rw [if_neg (by decide)]
  by_cases hempty : bytes.length ≤ 2
  · rw [if_pos hempty, if_pos (show bytes.length ≤ msgHeaderLen from hempty)]
    exact ⟨rfl, fun fs h => by cases h⟩
  rw [if_neg hempty, if_neg (show ¬bytes.length ≤ msgHeaderLen from hempty)]
  dsimp only
  have hwalk := @decodeTxRecs_walk bytes 32
    (if usbTxBufferSize ≤ bytes.length then bufOf bytes (usbTxBufferSize - 1) else 0)
    (bytes.getD 1 0).toNat 2 [] (by rw [List.length_nil]; omega)
  cases hk : announced (bytes.getD 1 0).toNat (bytes.drop 2) with
  | none =>
    rw [hk, Walked] at hwalk
    rw [show msgHeaderLen = 2 from rfl, hwalk]
    exact ⟨rfl, fun fs h => by cases h⟩
  | some kinds =>
    rw [hk] at hwalk
    obtain ⟨fs, hfs, hcount⟩ := hwalk
    have hthree := announced_length hk
    have hle : kinds.count true ≤ kinds.length := List.count_le_length
    rw [List.length_drop] at hthree
    rw [show msgHeaderLen = 2 from rfl, hfs, List.nil_append]
    refine ⟨congrArg some hcount, fun fs' h => ?_⟩
    rw [← Option.some.inj h]
    omega

/-- **A transfer is decoded as a whole or not at all**, whatever bytes it holds.  No index reaches
its end and no position wraps; there are no more frames than there is room for, and the bus can
carry each of them.  For a transfer of the endpoint there is always room: the frames are those of
all the data records that it announces, at most twenty, and if one record is cut off, no frame
becomes pending. -/
theorem decode_safe {bytes : List UInt8} (hlen : bytes.length < 65536) (maxOut : ℕ) :
    ∃ r, Checked.decodeTx bytes maxOut = some r ∧
      (∀ fs, r = some fs → fs.length ≤ maxOut ∧ ∀ f ∈ fs, Sound f) ∧
      (bytes.length ≤ 64 → maxOut = 32 →
        r.map List.length = frameCount bytes ∧ (∀ fs, r = some fs → fs.length ≤ 20) ∧
          ∀ (s : GlueState) (ok : Bool), s.task = .doneMsg (GlueState.handleMsg bytes) →
            (s.go ok).pending = r.getD []) := by
  refine ⟨_, Checked.decodeTx_eq hlen maxOut, fun fs h => ⟨decodeTx_length h, decodeTx_sound h⟩, ?_⟩
  rintro h64 rfl
  obtain ⟨hwhole, htwenty⟩ := decodeTx_whole h64
  refine ⟨hwhole, htwenty, fun s ok htask => ?_⟩
  rw [GlueState.go, htask]
  rfl

/-- Two records of which the second is cut off. -/
theorem decode_safe_cut :
    ∃ r, Checked.decodeTx [2, 2, 0x00, 0x60, 0x24, 0x08, 0x00] 32 = some r ∧
      r.map List.length = frameCount [2, 2, 0x00, 0x60, 0x24, 0x08, 0x00] := by
  obtain ⟨r, hr, -, hwhole⟩ := decode_safe
    (show [2, 2, 0x00, 0x60, 0x24, 0x08, 0x00].length < 65536 by decide) 32
  exact ⟨r, hr, (hwhole (by decide) rfl).1⟩

end Usb

end Espcan32
