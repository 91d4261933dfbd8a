import Espcan32.Pcan.Host
import Mathlib.Data.List.Chain

/-!
# What the host makes of a batch

* `Batch.Packs` : a batch holds exactly the records it was given, one after the other.
* `hostDecodeRecs_packed` : the host's decoder walks them record by record, and what it observes
  is `HostMc.see`.
* `reconstruct` : the ticks the host gives the frames.  It sees the low byte only of all but the
  first, so it is right as long as no two neighbours are 256 ticks or more apart.
* `hostDecodeBatch_packs` : **the host observes the records of a batch**, with reconstructed ticks.
* `roundTrip` : **and exactly these records**, when the ticks are dense.
-/

namespace Espcan32

namespace Pcan

/-! ### Records as bytes -/

namespace Rec

/-- The tick of a record that carries a timestamp. -/
def tick : Rec → Option UInt16
  | .frame f => some f.ts16
  | .error _ ts16 => some ts16
  | .calib _ => none

/-- The bytes of a record. -/
def bytes (haveFirst : Bool) : Rec → List UInt8
  | .frame f => f.record haveFirst
  | .error errMask ts16 => statusRecord haveFirst recError errMask [] true ts16
  | .calib ts16 => statusRecord haveFirst recTs 0 (putLe16 ts16) false 0

end Rec

/-- The records `recs` one after the other; `haveFirst` says whether a timestamp came before. -/
def packed (haveFirst : Bool) : List Rec → List UInt8
  | [] => []
  | r :: recs => r.bytes haveFirst ++ packed (haveFirst || r.tick.isSome) recs

theorem length_tsBytes (haveFirst : Bool) (t : UInt16) :
    (tsBytes haveFirst t).length = if haveFirst then 1 else 2 := by
  cases haveFirst <;> rfl

theorem packed_append (haveFirst : Bool) (recs recs' : List Rec) :
    packed haveFirst (recs ++ recs') =
      packed haveFirst recs ++ packed (haveFirst || recs.any (·.tick.isSome)) recs' := by
  induction recs generalizing haveFirst with
  | nil => simp [packed]
  | cons r recs ih =>
    rw [List.cons_append, packed, packed, ih, List.append_assoc, List.any_cons, Bool.or_assoc]

theorem Frame.length_idBytes (f : Frame) : f.idBytes.length = if f.ext then 4 else 2 := by
  rw [Frame.idBytes]; split <;> rfl

theorem Frame.wireDlc_le (f : Frame) : f.wireDlc.toNat ≤ 8 := by
  rw [Frame.wireDlc]
  split
  · decide
  · rename_i h
    have h' := UInt8.not_lt.1 h
    exact UInt8.le_iff_toNat_le.1 h'

theorem Frame.length_data (f : Frame) : (f.data.toList.take f.dataBytes).length = f.dataBytes := by
  have h := f.wireDlc_le
  rw [List.length_take, Vector.length_toList, Frame.dataBytes]
  simp only [frameMaxDlc]
  split <;> omega

theorem length_statusRecord (haveFirst : Bool) (func num : UInt8) (payload : List UInt8)
    (withTs : Bool) (t : UInt16) :
    (statusRecord haveFirst func num payload withTs t).length =
      1 + 2 + (if withTs then (if haveFirst then 1 else 2) else 0) + payload.length := by
  cases withTs <;> simp [statusRecord, length_tsBytes] <;> omega

theorem Frame.length_record (f : Frame) (haveFirst : Bool) :
    (f.record haveFirst).length = 1 + (if f.ext then 4 else 2) + (if haveFirst then 1 else 2) +
      f.dataBytes + (if f.srr ∧ f.rtr = false then 1 else 0) := by
  have htr : f.trailer.length = if f.srr ∧ f.rtr = false then 1 else 0 := by
    rw [Frame.trailer]; split <;> rfl
  simp only [Frame.record, List.length_cons, List.length_append, f.length_idBytes, f.length_data,
    length_tsBytes, htr]
  omega

theorem Rec.four_le_length (r : Rec) (haveFirst : Bool) : 4 ≤ (r.bytes haveFirst).length := by
  have hts : 1 ≤ if haveFirst then 1 else 2 := by split <;> omega
  cases r with
  | frame f =>
    have hid : 2 ≤ if f.ext then 4 else 2 := by split <;> omega
    rw [Rec.bytes, f.length_record]
    omega
  | error m t =>
    rw [Rec.bytes, length_statusRecord, if_pos rfl]
    omega
  | calib t =>
    rw [Rec.bytes, length_statusRecord, length_putLe16]
    omega

theorem four_mul_length_le (haveFirst : Bool) (recs : List Rec) :
    4 * recs.length ≤ (packed haveFirst recs).length := by
  induction recs generalizing haveFirst with
  | nil => simp
  | cons r recs ih =>
    have := r.four_le_length haveFirst
    have := ih (haveFirst || r.tick.isSome)
    simp only [packed, List.length_append, List.length_cons]
    omega

/-! ### Building a batch -/

/-- The tracker after a record. -/
def TsBatch.after (t : TsBatch) (r : Rec) : TsBatch :=
  match r.tick with
  | some ts16 => ⟨true, ts16⟩
  | none => t

theorem Batch.addStatus_eq (b : Batch) (func num : UInt8) (payload : List UInt8)
    (hp : payload.length ≤ 15) (withTs : Bool) (t : UInt16) :
    b.addStatus func num payload withTs t =
      if usbTxBufferSize < b.len +
          (statusRecord b.ts.haveFirst func num payload withTs t).length then (b, false)
      else (b.put (statusRecord b.ts.haveFirst func num payload withTs t)
        (if withTs then b.ts.append t else b.ts), true) := by
  have hle : ¬statuslenDlc.toNat < payload.length := Nat.not_lt.2 hp
  rw [length_statusRecord, Batch.addStatus, if_neg hle]
  rfl

/-- Every encoder appends the bytes of its record if they fit, and refuses it otherwise. -/
theorem Batch.add_eq (b : Batch) (r : Rec) :
    b.add r = if usbTxBufferSize < b.len + (r.bytes b.ts.haveFirst).length then (b, false)
      else (b.put (r.bytes b.ts.haveFirst) (b.ts.after r), true) := by
  cases r with
  | frame f =>
    rw [Rec.bytes, f.length_record]
    rfl
  | error m t => exact b.addStatus_eq recError m [] (by simp) true t
  | calib t => exact b.addStatus_eq recTs 0 (putLe16 t) (by simp) false 0

/-- The batch holds the records `recs`, and nothing else. -/
structure Batch.Packs (b : Batch) (recs : List Rec) : Prop where
  holds : b.buf.Holds msgHeaderLen (packed false recs)
  len : b.len = msgHeaderLen + (packed false recs).length
  le : b.len ≤ usbTxBufferSize
  recCnt : b.recCnt.toNat = recs.length
  type : b.buf 0 = msgTxCan
  count : b.buf 1 = b.recCnt
  haveFirst : b.ts.haveFirst = recs.any (·.tick.isSome)
  lastTs16 : ∀ t, (recs.filterMap Rec.tick).getLast? = some t → b.ts.lastTs16 = t

namespace Batch.Packs

variable {b : Batch} {recs : List Rec}

theorem reset (b : Batch) : b.reset.Packs [] where
  holds := rfl
  len := rfl
  le := Nat.le_of_ble_eq_true rfl
  recCnt := rfl
  type := rfl
  count := rfl
  haveFirst := rfl
  lastTs16 := by simp

theorem recCnt_eq_zero_iff (h : b.Packs recs) : b.recCnt = 0 ↔ recs = [] := by
  rw [← List.length_eq_zero_iff, ← h.recCnt]
  exact UInt8.toNat_inj.symm

/-- A batch of 64 bytes holds at most 15 records. -/
theorem length_le (h : b.Packs recs) : recs.length ≤ 15 := by
  have h4 := four_mul_length_le false recs
  have hle := h.le
  rw [h.len] at hle
  simp only [msgHeaderLen, usbTxBufferSize] at hle
  omega

/-- A record that is accepted. -/
theorem add (h : b.Packs recs) {r : Rec} (hr : (b.add r).2 = true) :
    (b.add r).1.Packs (recs ++ [r]) := by
  have hcnt := h.length_le
  rw [b.add_eq] at hr ⊢
  split at hr
  · cases hr
  rename_i hfit
  rw [if_neg hfit]
  have hpk : packed false (recs ++ [r]) = packed false recs ++ r.bytes b.ts.haveFirst := by
    rw [packed_append, ← h.haveFirst, Bool.false_or, packed, packed, List.append_nil]
  have hlen := h.len
  have h2 : msgHeaderLen = 2 := rfl
  have hlow : (b.put (r.bytes b.ts.haveFirst) (b.ts.after r)).buf 0 = b.buf 0 :=
    (Mem.copy_of_lt [b.recCnt + 1] Nat.zero_lt_one).trans (Mem.copy_of_lt _ (by omega))
  exact {
    holds := by
      rw [hpk, Mem.holds_append, ← h.len]
      exact ⟨(h.holds.copy (.inl h.len.ge)).copy (.inr le_rfl),
        (Mem.holds_copy _ _ _).copy (.inr (by simp; omega))⟩
    len := by rw [hpk, List.length_append, ← Nat.add_assoc, ← h.len]; rfl
    le := Nat.not_lt.1 hfit
    recCnt := by
      have := h.recCnt
      simp only [Batch.put, UInt8.toNat_add, UInt8.reduceToNat, List.length_append,
        List.length_singleton]
      omega
    type := hlow.trans h.type
    count := Mem.copy_singleton (b.buf.copy b.len (r.bytes b.ts.haveFirst)) 1 (b.recCnt + 1)
    haveFirst := by
      rw [List.any_append, ← h.haveFirst]
      cases ht : r.tick <;> simp [Batch.put, TsBatch.after, ht]
    lastTs16 := by
      intro t hl
      rw [List.filterMap_append] at hl
      cases ht : r.tick with
      | none =>
        simp [ht] at hl
        simp only [Batch.put, TsBatch.after, ht]
        exact h.lastTs16 t (by simpa using hl)
      | some t' =>
        simp [ht] at hl
        simp [Batch.put, TsBatch.after, ht, hl] }

/-- A record that is refused leaves the batch alone. -/
theorem refused {r : Rec} (hr : (b.add r).2 = false) : (b.add r).1 = b := by
  rw [b.add_eq] at hr ⊢
  split at hr
  · rename_i hfull
    rw [if_pos hfull]
  · cases hr

end Batch.Packs

/-! ### The host's view of a record -/

/-- What the host keeps of the timestamps: the running tick, and the last low byte. -/
structure TickRef where
  ts16 : UInt16
  prevTs8 : UInt8
  deriving DecidableEq, Repr

/-- The low byte of a tick. -/
def lowByte (t : UInt16) : UInt8 := (t &&& 0xFF).toUInt8

/-- The reference after a record with tick `t`: the tick itself for the first of a batch, and
what the low byte makes of the running tick after that. -/
def TickRef.next (r : TickRef) (first : Bool) (t : UInt16) : TickRef :=
  if first then ⟨t, lowByte t⟩
  else
    ⟨((if lowByte t < r.prevTs8 then r.ts16 + 0x100 else r.ts16) &&& 0xFF00) |||
      (lowByte t).toUInt16, lowByte t⟩

/-- The frame `f` as the host reports it, with tick `t`: the id in the bits that its kind has, at
most eight data bytes, and none for a remote frame. -/
def Frame.hostFrame (f : Frame) (t : UInt16) : HostFrame :=
  let len := min f.dlc.toNat 8
  let data := if f.rtr then [] else f.data.toList.take len
  { id := f.id &&& if f.ext then 0x1FFFFFFF else 0x7FF
    ext := f.ext
    rtr := f.rtr
    len := UInt8.ofNat len
    data := data ++ List.replicate (8 - data.length) 0
    ts16 := t }

theorem Frame.wireDlc_eq (f : Frame) : f.wireDlc = UInt8.ofNat (min f.dlc.toNat 8) := by
  rw [Frame.wireDlc]
  by_cases h : UInt8.ofNat frameMaxDlc < f.dlc
  · have h8 : 8 < f.dlc.toNat := UInt8.lt_iff_toNat_lt.1 h
    rw [if_pos h, Nat.min_eq_right (by omega)]
    rfl
  · have h8 : f.dlc.toNat ≤ 8 := UInt8.le_iff_toNat_le.1 (UInt8.not_lt.1 h)
    rw [if_neg h, Nat.min_eq_left h8, UInt8.ofNat_toNat]

theorem Frame.hostFrame_eq (f : Frame) (t : UInt16) : f.hostFrame t =
    ⟨f.id &&& if f.ext then 0x1FFFFFFF else 0x7FF, f.ext, f.rtr, f.wireDlc,
      f.data.toList.take f.dataBytes ++ List.replicate (8 - f.dataBytes) 0, t⟩ := by
  have hdlc : f.wireDlc.toNat = min f.dlc.toNat 8 := by
    rw [f.wireDlc_eq, UInt8.toNat_ofNat']
    omega
  have hlen : (f.data.toList.take (min f.dlc.toNat 8)).length = min f.dlc.toNat 8 := by
    rw [List.length_take, Vector.length_toList]
    simp only [frameMaxDlc]
    omega
  simp only [Frame.hostFrame, Frame.dataBytes, hdlc, ← f.wireDlc_eq]
  cases f.rtr
  · simp [hlen]
  · simp

namespace HostMc

variable (mc : HostMc)

/-- No timestamp has been decoded yet. -/
def first : Bool := mc.recTsIdx == 0

/-- The reference after a record with tick `t`. -/
def tickRef (t : UInt16) : TickRef := TickRef.next ⟨mc.ts16, mc.prevTs8⟩ mc.first t

/-- The decoder after a timestamp. -/
def stamp (t : UInt16) : HostMc :=
  { mc with
    ts16 := (mc.tickRef t).ts16, prevTs8 := (mc.tickRef t).prevTs8, recTsIdx := mc.recTsIdx + 1 }

/-- What the host notes of a record. -/
def note : Rec → HostMc
  | .frame f =>
    { mc.stamp f.ts16 with frames := noted mc.frames (f.hostFrame (mc.tickRef f.ts16).ts16) }
  | .error errMask t => { mc.stamp t with errMask := noted mc.errMask errMask }
  | .calib t => { mc with calib := noted mc.calib t, ts16 := t }

/-- The decoder after a record. -/
def see (r : Rec) : HostMc := (mc.note r).advance (r.bytes (!mc.first)).length

theorem advance_advance (n k : ℕ) : (mc.advance n).advance k = mc.advance (n + k) := by
  simp only [advance, Nat.add_assoc]

theorem stamp_advance (n : ℕ) (t : UInt16) :
    (mc.advance n).stamp t = (mc.stamp t).advance n := rfl

theorem first_advance (n : ℕ) : (mc.advance n).first = mc.first := rfl

end HostMc

/-! ### The fields of a record -/

/-- The bits of the status/len byte of a frame. -/
theorem statusLen_bits (d : Fin 9) (ext rtr : Bool) :
    let sl := (UInt8.ofNat d &&& statuslenDlc) ||| statuslenTimestamp |||
      (if ext then statuslenExtId else 0) ||| (if rtr then statuslenRtr else 0)
    sl &&& statuslenInternal = 0 ∧ decide (sl &&& statuslenExtId ≠ 0) = ext ∧
      decide (sl &&& statuslenRtr ≠ 0) = rtr ∧ sl &&& statuslenDlc = UInt8.ofNat d := by
  revert d ext rtr
  decide

namespace Frame

variable (f : Frame)

theorem statusLen_fields :
    f.statusLen &&& statuslenInternal = 0 ∧ decide (f.statusLen &&& statuslenExtId ≠ 0) = f.ext ∧
      decide (f.statusLen &&& statuslenRtr ≠ 0) = f.rtr ∧
      f.statusLen &&& statuslenDlc = f.wireDlc := by
  have hle := f.wireDlc_le
  have h := statusLen_bits ⟨f.wireDlc.toNat, by omega⟩ f.ext f.rtr
  rw [UInt8.ofNat_toNat] at h
  exact h

theorem txFlags_lt : f.txFlags.toUInt32.toNat < 4 := by
  rw [txFlags]; cases f.srr <;> cases f.ss <;> decide

theorem txFlags_srr : f.txFlags.toUInt32 &&& 1 = if f.srr then 1 else 0 := by
  rw [txFlags]; cases f.srr <;> cases f.ss <;> decide

/-- The id word of a frame as the host reads it. -/
def idWord : UInt32 := if f.ext then f.extIdWord else f.stdIdWord.toUInt32

theorem and_mask_lt (a : UInt32) (k : ℕ) (m : UInt32) (h : m.toNat < 2 ^ k) :
    (a &&& m).toNat < 2 ^ k := by
  rw [UInt32.toNat_and]
  exact Nat.lt_of_le_of_lt Nat.and_le_right h

theorem stdIdWord_eq : f.stdIdWord.toUInt32 =
    (f.id &&& 0x7FF) <<< UInt32.ofNat stdIdShift ||| f.txFlags.toUInt32 := by
  have h11 := and_mask_lt f.id 11 0x7FF (by decide)
  have h4 := f.txFlags_lt
  apply UInt32.toNat_inj.1
  rw [stdIdWord, UInt16.toNat_toUInt32, UInt32.toNat_toUInt16,
    toNat_shiftLeft_or (by decide) (by simp only [stdIdShift]; omega)
      (by simp only [stdIdShift]; omega)]
  simp only [stdIdShift]
  omega

/-- The id word holds the id above its flags. -/
theorem idWord_fields :
    f.idWord >>> UInt32.ofNat (if f.ext then extIdShift else stdIdShift) =
        f.id &&& (if f.ext then 0x1FFFFFFF else 0x7FF) ∧
      f.idWord &&& txSrr.toUInt32 = if f.srr then 1 else 0 := by
  have h4 := f.txFlags_lt
  have h1 : txSrr.toUInt32 = 1 := rfl
  rw [h1, ← f.txFlags_srr, idWord]
  by_cases he : f.ext = true
  · have h29 := and_mask_lt f.id 29 0x1FFFFFFF (by decide)
    have ha : (f.id &&& 0x1FFFFFFF).toNat * 2 ^ extIdShift < 2 ^ 32 := by
      simp only [extIdShift]; omega
    have ht : f.txFlags.toUInt32.toNat < 2 ^ extIdShift := by simp only [extIdShift]; omega
    rw [if_pos he, if_pos he, if_pos he, extIdWord]
    exact ⟨shiftLeft_or_shiftRight (by decide) ha ht,
      shiftLeft_or_and_one (by decide) (by decide) ha ht⟩
  · have h11 := and_mask_lt f.id 11 0x7FF (by decide)
    have ha : (f.id &&& 0x7FF).toNat * 2 ^ stdIdShift < 2 ^ 32 := by
      simp only [stdIdShift]; omega
    have ht : f.txFlags.toUInt32.toNat < 2 ^ stdIdShift := by simp only [stdIdShift]; omega
    rw [if_neg he, if_neg he, if_neg he, stdIdWord_eq]
    exact ⟨shiftLeft_or_shiftRight (by decide) ha ht,
      shiftLeft_or_and_one (by decide) (by decide) ha ht⟩

end Frame

/-! ### Decoding a record -/

section Decode

variable {buf : Mem UInt8} (mc : HostMc)

theorem getLe16_of_holds {i : ℕ} {v : UInt16} (h : buf.Holds i (putLe16 v)) :
    getLe16 (buf i) (buf (i + 1)) = v := by
  simp only [putLe16, Mem.holds_cons, Mem.holds_nil, and_true] at h
  rw [h.1, h.2, getLe16_putLe16]

theorem getLe32_of_holds {i : ℕ} {v : UInt32} (h : buf.Holds i (putLe32 v)) :
    getLe32 (buf i) (buf (i + 1)) (buf (i + 2)) (buf (i + 3)) = v := by
  simp only [putLe32, Mem.holds_cons, Mem.holds_nil, and_true] at h
  obtain ⟨h0, h1, h2, h3⟩ := h
  rw [h0, h1, h2, h3, getLe32_putLe32]

/-- A timestamp is decoded into the next reference. -/
theorem hostRecordTs_eq {t : UInt16} (h : buf.Holds mc.ptr (tsBytes (!mc.first) t))
    (hle : mc.ptr + (tsBytes (!mc.first) t).length ≤ mc.stop) :
    hostRecordTs buf mc = some ((mc.stamp t).advance (tsBytes (!mc.first) t).length) := by
  have hf : (mc.recTsIdx == 0) = mc.first := rfl
  rw [hostRecordTs, hostDecodeTs, hf, HostMc.stamp, HostMc.tickRef]
  cases hb : mc.first with
  | true =>
    have ht : tsBytes (!true) t = putLe16 t := rfl
    rw [hb, ht] at h hle
    rw [length_putLe16] at hle
    rw [if_pos rfl, if_neg (by omega), getLe16_of_holds h]
    rfl
  | false =>
    have ht : tsBytes (!false) t = [lowByte t] := rfl
    rw [hb, ht] at h hle
    rw [Mem.holds_cons] at h
    rw [List.length_singleton] at hle
    rw [if_neg Bool.false_ne_true, if_neg (by omega), h.1]
    rfl

/-- The id word of a frame is decoded. -/
theorem hostIdWord_eq {f : Frame} (h : buf.Holds mc.ptr f.idBytes)
    (hle : mc.ptr + f.idBytes.length ≤ mc.stop) :
    hostIdWord buf mc f.ext = some (f.idWord, f.idBytes.length) := by
  rw [hostIdWord, Frame.idWord]
  rw [Frame.idBytes] at h hle ⊢
  by_cases he : f.ext = true
  · rw [if_pos he] at h hle ⊢
    rw [length_putLe32] at hle
    rw [if_pos he, if_pos he, if_neg (by omega), getLe32_of_holds h]
    rfl
  · rw [if_neg he] at h hle ⊢
    rw [length_putLe16] at hle
    rw [if_neg he, if_neg he, if_neg (by omega), getLe16_of_holds h]
    rfl

/-- A frame is decoded. -/
theorem hostDecodeData_eq {f : Frame} (h : buf.Holds mc.ptr (f.record (!mc.first)))
    (hle : mc.ptr + (f.record (!mc.first)).length ≤ mc.stop) :
    hostDecodeData buf (mc.advance 1) f.statusLen = some (mc.see (.frame f)) := by
  obtain ⟨-, hext, hrtr, hdlc⟩ := f.statusLen_fields
  obtain ⟨hid, hsrr⟩ := f.idWord_fields
  simp only [Frame.record, Mem.holds_cons, Mem.holds_append] at h
  simp only [Frame.record, List.length_cons, List.length_append] at hle
  obtain ⟨-, hidb, hts, hdata, htr⟩ := h
  have hlen : (if 8 < f.wireDlc then 8 else f.wireDlc) = f.wireDlc :=
    if_neg (UInt8.not_lt.2 (UInt8.le_iff_toNat_le.2 f.wireDlc_le))
  -- the tick stands behind the id word
  have hrec : hostRecordTs buf (mc.advance (1 + f.idBytes.length)) = some ((mc.stamp f.ts16).advance
      (1 + f.idBytes.length + (tsBytes (!mc.first) f.ts16).length)) := by
    rw [Nat.add_assoc] at hts
    have h := hostRecordTs_eq (mc.advance (1 + f.idBytes.length)) hts
      (by dsimp only [HostMc.first, HostMc.advance] at hle ⊢; omega)
    rwa [HostMc.first_advance, HostMc.stamp_advance, HostMc.advance_advance] at h
  rw [hostDecodeData]
  simp only [hext, hrtr, hdlc, hlen]
  rw [hostIdWord_eq (mc.advance 1) hidb (by dsimp only [HostMc.advance]; omega), Option.bind_some]
  dsimp only
  rw [HostMc.advance_advance, hrec, Option.bind_some, hid, hsrr]
  by_cases hr : f.rtr = true
  · have hn : f.dataBytes = 0 := if_pos hr
    have ht : f.trailer = [] := if_neg fun h => by rw [hr] at h; cases h.2
    rw [if_pos hr, HostMc.see, Rec.bytes, HostMc.note, f.hostFrame_eq, Frame.record, hn, ht]
    simp only [List.length_cons, List.length_append, List.length_nil, List.take_zero,
      List.nil_append, Nat.add_zero, Nat.sub_zero]
    rw [Nat.add_comm _ 1, ← Nat.add_assoc]
    rfl
  · have hn : f.dataBytes = f.wireDlc.toNat := if_neg hr
    rw [Bool.not_eq_true] at hr
    rw [f.length_data] at hle htr
    have hroom : ¬((mc.stamp f.ts16).advance
        (1 + f.idBytes.length + (tsBytes (!mc.first) f.ts16).length)).stop <
        ((mc.stamp f.ts16).advance
          (1 + f.idBytes.length + (tsBytes (!mc.first) f.ts16).length)).ptr + f.wireDlc.toNat := by
      dsimp only [HostMc.advance, HostMc.stamp]
      omega
    have hdat : buf.read ((mc.stamp f.ts16).advance
        (1 + f.idBytes.length + (tsBytes (!mc.first) f.ts16).length)).ptr f.wireDlc.toNat =
        f.data.toList.take f.dataBytes := by
      have hd := hdata
      rw [Mem.Holds, f.length_data, hn] at hd
      rw [hn, ← hd]
      dsimp only [HostMc.advance, HostMc.stamp]
      congr 1
      omega
    have hskip : (if (if f.srr = true then (1 : UInt32) else 0) ≠ 0 then 1 else 0) =
        f.trailer.length := by
      rw [Frame.trailer, hr]
      cases f.srr <;> rfl
    have hL : (Rec.bytes (!mc.first) (.frame f)).length =
        1 + f.idBytes.length + (tsBytes (!mc.first) f.ts16).length +
          (f.dataBytes + f.trailer.length) := by
      simp only [Rec.bytes, Frame.record, List.length_cons, List.length_append, f.length_data]
      omega
    rw [if_neg (by rw [hr]; decide), if_neg hroom, hdat, hskip, ← hn, HostMc.see, hL]
    have hnote : mc.note (.frame f) = { mc.stamp f.ts16 with
        frames := noted mc.frames ⟨f.id &&& if f.ext then 0x1FFFFFFF else 0x7FF, f.ext, f.rtr,
          f.wireDlc, f.data.toList.take f.dataBytes ++ List.replicate (8 - f.dataBytes) 0,
          (mc.tickRef f.ts16).ts16⟩ } := by
      rw [HostMc.note, f.hostFrame_eq]
    rw [hnote]
    exact congrArg some (HostMc.advance_advance
      { mc.stamp f.ts16 with frames := noted mc.frames ⟨_, _, _, _, _, _⟩ } _ _)

/-- An error record is decoded. -/
theorem hostDecodeStatus_error {m : UInt8} {t : UInt16}
    (h : buf.Holds mc.ptr (Rec.bytes (!mc.first) (.error m t)))
    (hle : mc.ptr + (Rec.bytes (!mc.first) (.error m t)).length ≤ mc.stop) :
    buf mc.ptr = 0xC0 ∧ hostDecodeStatus buf (mc.advance 1) 0xC0 = some (mc.see (.error m t)) := by
  have hb : Rec.bytes (!mc.first) (.error m t) =
      [0xC0, recError, m] ++ tsBytes (!mc.first) t := by simp [Rec.bytes, statusRecord]; decide
  rw [hb] at h hle
  rw [Mem.holds_append] at h
  simp only [Mem.holds_cons, Mem.holds_nil, and_true, List.length_append, List.length_cons,
    List.length_nil] at h hle
  obtain ⟨⟨hsl, hf, hn⟩, hts⟩ := h
  have hrec := hostRecordTs_eq (mc.advance 3) hts
    (by dsimp only [HostMc.first, HostMc.advance] at hle ⊢; omega)
  rw [HostMc.first_advance, HostMc.stamp_advance, HostMc.advance_advance] at hrec
  refine ⟨hsl, ?_⟩
  have hf' : buf (mc.advance 1).ptr = recError := hf
  have hn' : buf ((mc.advance 1).ptr + 1) = m := hn
  rw [hostDecodeStatus]
  simp only [hf', hn', HostMc.advance_advance, Nat.reduceAdd]
  rw [if_neg (by dsimp only [HostMc.advance]; omega), if_pos (by decide), hrec, Option.bind_some,
    hostStatusBody, if_pos rfl, Option.bind_some]
  have h0 : (0xC0 &&& statuslenDlc : UInt8).toNat = 0 := rfl
  dsimp only
  rw [h0, if_neg (by dsimp only [HostMc.advance, HostMc.stamp]; omega), HostMc.see, hb,
    List.length_append]
  rfl

/-- A calibration record is decoded. -/
theorem hostDecodeStatus_calib {t : UInt16}
    (h : buf.Holds mc.ptr (Rec.bytes (!mc.first) (.calib t)))
    (hle : mc.ptr + (Rec.bytes (!mc.first) (.calib t)).length ≤ mc.stop) :
    buf mc.ptr = 0x42 ∧ hostDecodeStatus buf (mc.advance 1) 0x42 = some (mc.see (.calib t)) := by
  have hb : Rec.bytes (!mc.first) (.calib t) = [0x42, recTs, 0] ++ putLe16 t := by
    simp [Rec.bytes, statusRecord]; decide
  rw [hb] at h hle
  rw [Mem.holds_append] at h
  simp only [Mem.holds_cons, Mem.holds_nil, and_true, List.length_append, List.length_cons,
    List.length_nil, length_putLe16] at h hle
  obtain ⟨⟨hsl, hf, hn⟩, hts⟩ := h
  refine ⟨hsl, ?_⟩
  have hf' : buf (mc.advance 1).ptr = recTs := hf
  have hn' : buf ((mc.advance 1).ptr + 1) = 0 := hn
  have ht : getLe16 (buf (mc.advance 3).ptr) (buf ((mc.advance 3).ptr + 1)) = t :=
    getLe16_of_holds hts
  rw [hostDecodeStatus]
  simp only [hf', hn', HostMc.advance_advance, Nat.reduceAdd]
  rw [if_neg (by dsimp only [HostMc.advance]; omega), if_neg (by decide), Option.bind_some,
    hostStatusBody, if_neg (by decide), if_neg (by decide), if_neg (by decide), if_pos rfl,
    if_neg (by dsimp only [HostMc.advance]; omega)]
  have h2 : (0x42 &&& statuslenDlc : UInt8).toNat = 2 := rfl
  simp only [ht, Option.bind_some, h2]
  rw [if_neg (by dsimp only [HostMc.advance]; omega), HostMc.see, hb]
  rfl

/-- One turn of the host's loop. -/
theorem hostDecodeRecs_succ {r : Rec} (h : buf.Holds mc.ptr (r.bytes (!mc.first)))
    (hle : mc.ptr + (r.bytes (!mc.first)).length ≤ mc.stop) (n : ℕ) :
    hostDecodeRecs buf (n + 1) mc = hostDecodeRecs buf n (mc.see r) := by
  have h4 := r.four_le_length (!mc.first)
  rw [hostDecodeRecs, if_neg (by omega)]
  cases r with
  | frame f =>
    have hsl : buf mc.ptr = f.statusLen := (Mem.holds_cons.1 h).1
    simp only [hsl]
    rw [if_neg (by simp [f.statusLen_fields.1]), hostDecodeData_eq mc h hle, Option.bind_some]
  | error m t =>
    obtain ⟨hsl, hdec⟩ := hostDecodeStatus_error mc h hle
    simp only [hsl]
    rw [if_pos (by decide), hdec, Option.bind_some]
  | calib t =>
    obtain ⟨hsl, hdec⟩ := hostDecodeStatus_calib mc h hle
    simp only [hsl]
    rw [if_pos (by decide), hdec, Option.bind_some]

/-- A timestamp has been decoded after a record that carries one. -/
theorem first_see {r : Rec} (hidx : mc.recTsIdx.toNat < 255) :
    (!(mc.see r).first) = (!mc.first || r.tick.isSome) ∧
      (mc.see r).recTsIdx.toNat ≤ mc.recTsIdx.toNat + 1 := by
  have hne : mc.recTsIdx + 1 ≠ 0 := by
    intro h
    have := congrArg UInt8.toNat h
    simp only [UInt8.toNat_add, UInt8.reduceToNat] at this
    omega
  have hle : (mc.recTsIdx + 1).toNat ≤ mc.recTsIdx.toNat + 1 := by
    rw [UInt8.toNat_add]
    exact Nat.mod_le _ _
  cases r with
  | frame f | error m t =>
    refine ⟨?_, hle⟩
    simp [HostMc.first, HostMc.see, HostMc.note, HostMc.advance, HostMc.stamp, Rec.tick, hne]
  | calib t =>
    refine ⟨?_, Nat.le_succ _⟩
    simp [HostMc.first, HostMc.see, HostMc.note, HostMc.advance, Rec.tick]

/-- The host's decoder walks the records of a batch one by one. -/
theorem hostDecodeRecs_packed (recs : List Rec)
    (h : buf.Holds mc.ptr (packed (!mc.first) recs))
    (hle : mc.ptr + (packed (!mc.first) recs).length ≤ mc.stop)
    (hidx : mc.recTsIdx.toNat + recs.length ≤ 255) :
    hostDecodeRecs buf recs.length mc = some (recs.foldl HostMc.see mc) := by
  induction recs generalizing mc with
  | nil => rfl
  | cons r recs ih =>
    rw [packed, Mem.holds_append] at h
    rw [packed, List.length_append] at hle
    rw [List.length_cons] at hidx
    obtain ⟨hf, hi⟩ := first_see mc (r := r) (by omega)
    have hptr : (mc.see r).ptr = mc.ptr + (r.bytes (!mc.first)).length := by cases r <;> rfl
    have hstop : (mc.see r).stop = mc.stop := by cases r <;> rfl
    rw [List.length_cons, hostDecodeRecs_succ mc h.1 (by omega), List.foldl_cons]
    apply ih
    · rw [hf, hptr]; exact h.2
    · rw [hf, hptr, hstop]; omega
    · omega

end Decode

/-! ### What the host observes -/

/-- The frames the host reports for the records of a batch, with the ticks it reconstructs. -/
def reconstruct (first : Bool) (r : TickRef) : List Rec → List HostFrame
  | [] => []
  | .frame f :: recs =>
    f.hostFrame (r.next first f.ts16).ts16 :: reconstruct false (r.next first f.ts16) recs
  | .error _ t :: recs => reconstruct false (r.next first t) recs
  | .calib t :: recs => reconstruct first { r with ts16 := t } recs

namespace Rec

/-- The frame of a record. -/
def frame? : Rec → Option Frame
  | .frame f => some f
  | _ => none

/-- The error mask of a record. -/
def errMask? : Rec → Option UInt8
  | .error errMask _ => some errMask
  | _ => none

/-- The tick of a calibration record. -/
def calib? : Rec → Option UInt16
  | .calib t => some t
  | _ => none

end Rec

theorem noted_eq {α : Type*} {l : List α} {x : α} (h : l.length < 32) : noted l x = l ++ [x] :=
  if_pos h

/-- Walking the records, the host notes them one by one. -/
theorem foldl_see (mc : HostMc) (recs : List Rec) (hidx : mc.recTsIdx.toNat + recs.length ≤ 255)
    (hf : mc.frames.length + recs.length ≤ 32) (hc : mc.calib.length + recs.length ≤ 32)
    (he : mc.errMask.length + recs.length ≤ 32) :
    (recs.foldl HostMc.see mc).ptr = mc.ptr + (packed (!mc.first) recs).length ∧
      (recs.foldl HostMc.see mc).frames =
        mc.frames ++ reconstruct mc.first ⟨mc.ts16, mc.prevTs8⟩ recs ∧
      (recs.foldl HostMc.see mc).calib = mc.calib ++ recs.filterMap Rec.calib? ∧
      (recs.foldl HostMc.see mc).errMask = mc.errMask ++ recs.filterMap Rec.errMask? := by
  induction recs generalizing mc with
  | nil => simp [packed, reconstruct]
  | cons r recs ih =>
    rw [List.length_cons] at hidx hf hc he
    obtain ⟨hfirst, hi⟩ := first_see mc (r := r) (by omega)
    have hptr : (mc.see r).ptr = mc.ptr + (r.bytes (!mc.first)).length := by cases r <;> rfl
    have hn (x : HostFrame) : noted mc.frames x = mc.frames ++ [x] := noted_eq (by omega)
    have hcn (x : UInt16) : noted mc.calib x = mc.calib ++ [x] := noted_eq (by omega)
    have hen (x : UInt8) : noted mc.errMask x = mc.errMask ++ [x] := noted_eq (by omega)
    have hlf : (mc.see r).frames.length ≤ mc.frames.length + 1 := by
      cases r <;> simp [HostMc.see, HostMc.note, HostMc.advance, HostMc.stamp, hn]
    have hlc : (mc.see r).calib.length ≤ mc.calib.length + 1 := by
      cases r <;> simp [HostMc.see, HostMc.note, HostMc.advance, HostMc.stamp, hcn]
    have hle : (mc.see r).errMask.length ≤ mc.errMask.length + 1 := by
      cases r <;> simp [HostMc.see, HostMc.note, HostMc.advance, HostMc.stamp, hen]
    -- the bounds leave room for the records to come
    obtain ⟨h1, h2, h3, h4⟩ := ih (mc.see r) (by omega) (by omega) (by omega) (by omega)
    rw [List.foldl_cons, h1, h2, h3, h4, hfirst, hptr]
    refine ⟨by rw [packed, List.length_append]; omega, ?_⟩
    cases r with
    | frame f =>
      have hff : (mc.see (.frame f)).first = false := by
        rw [← Bool.not_eq_true', hfirst]; simp [Rec.tick]
      rw [hff]
      simp [HostMc.see, HostMc.note, HostMc.advance, HostMc.stamp, hn, reconstruct,
        HostMc.tickRef, Rec.calib?, Rec.errMask?, List.filterMap_cons]
    | error m t =>
      have hff : (mc.see (.error m t)).first = false := by
        rw [← Bool.not_eq_true', hfirst]; simp [Rec.tick]
      rw [hff]
      simp [HostMc.see, HostMc.note, HostMc.advance, HostMc.stamp, hen, reconstruct,
        HostMc.tickRef, Rec.calib?, Rec.errMask?, List.filterMap_cons]
    | calib t =>
      have hff : (mc.see (.calib t)).first = mc.first := rfl
      rw [hff]
      simp [HostMc.see, HostMc.note, HostMc.advance, hcn, reconstruct, Rec.calib?, Rec.errMask?,
        List.filterMap_cons]

/-- **The host observes the records of a batch**: it walks all of it without an error, and what
it reports are the records, with the ticks it reconstructs. -/
theorem hostDecodeBatch_packs {b : Batch} {recs : List Rec} (h : b.Packs recs) (hne : recs ≠ []) :
    ∃ mc, hostDecodeBatch b.buf b.len = some mc ∧ mc.consumed = b.len ∧
      mc.frames = reconstruct true ⟨0, 0⟩ recs ∧ mc.calib = recs.filterMap Rec.calib? ∧
      mc.errMask = recs.filterMap Rec.errMask? := by
  have hlen := h.len
  have hle := h.length_le
  have h4 := four_mul_length_le false recs
  have hpos : 0 < recs.length := List.length_pos_iff.2 hne
  have h2 : msgHeaderLen = 2 := rfl
  rw [hostDecodeBatch, if_neg (by omega), h.count, h.recCnt]
  have hrec := hostDecodeRecs_packed
    (⟨[], [], [], 0, 0, 0, msgHeaderLen, b.len, b.recCnt, 0⟩ : HostMc) recs h.holds h.len.ge
    (by simp; omega)
  obtain ⟨h1, h2, h3, h4⟩ := foldl_see
    (⟨[], [], [], 0, 0, 0, msgHeaderLen, b.len, b.recCnt, 0⟩ : HostMc) recs
    (by simp; omega) (by simp; omega) (by simp; omega) (by simp; omega)
  rw [hrec]
  refine ⟨_, rfl, h1.trans hlen.symm, h2, h3, h4⟩

/-! ### Dense ticks -/

/-- The low byte determines the next tick exactly if it is less than 256 ticks ahead. -/
theorem TickRef.next_eq_iff (p t : UInt16) :
    TickRef.next ⟨p, lowByte p⟩ false t = ⟨t, lowByte t⟩ ↔ (t - p).toNat ≤ 255 := by
  have hp := p.toNat_lt
  have ht := t.toNat_lt
  have hl : lowByte t < lowByte p ↔ t.toNat % 256 < p.toNat % 256 := by
    simp only [lowByte, UInt8.lt_iff_toNat_lt, UInt16.toNat_toUInt8, UInt16.toNat_and,
      UInt16.reduceToNat, and_low_byte]
    omega
  -- the running tick, moved on by 256 when the low byte has wrapped
  obtain ⟨x, hx⟩ : ∃ x, x = if lowByte t < lowByte p then p + 0x100 else p := ⟨_, rfl⟩
  have hx' := x.toNat_lt
  have hnat : ((x &&& 0xFF00) ||| (lowByte t).toUInt16).toNat =
      t.toNat % 256 + x.toNat / 256 * 256 := by
    simp only [lowByte, UInt16.toNat_or, UInt16.toNat_and, UInt8.toNat_toUInt16,
      UInt16.toNat_toUInt8, UInt16.reduceToNat, and_low_byte]
    rw [and_high_byte (by omega), Nat.or_comm, low_or_shiftLeft (by omega)]
    omega
  have hval : x.toNat = if t.toNat % 256 < p.toNat % 256 then (p.toNat + 256) % 65536
      else p.toNat := by
    by_cases hc : t.toNat % 256 < p.toNat % 256
    · rw [hx, if_pos (hl.2 hc), if_pos hc, UInt16.toNat_add]; rfl
    · rw [hx, if_neg (fun h => hc (hl.1 h)), if_neg hc]
  have hnext : TickRef.next ⟨p, lowByte p⟩ false t =
      ⟨(x &&& 0xFF00) ||| (lowByte t).toUInt16, lowByte t⟩ := by
    rw [TickRef.next, if_neg Bool.false_ne_true, hx]
  rw [hnext, TickRef.mk.injEq, ← UInt16.toNat_inj, hnat, hval, UInt16.toNat_sub]
  split <;> simp <;> omega

/-- After a tick the host knows, the ticks that follow are right as long as they are dense. -/
theorem reconstruct_dense {p : UInt16} {recs : List Rec} (hcalib : ∀ r ∈ recs, r.calib? = none)
    (hgap : (p :: recs.filterMap Rec.tick).IsChain fun p t => (t - p).toNat ≤ 255) :
    reconstruct false ⟨p, lowByte p⟩ recs =
      (recs.filterMap Rec.frame?).map fun f => f.hostFrame f.ts16 := by
  induction recs generalizing p with
  | nil => rfl
  | cons r recs ih =>
    have hcalib' : ∀ r ∈ recs, r.calib? = none := fun r hr => hcalib r (List.mem_cons_of_mem _ hr)
    cases r with
    | frame f =>
      simp only [List.filterMap_cons, Rec.tick, List.isChain_cons_cons] at hgap
      rw [reconstruct, (TickRef.next_eq_iff p f.ts16).2 hgap.1, ih hcalib' hgap.2]
      rfl
    | error m t =>
      simp only [List.filterMap_cons, Rec.tick, List.isChain_cons_cons] at hgap
      rw [reconstruct, (TickRef.next_eq_iff p t).2 hgap.1, ih hcalib' hgap.2]
      rfl
    | calib t => exact absurd (hcalib _ List.mem_cons_self) (by simp [Rec.calib?])

/-- The calibration records of a batch come before its timestamps. -/
def CalibFirst (recs : List Rec) : Prop :=
  ∀ pre t post, recs = pre ++ .calib t :: post → ∀ r ∈ pre, r.tick = none

/-- Neighbouring timestamps are less than 256 ticks apart. -/
def Dense (recs : List Rec) : Prop :=
  (recs.filterMap Rec.tick).IsChain fun p t => (t - p).toNat ≤ 255

/-- From the start of a batch, dense ticks are reconstructed exactly. -/
theorem reconstruct_exact (r₀ : TickRef) {recs : List Rec} (hcalib : CalibFirst recs)
    (hgap : Dense recs) :
    reconstruct true r₀ recs = (recs.filterMap Rec.frame?).map fun f => f.hostFrame f.ts16 := by
  induction recs generalizing r₀ with
  | nil => rfl
  | cons r recs ih =>
    -- behind a timestamp no calibration record is left
    have hrest (h : r.tick ≠ none) : ∀ r' ∈ recs, r'.calib? = none := by
      intro r' hr'
      obtain ⟨pre, post, rfl⟩ := List.append_of_mem hr'
      cases r' with
      | frame f => rfl
      | error m t => rfl
      | calib t => exact absurd (hcalib (r :: pre) t post rfl r List.mem_cons_self) h
    cases r with
    | frame f =>
      rw [Dense, List.filterMap_cons] at hgap
      rw [reconstruct, TickRef.next, if_pos rfl, reconstruct_dense (hrest (by simp [Rec.tick])) hgap]
      rfl
    | error m t =>
      rw [Dense, List.filterMap_cons] at hgap
      rw [reconstruct, TickRef.next, if_pos rfl, reconstruct_dense (hrest (by simp [Rec.tick])) hgap]
      rfl
    | calib t =>
      have hcalib' : CalibFirst recs := fun pre t' post h r hr =>
        hcalib (.calib t :: pre) t' post (by rw [h]; rfl) r (List.mem_cons_of_mem _ hr)
      exact ih _ hcalib' hgap

/-- Records that are no frames, behind all the others, change nothing about the frames. -/
theorem reconstruct_append {recs recs' : List Rec} (h : ∀ r ∈ recs', r.frame? = none)
    (first : Bool) (r₀ : TickRef) :
    reconstruct first r₀ (recs ++ recs') = reconstruct first r₀ recs := by
  induction recs generalizing first r₀ with
  | nil =>
    induction recs' generalizing first r₀ with
    | nil => rfl
    | cons r recs' ih =>
      have h' : ∀ r ∈ recs', r.frame? = none := fun r hr => h r (List.mem_cons_of_mem _ hr)
      cases r with
      | frame f => exact absurd (h _ List.mem_cons_self) (by simp [Rec.frame?])
      | error m t => exact ih h' _ _
      | calib t => exact ih h' _ _
  | cons r recs ih =>
    cases r with
    | frame f => rw [List.cons_append, reconstruct, reconstruct, ih]
    | error m t => rw [List.cons_append, reconstruct, reconstruct, ih]
    | calib t => rw [List.cons_append, reconstruct, reconstruct, ih]

/-! ### Building and decoding -/

/-- Add the records one after the other; the batch, and the records it accepted. -/
def Batch.build (b : Batch) : List Rec → Batch × List Rec
  | [] => (b, [])
  | r :: recs =>
    let rest := (b.add r).1.build recs
    (rest.1, if (b.add r).2 then r :: rest.2 else rest.2)

theorem Batch.Packs.build {b : Batch} {recs : List Rec} (h : b.Packs recs) (ops : List Rec) :
    (b.build ops).1.Packs (recs ++ (b.build ops).2) := by
  induction ops generalizing b recs with
  | nil => rwa [Batch.build, List.append_nil]
  | cons r ops ih =>
    rw [Batch.build]
    cases hr : (b.add r).2 with
    | true =>
      have h' := ih (h.add hr)
      rwa [List.append_assoc, List.singleton_append] at h'
    | false =>
      rw [Batch.Packs.refused hr]
      exact ih h

/-- **The host recovers exactly the accepted records**, if calibration records come before
timestamps and the ticks are dense. -/
theorem roundTrip {b₀ b : Batch} {ops recs : List Rec} (hb : b₀.reset.build ops = (b, recs))
    (hne : recs ≠ []) (hcalib : CalibFirst recs) (hgap : Dense recs) :
    ∃ mc, hostDecodeBatch b.buf b.len = some mc ∧ mc.consumed = b.len ∧
      mc.frames = (recs.filterMap Rec.frame?).map (fun f => f.hostFrame f.ts16) ∧
      mc.errMask = recs.filterMap Rec.errMask? ∧ mc.calib = recs.filterMap Rec.calib? := by
  have h := (Batch.Packs.reset b₀).build ops
  rw [hb, List.nil_append] at h
  obtain ⟨mc, hmc, hcons, hframes, hc, he⟩ := hostDecodeBatch_packs h hne
  exact ⟨mc, hmc, hcons, hframes.trans (reconstruct_exact _ hcalib hgap), he, hc⟩

/-- A calibration record, an extended frame echoed to its sender, an error and a remote frame. -/
def mixedOps : List Rec :=
  [.calib 7, .frame ⟨0x1ABCDEF0, 1000, 3, 0x09, #v[1, 2, 3, 4, 5, 6, 7, 8], 42⟩, .error 0x10 1100,
    .frame ⟨0x123, 1300, 12, 0x02, #v[0, 0, 0, 0, 0, 0, 0, 0], 0⟩]

theorem roundTrip_mixed :
    let b := (Batch.reset ⟨fun _ => 0, 0, 0, ⟨true, 0⟩⟩).build mixedOps
    ∃ mc, hostDecodeBatch b.1.buf b.1.len = some mc ∧ mc.consumed = 26 ∧
      mc.frames = [⟨0x1ABCDEF0, true, false, 3, [1, 2, 3, 0, 0, 0, 0, 0], 1000⟩,
        ⟨0x123, false, true, 8, [0, 0, 0, 0, 0, 0, 0, 0], 1300⟩] ∧
      mc.errMask = [0x10] ∧ mc.calib = [7] := by
  intro b
  have hrecs : b.2 = mixedOps := by decide +kernel
  have hlen : b.1.len = 26 := by decide +kernel
  have hcalib : CalibFirst b.2 := by
    rw [hrecs]
    rintro (_ | ⟨r, pre⟩) t post h
    · simp
    · have hm : Rec.calib t ∈ mixedOps.tail := by
        rw [h, List.cons_append, List.tail_cons]; simp
      simp [mixedOps] at hm
  obtain ⟨mc, hmc, hcons, hframes, herr, hcal⟩ := roundTrip
    (show (Batch.reset ⟨fun _ => 0, 0, 0, ⟨true, 0⟩⟩).build mixedOps = (b.1, b.2) from rfl)
    (by rw [hrecs]; decide) hcalib (by rw [hrecs, Dense]; decide +kernel)
  refine ⟨mc, hmc, hcons.trans hlen, hframes.trans ?_, herr.trans ?_, hcal.trans ?_⟩ <;>
    rw [hrecs] <;> decide +kernel

end Pcan

end Espcan32
