import Espcan32.Pcan.Decode
import Espcan32.Pcan.RoundTrip
import Espcan32.Twai.Hal

/-!
# From the host to the bus

The tests carry a model of the encoder of the Linux driver, which packs the records of a transfer
back to back and hides two flags below the id.  What `pcan_msg_decode_tx()` takes out of it goes to
the driver with `pcan_twai_transmit()`.

* `decodeTxData_eq`, `decodeTxRecs_encoded` : the decoder walks the records as they were packed.
* `TxRec.Carries` : a frame is the one the host asked for.
* `hostEncodeTx_transmit` : **every record reaches the driver unchanged**, if all of them fit.
-/

namespace Espcan32

namespace Pcan

/-! ### The encoder -/

/-- `txrec_t`. -/
structure TxRec where
  id : UInt32
  ext : Bool
  rtr : Bool
  srr : Bool
  at' : Bool
  rawDlc : UInt8
  data : Vector UInt8 frameMaxDlc
  dataLen : UInt8
  deriving DecidableEq, Repr

namespace TxRec

variable (r : TxRec)

/-- The status/len byte. -/
def statusLen : UInt8 :=
  (r.rawDlc &&& statuslenDlc) ||| (if r.rtr then statuslenRtr else 0) |||
    (if r.ext then statuslenExtId else 0)

/-- `id_flags`. -/
def idFlags : UInt32 :=
  r.id <<< UInt32.ofNat (if r.ext then extIdShift else stdIdShift) |||
    (if r.srr then txSrr.toUInt32 else 0) ||| (if r.at' then txAt.toUInt32 else 0)

/-- The id word in little-endian order. -/
def idBytes : List UInt8 := if r.ext then putLe32 r.idFlags else putLe16 r.idFlags.toUInt16

/-- The data that the host writes. -/
def payload : List UInt8 := if r.rtr then [] else r.data.toList.take r.dataLen.toNat

/-- The placeholder for the writer id. -/
def trailer : List UInt8 := if r.idFlags &&& txSrr.toUInt32 ≠ 0 then [0x80] else []

/-- One record of `host_encode_tx()`. -/
def bytes : List UInt8 := r.statusLen :: (r.idBytes ++ (r.payload ++ r.trailer))

end TxRec

/-- `host_encode_tx()`; the length of the transfer is `PCAN_USB_TX_BUFFER_SIZE`. -/
def hostEncodeTx (recs : List TxRec) (txCounter : UInt8) : Mem UInt8 :=
  let buf : Mem UInt8 := fun _ => 0
  let buf := buf.copy 0 [msgTxCan, UInt8.ofNat recs.length]
  let buf := buf.copy msgHeaderLen (recs.flatMap TxRec.bytes)
  buf.copy (usbTxBufferSize - 1) [txCounter]

/-! ### The message of the driver -/

/-- What is written of `twai_message_t`. -/
structure TwaiMessage where
  identifier : UInt32
  extd : Bool
  rtr : Bool
  ss : Bool
  self : Bool
  dataLengthCode : UInt8
  data : Vector UInt8 frameMaxDlc
  deriving DecidableEq, Repr

/-- The message that `pcan_twai_transmit()` makes of a frame. -/
def twaiMessage (f : Frame) : TwaiMessage :=
  let dlc := if UInt8.ofNat frameMaxDlc < f.dlc then UInt8.ofNat frameMaxDlc else f.dlc
  { identifier := f.id
    extd := f.ext
    rtr := f.rtr
    ss := f.ss
    self := f.srr
    dataLengthCode := dlc
    data := if f.rtr then .replicate frameMaxDlc 0
      else Vector.ofFn fun i => if i < dlc.toNat then f.data.get i else 0 }

/-- `pcan_twai_transmit()`, with what the driver makes of the message. -/
def pcanTwaiTransmit (h : Twai.Hal TwaiMessage) (answer : Twai.TwaiAnswer) (f : Frame) :
    Twai.Hal TwaiMessage × Twai.EspErr :=
  h.transmit answer (twaiMessage f)

/-! ### What the host asks for -/

namespace TxRec

variable (r : TxRec)

/-- A record as the Linux driver forms it. -/
structure Formed : Prop where
  id : r.id.toNat < 2 ^ (if r.ext then 29 else 11)
  rawDlc : r.rawDlc.toNat < 16
  dataLen : r.dataLen.toNat = if r.rtr then 0 else min r.rawDlc.toNat 8

instance : Decidable r.Formed :=
  decidable_of_iff (r.id.toNat < 2 ^ (if r.ext then 29 else 11) ∧ r.rawDlc.toNat < 16 ∧
      r.dataLen.toNat = if r.rtr then 0 else min r.rawDlc.toNat 8)
    ⟨fun ⟨h, h', h''⟩ => ⟨h, h', h''⟩, fun ⟨h, h', h''⟩ => ⟨h, h', h''⟩⟩

/-- `min(raw, 8)`. -/
def dlc : UInt8 := UInt8.ofNat (min r.rawDlc.toNat 8)

/-- The data, with zeros behind it. -/
def padded : Vector UInt8 frameMaxDlc :=
  Vector.ofFn fun i => if i < r.payload.length then r.data.get i else 0

theorem getElem_padded {i : ℕ} (hi : i < frameMaxDlc) :
    r.padded[i] = if i < r.payload.length then r.data[i] else 0 := by
  rw [padded, Vector.getElem_ofFn]
  rfl

/-- The frame `f` is what the host asks for in the transfer with the counter `txCounter`. -/
structure Carries (txCounter : UInt8) (f : Frame) : Prop where
  id : f.id = r.id
  ext : f.ext = r.ext
  rtr : f.rtr = r.rtr
  srr : f.srr = r.srr
  ss : f.ss = r.at'
  dlc : f.dlc = r.dlc
  data : f.data = r.padded
  writerId : f.writerId = txCounter

/-- The message that the host asks for. -/
def message : TwaiMessage where
  identifier := r.id
  extd := r.ext
  rtr := r.rtr
  ss := r.at'
  self := r.srr
  dataLengthCode := r.dlc
  data := r.padded

/-- The frame that the decoder makes of the record. -/
def frame (txCounter : UInt8) : Frame where
  id := r.id
  ts16 := 0
  dlc := r.dlc
  flags := (if r.ext then frameFlagExt else 0) ||| (if r.rtr then frameFlagRtr else 0) |||
    (if r.at' then frameFlagSs else 0) ||| (if r.srr then frameFlagSrr else 0)
  data := r.padded
  writerId := txCounter

/-! ### The fields of a record -/

/-- The flag bits below the id. -/
def txFlags : UInt8 := (if r.srr then txSrr else 0) ||| (if r.at' then txAt else 0)

theorem txFlags_lt : r.txFlags.toUInt32.toNat < 4 := by
  rw [txFlags]; cases r.srr <;> cases r.at' <;> decide

theorem txFlags_bits :
    decide (r.txFlags &&& txSrr ≠ 0) = r.srr ∧ decide (r.txFlags &&& txAt ≠ 0) = r.at' := by
  rw [txFlags]; cases r.srr <;> cases r.at' <;> decide

/-- The shift of the id. -/
def shift : ℕ := if r.ext then extIdShift else stdIdShift

theorem idFlags_eq : r.idFlags = r.id <<< UInt32.ofNat r.shift ||| r.txFlags.toUInt32 := by
  rw [idFlags, txFlags, UInt32.or_assoc]
  cases r.srr <;> cases r.at' <;> rfl

variable {r}

/-- No bit of the id is shifted out, and the flags fit below it. -/
theorem Formed.fits (hr : r.Formed) : r.shift < 32 ∧ 0 < r.shift ∧
    r.id.toNat * 2 ^ r.shift < 2 ^ 32 ∧ r.txFlags.toUInt32.toNat < 2 ^ r.shift := by
  have hid := hr.id
  have h4 := r.txFlags_lt
  rw [shift]
  cases he : r.ext with
  | true =>
    simp only [he, if_true, extIdShift] at hid ⊢
    omega
  | false =>
    simp only [he, if_false, Bool.false_eq_true, stdIdShift] at hid ⊢
    omega

/-- The id stands above the flags. -/
theorem Formed.toNat_idFlags (hr : r.Formed) :
    r.idFlags.toNat = r.id.toNat * 2 ^ r.shift + r.txFlags.toNat := by
  obtain ⟨hs, -, hid, hflags⟩ := hr.fits
  rw [r.idFlags_eq, ← r.txFlags.toNat_toUInt32]
  exact toNat_shiftLeft_or hs hid hflags

/-- The decoder finds the id and the flags in the id word. -/
theorem Formed.txIdWord_eq (hr : r.Formed) {buf : Mem UInt8} {pos : ℕ} (h : buf.Holds pos r.idBytes) :
    txIdWord buf pos r.ext = (r.id, r.txFlags, r.idBytes.length) := by
  have hid := hr.id
  have hw := hr.toNat_idFlags
  have h4 : r.txFlags.toNat < 4 := UInt8.toNat_toUInt32 r.txFlags ▸ r.txFlags_lt
  rw [idBytes] at h ⊢
  rw [txIdWord]
  rw [shift] at hw
  cases he : r.ext with
  | true =>
    simp only [he, if_true, extIdShift] at h hid hw ⊢
    rw [getLe32_of_holds h]
    refine Prod.ext ?_ (Prod.ext ?_ rfl)
    · apply UInt32.toNat_inj.1
      rw [UInt32.toNat_shiftRight, shiftAmount (by decide), Nat.shiftRight_eq_div_pow, hw]
      dsimp only
      omega
    · apply UInt8.toNat_inj.1
      rw [UInt32.toNat_toUInt8, UInt32.toNat_and, hw]
      rw [show (0x7 : UInt32).toNat = 2 ^ 3 - 1 from rfl, Nat.and_two_pow_sub_one_eq_mod]
      dsimp only
      omega
  | false =>
    simp only [he, if_false, Bool.false_eq_true, stdIdShift] at h hid hw ⊢
    have hw16 : r.idFlags.toUInt16.toNat = r.id.toNat * 2 ^ 5 + r.txFlags.toNat := by
      rw [UInt32.toNat_toUInt16, hw]
      omega
    rw [getLe16_of_holds h]
    refine Prod.ext ?_ (Prod.ext ?_ rfl)
    · apply UInt32.toNat_inj.1
      rw [UInt16.toNat_toUInt32, UInt16.toNat_shiftRight, hw16,
        show (UInt16.ofNat 5).toNat % 16 = 5 from rfl, Nat.shiftRight_eq_div_pow]
      dsimp only
      omega
    · apply UInt8.toNat_inj.1
      rw [UInt16.toNat_toUInt8, UInt16.toNat_and, hw16]
      rw [show (0x1F : UInt16).toNat = 2 ^ 5 - 1 from rfl, Nat.and_two_pow_sub_one_eq_mod]
      dsimp only
      omega

/-- The encoder looks for the flag in the id word. -/
theorem Formed.trailer_eq (hr : r.Formed) : r.trailer = if r.srr then [0x80] else [] := by
  obtain ⟨hs, h0, hid, hflags⟩ := hr.fits
  have hbit : r.idFlags &&& txSrr.toUInt32 = r.txFlags.toUInt32 &&& 1 := by
    rw [r.idFlags_eq]
    exact shiftLeft_or_and_one h0 hs hid hflags
  rw [trailer, hbit, txFlags]
  cases r.srr <;> cases r.at' <;> rfl

/-- The bits of the status/len byte. -/
theorem txStatusLen_bits (d : Fin 16) (ext rtr : Bool) :
    let sl := (UInt8.ofNat d &&& statuslenDlc) ||| (if rtr then statuslenRtr else 0) |||
      (if ext then statuslenExtId else 0)
    sl &&& statuslenInternal = 0 ∧ decide (sl &&& statuslenExtId ≠ 0) = ext ∧
      decide (sl &&& statuslenRtr ≠ 0) = rtr ∧ sl &&& statuslenDlc = UInt8.ofNat d := by
  revert d ext rtr
  decide

theorem Formed.statusLen_fields (hr : r.Formed) :
    r.statusLen &&& statuslenInternal = 0 ∧ decide (r.statusLen &&& statuslenExtId ≠ 0) = r.ext ∧
      decide (r.statusLen &&& statuslenRtr ≠ 0) = r.rtr ∧ r.statusLen &&& statuslenDlc = r.rawDlc := by
  have h := txStatusLen_bits ⟨r.rawDlc.toNat, hr.rawDlc⟩ r.ext r.rtr
  rw [UInt8.ofNat_toNat] at h
  exact h

/-- The raw nibble is saturated at 8. -/
theorem dlc_eq (r : TxRec) :
    (if UInt8.ofNat frameMaxDlc < r.rawDlc then UInt8.ofNat frameMaxDlc else r.rawDlc) = r.dlc := by
  apply UInt8.toNat_inj.1
  rw [dlc, UInt8.toNat_ofNat_of_lt' (by rw [UInt8.size]; omega)]
  split
  · rename_i h
    have h := UInt8.lt_iff_toNat_lt.1 h
    simp only [frameMaxDlc, UInt8.reduceOfNat, UInt8.reduceToNat] at h ⊢
    omega
  · rename_i h
    have h := UInt8.le_iff_toNat_le.1 (UInt8.not_lt.1 h)
    simp only [frameMaxDlc, UInt8.reduceOfNat, UInt8.reduceToNat] at h ⊢
    omega

theorem toNat_dlc (r : TxRec) : r.dlc.toNat = min r.rawDlc.toNat 8 :=
  UInt8.toNat_ofNat_of_lt' (by rw [UInt8.size]; omega)

theorem Formed.length_payload (hr : r.Formed) :
    r.payload.length = if r.rtr then 0 else r.dlc.toNat := by
  have hlen := hr.dataLen
  rw [payload, toNat_dlc]
  split
  · rfl
  · rw [if_neg ‹_›] at hlen
    rw [List.length_take, Vector.length_toList, hlen, frameMaxDlc]
    omega

theorem getElem_payload (r : TxRec) {i : Fin frameMaxDlc} (hi : i < r.payload.length) :
    r.payload[i] = r.data.get i := by
  have hrtr : r.payload = r.data.toList.take r.dataLen.toNat := by
    rw [payload] at hi ⊢
    split at hi
    · exact absurd hi (Nat.not_lt_zero _)
    · rw [if_neg ‹_›]
  simp [hrtr, Vector.get]

/-- What the decoder copies is the data of the record. -/
theorem padded_eq (r : TxRec) {buf : Mem UInt8} {pos : ℕ} (h : buf.Holds pos r.payload) :
    (Vector.ofFn fun i : Fin frameMaxDlc => if i < r.payload.length then buf (pos + i) else 0) =
      r.padded := by
  rw [padded]
  congr 1
  funext i
  by_cases hi : i < r.payload.length
  · rw [if_pos hi, if_pos hi, ← r.getElem_payload hi]
    have hread := congrArg (·[i.val]?) h
    rw [Mem.getElem?_read, if_pos hi, List.getElem?_eq_getElem hi] at hread
    exact Option.some.inj hread
  · rw [if_neg hi, if_neg hi]

/-- A record is decoded. -/
theorem Formed.decodeTxData_eq (hr : r.Formed) {buf : Mem UInt8} {pos len : ℕ} (c : UInt8)
    (h : buf.Holds pos r.bytes) (hle : pos + r.bytes.length ≤ len) :
    decodeTxData buf len c r.statusLen (pos + 1) = some (r.frame c, pos + r.bytes.length) := by
  obtain ⟨-, hext, hrtr, hdlc⟩ := hr.statusLen_fields
  obtain ⟨hsrr, hat⟩ := r.txFlags_bits
  have hpayload := hr.length_payload
  have hidBytes : r.idBytes.length = if r.ext then 4 else 2 := by
    rw [idBytes]; split <;> rfl
  simp only [bytes, Mem.holds_cons, Mem.holds_append] at h
  simp only [bytes, List.length_cons, List.length_append] at hle ⊢
  obtain ⟨-, hid, hdata, -⟩ := h
  unfold decodeTxData
  simp only [hext, hrtr, hdlc, r.dlc_eq, ← hidBytes, ← hpayload]
  rw [if_neg (by omega), hr.txIdWord_eq hid]
  dsimp only
  rw [if_neg (by omega), hsrr, hat, r.padded_eq hdata]
  by_cases hs : r.srr = true
  · have htrailer : r.trailer.length = 1 := by rw [hr.trailer_eq, if_pos hs]; rfl
    rw [if_pos hs, if_neg (by omega)]
    refine congrArg some (Prod.ext rfl ?_)
    dsimp only
    omega
  · have htrailer : r.trailer.length = 0 := by rw [hr.trailer_eq, if_neg hs]; rfl
    rw [if_neg hs]
    refine congrArg some (Prod.ext rfl ?_)
    dsimp only
    omega

theorem three_le_length (r : TxRec) : 3 ≤ r.bytes.length := by
  have hid : 2 ≤ r.idBytes.length := by
    rw [idBytes]; split <;> simp
  simp only [bytes, List.length_cons, List.length_append]
  omega

/-! ### What reaches the driver -/

/-- The bits of the flags of a frame. -/
theorem flags_bits (ext rtr ss srr : Bool) :
    let flags : UInt8 := (if ext then frameFlagExt else 0) ||| (if rtr then frameFlagRtr else 0) |||
      (if ss then frameFlagSs else 0) ||| (if srr then frameFlagSrr else 0)
    decide (flags &&& frameFlagExt ≠ 0) = ext ∧ decide (flags &&& frameFlagRtr ≠ 0) = rtr ∧
      decide (flags &&& frameFlagSrr ≠ 0) = srr ∧ decide (flags &&& frameFlagSs ≠ 0) = ss := by
  revert ext rtr ss srr
  decide

/-- The frame of the decoder is what the host asks for. -/
theorem carries_frame (r : TxRec) (c : UInt8) : r.Carries c (r.frame c) := by
  obtain ⟨hext, hrtr, hsrr, hss⟩ := flags_bits r.ext r.rtr r.at' r.srr
  exact ⟨rfl, hext, hrtr, hsrr, hss, rfl, rfl, rfl⟩

/-- The driver gets the message that the host asks for. -/
theorem Formed.twaiMessage_eq (hr : r.Formed) {c : UInt8} {f : Frame} (h : r.Carries c f) :
    twaiMessage f = r.message := by
  have hle : ¬UInt8.ofNat frameMaxDlc < r.dlc := by
    rw [UInt8.lt_iff_toNat_lt, toNat_dlc]
    simp only [frameMaxDlc, UInt8.reduceOfNat, UInt8.reduceToNat]
    omega
  have hpayload := hr.length_payload
  unfold twaiMessage message
  simp only [h.id, h.ext, h.rtr, h.srr, h.ss, h.dlc, h.data, if_neg hle]
  congr 1
  by_cases hrtr : r.rtr = true
  · -- a remote frame has no data
    rw [if_pos hrtr] at hpayload ⊢
    ext i hi
    simp [getElem_padded, hpayload]
  · rw [if_neg hrtr] at hpayload ⊢
    rw [← hpayload]
    ext i hi
    rw [Vector.getElem_ofFn]
    by_cases hin : i < r.payload.length
    · rw [if_pos hin]
      rfl
    · rw [if_neg hin, r.getElem_padded hi, if_neg hin]

end TxRec

/-! ### Transfers -/

variable {buf : Mem UInt8} {recs : List TxRec} {len maxOut : ℕ}

theorem three_mul_length_le (recs : List TxRec) :
    3 * recs.length ≤ (recs.flatMap TxRec.bytes).length := by
  induction recs with
  | nil => simp
  | cons r recs ih =>
    have := r.three_le_length
    simp only [List.flatMap_cons, List.length_append, List.length_cons]
    omega

/-- The decoder walks the records as they were packed. -/
theorem decodeTxRecs_encoded (hformed : ∀ r ∈ recs, r.Formed) (c : UInt8) {pos : ℕ}
    {out : List Frame} (h : buf.Holds pos (recs.flatMap TxRec.bytes))
    (hle : pos + (recs.flatMap TxRec.bytes).length ≤ len) (hout : out.length + recs.length ≤ maxOut) :
    decodeTxRecs buf len maxOut c recs.length pos out = some (out ++ recs.map (·.frame c)) := by
  induction recs generalizing pos out with
  | nil => simp [decodeTxRecs]
  | cons r recs ih =>
    have hr := hformed r List.mem_cons_self
    have h3 := r.three_le_length
    rw [List.flatMap_cons] at h hle
    rw [List.length_append] at hle
    rw [List.length_cons] at hout
    obtain ⟨hrec, hrest⟩ := Mem.holds_append.1 h
    have hsl : buf pos = r.statusLen := (Mem.holds_cons.1 hrec).1
    have hdata : decodeTxData buf len c r.statusLen (pos + 1) =
        some (r.frame c, pos + r.bytes.length) := hr.decodeTxData_eq c hrec (by omega)
    have hroom : (out ++ [r.frame c]).length + recs.length ≤ maxOut := by
      rw [List.length_append, List.length_singleton]
      omega
    have hnext := ih (fun r hr => hformed r (List.mem_cons_of_mem _ hr)) hrest (by omega) hroom
    rw [List.length_cons, decodeTxRecs, if_neg (by omega), if_neg (by omega)]
    dsimp only
    rw [hsl, if_neg (by rw [hr.statusLen_fields.1]; decide), hdata]
    dsimp only
    rw [hnext, List.append_assoc, List.map_cons]
    rfl

/-- A transfer is decoded into the frames of its records. -/
theorem decodeTx_hostEncodeTx (hformed : ∀ r ∈ recs, r.Formed)
    (hlen : (recs.flatMap TxRec.bytes).length ≤ 61) (hroom : recs.length ≤ maxOut)
    (hmax : 0 < maxOut) (c : UInt8) :
    decodeTx (hostEncodeTx recs c) usbTxBufferSize maxOut = some (recs.map (·.frame c)) := by
  have hcount := three_mul_length_le recs
  have hlast : hostEncodeTx recs c (usbTxBufferSize - 1) = c := Mem.copy_singleton _ _ _
  have hrecs : (hostEncodeTx recs c).Holds msgHeaderLen (recs.flatMap TxRec.bytes) := by
    refine (Mem.holds_copy _ _ _).copy (.inl ?_)
    simp only [msgHeaderLen, usbTxBufferSize]
    omega
  have hcnt : hostEncodeTx recs c 1 = UInt8.ofNat recs.length := by
    unfold hostEncodeTx
    rw [Mem.copy_of_lt _ (by decide), Mem.copy_of_lt _ (by decide)]
    rfl
  unfold decodeTx
  rw [if_neg (by omega), if_neg (by decide), if_pos (le_refl _), hlast, hcnt,
    UInt8.toNat_ofNat_of_lt' (by rw [UInt8.size]; omega)]
  refine decodeTxRecs_encoded hformed c hrecs ?_ (by simpa using hroom)
  simp only [msgHeaderLen, usbTxBufferSize]
  omega

/-- **From the host to the bus.**  A transfer whose records fit in front of its counter is decoded
into one frame per record, in order, with the id, the flags, the saturated length and the data that
the host asks for, and the counter as its writer id; and with a driver that is installed in normal
mode, `pcan_twai_transmit()` hands `twai_transmit()` the message that the host asks for. -/
theorem hostEncodeTx_transmit (hformed : ∀ r ∈ recs, r.Formed)
    (hlen : (recs.flatMap TxRec.bytes).length ≤ 61) (hroom : recs.length ≤ maxOut)
    (hmax : 0 < maxOut) (c : UInt8) :
    ∃ fs, decodeTx (hostEncodeTx recs c) usbTxBufferSize maxOut = some fs ∧
      List.Forall₂ (fun r f => r.Carries c f ∧
        ∀ (h : Twai.Hal TwaiMessage) (d : Twai.Driver TwaiMessage) (answer : Twai.TwaiAnswer),
          h.driver = some d → h.listenOnly = false →
            pcanTwaiTransmit h answer f =
              ({ h with driver := some (d.transmit answer r.message).1 },
                (d.transmit answer r.message).2)) recs fs := by
  refine ⟨_, decodeTx_hostEncodeTx hformed hlen hroom hmax c, ?_⟩
  rw [List.forall₂_map_right_iff, List.forall₂_same]
  intro r hr
  refine ⟨r.carries_frame c, fun h d answer hd hmode => ?_⟩
  rw [pcanTwaiTransmit, (hformed r hr).twaiMessage_eq (r.carries_frame c), Twai.Hal.transmit, hd]
  simp [hmode]

/-- An extended frame with a length code above 8, a remote frame that asks for its echo, and a
single shot. -/
def threeRecs : List TxRec :=
  [⟨0x1ABCDE0F, true, false, false, false, 15, ⟨#[11, 22, 33, 44, 55, 66, 77, 88], rfl⟩, 8⟩,
    ⟨0x7FF, false, true, true, false, 4, ⟨#[9, 9, 9, 9, 9, 9, 9, 9], rfl⟩, 0⟩,
    ⟨0x123, false, false, false, true, 2, ⟨#[0xAA, 0xBB, 0, 0, 0, 0, 0, 0], rfl⟩, 2⟩]

theorem hostEncodeTx_transmit_threeRecs :
    ∃ fs, decodeTx (hostEncodeTx threeRecs 0x5A) usbTxBufferSize 8 = some fs ∧
      List.Forall₂ (fun r f => r.Carries 0x5A f) threeRecs fs := by
  obtain ⟨fs, hfs, hall⟩ := @hostEncodeTx_transmit threeRecs 8 (by decide) (by decide) (by decide)
    (by decide) 0x5A
  exact ⟨fs, hfs, hall.imp fun _ _ h => h.1⟩

end Pcan

end Espcan32
