import Espcan32.Lib.Bits

/-!
# The PCAN-USB wire protocol

What `pcan_proto.h` fixes of the message endpoints: the batch header, the bits of the status/len
byte, the layout of the id word, the codes of the status records, the little-endian helpers, and
the frame that the tasks of the bridge pass to each other.
-/

namespace Espcan32

namespace Pcan

/-! ### Constants -/

/-- `PCAN_USB_TX_BUFFER_SIZE`. -/
def usbTxBufferSize : ℕ := 64

/-- `PCAN_USB_MSG_HEADER_LEN`. -/
def msgHeaderLen : ℕ := 2

/-- `PCAN_USB_MSG_TX_CAN`. -/
def msgTxCan : UInt8 := 2

/-- `PCAN_USB_STATUSLEN_TIMESTAMP`: the record carries a timestamp. -/
def statuslenTimestamp : UInt8 := 0x80

/-- `PCAN_USB_STATUSLEN_INTERNAL`: a status or error record. -/
def statuslenInternal : UInt8 := 0x40

/-- `PCAN_USB_STATUSLEN_EXT_ID`: a 29-bit id. -/
def statuslenExtId : UInt8 := 0x20

/-- `PCAN_USB_STATUSLEN_RTR`: a remote frame. -/
def statuslenRtr : UInt8 := 0x10

/-- `PCAN_USB_STATUSLEN_DLC`: the low nibble. -/
def statuslenDlc : UInt8 := 0x0F

/-- `PCAN_USB_STD_ID_SHIFT`. -/
def stdIdShift : ℕ := 5

/-- `PCAN_USB_EXT_ID_SHIFT`. -/
def extIdShift : ℕ := 3

/-- `PCAN_USB_TX_SRR`: self-reception request. -/
def txSrr : UInt8 := 0x01

/-- `PCAN_USB_TX_AT`: single shot. -/
def txAt : UInt8 := 0x02

/-- `PCAN_USB_REC_ERROR`. -/
def recError : UInt8 := 1

/-- `PCAN_USB_REC_ANALOG`. -/
def recAnalog : UInt8 := 2

/-- `PCAN_USB_REC_BUSLOAD`. -/
def recBusload : UInt8 := 3

/-- `PCAN_USB_REC_TS`. -/
def recTs : UInt8 := 4

/-- `PCAN_USB_TS_TICK_NS`. -/
def tsTickNs : ℕ := 42667

/-- `PCAN_USB_TS_CALIB_PERIOD_MS`. -/
def tsCalibPeriodMs : ℕ := 1000

/-- `PCAN_FRAME_MAX_DLC`. -/
def frameMaxDlc : ℕ := 8

/-- `PCAN_FRAME_FLAG_EXT`. -/
def frameFlagExt : UInt8 := 0x01

/-- `PCAN_FRAME_FLAG_RTR`. -/
def frameFlagRtr : UInt8 := 0x02

/-- `PCAN_FRAME_FLAG_SS`. -/
def frameFlagSs : UInt8 := 0x04

/-- `PCAN_FRAME_FLAG_SRR`. -/
def frameFlagSrr : UInt8 := 0x08

/-! ### The canonical frame -/

/-- `pcan_frame_t`. -/
structure Frame where
  id : UInt32
  ts16 : UInt16
  dlc : UInt8
  flags : UInt8
  data : Vector UInt8 frameMaxDlc
  writerId : UInt8
  deriving DecidableEq, Repr

namespace Frame

variable (f : Frame)

/-- `flags & PCAN_FRAME_FLAG_EXT`. -/
def ext : Bool := f.flags &&& frameFlagExt ≠ 0

/-- `flags & PCAN_FRAME_FLAG_RTR`. -/
def rtr : Bool := f.flags &&& frameFlagRtr ≠ 0

/-- `flags & PCAN_FRAME_FLAG_SS`. -/
def ss : Bool := f.flags &&& frameFlagSs ≠ 0

/-- `flags & PCAN_FRAME_FLAG_SRR`. -/
def srr : Bool := f.flags &&& frameFlagSrr ≠ 0

end Frame

/-! ### Little-endian access -/

/-- `pcan_get_le16()`. -/
def getLe16 (b0 b1 : UInt8) : UInt16 := b0.toUInt16 ||| b1.toUInt16 <<< 8

/-- `pcan_get_le32()`. -/
def getLe32 (b0 b1 b2 b3 : UInt8) : UInt32 :=
  b0.toUInt32 ||| b1.toUInt32 <<< 8 ||| b2.toUInt32 <<< 16 ||| b3.toUInt32 <<< 24

/-- `pcan_put_le16()`. -/
def putLe16 (v : UInt16) : List UInt8 := [(v &&& 0xFF).toUInt8, (v >>> 8 &&& 0xFF).toUInt8]

/-- `pcan_put_le32()`. -/
def putLe32 (v : UInt32) : List UInt8 :=
  [(v &&& 0xFF).toUInt8, (v >>> 8 &&& 0xFF).toUInt8, (v >>> 16 &&& 0xFF).toUInt8,
    (v >>> 24 &&& 0xFF).toUInt8]

@[simp] theorem length_putLe16 (v : UInt16) : (putLe16 v).length = 2 := rfl

@[simp] theorem length_putLe32 (v : UInt32) : (putLe32 v).length = 4 := rfl

theorem getLe16_putLe16 (v : UInt16) :
    getLe16 (v &&& 0xFF).toUInt8 (v >>> 8 &&& 0xFF).toUInt8 = v := by
  apply UInt16.toNat_inj.1
  have hv := v.toNat_lt
  simp only [getLe16, UInt16.toNat_or, UInt16.toNat_shiftLeft, UInt8.toNat_toUInt16,
    UInt16.toNat_toUInt8, UInt16.toNat_and, UInt16.toNat_shiftRight]
  simp only [UInt16.toNat_ofNat, Nat.shiftRight_eq_div_pow, Nat.reduceMod, Nat.reducePow,
    and_low_byte, Nat.mod_mod]
  rw [shiftLeft_mod (by omega), low_or_shiftLeft (by omega)]
  omega

theorem getLe32_putLe32 (v : UInt32) :
    getLe32 (v &&& 0xFF).toUInt8 (v >>> 8 &&& 0xFF).toUInt8 (v >>> 16 &&& 0xFF).toUInt8
      (v >>> 24 &&& 0xFF).toUInt8 = v := by
  apply UInt32.toNat_inj.1
  have hv := v.toNat_lt
  simp only [getLe32, UInt32.toNat_or, UInt32.toNat_shiftLeft, UInt8.toNat_toUInt32,
    UInt32.toNat_toUInt8, UInt32.toNat_and, UInt32.toNat_shiftRight]
  simp only [UInt32.toNat_ofNat, Nat.shiftRight_eq_div_pow, Nat.reduceMod, Nat.reducePow,
    and_low_byte, Nat.mod_mod]
  rw [shiftLeft_mod (by omega), shiftLeft_mod (by omega), shiftLeft_mod (by omega)]
  rw [low_or_shiftLeft (k := 8) (by omega), low_or_shiftLeft (k := 16) (by omega),
    low_or_shiftLeft (k := 24) (by omega)]
  omega

end Pcan

end Espcan32
