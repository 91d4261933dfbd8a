import Espcan32.Lib.Bits
import Espcan32.Pcan.Msg

/-!
# The timestamp engine

`pcan_time.c` derives a counter of 16 bits from a clock of microseconds, by a division in 64-bit
arithmetic and a mask.  The host takes differences of the counter modulo `2 ^ 16`, and turns ticks
into microseconds by a fixed-point multiplication with a tick that is slightly shorter.

* `Time.now16` : the counter, for a reading of the clock.
* `Time.ticksToUs` : the conversion of the host.
* `Time.toNat_nowTicks64` : the number of ticks, as long as the nanoseconds fit 64 bits.
* `Time.host_tracks_device` : **the host reads the true number of ticks between two times, and
  computes the time between them, up to 66 µs too short and 43 µs too long.**
-/

namespace Espcan32

namespace Pcan

namespace Time

/-- `PCAN_USB_TS_US_PER_TICK`. -/
def tsUsPerTick : UInt64 := 44739243

/-- `PCAN_USB_TS_DIV_SHIFTER`. -/
def tsDivShifter : UInt64 := 20

/-- `pcan_time_elapsed_us()`, for the reading `now` of `esp_timer_get_time()`; `epochUs` is what
`pcan_time_init()` has read. -/
def elapsedUs (epochUs now : UInt64) : UInt64 := if now < epochUs then 0 else now - epochUs

/-- `pcan_time_now_ticks64()`. -/
def nowTicks64 (epochUs now : UInt64) : UInt64 :=
  elapsedUs epochUs now * 1000 / UInt64.ofNat tsTickNs

/-- `pcan_time_now16()`. -/
def now16 (epochUs now : UInt64) : UInt16 := (nowTicks64 epochUs now &&& 0xFFFF).toUInt16

/-- `pcan_time_ticks_to_us()`. -/
def ticksToUs (ticks : UInt16) : UInt32 :=
  ((ticks.toUInt64 * tsUsPerTick) >>> tsDivShifter).toUInt32

/-! ### The counter -/

section

variable {epochUs now : UInt64}

theorem toNat_nowTicks64_mod (epochUs now : UInt64) :
    (nowTicks64 epochUs now).toNat =
      (elapsedUs epochUs now).toNat * 1000 % 2 ^ 64 / tsTickNs := by
  rw [nowTicks64, UInt64.toNat_div, UInt64.toNat_mul]
  rfl

/-- The number of ticks, as long as the nanoseconds fit 64 bits. -/
theorem toNat_nowTicks64 (h : 1000 * (elapsedUs epochUs now).toNat < 2 ^ 64) :
    (nowTicks64 epochUs now).toNat = 1000 * (elapsedUs epochUs now).toNat / 42667 := by
  rw [toNat_nowTicks64_mod, Nat.mul_comm, Nat.mod_eq_of_lt h]
  rfl

/-- The counter is the number of ticks, modulo `2 ^ 16`. -/
theorem now16_eq_ofNat (epochUs now : UInt64) :
    now16 epochUs now = UInt16.ofNat (nowTicks64 epochUs now).toNat := by
  apply UInt16.toNat_inj.1
  rw [now16, UInt64.toNat_toUInt16, UInt64.toNat_and, UInt16.toNat_ofNat']
  have hmask : (nowTicks64 epochUs now).toNat &&& (0xFFFF : UInt64).toNat =
      (nowTicks64 epochUs now).toNat % 2 ^ 16 :=
    Nat.and_two_pow_sub_one_eq_mod _ 16
  rw [hmask, Nat.mod_mod]

/-- It is what the records of a batch carry. -/
theorem now16_eq (epochUs now : UInt64) :
    now16 epochUs now = timeNow16 (elapsedUs epochUs now).toNat := by
  rw [now16_eq_ofNat, toNat_nowTicks64_mod, timeNow16]
  apply UInt16.toNat_inj.1
  rw [UInt16.toNat_ofNat', UInt16.toNat_ofNat', Nat.and_two_pow_sub_one_eq_mod _ 16, Nat.mod_mod]

end

/-! ### The conversion -/

theorem toNat_ticksToUs (ticks : UInt16) :
    (ticksToUs ticks).toNat = ticks.toNat * 44739243 / 2 ^ 20 := by
  have hlt := ticks.toNat_lt
  have hmul : (ticks.toUInt64 * tsUsPerTick).toNat = ticks.toNat * 44739243 := by
    rw [UInt64.toNat_mul, UInt16.toNat_toUInt64, show tsUsPerTick.toNat = 44739243 from rfl]
    omega
  rw [ticksToUs, UInt64.toNat_toUInt32, UInt64.toNat_shiftRight, hmul,
    show tsDivShifter.toNat % 64 = 20 from rfl, Nat.shiftRight_eq_div_pow]
  omega

/-- What the conversion makes of the ticks between two times: each of the two counts is short of
its time by less than a tick, and 65535 ticks of the host are 22 µs short of as many of the
device. -/
theorem ticksToUs_error {u₁ u₂ : ℕ} (h : u₁ ≤ u₂)
    (hdiff : 1000 * u₂ / 42667 - 1000 * u₁ / 42667 < 65536) :
    u₂ - u₁ ≤ (1000 * u₂ / 42667 - 1000 * u₁ / 42667) * 44739243 / 2 ^ 20 + 66 ∧
      (1000 * u₂ / 42667 - 1000 * u₁ / 42667) * 44739243 / 2 ^ 20 ≤ u₂ - u₁ + 43 := by
  obtain ⟨d, hd⟩ : ∃ d, 1000 * u₂ / 42667 = 1000 * u₁ / 42667 + d :=
    Nat.exists_eq_add_of_le (Nat.div_le_div_right (by omega))
  rw [hd, Nat.add_sub_cancel_left] at hdiff ⊢
  have hdown : 42667 * d ≤ 1000 * (u₂ - u₁) + 42666 := by omega
  have hup : 1000 * (u₂ - u₁) ≤ 42667 * d + 42666 := by omega
  constructor
  · omega
  · omega

/-- **The time of the host tracks the time of the device**: for two times since the epoch whose
nanoseconds fit 64 bits, the count of ticks does not go back; and if less than `2 ^ 16` ticks are
between them, the difference of the counters is their number, and converts into the time between
them up to 66 µs below and 43 µs above. -/
theorem host_tracks_device (epochUs now₁ now₂ : UInt64)
    (h : elapsedUs epochUs now₁ ≤ elapsedUs epochUs now₂)
    (h64 : 1000 * (elapsedUs epochUs now₂).toNat < 2 ^ 64) :
    let u₁ := (elapsedUs epochUs now₁).toNat
    let u₂ := (elapsedUs epochUs now₂).toNat
    let d := now16 epochUs now₂ - now16 epochUs now₁
    nowTicks64 epochUs now₁ ≤ nowTicks64 epochUs now₂ ∧
      (1000 * u₂ / 42667 - 1000 * u₁ / 42667 < 65536 →
        d.toNat = 1000 * u₂ / 42667 - 1000 * u₁ / 42667 ∧
          (u₂ - u₁ : ℤ) - 66 ≤ (ticksToUs d).toNat ∧
          ((ticksToUs d).toNat : ℤ) ≤ (u₂ - u₁) + 43) := by
  intro u₁ u₂ d
  have hu : u₁ ≤ u₂ := UInt64.le_iff_toNat_le.1 h
  have ht₁ : (nowTicks64 epochUs now₁).toNat = 1000 * u₁ / 42667 :=
    toNat_nowTicks64 (Nat.lt_of_le_of_lt (Nat.mul_le_mul_left 1000 hu) h64)
  have ht₂ : (nowTicks64 epochUs now₂).toNat = 1000 * u₂ / 42667 := toNat_nowTicks64 h64
  have hmono : 1000 * u₁ / 42667 ≤ 1000 * u₂ / 42667 :=
    Nat.div_le_div_right (Nat.mul_le_mul_left 1000 hu)
  refine ⟨UInt64.le_iff_toNat_le.2 (by rw [ht₁, ht₂]; exact hmono), ?_⟩
  intro hdiff
  have hd : d.toNat = 1000 * u₂ / 42667 - 1000 * u₁ / 42667 := by
    rw [show d = now16 epochUs now₂ - now16 epochUs now₁ from rfl, now16_eq_ofNat, now16_eq_ofNat,
      ht₁, ht₂]
    exact toNat_sub16 hmono hdiff
  obtain ⟨hlow, hhigh⟩ := ticksToUs_error hu hdiff
  rw [← hd, ← toNat_ticksToUs] at hlow hhigh
  refine ⟨hd, ?_, ?_⟩
  · omega
  · omega

/-- Across a wrap of the counter: 438 µs are read as 11 ticks. -/
theorem host_tracks_device_wrap :
    (now16 1000000 3796438 - now16 1000000 3796000).toNat = 11 ∧
      ((ticksToUs (now16 1000000 3796438 - now16 1000000 3796000)).toNat : ℤ) ≤ 481 := by
  obtain ⟨hd, -, hhigh⟩ :=
    (host_tracks_device 1000000 3796000 3796438 (by decide) (by decide)).2 (by decide)
  exact ⟨hd, hhigh⟩

end Time

end Pcan

end Espcan32
