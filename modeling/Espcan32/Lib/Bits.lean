import Mathlib.Data.Nat.Bitwise
import Mathlib.Tactic.Common

/-!
# Bit fields of bytes and words

The code packs small numbers into bytes and words with shifts, masks and `|`.  These lemmas turn
the packed forms into arithmetic, which `omega` decides.
-/

namespace Espcan32

theorem and_low_nibble (n : ℕ) : n &&& 0x0F = n % 16 := Nat.and_two_pow_sub_one_eq_mod n 4

theorem and_low_byte (n : ℕ) : n &&& 0xFF = n % 256 := Nat.and_two_pow_sub_one_eq_mod n 8

theorem and_high_byte {n : ℕ} (h : n < 65536) : n &&& 0xFF00 = (n / 256) <<< 8 := by
  have h1 : n &&& 0xFF00 = (n / 256 &&& 0xFF) <<< 8 := by
    apply Nat.eq_of_testBit_eq
    intro i
    have hc : (0xFF00 : ℕ) = 0xFF <<< 8 := rfl
    have hd : (256 : ℕ) = 2 ^ 8 := rfl
    rw [hc, hd, Nat.testBit_and, Nat.testBit_shiftLeft, Nat.testBit_shiftLeft, Nat.testBit_and,
      Nat.testBit_div_two_pow]
    by_cases hi : 8 ≤ i <;> simp [hi]
  rw [h1, and_low_byte, Nat.mod_eq_of_lt (by omega)]

/-- A field of `k` bits below a shifted one: `|` is addition. -/
theorem shiftLeft_or_eq_add {a b k : ℕ} (h : b < 2 ^ k) : a <<< k ||| b = a * 2 ^ k + b := by
  rw [← Nat.shiftLeft_add_eq_or_of_lt h, Nat.shiftLeft_eq]

theorem low_or_shiftLeft {a b k : ℕ} (h : b < 2 ^ k) : b ||| a <<< k = b + a * 2 ^ k := by
  rw [Nat.or_comm, shiftLeft_or_eq_add h, Nat.add_comm]

/-- A shift that loses no bit of the word. -/
theorem shiftLeft_mod {a k w : ℕ} (h : a * 2 ^ k < w) : a <<< k % w = a <<< k := by
  rw [Nat.shiftLeft_eq, Nat.mod_eq_of_lt h]

theorem shiftAmount {s : ℕ} (hs : s < 32) : (UInt32.ofNat s).toNat % 32 = s := by
  rw [UInt32.toNat_ofNat']
  omega

/-- A word that holds `a` above `s` bits of flags. -/
theorem toNat_shiftLeft_or {a t : UInt32} {s : ℕ} (hs : s < 32) (ha : a.toNat * 2 ^ s < 2 ^ 32)
    (ht : t.toNat < 2 ^ s) : (a <<< UInt32.ofNat s ||| t).toNat = a.toNat * 2 ^ s + t.toNat := by
  rw [UInt32.toNat_or, UInt32.toNat_shiftLeft, shiftAmount hs, shiftLeft_mod ha, shiftLeft_or_eq_add ht]

theorem shiftLeft_or_shiftRight {a t : UInt32} {s : ℕ} (hs : s < 32)
    (ha : a.toNat * 2 ^ s < 2 ^ 32) (ht : t.toNat < 2 ^ s) :
    (a <<< UInt32.ofNat s ||| t) >>> UInt32.ofNat s = a := by
  apply UInt32.toNat_inj.1
  rw [UInt32.toNat_shiftRight, toNat_shiftLeft_or hs ha ht, shiftAmount hs,
    Nat.shiftRight_eq_div_pow, Nat.mul_comm, Nat.mul_add_div (Nat.two_pow_pos s),
    Nat.div_eq_of_lt ht, Nat.add_zero]

theorem shiftLeft_or_and_one {a t : UInt32} {s : ℕ} (h0 : 0 < s) (hs : s < 32)
    (ha : a.toNat * 2 ^ s < 2 ^ 32) (ht : t.toNat < 2 ^ s) :
    (a <<< UInt32.ofNat s ||| t) &&& 1 = t &&& 1 := by
  apply UInt32.toNat_inj.1
  obtain ⟨k, rfl⟩ : ∃ k, s = k + 1 := ⟨s - 1, by omega⟩
  rw [UInt32.toNat_and, UInt32.toNat_and, toNat_shiftLeft_or hs ha ht]
  simp only [UInt32.reduceToNat, Nat.and_one_is_mod, Nat.pow_succ, ← Nat.mul_assoc]
  omega

theorem toNat_high_nibble (b : UInt8) : (b >>> 4).toNat = b.toNat / 16 := by
  simp [Nat.shiftRight_eq_div_pow]

theorem toNat_low_nibble (b : UInt8) : (b &&& 0x0F).toNat = b.toNat % 16 := by
  rw [UInt8.toNat_and]; exact and_low_nibble _

/-- A sum of 16-bit words that does not wrap. -/
theorem toNat_add16 {a b : UInt16} {n : ℕ} (hb : b.toNat = n) (h : a.toNat + n < 65536) :
    (a + b).toNat = a.toNat + n := by
  rw [UInt16.toNat_add, hb, Nat.mod_eq_of_lt h]

/-- Two readings of a count, of 16 bits each: their difference is the true one, as long as that
fits 16 bits. -/
theorem toNat_sub16 {m n : ℕ} (h : m ≤ n) (hlt : n - m < 65536) :
    (UInt16.ofNat n - UInt16.ofNat m).toNat = n - m := by
  rw [UInt16.toNat_sub, UInt16.toNat_ofNat', UInt16.toNat_ofNat']
  omega

/-! ### Numbers as bytes -/

/-- The number with these bytes, most significant first, behind `n`. -/
def bigEndianFrom (n : ℕ) (bs : List UInt8) : ℕ := bs.foldl (fun n b => 256 * n + b.toNat) n

/-- The number with these bytes, most significant first. -/
def bigEndian (bs : List UInt8) : ℕ := bigEndianFrom 0 bs

/-- One more byte behind a number, as the code shifts it in. -/
theorem toNat_shiftIn (n : UInt32) (b : UInt8) :
    (n <<< 8 ||| b.toUInt32).toNat = (256 * n.toNat + b.toNat) % 2 ^ 32 := by
  have hb := b.toNat_lt
  have hshift : n.toNat <<< 8 % 2 ^ 32 = (n.toNat % 2 ^ 24) <<< 8 := by
    rw [Nat.shiftLeft_eq, Nat.shiftLeft_eq]
    omega
  rw [UInt32.toNat_or, UInt32.toNat_shiftLeft, UInt8.toNat_toUInt32,
    show (8 : UInt32).toNat % 32 = 8 from rfl, hshift, shiftLeft_or_eq_add hb]
  omega

/-! ### 16-bit arithmetic on natural numbers -/

/-- A `uint16_t` result: what is left of `n` in 16 bits. -/
def wrap16 (n : ℕ) : ℕ := n % 65536

/-- The difference of two `uint16_t`. -/
def sub16 (a b : ℕ) : ℕ := (a + 65536 - b) % 65536

theorem wrap16_of_lt {n : ℕ} (h : n < 65536) : wrap16 n = n := Nat.mod_eq_of_lt h

theorem sub16_of_le {a b : ℕ} (ha : a < 65536) (h : b ≤ a) : sub16 a b = a - b := by
  unfold sub16; omega

end Espcan32
