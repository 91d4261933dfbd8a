import Mathlib.Algebra.Order.AbsoluteValue.Basic
import Mathlib.Algebra.Order.Field.Rat
import Mathlib.Data.List.MinMax
import Mathlib.Data.Rat.Cast.Order
import Mathlib.Tactic.NormNum
import Espcan32.Pcan.Cmd

/-!
# The rate that the host gets

`CMD_BITRATE` carries the two bit timing registers of an SJA1000.  `pcan_cmd_handle()` looks the
pair up in a table of ten rows, and keeps the rate that it has if the pair is not there;
`pcan_twai_start()` takes the nearest rate that the driver supports.

* `nominalRate` : the rate that a pair of registers encodes.
* `nearestSupportedBitrate_nearest` : the search of `twai_hal.c` finds the nearest rate.
* `btrTable_nominal` : every row of the table has the rate that its registers encode.
* `bitrate_honoured` : **the rate of a pair in the table is honoured, or snapped to the nearest;
  with any other pair the rate stays what it was.**
-/

namespace Espcan32

namespace Pcan

open Twai

/-! ### Rates -/

/-- The rate that a pair of registers encodes on the 8 MHz clock: the clock, divided by the
prescaler and by the time quanta of a bit. -/
def nominalRate (btr0 btr1 : UInt8) : ℚ :=
  8000000 / (((btr0 &&& 0x3F).toNat + 1) *
    (3 + (btr1 &&& 0x0F).toNat + (btr1 >>> 4 &&& 7).toNat) : ℕ)

/-- A supported rate at minimal distance from `q`. -/
def Nearest (rate : UInt32) (q : ℚ) : Prop :=
  rate ∈ supportedBitrates ∧
    ∀ other ∈ supportedBitrates, |(rate.toNat : ℚ) - q| ≤ |(other.toNat : ℚ) - q|

/-- The pair of registers is in `PCAN_BTR_TABLE_INIT`. -/
def InTable (btr0 btr1 : UInt8) : Prop :=
  ∃ entry ∈ btrTable, entry.btr0 = btr0 ∧ entry.btr1 = btr1

/-- The rate that `pcan_twai_start()` configures for a device state. -/
def startRate {M : Type*} (h : Hal M) (st : PcanDevState) : UInt32 :=
  (h.install ⟨st.bitrate, st.silent⟩ true).bitrate

/-! ### The nearest rate -/

/-- A loop that keeps the better of two candidates finds the best one. -/
theorem argmin_cons_eq_foldl {α β : Type*} [LinearOrder β] (f : α → β) (first : α) (rest : List α) :
    (first :: rest).argmin f =
      some (rest.foldl (fun best cand => if f cand < f best then cand else best) first) := by
  have hloop (best : α) : rest.foldl (List.argAux fun b c => f b < f c) (some best) =
      some (rest.foldl (fun best cand => if f cand < f best then cand else best) best) := by
    induction rest generalizing best with
    | nil => rfl
    | cons cand rest ih =>
      rw [List.foldl_cons, List.foldl_cons, ← ih]
      congr 1
      exact (apply_ite some _ _ _).symm
  exact hloop first

/-- The distance that `nearest_supported_bitrate()` computes. -/
def rateDiff (bitrate cand : UInt32) : UInt32 :=
  if cand < bitrate then bitrate - cand else cand - bitrate

theorem rateDiff_eq (bitrate cand : UInt32) :
    ((rateDiff bitrate cand).toNat : ℚ) = |(cand.toNat : ℚ) - bitrate.toNat| := by
  unfold rateDiff
  split
  · rename_i hlt
    have hle : cand.toNat ≤ bitrate.toNat := Nat.le_of_lt (UInt32.lt_iff_toNat_lt.1 hlt)
    rw [UInt32.toNat_sub_of_le _ _ (UInt32.le_iff_toNat_le.2 hle), Nat.cast_sub hle, abs_sub_comm,
      abs_of_nonneg (sub_nonneg.2 (Nat.cast_le.2 hle))]
  · rename_i hge
    have hle : bitrate.toNat ≤ cand.toNat := UInt32.le_iff_toNat_le.1 (UInt32.not_lt.1 hge)
    rw [UInt32.toNat_sub_of_le _ _ (UInt32.not_lt.1 hge), Nat.cast_sub hle,
      abs_of_nonneg (sub_nonneg.2 (Nat.cast_le.2 hle))]

/-- The search finds a supported rate at minimal distance, for every rate. -/
theorem nearestSupportedBitrate_nearest (bitrate : UInt32) :
    Nearest (nearestSupportedBitrate bitrate) (bitrate.toNat : ℚ) := by
  have hloop : nearestSupportedBitrate bitrate = supportedBitrates.tail.foldl
      (fun best cand => if rateDiff bitrate cand < rateDiff bitrate best then cand else best)
      (supportedBitrates.headD 0) := rfl
  simp only [UInt32.lt_iff_toNat_lt] at hloop
  have hmin : nearestSupportedBitrate bitrate ∈
      supportedBitrates.argmin fun cand => (rateDiff bitrate cand).toNat := by
    rw [hloop, show supportedBitrates = supportedBitrates.headD 0 :: supportedBitrates.tail from rfl,
      argmin_cons_eq_foldl]
    exact Option.mem_some_self _
  refine ⟨List.argmin_mem hmin, ?_⟩
  intro other hother
  have hle := List.le_of_mem_argmin hother hmin
  rw [← rateDiff_eq, ← rateDiff_eq, Nat.cast_le]
  exact hle

/-! ### The table -/

/-- Every row of the table has the rate that its registers encode. -/
theorem btrTable_nominal : ∀ entry ∈ btrTable,
    nominalRate entry.btr0 entry.btr1 = entry.bitrate.toNat := by
  decide +kernel

theorem btrToBitrate_of_inTable {btr0 btr1 : UInt8} (h : InTable btr0 btr1) :
    ∃ entry ∈ btrTable, entry.btr0 = btr0 ∧ entry.btr1 = btr1 ∧
      btrToBitrate btr0 btr1 = entry.bitrate := by
  obtain ⟨row, hrow, hbtr⟩ := h
  cases hfind : btrTable.find? fun entry => entry.btr0 = btr0 ∧ entry.btr1 = btr1 with
  | none => exact absurd hbtr (by simpa using List.find?_eq_none.1 hfind row hrow)
  | some entry =>
    have hmatch : entry.btr0 = btr0 ∧ entry.btr1 = btr1 := by simpa using List.find?_some hfind
    refine ⟨entry, List.mem_of_find?_eq_some hfind, hmatch.1, hmatch.2, ?_⟩
    rw [btrToBitrate, hfind]

theorem btrToBitrate_of_not_inTable {btr0 btr1 : UInt8} (h : ¬InTable btr0 btr1) :
    btrToBitrate btr0 btr1 = 0 := by
  have hfind : (btrTable.find? fun entry => entry.btr0 = btr0 ∧ entry.btr1 = btr1) = none := by
    rw [List.find?_eq_none]
    intro entry hentry
    rw [decide_eq_true_iff]
    intro hmatch
    exact h ⟨entry, hentry, hmatch⟩
  rw [btrToBitrate, hfind]

/-- The lookup of a pair in the table gives the rate that it encodes. -/
theorem btrToBitrate_nominal {btr0 btr1 : UInt8} (h : InTable btr0 btr1) :
    btrToBitrate btr0 btr1 ≠ 0 ∧ ((btrToBitrate btr0 btr1).toNat : ℚ) = nominalRate btr0 btr1 := by
  have hpos : ∀ entry ∈ btrTable, entry.bitrate ≠ 0 := by decide
  obtain ⟨entry, hentry, rfl, rfl, hrate⟩ := btrToBitrate_of_inTable h
  rw [hrate]
  exact ⟨hpos entry hentry, (btrTable_nominal entry hentry).symm⟩

/-! ### Over the commands -/

/-- The rate of the device state is the one of the last pair that is in the table. -/
theorem bitrate_afterCommands (cmds : List (List UInt8)) :
    (afterCommands cmds).bitrate = lastOf bitrateOf cmds defaultBitrate := by
  induction cmds using List.reverseRecOn with
  | nil => rfl
  | append_singleton cmds cmd ih =>
    rw [afterCommands_snoc, lastOf_snoc, ← ih]
    exact (pcanCmdHandle_spec _ cmd).1

/-- It is never zero, so that `pcan_twai_start()` does not fall back on a rate of its own. -/
theorem bitrate_ne_zero (cmds : List (List UInt8)) : (afterCommands cmds).bitrate ≠ 0 := by
  rw [bitrate_afterCommands]
  induction cmds using List.reverseRecOn with
  | nil => decide
  | append_singleton cmds cmd ih =>
    rw [lastOf_snoc]
    cases hask : bitrateOf cmd with
    | none => exact ih
    | some br => exact bitrateOf_ne_zero hask

theorem startRate_eq {M : Type*} (h : Hal M) (cmds : List (List UInt8)) :
    startRate h (afterCommands cmds) =
      nearestSupportedBitrate (lastOf bitrateOf cmds defaultBitrate) := by
  have hne := bitrate_ne_zero cmds
  rw [← bitrate_afterCommands, startRate, Hal.install, if_pos rfl]
  dsimp only
  rw [if_neg hne]

/-- Commands of another function do not ask for a rate. -/
theorem lastOf_bitrateOf_append (cmds later : List (List UInt8)) (default : UInt32)
    (h : ∀ cmd ∈ later, cmd.getD 0 0 ≠ Func.bitrate) :
    lastOf bitrateOf (cmds ++ later) default = lastOf bitrateOf cmds default := by
  induction later using List.reverseRecOn with
  | nil => rw [List.append_nil]
  | append_singleton later cmd ih =>
    have hnone : bitrateOf cmd = none := if_neg fun hask => h cmd (by simp) hask.2.1
    rw [← List.append_assoc, lastOf_snoc, hnone, Option.getD_none]
    apply ih
    intro c hc
    exact h c (List.mem_append_left _ hc)

/-- **The rate is honoured or snapped**, whatever was set before, if the pair of registers is in the
table: the next `pcan_twai_start()` configures a supported rate at minimal distance from the one
that the registers encode.  With any other pair it configures a supported rate too, the one for the
last pair before that is in the table. -/
theorem bitrate_honoured {M : Type*} (h : Hal M) (cmds later : List (List UInt8))
    (num btr1 btr0 : UInt8) (rest : List UInt8) (hrest : rest.length = 12)
    (hlater : ∀ cmd ∈ later, cmd.getD 0 0 ≠ Func.bitrate) :
    let rate := startRate h
      (afterCommands (cmds ++ [Func.bitrate :: num :: btr1 :: btr0 :: rest] ++ later))
    rate ∈ supportedBitrates ∧
      (InTable btr0 btr1 → Nearest rate (nominalRate btr0 btr1)) ∧
      (¬InTable btr0 btr1 →
        rate = nearestSupportedBitrate (lastOf bitrateOf cmds defaultBitrate)) := by
  dsimp only
  rw [startRate_eq, lastOf_bitrateOf_append _ _ _ hlater, lastOf_snoc]
  have hlen : cmdLen ≤ (Func.bitrate :: num :: btr1 :: btr0 :: rest).length := by
    simp only [List.length_cons, hrest]
    decide
  refine ⟨(nearestSupportedBitrate_nearest _).1, ?_, ?_⟩
  · intro hin
    obtain ⟨hne, hnominal⟩ := btrToBitrate_nominal hin
    have hask : bitrateOf (Func.bitrate :: num :: btr1 :: btr0 :: rest) =
        some (btrToBitrate btr0 btr1) := if_pos ⟨hlen, rfl, hne⟩
    rw [hask, Option.getD_some, ← hnominal]
    exact nearestSupportedBitrate_nearest _
  · intro hout
    have hask : bitrateOf (Func.bitrate :: num :: btr1 :: btr0 :: rest) = none :=
      if_neg fun hask => hask.2.2 (btrToBitrate_of_not_inTable hout)
    rw [hask, Option.getD_none]

/-- The host sets 800 kbit/s and turns the bus on: the rate is 1 Mbit/s. -/
theorem bitrate_honoured_800k :
    Nearest (startRate (Hal.initial : Hal Unit) (afterCommands
      ([] ++ [Func.bitrate :: 2 :: 0x16 :: 0x00 :: List.replicate 12 0] ++
        [Func.setBus :: 2 :: 1 :: List.replicate 13 0]))) (nominalRate 0x00 0x16) :=
  (bitrate_honoured Hal.initial [] [Func.setBus :: 2 :: 1 :: List.replicate 13 0] 2 0x16 0x00
    (List.replicate 12 0) rfl (by decide)).2.1 ⟨⟨800000, 0x00, 0x16⟩, by decide, rfl, rfl⟩

/-- The host asks for 100 kbit/s with 16 quanta a bit, which is not the pair of the table: the rate
stays 500 kbit/s, although 100 kbit/s is a supported rate. -/
theorem bitrate_not_snapped :
    startRate (Hal.initial : Hal Unit)
        (afterCommands [Func.bitrate :: 2 :: 0x1C :: 0x04 :: List.replicate 12 0]) = 500000 ∧
      nominalRate 0x04 0x1C = 100000 ∧ 100000 ∈ supportedBitrates ∧
      ¬Nearest (startRate (Hal.initial : Hal Unit)
          (afterCommands [Func.bitrate :: 2 :: 0x1C :: 0x04 :: List.replicate 12 0]))
        (nominalRate 0x04 0x1C) := by
  have hrate : startRate (Hal.initial : Hal Unit)
      (afterCommands [Func.bitrate :: 2 :: 0x1C :: 0x04 :: List.replicate 12 0]) = 500000 := by
    decide
  have hnominal : nominalRate 0x04 0x1C = 100000 := by
    show ((8000000 : ℕ) : ℚ) / ((80 : ℕ) : ℚ) = 100000
    norm_num
  have hmem : 100000 ∈ supportedBitrates := by decide
  refine ⟨hrate, hnominal, hmem, ?_⟩
  intro h
  have hclose := h.2 100000 hmem
  rw [hrate, hnominal, show (500000 : UInt32).toNat = 500000 from rfl,
    show (100000 : UInt32).toNat = 100000 from rfl] at hclose
  norm_num at hclose

end Pcan

end Espcan32
