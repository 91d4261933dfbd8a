import Mathlib.Data.List.Induction
import Espcan32.Pcan.Cmd

/-!
# The table of commands

`pcan_proto.h` lists the commands that set something, each with its function, its number and its
arguments.  A command is then an assignment to fields of the device state, and a sequence of
commands leaves in every field what the last command for it has written.

* `Setting` : a row of the table, with its arguments; `settingOf` reads it off a command.
* `tableState` : the device state, field by field, from the last command for each.
* `pcanCmdHandle_state` : what a command does to the device state; a `CMD_BITRATE` that is no SET
  does what the SET does.
* `followsTable_iff` : **a sequence of commands follows the table exactly when every such command
  in it repeats what is set already.**
-/

namespace Espcan32

namespace Pcan

open Twai (btrToBitrate defaultBitrate)

/-! ### The table -/

/-- A command that sets something, with its arguments. -/
inductive Setting where
  | bitrate (btr1 btr0 : UInt8)
  | xcver (on : Bool)
  | silent (on : Bool)
  | devid (id : UInt8)
  | extVcc (on : Bool)
  | errFr (mask : UInt8)
  | led (on : Bool)
  deriving DecidableEq, Repr

/-- The fields that a command sets. -/
inductive Target where
  | timing
  | bus
  | silence
  | channel
  | vcc
  | mask
  | led
  deriving DecidableEq, Repr

/-- The row of the table that a command is; a GET is none, nor is a number that the table does not
have. -/
def settingOf (cmd : List UInt8) : Option Setting :=
  let func := cmd.getD 0 0
  let num := cmd.getD 1 0
  let arg (i : ℕ) := cmd.getD (2 + i) 0
  if cmd.length < cmdLen then none
  else if func = Func.bitrate ∧ num = usbSet then some (.bitrate (arg 0) (arg 1))
  else if func = Func.setBus ∧ num = usbBusXcver then some (.xcver (arg 0 ≠ 0))
  else if func = Func.setBus ∧ num = usbBusSilentMode then some (.silent (arg 0 ≠ 0))
  else if func = Func.devid ∧ num = usbSet then some (.devid (arg 0))
  else if func = Func.extVcc ∧ num = usbSet then some (.extVcc (arg 0 ≠ 0))
  else if func = Func.errFr ∧ num = usbSet then some (.errFr (arg 0))
  else if func = Func.led ∧ num = usbSet then some (.led (arg 0 ≠ 0))
  else none

namespace Setting

/-- The fields of a row. -/
def target : Setting → Target
  | bitrate _ _ => .timing
  | xcver _ => .bus
  | silent _ => .silence
  | devid _ => .channel
  | extVcc _ => .vcc
  | errFr _ => .mask
  | led _ => .led

/-- The rows that `ctrl_task` has to apply. -/
@[simp] def reconfigures : Setting → Bool
  | bitrate _ _ | xcver _ | silent _ => true
  | _ => false

/-! What a row writes into a field, if it is one for this field. -/

@[simp] def registers : Setting → Option (UInt8 × UInt8)
  | bitrate btr1 btr0 => some (btr1, btr0)
  | _ => none

/-- Registers that encode no known rate leave the rate alone. -/
@[simp] def rate : Setting → Option UInt32
  | bitrate btr1 btr0 =>
    if btrToBitrate btr0 btr1 ≠ 0 then some (btrToBitrate btr0 btr1) else none
  | _ => none

@[simp] def busOn : Setting → Option Bool
  | xcver on => some on
  | _ => none

@[simp] def silence : Setting → Option Bool
  | silent on => some on
  | _ => none

@[simp] def channelId : Setting → Option UInt8
  | devid id => some id
  | _ => none

@[simp] def vcc : Setting → Option Bool
  | extVcc on => some on
  | _ => none

@[simp] def errMask : Setting → Option UInt8
  | errFr mask => some (mask &&& usbBerrMask)
  | _ => none

@[simp] def ledOn : Setting → Option Bool
  | led on => some on
  | _ => none

end Setting

/-- What the last command for a field has written into it. -/
def lastSet {α : Type*} (field : Setting → Option α) (cmds : List (List UInt8)) (default : α) : α :=
  lastOf (fun cmd => (settingOf cmd).bind field) cmds default

/-- The bits of `state` that go with `bus_on`. -/
def stateBits (busOn : Bool) : UInt32 :=
  if busOn then usbStateConnected ||| usbStateStarted else usbStateConnected

/-- The device state after commands, by the table. -/
def tableState (cmds : List (List UInt8)) : PcanDevState where
  state := stateBits (lastSet Setting.busOn cmds false)
  serial := usbDefaultSerial
  channelId := lastSet Setting.channelId cmds usbDefaultDevid
  btr0 := (lastSet Setting.registers cmds (0x1C, 0x00)).2
  btr1 := (lastSet Setting.registers cmds (0x1C, 0x00)).1
  bitrate := lastSet Setting.rate cmds defaultBitrate
  busOn := lastSet Setting.busOn cmds false
  silent := lastSet Setting.silence cmds false
  extVcc := lastSet Setting.vcc cmds false
  errMask := lastSet Setting.errMask cmds usbBerrMask
  ledOn := lastSet Setting.ledOn cmds false
  reconfigPending := cmds.any fun cmd => (settingOf cmd).any Setting.reconfigures

/-! ### One command -/

/-- A row as an assignment to the fields of the device state. -/
def Setting.apply (st : PcanDevState) : Setting → PcanDevState
  | bitrate btr1 btr0 =>
    { st with
      btr1 := btr1, btr0 := btr0
      bitrate := if btrToBitrate btr0 btr1 ≠ 0 then btrToBitrate btr0 btr1 else st.bitrate
      reconfigPending := true }
  | xcver on =>
    { st with
      busOn := on
      state := if on then st.state ||| usbStateStarted else st.state &&& ~~~usbStateStarted
      reconfigPending := true }
  | silent on => { st with silent := on, reconfigPending := true }
  | devid id => { st with channelId := id }
  | extVcc on => { st with extVcc := on }
  | errFr mask => { st with errMask := mask &&& usbBerrMask }
  | led on => { st with ledOn := on }

/-- A `CMD_BITRATE` that is no SET, and so not in the table. -/
def StrayBitrate (cmd : List UInt8) : Prop :=
  cmdLen ≤ cmd.length ∧ cmd.getD 0 0 = Func.bitrate ∧ cmd.getD 1 0 ≠ usbSet

instance (cmd : List UInt8) : Decidable (StrayBitrate cmd) := by
  unfold StrayBitrate; infer_instance

/-- What the code makes of a command: a row of the table, or a `CMD_BITRATE` that it takes for
one. -/
def effectOf (cmd : List UInt8) : Option Setting :=
  if StrayBitrate cmd then some (.bitrate (cmd.getD 2 0) (cmd.getD 3 0)) else settingOf cmd

theorem settingOf_of_stray {cmd : List UInt8} (h : StrayBitrate cmd) : settingOf cmd = none := by
  obtain ⟨hlen, hfunc, hnum⟩ := h
  unfold settingOf
  dsimp only
  rw [hfunc, if_neg (Nat.not_lt.2 hlen), if_neg fun hset => hnum hset.2]
  rfl

theorem effectOf_of_stray {cmd : List UInt8} (h : StrayBitrate cmd) :
    effectOf cmd = some (.bitrate (cmd.getD 2 0) (cmd.getD 3 0)) := if_pos h

theorem effectOf_of_not_stray {cmd : List UInt8} (h : ¬StrayBitrate cmd) :
    effectOf cmd = settingOf cmd := if_neg h

theorem effectOf_of_setting {cmd : List UInt8} {s : Setting} (h : settingOf cmd = some s) :
    effectOf cmd = some s := by
  rw [effectOf_of_not_stray, h]
  intro hstray
  rw [settingOf_of_stray hstray] at h
  cases h

/-- The number of a `CMD_BITRATE` is not looked at. -/
theorem pcanCmdHandle_bitrate (st : PcanDevState) {cmd : List UInt8} (hlen : cmdLen ≤ cmd.length)
    (hfunc : cmd.getD 0 0 = Func.bitrate) :
    (pcanCmdHandle st cmd).2.1 =
      Setting.apply st (.bitrate (cmd.getD 2 0) (cmd.getD 3 0)) := by
  rw [pcanCmdHandle, if_neg (Nat.not_lt.2 hlen), hfunc]
  rfl

/-- What a command does to the device state. -/
theorem pcanCmdHandle_state (st : PcanDevState) (cmd : List UInt8) :
    (pcanCmdHandle st cmd).2.1 = ((effectOf cmd).map (Setting.apply st)).getD st := by
  by_cases hstray : StrayBitrate cmd
  · rw [effectOf_of_stray hstray, pcanCmdHandle_bitrate st hstray.1 hstray.2.1]
    rfl
  rw [effectOf_of_not_stray hstray]
  by_cases hlen : cmd.length < cmdLen
  · rw [pcanCmdHandle, settingOf, if_pos hlen, if_pos hlen]
    rfl
  by_cases hbitrate : cmd.getD 0 0 = Func.bitrate
  · have hnum : cmd.getD 1 0 = usbSet := by
      by_contra hne
      exact hstray ⟨Nat.not_lt.1 hlen, hbitrate, hne⟩
    rw [pcanCmdHandle_bitrate st (Nat.not_lt.1 hlen) hbitrate, settingOf, if_neg hlen,
      if_pos ⟨hbitrate, hnum⟩]
    rfl
  unfold settingOf pcanCmdHandle
  obtain ⟨func, hfunc⟩ : ∃ func, cmd.getD 0 0 = func := ⟨_, rfl⟩
  obtain ⟨num, hnum⟩ : ∃ num, cmd.getD 1 0 = num := ⟨_, rfl⟩
  rw [hfunc] at hbitrate
  simp only [hlen, hfunc, hnum, hbitrate, false_and, if_false]
  by_cases hbus : func = Func.setBus
  · subst hbus
    by_cases hx : num = usbBusXcver
    · simp [hx, Setting.apply, Func.sn, Func.devid, Func.setBus]
    by_cases hs : num = usbBusSilentMode
    · subst hs; rfl
    simp [hx, hs, Func.sn, Func.devid, Func.setBus, Func.extVcc, Func.errFr, Func.led]
  by_cases hset : num = usbSet
  · -- the other rows are SETs
    subst hset
    by_cases hsn : func = Func.sn
    · subst hsn; rfl
    by_cases hdevid : func = Func.devid
    · subst hdevid; rfl
    by_cases hvcc : func = Func.extVcc
    · subst hvcc; rfl
    by_cases herr : func = Func.errFr
    · subst herr; rfl
    by_cases hled : func = Func.led
    · subst hled; rfl
    simp only [hbus, hsn, hdevid, hvcc, herr, hled, false_and, if_false]
    split <;> rfl
  · simp only [hbus, hset, false_and, and_false, if_false]
    repeat' split
    all_goals rfl

/-- Assignments to different fields commute. -/
theorem Setting.apply_comm {s s' : Setting} (h : s.target ≠ s'.target) (st : PcanDevState) :
    s'.apply (s.apply st) = s.apply (s'.apply st) := by
  cases s <;> cases s' <;> first | rfl | exact absurd rfl h

/-- Commands for different fields commute, in every device state. -/
theorem pcanCmdHandle_comm {cmd cmd' : List UInt8} {s s' : Setting} (h : settingOf cmd = some s)
    (h' : settingOf cmd' = some s') (hne : s.target ≠ s'.target) (st : PcanDevState) :
    (pcanCmdHandle (pcanCmdHandle st cmd).2.1 cmd').2.1 =
      (pcanCmdHandle (pcanCmdHandle st cmd').2.1 cmd).2.1 := by
  simp only [pcanCmdHandle_state, effectOf_of_setting h, effectOf_of_setting h', Option.map_some,
    Option.getD_some]
  exact Setting.apply_comm hne st

/-! ### What holds of every device state -/

/-- What holds of the device state after every sequence of commands. -/
structure PcanDevState.Sound (st : PcanDevState) : Prop where
  started : st.state &&& usbStateStarted ≠ 0 ↔ st.busOn = true
  errMask : st.errMask &&& ~~~usbBerrMask = 0
  rate : btrToBitrate st.btr0 st.btr1 ≠ 0 → st.bitrate = btrToBitrate st.btr0 st.btr1

namespace PcanDevState.Sound

variable {st : PcanDevState}

theorem init : pcanCmdInit.Sound := ⟨by decide, by decide, fun _ => by decide⟩

theorem apply (h : st.Sound) (s : Setting) : (s.apply st).Sound := by
  cases s with
  | bitrate btr1 btr0 =>
    refine ⟨h.started, h.errMask, ?_⟩
    intro hne
    exact if_pos hne
  | xcver on =>
    refine ⟨?_, h.errMask, h.rate⟩
    cases on with
    | false =>
      have hclear : st.state &&& ~~~usbStateStarted &&& usbStateStarted = 0 := by
        rw [UInt32.and_assoc, show ~~~usbStateStarted &&& usbStateStarted = 0 from by decide,
          UInt32.and_zero]
      simpa [Setting.apply] using hclear
    | true =>
      have hset : (st.state ||| usbStateStarted) &&& usbStateStarted = usbStateStarted := by
        apply UInt32.toBitVec_inj.1
        ext i hi
        simpa using Or.inr
      simp only [Setting.apply, if_true, hset]
      decide
  | silent on => exact ⟨h.started, h.errMask, h.rate⟩
  | devid id => exact ⟨h.started, h.errMask, h.rate⟩
  | extVcc on => exact ⟨h.started, h.errMask, h.rate⟩
  | errFr mask =>
    refine ⟨h.started, ?_, h.rate⟩
    show mask &&& usbBerrMask &&& ~~~usbBerrMask = 0
    rw [UInt8.and_assoc, show usbBerrMask &&& ~~~usbBerrMask = 0 from by decide, UInt8.and_zero]
  | led on => exact ⟨h.started, h.errMask, h.rate⟩

theorem pcanCmdHandle (h : st.Sound) (cmd : List UInt8) : (pcanCmdHandle st cmd).2.1.Sound := by
  rw [pcanCmdHandle_state]
  cases effectOf cmd with
  | none => exact h
  | some s => exact h.apply s

theorem afterCommands (cmds : List (List UInt8)) : (afterCommands cmds).Sound := by
  induction cmds using List.reverseRecOn with
  | nil => exact init
  | append_singleton cmds cmd ih =>
    rw [afterCommands_snoc]
    exact ih.pcanCmdHandle cmd

end PcanDevState.Sound

/-! ### Sequences of commands -/

theorem lastSet_snoc {α : Type*} (field : Setting → Option α) (cmds : List (List UInt8))
    (cmd : List UInt8) (default : α) :
    lastSet field (cmds ++ [cmd]) default =
      ((settingOf cmd).bind field).getD (lastSet field cmds default) :=
  lastOf_snoc _ cmds cmd default

/-- One more command assigns its fields. -/
theorem tableState_snoc (cmds : List (List UInt8)) (cmd : List UInt8) :
    tableState (cmds ++ [cmd]) =
      ((settingOf cmd).map (Setting.apply (tableState cmds))).getD (tableState cmds) := by
  unfold tableState
  simp only [lastSet_snoc, List.any_append, List.any_cons, List.any_nil, Bool.or_false]
  cases settingOf cmd with
  | none => simp
  | some s =>
    cases s with
    | bitrate btr1 btr0 => by_cases hbr : btrToBitrate btr0 btr1 = 0 <;> simp [Setting.apply, hbr]
    | xcver on =>
      generalize lastSet Setting.busOn cmds false = was
      cases on <;> cases was <;> simp [Setting.apply] <;> decide
    | silent on | devid id | extVcc on | errFr mask | led on => simp [Setting.apply]

/-- The command finds `reconfig_pending` set and its registers stored. -/
def Repeats (st : PcanDevState) (cmd : List UInt8) : Prop :=
  st.reconfigPending = true ∧ st.btr1 = cmd.getD 2 0 ∧ st.btr0 = cmd.getD 3 0

/-- A `CMD_BITRATE` changes nothing exactly if it repeats what is set. -/
theorem apply_bitrate_eq_iff {st : PcanDevState} (h : st.Sound) (cmd : List UInt8) :
    Setting.apply st (.bitrate (cmd.getD 2 0) (cmd.getD 3 0)) = st ↔ Repeats st cmd := by
  constructor
  · intro heq
    exact ⟨(congrArg PcanDevState.reconfigPending heq).symm,
      (congrArg PcanDevState.btr1 heq).symm, (congrArg PcanDevState.btr0 heq).symm⟩
  · rintro ⟨hpending, hbtr1, hbtr0⟩
    rw [← hbtr1, ← hbtr0]
    have hrate : (if btrToBitrate st.btr0 st.btr1 ≠ 0 then btrToBitrate st.btr0 st.btr1
        else st.bitrate) = st.bitrate := by
      split
      · exact (h.rate ‹_›).symm
      · rfl
    simp only [Setting.apply, hrate, ← hpending]

/-- The commands follow the table: the device state is the fold of the last commands for each field;
the commands that are not in the table change nothing; `STATE_STARTED` goes with `bus_on`, and
`err_mask` has no other bits; and commands for different fields commute. -/
structure FollowsTable (cmds : List (List UInt8)) : Prop where
  fold : afterCommands cmds = tableState cmds
  others : ∀ before cmd, before ++ [cmd] <+: cmds → settingOf cmd = none →
    (pcanCmdHandle (afterCommands before) cmd).2.1 = afterCommands before
  started : (afterCommands cmds).state &&& usbStateStarted ≠ 0 ↔ (afterCommands cmds).busOn = true
  errMask : (afterCommands cmds).errMask &&& ~~~usbBerrMask = 0
  commute : ∀ cmd cmd' s s', settingOf cmd = some s → settingOf cmd' = some s' →
    s.target ≠ s'.target → ∀ st, (pcanCmdHandle (pcanCmdHandle st cmd).2.1 cmd').2.1 =
      (pcanCmdHandle (pcanCmdHandle st cmd').2.1 cmd).2.1

/-- The step: a command that is in the table, or that changes nothing. -/
theorem afterCommands_eq_tableState {cmds : List (List UInt8)}
    (h : ∀ before cmd, before ++ [cmd] <+: cmds → settingOf cmd = none →
      (pcanCmdHandle (afterCommands before) cmd).2.1 = afterCommands before) :
    afterCommands cmds = tableState cmds := by
  induction cmds using List.reverseRecOn with
  | nil => rfl
  | append_singleton cmds cmd ih =>
    have hbefore : afterCommands cmds = tableState cmds := by
      apply ih
      intro before c hle
      exact h before c (hle.trans (List.prefix_append cmds [cmd]))
    rw [afterCommands_snoc, tableState_snoc, ← hbefore]
    cases hset : settingOf cmd with
    | none => exact h cmds cmd (List.prefix_refl _) hset
    | some s => rw [pcanCmdHandle_state, effectOf_of_setting hset]

/-- **Commands follow the table exactly if every `CMD_BITRATE` in them that is no SET repeats what
is set already**: it finds `reconfig_pending` set, and its pair of registers stored. -/
theorem followsTable_iff (cmds : List (List UInt8)) :
    FollowsTable cmds ↔
      ∀ before cmd, before ++ [cmd] <+: cmds → StrayBitrate cmd →
        Repeats (afterCommands before) cmd := by
  constructor
  · intro h before cmd hle hstray
    have hkeeps := h.others before cmd hle (settingOf_of_stray hstray)
    rw [pcanCmdHandle_bitrate _ hstray.1 hstray.2.1] at hkeeps
    exact (apply_bitrate_eq_iff (.afterCommands before) cmd).1 hkeeps
  · intro h
    have hothers : ∀ before cmd, before ++ [cmd] <+: cmds → settingOf cmd = none →
        (pcanCmdHandle (afterCommands before) cmd).2.1 = afterCommands before := by
      intro before cmd hle hnone
      by_cases hstray : StrayBitrate cmd
      · rw [pcanCmdHandle_bitrate _ hstray.1 hstray.2.1]
        exact (apply_bitrate_eq_iff (.afterCommands before) cmd).2 (h before cmd hle hstray)
      · rw [pcanCmdHandle_state, effectOf_of_not_stray hstray, hnone]
        rfl
    have hsound : (afterCommands cmds).Sound := .afterCommands cmds
    exact
      { fold := afterCommands_eq_tableState hothers
        others := hothers
        started := hsound.started
        errMask := hsound.errMask
        commute := fun _ _ _ _ hs hs' hne st => pcanCmdHandle_comm hs hs' hne st }

/-- A `CMD_BITRATE` GET of zeros is not in the table, and yet it overwrites the registers and asks
for a reconfiguration. -/
theorem bitrate_get_reconfigures :
    settingOf (1 :: 1 :: List.replicate 14 0) = none ∧
      (afterCommands [1 :: 1 :: List.replicate 14 0]).reconfigPending = true ∧
      (afterCommands [1 :: 1 :: List.replicate 14 0]).btr1 = 0x00 ∧
      (tableState [1 :: 1 :: List.replicate 14 0]).reconfigPending = false ∧
      (tableState [1 :: 1 :: List.replicate 14 0]).btr1 = 0x1C ∧
      ¬FollowsTable [1 :: 1 :: List.replicate 14 0] := by
  refine ⟨by decide, by decide, by decide, by decide, by decide, ?_⟩
  intro h
  exact absurd (congrArg PcanDevState.reconfigPending h.fold) (by decide)

end Pcan

end Espcan32
