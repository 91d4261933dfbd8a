import Espcan32.Pcan.Proto
import Espcan32.Twai.Hal

/-!
# The command channel

`pcan_cmd.c` handles the 16-byte commands of EP1: it records what the host asks for in the device
state, flags what `ctrl_task` has to apply, and answers the GETs.

* `pcanCmdHandle` : one command.
* `bitrateOf`, `busOnOf`, `silentOf` : what a command asks for.
* `pcanCmdHandle_reply` : which commands have a reply.
* `afterCommands` : the device state after a sequence of commands.
* `pcanCmdHandle_spec` : a command sets the fields it asks for, and flags them.
-/

namespace Espcan32

namespace Pcan

open Twai (btrToBitrate defaultBitrate)

/-! ### Constants -/

/-- `PCAN_USB_CMD_LEN`. -/
def cmdLen : ℕ := 16

/-! The function codes, `PCAN_USB_CMD_…`. -/

namespace Func

def bitrate : UInt8 := 1
def setBus : UInt8 := 3
def devid : UInt8 := 4
def sn : UInt8 := 6
def register : UInt8 := 9
def extVcc : UInt8 := 10
def errFr : UInt8 := 11
def led : UInt8 := 12

end Func

/-- `PCAN_USB_GET`. -/
def usbGet : UInt8 := 1

/-- `PCAN_USB_SET`. -/
def usbSet : UInt8 := 2

/-- `PCAN_USB_BUS_XCVER`. -/
def usbBusXcver : UInt8 := 2

/-- `PCAN_USB_BUS_SILENT_MODE`. -/
def usbBusSilentMode : UInt8 := 3

/-- `PCAN_USB_BERR_MASK`. -/
def usbBerrMask : UInt8 := 0x06

/-- `PCAN_USB_STATE_CONNECTED`. -/
def usbStateConnected : UInt32 := 0x00000001

/-- `PCAN_USB_STATE_STARTED`. -/
def usbStateStarted : UInt32 := 0x00000002

/-- `PCAN_USB_DEFAULT_SERIAL`. -/
def usbDefaultSerial : UInt32 := 0x00C0FFEE

/-- `PCAN_USB_DEFAULT_DEVID`. -/
def usbDefaultDevid : UInt8 := 0x00

/-! ### The device state -/

/-- `pcan_dev_state_t` without its lock. -/
structure PcanDevState where
  state : UInt32
  serial : UInt32
  channelId : UInt8
  btr0 : UInt8
  btr1 : UInt8
  bitrate : UInt32
  busOn : Bool
  silent : Bool
  extVcc : Bool
  errMask : UInt8
  ledOn : Bool
  reconfigPending : Bool
  deriving DecidableEq, Repr

/-- `pcan_cmd_init()`. -/
def pcanCmdInit : PcanDevState where
  state := usbStateConnected
  serial := usbDefaultSerial
  channelId := usbDefaultDevid
  btr0 := 0x00
  btr1 := 0x1C
  bitrate := defaultBitrate
  busOn := false
  silent := false
  extVcc := false
  errMask := usbBerrMask
  ledOn := false
  reconfigPending := false

/-- A reply: the function and the number of the command, and the payload in a zeroed rest. -/
def reply (func num : UInt8) (payload : List UInt8) : List UInt8 :=
  func :: num :: (payload ++ List.replicate (cmdLen - 2 - payload.length) 0)

/-- `pcan_cmd_handle()`: whether the command is recognized, the new state, and the reply. -/
def pcanCmdHandle (st : PcanDevState) (cmd : List UInt8) :
    Bool × PcanDevState × Option (List UInt8) :=
  if cmd.length < cmdLen then (false, st, none)
  else
    let func := cmd.getD 0 0
    let num := cmd.getD 1 0
    let arg (i : ℕ) := cmd.getD (2 + i) 0
    if func = Func.sn then
      (true, st, if num = usbGet then some (reply func num (putLe32 st.serial)) else none)
    else if func = Func.devid then
      if num = usbGet then (true, st, some (reply func num [st.channelId]))
      else if num = usbSet then (true, { st with channelId := arg 0 }, none)
      else (true, st, none)
    else if func = Func.bitrate then
      let br := btrToBitrate (arg 1) (arg 0)
      (true,
        { st with
          btr1 := arg 0, btr0 := arg 1
          bitrate := if br ≠ 0 then br else st.bitrate
          reconfigPending := true }, none)
    else if func = Func.setBus then
      if num = usbBusXcver then
        (true,
          { st with
            busOn := arg 0 ≠ 0
            state :=
              if arg 0 ≠ 0 then st.state ||| usbStateStarted else st.state &&& ~~~usbStateStarted
            reconfigPending := true }, none)
      else if num = usbBusSilentMode then
        (true, { st with silent := arg 0 ≠ 0, reconfigPending := true }, none)
      else (false, st, none)
    else if func = Func.extVcc then
      (true, if num = usbSet then { st with extVcc := arg 0 ≠ 0 } else st, none)
    else if func = Func.errFr then
      (true, if num = usbSet then { st with errMask := arg 0 &&& usbBerrMask } else st, none)
    else if func = Func.led then
      (true, if num = usbSet then { st with ledOn := arg 0 ≠ 0 } else st, none)
    else if func = Func.register then (true, st, none)
    else (false, st, none)

/-! ### What a command asks for -/

/-- The bitrate that a command asks for. -/
def bitrateOf (cmd : List UInt8) : Option UInt32 :=
  let br := btrToBitrate (cmd.getD 3 0) (cmd.getD 2 0)
  if cmdLen ≤ cmd.length ∧ cmd.getD 0 0 = Func.bitrate ∧ br ≠ 0 then some br else none

/-- Whether a command asks for the bus. -/
def busOnOf (cmd : List UInt8) : Option Bool :=
  if cmdLen ≤ cmd.length ∧ cmd.getD 0 0 = Func.setBus ∧ cmd.getD 1 0 = usbBusXcver then
    some (cmd.getD 2 0 ≠ 0)
  else none

/-- Whether a command asks for silence. -/
def silentOf (cmd : List UInt8) : Option Bool :=
  if cmdLen ≤ cmd.length ∧ cmd.getD 0 0 = Func.setBus ∧ cmd.getD 1 0 = usbBusSilentMode then
    some (cmd.getD 2 0 ≠ 0)
  else none

/-- A command that `ctrl_task` has to apply. -/
def Reconfigures (cmd : List UInt8) : Prop :=
  cmdLen ≤ cmd.length ∧ (cmd.getD 0 0 = Func.bitrate ∨
    cmd.getD 0 0 = Func.setBus ∧
      (cmd.getD 1 0 = usbBusXcver ∨ cmd.getD 1 0 = usbBusSilentMode))

instance (cmd : List UInt8) : Decidable (Reconfigures cmd) := by
  unfold Reconfigures; infer_instance

theorem bitrateOf_ne_zero {cmd : List UInt8} {br : UInt32} (h : bitrateOf cmd = some br) :
    br ≠ 0 := by
  unfold bitrateOf at h
  dsimp only at h
  split at h
  · rename_i hask
    obtain rfl := Option.some.inj h
    exact hask.2.2
  · cases h

/-- What is not flagged asks for nothing. -/
theorem asksNothing_of_not_reconfigures {cmd : List UInt8} (h : ¬Reconfigures cmd) :
    bitrateOf cmd = none ∧ busOnOf cmd = none ∧ silentOf cmd = none :=
  ⟨if_neg fun ⟨hlen, hfunc, _⟩ => h ⟨hlen, .inl hfunc⟩,
    if_neg fun ⟨hlen, hfunc, hnum⟩ => h ⟨hlen, .inr ⟨hfunc, .inl hnum⟩⟩,
    if_neg fun ⟨hlen, hfunc, hnum⟩ => h ⟨hlen, .inr ⟨hfunc, .inr hnum⟩⟩⟩

/-- The value of the last command that asks for one. -/
def lastOf {α : Type*} (f : List UInt8 → Option α) (cmds : List (List UInt8)) (default : α) : α :=
  (cmds.filterMap f).getLast?.getD default

theorem lastOf_snoc {α : Type*} (f : List UInt8 → Option α) (cmds : List (List UInt8))
    (cmd : List UInt8) (default : α) :
    lastOf f (cmds ++ [cmd]) default = (f cmd).getD (lastOf f cmds default) := by
  unfold lastOf
  rw [List.filterMap_append]
  cases h : f cmd with
  | none => simp [h]
  | some v => simp [h]

/-- A command sets the fields it asks for, and flags them for `ctrl_task`. -/
theorem pcanCmdHandle_spec (st : PcanDevState) (cmd : List UInt8) :
    (pcanCmdHandle st cmd).2.1.bitrate = (bitrateOf cmd).getD st.bitrate ∧
      (pcanCmdHandle st cmd).2.1.busOn = (busOnOf cmd).getD st.busOn ∧
      (pcanCmdHandle st cmd).2.1.silent = (silentOf cmd).getD st.silent ∧
      ((pcanCmdHandle st cmd).2.1.reconfigPending = true ↔
        Reconfigures cmd ∨ st.reconfigPending = true) := by
  by_cases hlen : cmd.length < cmdLen
  · have hle : ¬cmdLen ≤ cmd.length := by omega
    simp [pcanCmdHandle, bitrateOf, busOnOf, silentOf, Reconfigures, hlen, hle]
  have hle : cmdLen ≤ cmd.length := by omega
  unfold pcanCmdHandle bitrateOf busOnOf silentOf Reconfigures
  rw [if_neg hlen]
  obtain ⟨func, hfunc⟩ : ∃ func, cmd.getD 0 0 = func := ⟨_, rfl⟩
  obtain ⟨num, hnum⟩ : ∃ num, cmd.getD 1 0 = num := ⟨_, rfl⟩
  obtain ⟨arg0, harg0⟩ : ∃ arg0, cmd.getD 2 0 = arg0 := ⟨_, rfl⟩
  obtain ⟨arg1, harg1⟩ : ∃ arg1, cmd.getD 3 0 = arg1 := ⟨_, rfl⟩
  simp only [hle, true_and, Nat.reduceAdd, hfunc, hnum, harg0, harg1]
  by_cases hbitrate : func = Func.bitrate
  · subst hbitrate
    -- a bitrate that is not known is no request
    by_cases hbr : btrToBitrate arg1 arg0 = 0 <;>
      simp [Func.bitrate, Func.sn, Func.devid, Func.setBus, hbr]
  by_cases hbus : func = Func.setBus
  · subst hbus
    by_cases hx : num = usbBusXcver
    · simp [Func.bitrate, Func.sn, Func.devid, Func.setBus, usbBusXcver, usbBusSilentMode, hx]
    by_cases hs : num = usbBusSilentMode
    · simp [Func.bitrate, Func.sn, Func.devid, Func.setBus, usbBusXcver, usbBusSilentMode, hs]
    · simp [Func.bitrate, Func.sn, Func.devid, Func.setBus, hx, hs]
  · -- the other functions touch none of these fields
    simp only [hbitrate, hbus, if_false, false_and, false_or]
    repeat' split
    all_goals exact ⟨rfl, rfl, rfl, Iff.rfl⟩

/-! ### Replies -/

/-- The reply to a complete command: only GETs have one. -/
def replyOf (st : PcanDevState) (cmd : List UInt8) : Option (List UInt8) :=
  if cmd.getD 1 0 ≠ usbGet then none
  else if cmd.getD 0 0 = Func.sn then some (reply Func.sn usbGet (putLe32 st.serial))
  else if cmd.getD 0 0 = Func.devid then some (reply Func.devid usbGet [st.channelId])
  else none

/-- Two branches without a reply. -/
theorem ite_noReply {p : Prop} [Decidable p] {r r' : Bool × PcanDevState × Option (List UInt8)}
    (h : r.2.2 = none) (h' : r'.2.2 = none) : (if p then r else r').2.2 = none := by
  split
  · exact h
  · exact h'

theorem pcanCmdHandle_reply (st : PcanDevState) {cmd : List UInt8} (h : cmd.length = cmdLen) :
    (pcanCmdHandle st cmd).2.2 = replyOf st cmd := by
  have hlen : ¬cmd.length < cmdLen := by omega
  rw [pcanCmdHandle, if_neg hlen, replyOf]
  obtain ⟨func, hfunc⟩ : ∃ func, cmd.getD 0 0 = func := ⟨_, rfl⟩
  obtain ⟨num, hnum⟩ : ∃ num, cmd.getD 1 0 = num := ⟨_, rfl⟩
  rw [hfunc, hnum]
  dsimp only
  by_cases hsn : func = Func.sn
  · subst hsn
    by_cases hget : num = usbGet
    · subst hget
      rfl
    · rw [if_pos rfl, if_neg hget, if_pos hget]
  by_cases hdevid : func = Func.devid
  · subst hdevid
    rw [if_neg hsn, if_pos rfl, if_neg hsn, if_pos rfl]
    by_cases hget : num = usbGet
    · subst hget
      rfl
    · rw [if_neg hget, if_pos hget]
      exact ite_noReply rfl rfl
  -- nothing else has a reply
  rw [if_neg hsn, if_neg hdevid, if_neg hsn, if_neg hdevid, ite_self]
  exact ite_noReply rfl (ite_noReply (ite_noReply rfl (ite_noReply rfl rfl)) (ite_noReply rfl
    (ite_noReply rfl (ite_noReply rfl (ite_noReply rfl rfl)))))

theorem length_reply (func num : UInt8) {payload : List UInt8} (h : payload.length ≤ 14) :
    (reply func num payload).length = cmdLen := by
  have hlen : cmdLen = 16 := rfl
  rw [reply, List.length_cons, List.length_cons, List.length_append, List.length_replicate]
  omega

/-- A reply has 16 bytes. -/
theorem length_of_reply {st : PcanDevState} {cmd r : List UInt8} (hlen : cmd.length = cmdLen)
    (h : (pcanCmdHandle st cmd).2.2 = some r) : r.length = cmdLen := by
  rw [pcanCmdHandle_reply st hlen, replyOf] at h
  split at h
  · cases h
  split at h
  · obtain rfl := Option.some.inj h
    exact length_reply _ _ (by simp [putLe32])
  split at h
  · obtain rfl := Option.some.inj h
    exact length_reply _ _ (by simp)
  · cases h

/-! ### Sequences of commands -/

/-- The device state after commands, from `pcan_cmd_init()` on. -/
def afterCommands (cmds : List (List UInt8)) : PcanDevState :=
  cmds.foldl (fun st cmd => (pcanCmdHandle st cmd).2.1) pcanCmdInit

theorem afterCommands_snoc (cmds : List (List UInt8)) (cmd : List UInt8) :
    afterCommands (cmds ++ [cmd]) = (pcanCmdHandle (afterCommands cmds) cmd).2.1 := by
  rw [afterCommands, List.foldl_append]
  rfl

end Pcan

end Espcan32
