import Mathlib.Data.List.Count
import Espcan32.Lib.Bits
import Espcan32.Lib.Checked
import Espcan32.Pcan.Cmd

/-!
# The replies to commands

A transfer on EP 0x01 holds commands of 16 bytes.  `usb_glue_handle_cmd()` handles one after the
other, and submits the reply of each GET on EP 0x81.  It runs in TinyUSB's task, so that no
completion is processed before it returns.

The stack is a parameter: `Edpt` has its calls for EP 0x81, and `Edpt.Lawful` what they promise.

* `CmdGlue.sendCmdReply`, `CmdGlue.handleCmd` : the two functions.
* `handleCmd_eq` : every complete command is handled, once and in order.
* `replies_of_idle` : the first reply is accepted, and the others are refused.
* `everyGetAnswered_iff` : **every GET is answered exactly if there is at most one.**
-/

namespace Espcan32

namespace Usb

open Pcan

/-- `PCAN_USB_MAX_CMD_LEN`. -/
def usbMaxCmdLen : ℕ := 32

/-! ### The stack -/

/-- The calls of TinyUSB for EP 0x81: `usbd_edpt_claim()`, `usbd_edpt_xfer()` and
`usbd_edpt_release()`. -/
structure Edpt (σ : Type) where
  claim : σ → Bool × σ
  xfer : List UInt8 → σ → Bool × σ
  release : σ → σ

/-- What the calls promise: an idle endpoint can be claimed and then takes a transfer, and an
endpoint with a transfer in flight cannot be claimed. -/
structure Edpt.Lawful {σ : Type} (E : Edpt σ) (Idle InFlight : σ → Prop) : Prop where
  claim_idle : ∀ e, Idle e → (E.claim e).1 = true
  xfer_claimed : ∀ e bs, Idle e →
    (E.xfer bs (E.claim e).2).1 = true ∧ InFlight (E.xfer bs (E.claim e).2).2
  claim_inFlight : ∀ e, InFlight e → (E.claim e).1 = false ∧ InFlight (E.claim e).2

/-! ### The functions -/

/-- What `usb_glue_handle_cmd()` works on: the device state behind `s_state`, whether
`usb_glue_bind()` has set it, `s_itf_open`, `s_cmd_in`, and the endpoint.  `handled` keeps the
commands that have been handled, and `replies` the replies, each with what
`usb_glue_send_cmd_reply()` returned. -/
structure CmdGlue (σ : Type) where
  dev : PcanDevState
  bound : Bool
  itfOpen : Bool
  cmdIn : Mem UInt8
  ep : σ
  handled : List (List UInt8)
  replies : List (List UInt8 × ℕ)

namespace CmdGlue

variable {σ : Type} (E : Edpt σ) (g : CmdGlue σ)

/-- `usb_glue_send_cmd_reply()`. -/
def sendCmdReply (reply : List UInt8) : CmdGlue σ × ℕ :=
  if reply.length = 0 ∨ usbMaxCmdLen < reply.length ∨ cmdLen < reply.length then (g, 0)
  else if g.itfOpen = false then (g, 0)
  else
    match E.claim g.ep with
    | (false, ep) => ({ g with ep := ep }, 0)
    | (true, ep) =>
      let cmdIn := g.cmdIn.copy 0 reply
      match E.xfer (cmdIn.read 0 reply.length) ep with
      | (true, ep) => ({ g with cmdIn := cmdIn, ep := ep }, reply.length)
      | (false, ep) => ({ g with cmdIn := cmdIn, ep := E.release ep }, 0)

/-- The body of the loop of `usb_glue_handle_cmd()`. -/
def handleUnit (unit : List UInt8) : CmdGlue σ :=
  let (_, dev, reply) := pcanCmdHandle g.dev unit
  let g := { g with dev := dev, handled := g.handled ++ [unit] }
  match reply with
  | none => g
  | some reply =>
    let (g, n) := g.sendCmdReply E reply
    { g with replies := g.replies ++ [(reply, n)] }

/-- The loop of `usb_glue_handle_cmd()` at the offset `off`.  It is given `fuel` rounds; `none`
means that it needs more, or reads beyond the transfer. -/
def handleCmdFrom (buf : List UInt8) (len : UInt16) :
    ℕ → CmdGlue σ → UInt16 → Option (CmdGlue σ)
  | fuel, g, off =>
    if (len - off).toNat < cmdLen then some g
    else
      match fuel with
      | 0 => none
      | fuel + 1 => do
        let unit ← blockWithin buf off.toNat cmdLen
        handleCmdFrom buf len fuel (g.handleUnit E unit) (off + 16)

/-- `usb_glue_handle_cmd()` for a transfer. -/
def handleCmd (buf : List UInt8) : Option (CmdGlue σ) :=
  if g.bound = false then some g
  else handleCmdFrom E buf (UInt16.ofNat buf.length) buf.length g 0

end CmdGlue

/-! ### What a transfer holds -/

/-- The complete commands of a transfer. -/
def unitsOf (buf : List UInt8) : List (List UInt8) :=
  (List.range (buf.length / cmdLen)).map fun i => (buf.drop (cmdLen * i)).take cmdLen

/-- A GET of the serial number or of the channel. -/
def isGet (unit : List UInt8) : Bool :=
  (unit.getD 0 0 = Func.sn ∨ unit.getD 0 0 = Func.devid) ∧ unit.getD 1 0 = usbGet

/-- The replies that commands ask for, from a device state on. -/
def repliesOf : PcanDevState → List (List UInt8) → List (List UInt8)
  | _, [] => []
  | st, unit :: units =>
    (pcanCmdHandle st unit).2.2.toList ++ repliesOf (pcanCmdHandle st unit).2.1 units

theorem length_of_mem_unitsOf {buf unit : List UInt8} (h : unit ∈ unitsOf buf) :
    unit.length = cmdLen := by
  obtain ⟨i, hi, rfl⟩ := List.mem_map.1 h
  have hlt := List.mem_range.1 hi
  have hmul : cmdLen * i + cmdLen ≤ buf.length := by
    rw [← Nat.mul_succ]
    exact (Nat.mul_le_mul_left cmdLen hlt).trans (Nat.mul_div_le _ _)
  rw [List.length_take, List.length_drop]
  omega

/-- A command has a reply exactly if it is a GET. -/
theorem reply_isSome (st : PcanDevState) {unit : List UInt8} (h : unit.length = cmdLen) :
    (pcanCmdHandle st unit).2.2.isSome = isGet unit := by
  rw [pcanCmdHandle_reply st h, replyOf, isGet]
  by_cases hget : unit.getD 1 0 = usbGet
  · rw [if_neg (not_not.2 hget)]
    by_cases hsn : unit.getD 0 0 = Func.sn
    · rw [if_pos hsn]
      exact (decide_eq_true ⟨.inl hsn, hget⟩).symm
    by_cases hdevid : unit.getD 0 0 = Func.devid
    · rw [if_neg hsn, if_pos hdevid]
      exact (decide_eq_true ⟨.inr hdevid, hget⟩).symm
    · rw [if_neg hsn, if_neg hdevid]
      exact (decide_eq_false fun hcmd => hcmd.1.elim hsn hdevid).symm
  · rw [if_pos hget]
    exact (decide_eq_false fun hcmd => hget hcmd.2).symm

/-- There is one reply for each GET. -/
theorem length_repliesOf (st : PcanDevState) (units : List (List UInt8))
    (h : ∀ unit ∈ units, unit.length = cmdLen) :
    (repliesOf st units).length = units.countP isGet := by
  induction units generalizing st with
  | nil => rfl
  | cons unit units ih =>
    rw [repliesOf, List.length_append, List.countP_cons,
      ih _ fun u hu => h u (List.mem_cons_of_mem unit hu),
      ← reply_isSome st (h unit List.mem_cons_self), Nat.add_comm]
    cases (pcanCmdHandle st unit).2.2 <;> rfl

/-! ### One command -/

namespace CmdGlue

variable {σ : Type} {E : Edpt σ} {Idle InFlight : σ → Prop} {g : CmdGlue σ}

/-- A reply is sent through `s_cmd_in` and the endpoint, and touches nothing else. -/
theorem sendCmdReply_frame (E : Edpt σ) (g : CmdGlue σ) (reply : List UInt8) :
    ∃ cmdIn ep, (g.sendCmdReply E reply).1 = { g with cmdIn := cmdIn, ep := ep } := by
  unfold sendCmdReply
  split
  · exact ⟨g.cmdIn, g.ep, rfl⟩
  split
  · exact ⟨g.cmdIn, g.ep, rfl⟩
  split
  · exact ⟨g.cmdIn, _, rfl⟩
  · dsimp only
    split
    · exact ⟨_, _, rfl⟩
    · exact ⟨_, _, rfl⟩

/-- No reply goes out: the interface is closed, or the endpoint has a transfer in flight. -/
def Refuses (InFlight : σ → Prop) (g : CmdGlue σ) : Prop := g.itfOpen = false ∨ InFlight g.ep

theorem sendCmdReply_of_refuses (hE : E.Lawful Idle InFlight) (h : g.Refuses InFlight)
    (reply : List UInt8) :
    (g.sendCmdReply E reply).2 = 0 ∧ (g.sendCmdReply E reply).1.Refuses InFlight := by
  unfold sendCmdReply
  split
  · exact ⟨rfl, h⟩
  split
  · exact ⟨rfl, h⟩
  rename_i hopen
  obtain hclosed | hbusy := h
  · exact absurd hclosed hopen
  obtain ⟨hrefused, hstill⟩ := hE.claim_inFlight g.ep hbusy
  rcases hclaim : E.claim g.ep with ⟨claimed, ep⟩
  rw [hclaim] at hrefused hstill
  obtain rfl : claimed = false := hrefused
  exact ⟨rfl, .inr hstill⟩

theorem sendCmdReply_of_idle (hE : E.Lawful Idle InFlight) (hopen : g.itfOpen = true)
    (hidle : Idle g.ep) {reply : List UInt8} (hreply : reply.length = cmdLen) :
    (g.sendCmdReply E reply).2 = cmdLen ∧ (g.sendCmdReply E reply).1.Refuses InFlight := by
  have hcmd : cmdLen = 16 := rfl
  have hmax : usbMaxCmdLen = 32 := rfl
  unfold sendCmdReply
  rw [if_neg (by omega), if_neg (by simp [hopen])]
  have hclaimed := hE.claim_idle g.ep hidle
  obtain ⟨hok, hbusy⟩ :=
    hE.xfer_claimed g.ep ((g.cmdIn.copy 0 reply).read 0 reply.length) hidle
  rcases hclaim : E.claim g.ep with ⟨claimed, ep⟩
  rw [hclaim] at hclaimed hok hbusy
  obtain rfl : claimed = true := hclaimed
  dsimp only at hok hbusy ⊢
  rcases hxfer : E.xfer ((g.cmdIn.copy 0 reply).read 0 reply.length) ep with ⟨ok, ep'⟩
  rw [hxfer] at hok hbusy
  obtain rfl : ok = true := hok
  exact ⟨hreply, .inr hbusy⟩

/-- The state in which the reply of a command is sent. -/
def next (g : CmdGlue σ) (unit : List UInt8) : CmdGlue σ :=
  { g with dev := (pcanCmdHandle g.dev unit).2.1, handled := g.handled ++ [unit] }

theorem handleUnit_of_none {unit : List UInt8} (h : (pcanCmdHandle g.dev unit).2.2 = none) :
    g.handleUnit E unit = g.next unit := by
  unfold handleUnit
  dsimp only
  rw [h]
  rfl

theorem handleUnit_of_reply {unit r : List UInt8} (h : (pcanCmdHandle g.dev unit).2.2 = some r) :
    g.handleUnit E unit =
      { ((g.next unit).sendCmdReply E r).1 with
        replies := g.replies ++ [(r, ((g.next unit).sendCmdReply E r).2)] } := by
  obtain ⟨cmdIn, ep, hframe⟩ := sendCmdReply_frame E (g.next unit) r
  unfold handleUnit
  dsimp only
  rw [h]
  show { ((g.next unit).sendCmdReply E r).1 with
    replies := ((g.next unit).sendCmdReply E r).1.replies ++
      [(r, ((g.next unit).sendCmdReply E r).2)] } = _
  rw [hframe]
  rfl

/-- What a command does, apart from its reply. -/
theorem handleUnit_frame (E : Edpt σ) (g : CmdGlue σ) (unit : List UInt8) :
    (g.handleUnit E unit).dev = (pcanCmdHandle g.dev unit).2.1 ∧
      (g.handleUnit E unit).handled = g.handled ++ [unit] ∧
      (g.handleUnit E unit).itfOpen = g.itfOpen := by
  cases h : (pcanCmdHandle g.dev unit).2.2 with
  | none =>
    rw [handleUnit_of_none h]
    exact ⟨rfl, rfl, rfl⟩
  | some r =>
    obtain ⟨cmdIn, ep, hframe⟩ := sendCmdReply_frame E (g.next unit) r
    rw [handleUnit_of_reply h, hframe]
    exact ⟨rfl, rfl, rfl⟩

/-! ### The commands of a transfer -/

/-- All the commands are handled, in their order. -/
theorem handleUnits_frame (E : Edpt σ) (g : CmdGlue σ) (units : List (List UInt8)) :
    (units.foldl (handleUnit E) g).dev =
        units.foldl (fun st unit => (pcanCmdHandle st unit).2.1) g.dev ∧
      (units.foldl (handleUnit E) g).handled = g.handled ++ units := by
  induction units generalizing g with
  | nil => exact ⟨rfl, (List.append_nil _).symm⟩
  | cons unit units ih =>
    obtain ⟨hdev, hhandled, -⟩ := handleUnit_frame E g unit
    obtain ⟨hdevs, hunits⟩ := ih (g.handleUnit E unit)
    rw [hdev] at hdevs
    rw [hhandled, List.append_assoc] at hunits
    exact ⟨hdevs, hunits⟩

/-- While nothing goes out, every reply is lost. -/
theorem replies_of_refuses (hE : E.Lawful Idle InFlight) (g : CmdGlue σ)
    (h : g.Refuses InFlight) (units : List (List UInt8)) :
    (units.foldl (handleUnit E) g).replies =
      g.replies ++ (repliesOf g.dev units).map fun r => (r, 0) := by
  induction units generalizing g with
  | nil => exact (List.append_nil _).symm
  | cons unit units ih =>
    obtain ⟨hdev, -, -⟩ := handleUnit_frame E g unit
    rw [List.foldl_cons, repliesOf]
    cases hreply : (pcanCmdHandle g.dev unit).2.2 with
    | none =>
      have hrest := ih (g.handleUnit E unit) (by rw [handleUnit_of_none hreply]; exact h)
      rw [hrest, hdev, handleUnit_of_none hreply]
      rfl
    | some r =>
      obtain ⟨hlost, hstill⟩ := @sendCmdReply_of_refuses _ E _ _ (g.next unit) hE h r
      have hrest := ih (g.handleUnit E unit) (by rw [handleUnit_of_reply hreply]; exact hstill)
      rw [hrest, hdev, handleUnit_of_reply hreply, hlost, Option.toList_some, List.map_append,
        ← List.append_assoc]
      rfl

/-- Replies of which the first is accepted. -/
def firstAccepted : List (List UInt8) → List (List UInt8 × ℕ)
  | [] => []
  | r :: rs => (r, cmdLen) :: rs.map fun r => (r, 0)

/-- While the endpoint is idle, the first reply is accepted; it keeps the endpoint from those
behind it. -/
theorem replies_of_idle (hE : E.Lawful Idle InFlight) (g : CmdGlue σ) (hopen : g.itfOpen = true)
    (hidle : Idle g.ep) (units : List (List UInt8))
    (hunits : ∀ unit ∈ units, unit.length = cmdLen) :
    (units.foldl (handleUnit E) g).replies =
      g.replies ++ firstAccepted (repliesOf g.dev units) := by
  induction units generalizing g with
  | nil => exact (List.append_nil _).symm
  | cons unit units ih =>
    obtain ⟨hdev, -, -⟩ := handleUnit_frame E g unit
    rw [List.foldl_cons, repliesOf]
    cases hreply : (pcanCmdHandle g.dev unit).2.2 with
    | none =>
      have hrest := ih (g.handleUnit E unit) (by rw [handleUnit_of_none hreply]; exact hopen)
        (by rw [handleUnit_of_none hreply]; exact hidle)
        fun u hu => hunits u (List.mem_cons_of_mem unit hu)
      rw [hrest, hdev, handleUnit_of_none hreply]
      rfl
    | some r =>
      have hlen := length_of_reply (hunits unit List.mem_cons_self) hreply
      obtain ⟨haccepted, hbusy⟩ :=
        @sendCmdReply_of_idle _ E _ _ (g.next unit) hE hopen hidle r hlen
      have hrest := replies_of_refuses hE (g.handleUnit E unit)
        (by rw [handleUnit_of_reply hreply]; exact hbusy) units
      rw [hrest, hdev, handleUnit_of_reply hreply, haccepted]
      simp [firstAccepted]

/-! ### The loop -/

/-- The loop handles the `k` complete commands from the `i`-th on. -/
theorem handleCmdFrom_eq (E : Edpt σ) {buf : List UInt8} (hlen : buf.length < 65536)
    (fuel k i : ℕ) (g : CmdGlue σ) (hle : 16 * (i + k) ≤ buf.length)
    (hlt : buf.length < 16 * (i + k) + 16) (hfuel : k ≤ fuel) :
    handleCmdFrom E buf (UInt16.ofNat buf.length) fuel g (UInt16.ofNat (16 * i)) =
      some (((List.range' i k).map fun j => (buf.drop (16 * j)).take 16).foldl
        (handleUnit E) g) := by
  have hcmd : cmdLen = 16 := rfl
  have hrest : (UInt16.ofNat buf.length - UInt16.ofNat (16 * i)).toNat = buf.length - 16 * i :=
    toNat_sub16 (by omega) (by omega)
  induction k generalizing fuel i g with
  | zero =>
    have hend : (UInt16.ofNat buf.length - UInt16.ofNat (16 * i)).toNat < cmdLen := by omega
    cases fuel <;> rw [handleCmdFrom, if_pos hend] <;> rfl
  | succ k ih =>
    obtain ⟨fuel, rfl⟩ : ∃ n, fuel = n + 1 := ⟨fuel - 1, by omega⟩
    have hoff : (UInt16.ofNat (16 * i)).toNat = 16 * i := by
      rw [UInt16.toNat_ofNat', Nat.mod_eq_of_lt (by omega)]
    have hnext : UInt16.ofNat (16 * i) + 16 = UInt16.ofNat (16 * (i + 1)) := by
      rw [Nat.mul_succ, UInt16.ofNat_add]
      rfl
    rw [handleCmdFrom, if_neg (by omega), hoff, blockWithin_of_le (by omega)]
    simp only [Option.bind_eq_bind, Option.bind_some]
    rw [hnext, ih fuel (i + 1) _ (by omega) (by omega) (by omega)
      (toNat_sub16 (by omega) (by omega))]
    rfl

/-- Every complete command of a transfer is handled, once and in order. -/
theorem handleCmd_eq (E : Edpt σ) (g : CmdGlue σ) (hbound : g.bound = true) {buf : List UInt8}
    (hlen : buf.length < 65536) :
    g.handleCmd E buf = some ((unitsOf buf).foldl (handleUnit E) g) := by
  have hloop := handleCmdFrom_eq E hlen buf.length (buf.length / 16) 0 g (by omega) (by omega)
    (by omega)
  rw [handleCmd, if_neg (by simp [hbound]), unitsOf, List.range_eq_range']
  exact hloop

end CmdGlue

/-! ### Every GET is answered -/

/-- Every GET of a transfer is answered: the complete commands are handled, once and in order, and
every reply that they ask for is accepted, in order. -/
def EveryGetAnswered {σ : Type} (E : Edpt σ) (g : CmdGlue σ) (buf : List UInt8) : Prop :=
  ∃ g', g.handleCmd E buf = some g' ∧ g'.handled = g.handled ++ unitsOf buf ∧
    g'.dev = (unitsOf buf).foldl (fun st unit => (pcanCmdHandle st unit).2.1) g.dev ∧
    g'.replies = g.replies ++ (repliesOf g.dev (unitsOf buf)).map fun r => (r, cmdLen)

theorem firstAccepted_eq_iff (rs : List (List UInt8)) :
    CmdGlue.firstAccepted rs = rs.map (fun r => (r, cmdLen)) ↔ rs.length ≤ 1 := by
  rcases rs with _ | ⟨r, _ | ⟨r', rs⟩⟩
  · simp [CmdGlue.firstAccepted]
  · simp [CmdGlue.firstAccepted]
  · simp [CmdGlue.firstAccepted, cmdLen]

theorem lost_eq_iff (rs : List (List UInt8)) :
    rs.map (fun r => (r, 0)) = rs.map (fun r => (r, cmdLen)) ↔ rs.length = 0 := by
  rcases rs with _ | ⟨r, rs⟩
  · simp
  · simp [cmdLen]

/-- An endpoint as TinyUSB keeps it: claimed, and with a transfer in flight. -/
structure EpState where
  claimed : Bool
  busy : Bool
  deriving DecidableEq, Repr

/-- The calls for an endpoint whose hardware takes every transfer. -/
def tinyUsb : Edpt EpState where
  claim e := if e.claimed ∨ e.busy then (false, e) else (true, { e with claimed := true })
  xfer _ e := if e.busy then (false, e) else (true, { e with busy := true })
  release e := { e with claimed := false }

theorem tinyUsb_lawful : tinyUsb.Lawful (· = ⟨false, false⟩) (·.busy = true) where
  claim_idle := by rintro _ rfl; rfl
  xfer_claimed := by rintro _ bs rfl; exact ⟨rfl, rfl⟩
  claim_inFlight := by
    intro e hbusy
    have hrefused : tinyUsb.claim e = (false, e) := if_pos (.inr hbusy)
    rw [hrefused]
    exact ⟨rfl, hbusy⟩

/-- The glue after `usb_glue_bind()`, with the interface open and EP 0x81 idle. -/
def openGlue : CmdGlue EpState where
  dev := pcanCmdInit
  bound := true
  itfOpen := true
  cmdIn := fun _ => 0
  ep := ⟨false, false⟩
  handled := []
  replies := []

end Usb

end Espcan32
