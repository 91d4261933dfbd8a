import Mathlib.Tactic.Common

/-!
# The TWAI driver and the layer over it

`twai_hal.c` wraps the legacy `driver/twai.h`.  The driver is seen through what the wrapper relies
on: its state, the messages it holds, and the alerts it has latched.  A latched `TX_SUCCESS` or
`TX_FAILED` is kept with the messages that raised it, so that every message can be followed; the
code sees the bit only.

* `Driver.success`, `failure`, `goBusOff`, `recovered` : what the controller does by itself.
* `Driver.stop`, `uninstall`, `initiateRecovery`, `start`, `transmit` : the calls.
* `Hal` : the static variables of `twai_hal.c`, and its functions.
-/

namespace Espcan32

namespace Twai

/-! ### The driver -/

/-- `twai_state_t`. -/
inductive State where
  | stopped
  | running
  | busOff
  | recovering
  deriving DecidableEq, Repr

/-- The answers of the driver (`esp_err_t`). -/
inductive EspErr where
  | ok
  | fail
  | timeout
  | invalidState
  | notSupported
  deriving DecidableEq, Repr

/-- What a running driver makes of a message: it has room for it, or the wait for room times out,
or it fails. -/
inductive TwaiAnswer where
  | accept
  | timeout
  | fail
  deriving DecidableEq, Repr

/-- `CFG_TWAI_TX_QUEUE_LEN`. -/
def twaiTxQueueLen : ℕ := 32

/-- The latched alerts that the TX path looks at.  `TWAI_ALERT_TX_SUCCESS` and
`TWAI_ALERT_TX_FAILED` are set when their list is not empty. -/
structure Alerts (M : Type*) where
  txSuccess : List M
  txFailed : List M
  busOff : Bool
  busRecovered : Bool
  deriving Repr

/-- No alert. -/
def Alerts.none {M : Type*} : Alerts M := ⟨[], [], false, false⟩

/-- The messages whose outcome is latched. -/
def Alerts.messages {M : Type*} (a : Alerts M) : List M := a.txSuccess ++ a.txFailed

/-- An installed driver; the head of `queue` is in the hardware buffer. -/
structure Driver (M : Type*) where
  state : State
  queue : List M
  alerts : Alerts M
  deriving Repr

namespace Driver

variable {M : Type*} (d : Driver M)

/-- The messages that the driver has neither dropped nor reported. -/
def messages : List M := d.queue ++ d.alerts.messages

/-- The first message of the queue reaches the wire. -/
def success : Option (M × Driver M) :=
  match d.state, d.queue with
  | .running, m :: queue =>
    some (m, { d with
      queue := queue
      alerts := { d.alerts with txSuccess := d.alerts.txSuccess ++ [m] } })
  | _, _ => Option.none

/-- The controller gives up the first message of the queue. -/
def failure : Option (Driver M) :=
  match d.state, d.queue with
  | .running, m :: queue =>
    some { d with
      queue := queue
      alerts := { d.alerts with txFailed := d.alerts.txFailed ++ [m] } }
  | _, _ => Option.none

/-- The controller goes bus-off. -/
def goBusOff : Option (Driver M) :=
  if d.state = .running then
    some { d with state := .busOff, alerts := { d.alerts with busOff := true } }
  else Option.none

/-- The bus has recovered; the controller is stopped. -/
def recovered : Option (Driver M) :=
  if d.state = .recovering then
    some { d with state := .stopped, alerts := { d.alerts with busRecovered := true } }
  else Option.none

/-- `twai_read_alerts()`: the alerts it returns are cleared. -/
def readAlerts : Driver M := { d with alerts := .none }

/-- `twai_initiate_recovery()`, with the messages it discards. -/
def initiateRecovery : Driver M × List M :=
  if d.state = .busOff then ({ d with state := .recovering, queue := [] }, d.queue) else (d, [])

/-- `twai_start()`. -/
def start : Driver M := if d.state = .stopped then { d with state := .running } else d

/-- `twai_stop()`, with the messages it discards. -/
def stop : Driver M × List M :=
  if d.state = .running then ({ d with state := .stopped, queue := [] }, d.queue) else (d, [])

/-- `twai_driver_uninstall()` goes through. -/
def CanUninstall : Prop := d.state = .stopped ∨ d.state = .busOff

instance : Decidable d.CanUninstall := by unfold CanUninstall; infer_instance

/-- `twai_transmit()`. -/
def transmit (answer : TwaiAnswer) (m : M) : Driver M × EspErr :=
  if d.state = .running then
    match answer with
    | .accept =>
      if d.queue.length ≤ twaiTxQueueLen then ({ d with queue := d.queue ++ [m] }, .ok)
      else (d, .timeout)
    | .timeout => (d, .timeout)
    | .fail => (d, .fail)
  else (d, .invalidState)

/-! ### What holds of a driver -/

/-- The latched alerts fit the state, and a recovering controller holds nothing. -/
structure Sound : Prop where
  busOff : d.alerts.busOff = true → d.state = .busOff
  busRecovered : d.alerts.busRecovered = true → d.state = .stopped
  recovering : d.state = .recovering → d.messages = []

/-- The driver holds nothing, and takes nothing before the next start. -/
def Silent : Prop := d.messages = [] ∧ (d.state = .recovering ∨ d.state = .stopped)

/-- A move of the controller. -/
inductive Move (d d' : Driver M) : Prop
  | success {m : M} (h : d.success = some (m, d'))
  | failure (h : d.failure = some d')
  | goBusOff (h : d.goBusOff = some d')
  | recovered (h : d.recovered = some d')

theorem Sound.fresh : (⟨.running, [], .none⟩ : Driver M).Sound := ⟨nofun, nofun, nofun⟩

variable {d} {d' : Driver M} {m : M}

/-- The first message of the queue is on the wire, and its outcome latched. -/
theorem success_eq (h : d.success = some (m, d')) :
    d.state = .running ∧ d' =
      { d with
        queue := d.queue.tail
        alerts := { d.alerts with txSuccess := d.alerts.txSuccess ++ [m] } } ∧
      d.queue = m :: d.queue.tail := by
  unfold success at h
  split at h
  · rename_i hst hq
    obtain ⟨rfl, rfl⟩ := Prod.mk.inj (Option.some.inj h)
    rw [hq]
    exact ⟨hst, rfl, rfl⟩
  · cases h

theorem failure_eq (h : d.failure = some d') :
    ∃ m, d.state = .running ∧ d' =
      { d with
        queue := d.queue.tail
        alerts := { d.alerts with txFailed := d.alerts.txFailed ++ [m] } } ∧
      d.queue = m :: d.queue.tail := by
  unfold failure at h
  split at h
  · rename_i m queue hst hq
    obtain rfl := Option.some.inj h
    rw [hq]
    exact ⟨m, hst, rfl, rfl⟩
  · cases h

theorem goBusOff_eq (h : d.goBusOff = some d') :
    d.state = .running ∧
      d' = { d with state := .busOff, alerts := { d.alerts with busOff := true } } := by
  unfold goBusOff at h
  split at h
  · obtain rfl := Option.some.inj h
    exact ⟨‹_›, rfl⟩
  · cases h

theorem recovered_eq (h : d.recovered = some d') :
    d.state = .recovering ∧
      d' = { d with state := .stopped, alerts := { d.alerts with busRecovered := true } } := by
  unfold recovered at h
  split at h
  · obtain rfl := Option.some.inj h
    exact ⟨‹_›, rfl⟩
  · cases h

/-! The other moves latch no success. -/

theorem failure_txSuccess (h : d.failure = some d') : d'.alerts.txSuccess = d.alerts.txSuccess := by
  obtain ⟨m, -, rfl, -⟩ := failure_eq h
  rfl

theorem goBusOff_txSuccess (h : d.goBusOff = some d') : d'.alerts.txSuccess = d.alerts.txSuccess := by
  obtain ⟨-, rfl⟩ := goBusOff_eq h
  rfl

theorem recovered_txSuccess (h : d.recovered = some d') :
    d'.alerts.txSuccess = d.alerts.txSuccess := by
  obtain ⟨-, rfl⟩ := recovered_eq h
  rfl

namespace Move

/-- The controller moves while it is running, and when it has recovered. -/
theorem states (h : d.Move d') :
    d.state = .running ∨ d.state = .recovering ∧ d'.state = .stopped := by
  cases h with
  | success h => exact .inl (success_eq h).1
  | failure h => obtain ⟨m, hst, -⟩ := failure_eq h; exact .inl hst
  | goBusOff h => exact .inl (goBusOff_eq h).1
  | recovered h =>
    obtain ⟨hst, rfl⟩ := recovered_eq h
    exact .inr ⟨hst, rfl⟩

/-- The controller drops no message without an alert. -/
theorem messages_perm (h : d.Move d') : d'.messages.Perm d.messages := by
  cases h with
  | success h =>
    obtain ⟨-, rfl, hq⟩ := success_eq h
    rw [messages, messages, hq]
    simp only [List.tail_cons, Alerts.messages, List.append_assoc, List.cons_append]
    exact (List.Perm.append_left _ List.perm_middle).trans List.perm_middle
  | failure h =>
    obtain ⟨m, -, rfl, hq⟩ := failure_eq h
    rw [messages, messages, hq]
    simp only [List.tail_cons, Alerts.messages, List.cons_append]
    rw [← List.append_assoc, ← List.append_assoc, ← List.append_assoc]
    exact List.perm_append_singleton ..
  | goBusOff h => obtain ⟨-, rfl⟩ := goBusOff_eq h; exact .refl _
  | recovered h => obtain ⟨-, rfl⟩ := recovered_eq h; exact .refl _

theorem sound (h : d.Move d') (hd : d.Sound) : d'.Sound := by
  -- while the controller runs, neither of the two alerts is latched
  have hrun (hst : d.state = .running) : d.alerts.busOff ≠ true ∧ d.alerts.busRecovered ≠ true :=
    ⟨fun ha => absurd (hst.symm.trans (hd.busOff ha)) nofun,
      fun ha => absurd (hst.symm.trans (hd.busRecovered ha)) nofun⟩
  cases h with
  | success h =>
    obtain ⟨hst, rfl, -⟩ := success_eq h
    exact ⟨hd.busOff, hd.busRecovered, fun hst' => absurd (hst.symm.trans hst') nofun⟩
  | failure h =>
    obtain ⟨m, hst, rfl, -⟩ := failure_eq h
    exact ⟨hd.busOff, hd.busRecovered, fun hst' => absurd (hst.symm.trans hst') nofun⟩
  | goBusOff h =>
    obtain ⟨hst, rfl⟩ := goBusOff_eq h
    exact ⟨fun _ => rfl, fun ha => absurd ha (hrun hst).2, nofun⟩
  | recovered h =>
    obtain ⟨hst, rfl⟩ := recovered_eq h
    exact ⟨fun ha => absurd (hst.symm.trans (hd.busOff ha)) nofun, fun _ => rfl, nofun⟩

theorem silent (h : d.Move d') (hd : d.Silent) : d'.Silent := by
  refine ⟨List.perm_nil.1 (hd.1 ▸ h.messages_perm), ?_⟩
  rcases h.states with hst | hst
  · rcases hd.2 with hst' | hst' <;> exact absurd (hst.symm.trans hst') nofun
  · exact .inr hst.2

end Move

/-! The calls of a sound driver. -/

theorem Sound.readAlerts (hd : d.Sound) : d.readAlerts.Sound := by
  refine ⟨nofun, nofun, fun hst => ?_⟩
  have hq : d.queue = [] := (List.append_eq_nil_iff.1 (hd.recovering hst)).1
  rw [messages, Driver.readAlerts, hq]
  rfl

theorem Sound.initiateRecovery (hst : d.state = .busOff) (ha : d.alerts = .none) :
    d.initiateRecovery.1.Sound ∧ d.initiateRecovery.1.Silent := by
  rw [Driver.initiateRecovery, if_pos hst, ha]
  exact ⟨⟨nofun, nofun, fun _ => rfl⟩, rfl, .inl rfl⟩

theorem Sound.start (hst : d.state = .stopped) (ha : d.alerts = .none) : d.start.Sound := by
  rw [Driver.start, if_pos hst, ha]
  exact ⟨nofun, nofun, nofun⟩

theorem Sound.stop (hd : d.Sound) : d.stop.1.Sound ∧ d.stop.1.state ≠ .running := by
  unfold Driver.stop
  split
  · rename_i hst
    exact ⟨⟨fun ha => absurd (hst.symm.trans (hd.busOff ha)) nofun, fun _ => rfl, nofun⟩, nofun⟩
  · exact ⟨hd, ‹_›⟩

/-! What the calls discard. -/

theorem initiateRecovery_messages (d : Driver M) :
    d.initiateRecovery.2 ++ d.initiateRecovery.1.messages = d.messages := by
  unfold Driver.initiateRecovery
  split <;> rfl

theorem initiateRecovery_alerts (d : Driver M) : d.initiateRecovery.1.alerts = d.alerts := by
  unfold Driver.initiateRecovery
  split <;> rfl

theorem stop_messages (d : Driver M) : d.stop.2 ++ d.stop.1.messages = d.messages := by
  unfold Driver.stop
  split <;> rfl

theorem stop_alerts (d : Driver M) : d.stop.1.alerts = d.alerts := by
  unfold Driver.stop
  split <;> rfl

theorem start_messages (d : Driver M) : d.start.messages = d.messages := by
  unfold Driver.start
  split <;> rfl

theorem start_alerts (d : Driver M) : d.start.alerts = d.alerts := by
  unfold Driver.start
  split <;> rfl

/-- A running driver takes the message, or nothing changes. -/
theorem transmit_cases (d : Driver M) (answer : TwaiAnswer) (m : M) :
    (d.transmit answer m).2 = .ok ∧ d.state = .running ∧
        (d.transmit answer m).1 = { d with queue := d.queue ++ [m] } ∨
      (d.transmit answer m).2 ≠ .ok ∧ (d.transmit answer m).2 ≠ .notSupported ∧
        (d.transmit answer m).1 = d := by
  unfold transmit
  split
  · rename_i hst
    cases answer with
    | accept =>
      dsimp only
      split
      · exact .inl ⟨rfl, hst, rfl⟩
      · exact .inr ⟨nofun, nofun, rfl⟩
    | timeout | fail => exact .inr ⟨nofun, nofun, rfl⟩
  · exact .inr ⟨nofun, nofun, rfl⟩

theorem Sound.submitted (hd : d.Sound) (hst : d.state = .running) (m : M) :
    ({ d with queue := d.queue ++ [m] } : Driver M).Sound :=
  ⟨hd.busOff, hd.busRecovered, fun hst' => absurd (hst.symm.trans hst') nofun⟩

end Driver

/-! ### The layer -/

/-- `PCAN_USB_DEFAULT_BITRATE`. -/
def defaultBitrate : UInt32 := 500000

/-- `s_supported_bitrates`. -/
def supportedBitrates : List UInt32 := [1000000, 500000, 250000, 125000, 100000, 50000]

/-- `nearest_supported_bitrate()`. -/
def nearestSupportedBitrate (bitrate : UInt32) : UInt32 :=
  let diff (cand : UInt32) := if cand < bitrate then bitrate - cand else cand - bitrate
  supportedBitrates.tail.foldl (fun best cand => if diff cand < diff best then cand else best)
    (supportedBitrates.headD 0)

/-- `pcan_btr_entry_t`. -/
structure BtrEntry where
  bitrate : UInt32
  btr0 : UInt8
  btr1 : UInt8
  deriving DecidableEq, Repr

/-- `s_btr_table`. -/
def btrTable : List BtrEntry :=
  [⟨1000000, 0x00, 0x14⟩, ⟨800000, 0x00, 0x16⟩, ⟨500000, 0x00, 0x1C⟩, ⟨250000, 0x01, 0x1C⟩,
    ⟨125000, 0x03, 0x1C⟩, ⟨100000, 0x43, 0x2F⟩, ⟨50000, 0x47, 0x2F⟩, ⟨20000, 0x53, 0x2F⟩,
    ⟨10000, 0x67, 0x2F⟩, ⟨5000, 0x7F, 0x7F⟩]

/-- `pcan_twai_btr_to_bitrate()`: zero for registers that are not in the table. -/
def btrToBitrate (btr0 btr1 : UInt8) : UInt32 :=
  match btrTable.find? fun entry => entry.btr0 = btr0 ∧ entry.btr1 = btr1 with
  | some entry => entry.bitrate
  | none => 0

/-- What `pcan_twai_start()` is asked for. -/
structure Config where
  bitrate : UInt32
  listenOnly : Bool
  deriving DecidableEq, Repr

/-- The driver, if `s_installed`; `s_bitrate` and `s_mode`. -/
structure Hal (M : Type*) where
  driver : Option (Driver M)
  bitrate : UInt32
  listenOnly : Bool
  deriving Repr

namespace Hal

variable {M : Type*} (h : Hal M)

/-- The statics before the first start. -/
def initial : Hal M := ⟨Option.none, defaultBitrate, false⟩

/-- The end of `pcan_twai_start()`, after the old driver is gone: install and start, which may
fail. -/
def install (c : Config) (ok : Bool) : Hal M :=
  let bitrate :=
    if c.bitrate = 0 then if h.bitrate ≠ 0 then h.bitrate else defaultBitrate else c.bitrate
  if ok then
    { driver := some ⟨.running, [], .none⟩
      bitrate := nearestSupportedBitrate bitrate
      listenOnly := c.listenOnly }
  else h

/-- `pcan_twai_transmit()`. -/
def transmit (answer : TwaiAnswer) (m : M) : Hal M × EspErr :=
  match h.driver with
  | .none => (h, .invalidState)
  | some d =>
    if h.listenOnly then (h, .notSupported)
    else
      let (d, e) := d.transmit answer m
      ({ h with driver := some d }, e)

/-- The messages in the driver. -/
def messages : List M :=
  match h.driver with
  | .none => []
  | some d => d.messages

/-- The message is queued, or nothing changes. -/
theorem transmit_cases (h : Hal M) (answer : TwaiAnswer) (m : M) :
    (∃ d, h.driver = some d ∧ d.state = .running ∧
      h.transmit answer m = ({ h with driver := some { d with queue := d.queue ++ [m] } }, .ok)) ∨
      (h.transmit answer m).1 = h ∧ (h.transmit answer m).2 ≠ .ok := by
  unfold transmit
  cases hd : h.driver with
  | none => exact .inr ⟨rfl, nofun⟩
  | some d =>
    dsimp only
    split
    · exact .inr ⟨rfl, nofun⟩
    · rcases d.transmit_cases answer m with ⟨hok, hst, hd'⟩ | ⟨hok, -, hd'⟩
      · exact .inl ⟨d, rfl, hst, by rw [hd', hok]⟩
      · exact .inr ⟨by rw [hd', ← hd], hok⟩

end Hal

end Twai

end Espcan32
