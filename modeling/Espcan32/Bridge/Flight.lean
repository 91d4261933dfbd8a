import Espcan32.Bridge.Quiesce

/-!
# One copy at a time

`can_tx_task` hands one copy of its frame to the driver, and then waits for an event that tells what
became of it.  Between the two, the copy is in exactly one place: queued in the driver, latched in
an alert, read by `ctrl_task` and not posted yet, or discarded and not accounted for yet.

* `CanState.unreported` : the copies of which no event tells yet.
* `Flight` : there is none, or one and no event, or none and its event is the next in `s_tx_done`.
* `CtrlPc.Fits`, `TxPc.Fits` : what the places of the tasks say about the driver and the frame.
* `Owned` : the invariant.
-/

namespace Espcan32

namespace Bridge

open Pcan Twai

/-! ### Where the copies are -/

/-- The alerts that `ctrl_task` has read and not posted. -/
def CtrlPc.unposted : CtrlPc → Alerts Copy
  | .recover _ a | .restart _ a | .postOutcome _ a => a
  | _ => .none

/-- The copies whose success is latched. -/
def latched (h : Hal Copy) : List Copy :=
  match h.driver with
  | none => []
  | some d => d.alerts.txSuccess

namespace CanState

variable (s : CanState)

/-- The accepted copies of which no event tells yet. -/
def unreported : List Copy := s.lost ++ (s.ctrl.unposted.messages ++ s.hal.messages)

/-- The copies of whose success no event tells yet. -/
def successes : List Copy := s.ctrl.unposted.txSuccess ++ latched s.hal

end CanState

/-! ### What the places of the tasks say -/

/-- What the place of `ctrl_task` says about the driver. -/
def CtrlPc.Fits (driver : Option (Driver Copy)) : CtrlPc → Prop
  | .boot | .install _ => driver = none
  | .recover _ a => ∀ d ∈ driver,
    (a.busOff = true → d.state = .busOff ∧ d.alerts = .none) ∧
      (a.busRecovered = true → d.state = .stopped ∧ d.alerts = .none)
  | .restart _ a => ∀ d ∈ driver,
    (a.busOff = true → d.Silent) ∧
      (a.busRecovered = true → a.busOff = false ∧ d.state = .stopped ∧ d.alerts = .none)
  | .postOutcome _ a | .postBusOff _ a => ∀ d ∈ driver, a.busOff = true → d.Silent
  | .uninstall _ => ∀ d ∈ driver, d.state ≠ .running
  | .postAbort => ∀ d ∈ driver, d.messages = []
  | _ => True

/-- What the place of `can_tx_task` says about its frame. -/
def TxPc.Fits (pending : Option Popped) (inflight : Bool) : TxPc → Prop
  | .pop => pending = none
  | .drain | .transmit => pending ≠ none ∧ inflight = false
  | .confirm => inflight = true
  | _ => True

/-- Where `can_tx_task` goes with a frame in hand fits it. -/
theorem CanState.txNext_fits (s : CanState) {pending : Option Popped} (h : pending ≠ none) :
    TxPc.Fits pending s.inflight s.txNext := by
  unfold txNext
  split
  · assumption
  · exact ⟨h, Bool.not_eq_true _ ▸ ‹¬s.inflight = true›⟩

/-- Where `can_tx_task` goes from the top fits the frame in hand. -/
theorem CanState.txTop_fits (s : CanState) :
    TxPc.Fits s.pending s.inflight
      (if ParkRequested s.seq then .echo s.seq else if s.pending.isNone then .pop else s.txNext) := by
  split
  · trivial
  split
  · exact Option.isNone_iff_eq_none.1 ‹_›
  · rename_i hnone
    exact s.txNext_fits fun hp => hnone (by rw [hp]; rfl)

namespace CtrlPc.Fits

variable {pc : CtrlPc} {d d' : Driver Copy}

/-- The controller moves. -/
theorem move (h : pc.Fits (some d)) (hm : d.Move d') : pc.Fits (some d') := by
  -- bus-off and stopped controllers do not move
  have hstill (hst : d.state = .busOff ∨ d.state = .stopped) : False := by
    rcases hm.states with hst' | ⟨hst', -⟩ <;> rcases hst with hst | hst <;>
      exact absurd (hst.symm.trans hst') nofun
  cases pc <;> try trivial
  case recover q a =>
    intro x hx
    obtain rfl := Option.some.inj hx
    have h := h d rfl
    exact ⟨fun ha => (hstill (.inl (h.1 ha).1)).elim, fun ha => (hstill (.inr (h.2 ha).1)).elim⟩
  case restart q a =>
    intro x hx
    obtain rfl := Option.some.inj hx
    have h := h d rfl
    exact ⟨fun ha => hm.silent (h.1 ha), fun ha => (hstill (.inr (h.2 ha).2.1)).elim⟩
  case postOutcome q a | postBusOff q a =>
    intro x hx ha
    obtain rfl := Option.some.inj hx
    exact hm.silent (h d rfl ha)
  case uninstall c =>
    intro x hx
    obtain rfl := Option.some.inj hx
    rcases hm.states with hst | ⟨-, hst⟩
    · exact absurd hst (h d rfl)
    · rw [hst]; nofun
  case postAbort =>
    intro x hx
    obtain rfl := Option.some.inj hx
    exact List.perm_nil.1 (h d rfl ▸ hm.messages_perm)

/-- A running driver accepts a copy; it is not the one that `ctrl_task` has just set up. -/
theorem submit (h : pc.Fits (some d)) (hst : d.state = .running) (hpc : pc ≠ .postAbort)
    (c : Copy) : pc.Fits (some { d with queue := d.queue ++ [c] }) := by
  have hsilent (hd : d.Silent) : False := by
    rcases hd.2 with hst' | hst' <;> exact absurd (hst.symm.trans hst') nofun
  cases pc <;> try trivial
  case recover q a =>
    have h := h d rfl
    exact fun x _ => ⟨fun ha => absurd (hst.symm.trans (h.1 ha).1) nofun,
      fun ha => absurd (hst.symm.trans (h.2 ha).1) nofun⟩
  case restart q a =>
    have h := h d rfl
    exact fun x _ => ⟨fun ha => (hsilent (h.1 ha)).elim,
      fun ha => absurd (hst.symm.trans (h.2 ha).2.1) nofun⟩
  case postOutcome q a | postBusOff q a => exact fun x _ ha => (hsilent (h d rfl ha)).elim
  case uninstall c => exact absurd hst (h d rfl)

end CtrlPc.Fits

/-! ### The flight of a copy -/

/-- The verdict on the submission `i` is the first event posted behind its acceptance, which the
queue took, and it is about that submission. -/
def Settled (posted : List (TxEvent × Bool)) (i : ℕ) (x : Submission) : Prop :=
  ∃ e, x.verdict = some e ∧ posted[x.first]? = some (e, true) ∧ e.about = [i]

/-- All of the submissions are settled. -/
def AllSettled (posted : List (TxEvent × Bool)) (xs : List Submission) : Prop :=
  ∀ i x, xs[i]? = some x → Settled posted i x

/-- Where the copy of the frame in hand is. -/
inductive Flight (s : CanState) (r : CanRecord) : Prop
  /-- No copy is out. -/
  | idle (hin : s.inflight = false) (hcopies : s.unreported = [])
      (hsubs : AllSettled r.posted r.subs)
  /-- The copy `c` is out, and nothing has been posted since it was accepted. -/
  | flying (c : Copy) (xs : List Submission) (hin : s.inflight = true)
      (hpend : s.pending = some c.popped) (hcopies : s.unreported = [c]) (hdone : s.txDone = [])
      (hsubs : r.subs = xs ++ [⟨s.posts, none⟩]) (hno : c.sub = xs.length)
      (hold : AllSettled r.posted xs)
  /-- The verdict `e` on the copy `c` is the next event in the queue. -/
  | landed (c : Copy) (xs : List Submission) (e : TxEvent) (events : List TxEvent) (first : ℕ)
      (hin : s.inflight = true) (hpend : s.pending = some c.popped) (hcopies : s.unreported = [])
      (hdone : s.txDone = e :: events) (hsubs : r.subs = xs ++ [⟨first, none⟩])
      (hno : c.sub = xs.length) (hposted : r.posted[first]? = some (e, true))
      (habout : e.about = [c.sub]) (hok : e.ev = .ok → c.popped.no ∈ r.wire)
      (hold : AllSettled r.posted xs)

theorem AllSettled.append {posted : List (TxEvent × Bool)} {xs : List Submission}
    (h : AllSettled posted xs) (more : List (TxEvent × Bool)) : AllSettled (posted ++ more) xs := by
  intro i x hx
  obtain ⟨e, hv, hp, ha⟩ := h i x hx
  exact ⟨e, hv, by rw [List.getElem?_append_left (List.getElem?_eq_some_iff.1 hp).1, hp], ha⟩

theorem getElem?_snoc {α : Type*} {xs : List α} {x y : α} {i : ℕ} (h : (xs ++ [x])[i]? = some y) :
    xs[i]? = some y ∨ i = xs.length ∧ y = x := by
  rcases Nat.lt_or_ge i xs.length with hi | hi
  · rw [List.getElem?_append_left hi] at h
    exact .inl h
  · rw [List.getElem?_append_right hi, List.getElem?_singleton] at h
    split at h
    · exact .inr ⟨by omega, (Option.some.inj h).symm⟩
    · cases h

theorem AllSettled.snoc {posted : List (TxEvent × Bool)} {xs : List Submission}
    (h : AllSettled posted xs) {x : Submission} (hx : Settled posted xs.length x) :
    AllSettled posted (xs ++ [x]) := by
  intro i y hy
  rcases getElem?_snoc hy with hy | ⟨rfl, rfl⟩
  · exact h i y hy
  · exact hx

/-- What a step leaves alone that neither hands over a copy nor posts or receives an event. -/
structure Kept (s s' : CanState) (r r' : CanRecord) : Prop where
  inflight : s'.inflight = s.inflight
  pending : s'.pending = s.pending
  txDone : s'.txDone = s.txDone
  posts : s'.posts = s.posts
  copies : s'.unreported.Perm s.unreported
  subs : r'.subs = r.subs
  posted : r'.posted = r.posted
  wire : r.wire ⊆ r'.wire

theorem Flight.keep {s s' : CanState} {r r' : CanRecord} (h : Flight s r) (k : Kept s s' r r') :
    Flight s' r' := by
  cases h with
  | idle hin hcopies hsubs =>
    refine .idle (k.inflight.trans hin) (List.perm_nil.1 (hcopies ▸ k.copies)) ?_
    rw [k.posted, k.subs]
    exact hsubs
  | flying c xs hin hpend hcopies hdone hsubs hno hold =>
    refine .flying c xs (k.inflight.trans hin) (k.pending.trans hpend)
      (List.perm_singleton.1 (hcopies ▸ k.copies)) (k.txDone.trans hdone) ?_ hno ?_
    · rw [k.subs, k.posts, hsubs]
    · rw [k.posted]; exact hold
  | landed c xs e events first hin hpend hcopies hdone hsubs hno hposted habout hok hold =>
    refine .landed c xs e events first (k.inflight.trans hin) (k.pending.trans hpend)
      (List.perm_nil.1 (hcopies ▸ k.copies)) (k.txDone.trans hdone) (k.subs.trans hsubs) hno ?_
      habout (fun he => k.wire (hok he)) ?_
    · rw [k.posted]; exact hposted
    · rw [k.posted]; exact hold

/-! ### The invariant -/

/-- No event is left in `s_tx_done` when the driver accepts a copy: none was posted since the last
read of the drain. -/
def DrainedAtSubmit (s : CanState) : CanStep → Prop
  | .tx answer =>
    match s.tx, s.pending with
    | .transmit, some p => (s.hal.transmit answer ⟨p, s.subs⟩).2 = .ok → s.txDone = []
    | _, _ => True
  | _ => True

instance (s : CanState) (l : CanStep) : Decidable (DrainedAtSubmit s l) := by
  unfold DrainedAtSubmit
  split
  · split <;> infer_instance
  · infer_instance

/-- What holds between steps: the places of the tasks, the flight of the copy, the counts of the
record, and what became of the frames popped so far. -/
structure Owned (s : CanState) (r : CanRecord) : Prop where
  shaken : s.Shaken
  sound : ∀ d ∈ s.hal.driver, d.Sound
  ctrl : s.ctrl.Fits s.hal.driver
  task : s.tx.Fits s.pending s.inflight
  flight : Flight s r
  posts : r.posted.length = s.posts
  subs : r.subs.length = s.subs
  wired : ∀ c ∈ s.successes, c.popped.no ∈ r.wire
  current : ∀ p ∈ s.pending, p.no + 1 = s.pops
  below : ∀ n ∈ r.wire, n < s.pops
  order : r.wire.Pairwise (· ≤ ·)
  frames : ∀ n < s.pops, (∃ p ∈ s.pending, p.no = n) ∨ n ∈ r.wire ∨ n ∈ r.refused

/-- A step of `ctrl_task` that posts nothing leaves the record of the events. -/
theorem canRecord_quiet (s : CanState) (ok : Bool) (r : CanRecord) (hp : s.posting = none) :
    ∃ n, canRecord s (.ctrl ok) r = { r with begins := n } := by
  unfold canRecord
  dsimp only
  split
  · exact ⟨_, rfl⟩
  · rename_i he _
    exact absurd (hp.symm.trans he) nofun
  · exact ⟨r.begins, rfl⟩

theorem canRecord_post (s : CanState) (ok : Bool) (r : CanRecord) {e : TxEvent}
    (hp : s.posting = some e) :
    canRecord s (.ctrl ok) r =
      { r with posted := r.posted ++ [(e, decide (s.txDone.length < txDoneLen))] } := by
  unfold canRecord
  dsimp only
  split
  · rename_i hpc
    rw [CanState.posting, hpc] at hp
    cases hp
  · rename_i he _
    obtain rfl := Option.some.inj (hp.symm.trans he)
    rfl
  · rename_i hno
    exact (hno e hp).elim

/-- One copy in three places. -/
theorem singleton_middle {α : Type*} {xs ys zs : List α} {c : α} (h : xs ++ (ys ++ zs) = [c])
    (hne : ys ≠ []) : xs = [] ∧ ys = [c] ∧ zs = [] := by
  rcases List.append_eq_singleton_iff.1 h with ⟨hxs, h⟩ | ⟨-, h⟩
  · rcases List.append_eq_singleton_iff.1 h with ⟨hys, -⟩ | ⟨hys, hzs⟩
    · exact absurd hys hne
    · exact ⟨hxs, hys, hzs⟩
  · exact absurd (List.append_eq_nil_iff.1 h).1 hne

/-- Discarded copies are no longer in the driver, but in no event either. -/
theorem discard_perm {lost unposted discarded messages : List Copy} :
    (lost ++ discarded ++ (unposted ++ messages)).Perm
      (lost ++ (unposted ++ (discarded ++ messages))) := by
  rw [List.append_assoc, ← List.append_assoc discarded, ← List.append_assoc unposted]
  exact (List.perm_append_comm.append_right _).append_left _

namespace Owned

variable {s s' : CanState} {r : CanRecord}

theorem of_init (dev : DevState) : Owned (.init dev) .none where
  shaken := CanState.shaken_init dev
  sound := nofun
  ctrl := rfl
  task := trivial
  flight := .idle rfl rfl nofun
  posts := rfl
  subs := rfl
  wired := nofun
  current := nofun
  below := nofun
  order := .nil
  frames := nofun

/-- A step that changes none of it but the places. -/
theorem move (h : Owned s r) (hshaken : s'.Shaken) (hhal : s'.hal = s.hal)
    (hctrl : s'.ctrl = s.ctrl) (hlost : s'.lost = s.lost) (hin : s'.inflight = s.inflight)
    (hpend : s'.pending = s.pending) (hdone : s'.txDone = s.txDone) (hposts : s'.posts = s.posts)
    (hsubs : s'.subs = s.subs) (hpops : s'.pops = s.pops)
    (htask : s'.tx.Fits s.pending s.inflight) : Owned s' r where
  shaken := hshaken
  sound := by rw [hhal]; exact h.sound
  ctrl := by rw [hhal, hctrl]; exact h.ctrl
  task := by rw [hin, hpend]; exact htask
  flight := h.flight.keep ⟨hin, hpend, hdone, hposts,
    by rw [CanState.unreported, CanState.unreported, hlost, hctrl, hhal], rfl, rfl, fun _ => id⟩
  posts := by rw [hposts]; exact h.posts
  subs := by rw [hsubs]; exact h.subs
  wired := by rw [CanState.successes, hctrl, hhal]; exact h.wired
  current := by rw [hpend, hpops]; exact h.current
  below := by rw [hpops]; exact h.below
  order := h.order
  frames := by rw [hpops, hpend]; exact h.frames

/-- The frame in hand has no copy out while `inflight` is clear. -/
theorem idle_of (h : Owned s r) (hin : s.inflight = false) :
    s.unreported = [] ∧ AllSettled r.posted r.subs := by
  cases h.flight with
  | idle _ hcopies hsubs => exact ⟨hcopies, hsubs⟩
  | flying c xs hin' => exact absurd (hin.symm.trans hin') nofun
  | landed c xs e events first hin' => exact absurd (hin.symm.trans hin') nofun

end Owned

end Bridge

end Espcan32
