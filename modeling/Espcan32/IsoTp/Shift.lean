import Espcan32.IsoTp.Sides

/-!
# The clock only matters in differences

The millisecond clock wraps after 49 days, and nothing says at which value it starts.  Two runs
of the same calls, the clock of the second one `d` milliseconds ahead modulo `2^32`, show the
same frames, return codes and messages.

The links of the two runs are `Ahead`: the same but for the three timers, and a timer that is
running is `d` ahead as well.  A timer that is not running can hold anything: it is set before it
is read again.

* `Ahead.step` : a call keeps the links ahead and shows the same in both runs.
* `shown_shift` : **shifting the clock changes nothing a link shows.**
-/

namespace Espcan32

namespace IsoTp

/-- The hooks with the clock `d` ahead. -/
def Env.shift (d : UInt32) (e : Env) : Env := { e with now := e.now + d }

/-- The call with the clock `d` ahead. -/
def Call.shift (d : UInt32) : Call → Call
  | .send e data => .send (e.shift d) data
  | .frame e id data => .frame (e.shift d) id data
  | .poll e => .poll (e.shift d)
  | .receive outCap => .receive outCap

/-- What a call shows: the frame handed to `can_tx`, the return code of `isotp_send()`, the result
of `isotp_receive()`. -/
structure Shown where
  frame : Option CanFrame
  ret : Option Ret
  received : Option Received
  deriving DecidableEq, Repr

namespace Link

/-- What a call shows. -/
def shows (l : Link) (c : Call) : Shown where
  frame := l.handed c
  ret := match c with
    | .send e data => some (l.isotpSend e data).2.1
    | _ => none
  received := match c with
    | .receive outCap => some (l.isotpReceive outCap).2
    | _ => none

/-- What a list of calls shows. -/
def shown : Link → List Call → List Shown
  | _, [] => []
  | l, c :: cs => l.shows c :: (l.step c).shown cs

/-- The link with other timers. -/
def withTimers (l : Link) (t st r : UInt32) : Link :=
  { l with tx := { l.tx with timer := t, stTimer := st }, rx := { l.rx with timer := r } }

/-- `l'` is `l` on a clock that is `d` ahead. -/
def Ahead (d : UInt32) (l l' : Link) : Prop :=
  ∃ t st r, l' = l.withTimers t st r ∧ (l.tx.phase = .waitFc → t = l.tx.timer + d) ∧
    (l.tx.phase = .send → st = l.tx.stTimer + d) ∧ (l.rx.phase = .recv → r = l.rx.timer + d)

/-- The link that a call returns is ahead, and what it returns besides is the same. -/
def AheadWith {α : Type} (d : UInt32) (p p' : Link × α) : Prop := Ahead d p.1 p'.1 ∧ p'.2 = p.2

variable {d : UInt32} {l l' : Link} (e : Env) (data : List UInt8)

theorem elapsed_shift (now start : UInt32) : elapsed (now + d) (start + d) = elapsed now start := by
  unfold elapsed
  grind

/-! ### The handlers -/

namespace Ahead

/-- No timer of the send side runs. -/
theorem of_idle {m : Link} {t st r : UInt32} (hi : m.tx.phase = .idle)
    (hr : m.rx.phase = .recv → r = m.rx.timer + d) : Ahead d m (m.withTimers t st r) :=
  ⟨t, st, r, rfl, fun h => (by rw [hi] at h; cases h), fun h => (by rw [hi] at h; cases h), hr⟩

theorem isotpSend (h : Ahead d l l') :
    AheadWith d (l.isotpSend e data) (l'.isotpSend (e.shift d) data) := by
  obtain ⟨t, st, r, rfl, hw, hs, hr⟩ := h
  unfold withTimers Env.shift Link.isotpSend
  dsimp only
  split_ifs
  · exact ⟨⟨t, st, r, rfl, hw, hs, hr⟩, rfl⟩
  · exact ⟨⟨t, st, r, rfl, hw, hs, hr⟩, rfl⟩
  · exact ⟨of_idle rfl hr, rfl⟩
  · exact ⟨of_idle rfl hr, rfl⟩
  · exact ⟨⟨e.now + d, st, r, rfl, fun _ => rfl, fun h => (by cases h), hr⟩, rfl⟩
  · exact ⟨of_idle rfl hr, rfl⟩

theorem handleSf (h : Ahead d l l') (functional : Bool) :
    Ahead d (l.handleSf data functional) (l'.handleSf data functional) := by
  obtain ⟨t, st, r, rfl, hw, hs, hr⟩ := h
  unfold withTimers Link.handleSf
  dsimp only
  split_ifs
  · exact ⟨t, st, r, rfl, hw, hs, hr⟩
  · exact ⟨t, st, r, rfl, hw, hs, hr⟩
  · exact ⟨t, st, r, rfl, hw, hs, hr⟩
  · exact ⟨t, st, r, rfl, hw, hs, fun h => (by cases h)⟩

theorem handleFf (h : Ahead d l l') :
    AheadWith d (l.handleFf e data) (l'.handleFf (e.shift d) data) := by
  obtain ⟨t, st, r, rfl, hw, hs, hr⟩ := h
  unfold withTimers Env.shift Link.handleFf
  dsimp only
  split_ifs
  · exact ⟨⟨t, st, r, rfl, hw, hs, hr⟩, rfl⟩
  · exact ⟨⟨t, st, r, rfl, hw, hs, hr⟩, rfl⟩
  · exact ⟨⟨t, st, r, rfl, hw, hs, fun h => (by cases h)⟩, rfl⟩
  · exact ⟨⟨t, st, e.now + d, rfl, hw, hs, fun _ => rfl⟩, rfl⟩

theorem handleCf (h : Ahead d l l') :
    AheadWith d (l.handleCf e data) (l'.handleCf (e.shift d) data) := by
  obtain ⟨t, st, r, rfl, hw, hs, hr⟩ := h
  unfold withTimers Env.shift Link.handleCf
  extract_lets
  split_ifs
  · exact ⟨⟨t, st, r, rfl, hw, hs, hr⟩, rfl⟩
  · exact ⟨⟨t, st, r, rfl, hw, hs, fun h => (by cases h)⟩, rfl⟩
  · exact ⟨⟨t, st, r, rfl, hw, hs, fun h => (by cases h)⟩, rfl⟩
  · exact ⟨⟨t, st, e.now + d, rfl, hw, hs, fun h => (by cases h)⟩, rfl⟩
  · exact ⟨⟨t, st, e.now + d, rfl, hw, hs, fun _ => rfl⟩, rfl⟩
  · exact ⟨⟨t, st, e.now + d, rfl, hw, hs, fun _ => rfl⟩, rfl⟩

theorem handleFc (h : Ahead d l l') :
    Ahead d (l.handleFc e data) (l'.handleFc (e.shift d) data) := by
  obtain ⟨t, st, r, rfl, hw, hs, hr⟩ := h
  unfold withTimers Env.shift Link.handleFc
  dsimp only
  by_cases hp : l.tx.phase = .waitFc
  swap
  · rw [if_pos hp, if_pos hp]
    exact ⟨t, st, r, rfl, hw, hs, hr⟩
  rw [if_neg (not_not.2 hp), if_neg (not_not.2 hp)]
  split
  · exact ⟨t, e.now + d, r, rfl, fun h => (by cases h), fun _ => rfl, hr⟩
  · split_ifs
    · exact of_idle rfl hr
    · exact ⟨e.now + d, st, r, rfl, fun _ => rfl, hs, hr⟩
  · exact of_idle rfl hr

/-- A frame is dispatched to the same handler in both runs. -/
theorem isotpOnCanFrame (h : Ahead d l l') (id : UInt32) :
    AheadWith d (l.isotpOnCanFrame e id data) (l'.isotpOnCanFrame (e.shift d) id data) := by
  have haddr : l'.addressed id = l.addressed id := by
    obtain ⟨t, st, r, rfl, -⟩ := h
    rfl
  unfold Link.isotpOnCanFrame
  rw [haddr]
  split
  · exact ⟨h, rfl⟩
  split
  · exact ⟨h, rfl⟩
  split
  · exact ⟨h.handleSf data _, rfl⟩
  · split
    · exact ⟨h, rfl⟩
    · exact h.handleFf e data
  · split
    · exact ⟨h, rfl⟩
    · exact h.handleCf e data
  · split
    · exact ⟨h, rfl⟩
    · exact ⟨h.handleFc e data, rfl⟩
  · exact ⟨h, rfl⟩

/-- Both links have sent a ConsecutiveFrame: the separation time runs from this poll on. -/
theorem cfSent (hsend : l.tx.phase = .send) (f : CanFrame) (off : ℕ) {t st r : UInt32}
    (hr : l.rx.phase = .recv → r = l.rx.timer + d) :
    AheadWith d (l.cfSent e f off) ((l.withTimers t st r).cfSent (e.shift d) f off) := by
  unfold withTimers Env.shift Link.cfSent
  dsimp only
  split_ifs
  · exact ⟨of_idle rfl hr, rfl⟩
  · exact ⟨⟨e.now + d, e.now + d, r, rfl, fun _ => rfl, fun h => (by cases h), hr⟩, rfl⟩
  · exact ⟨⟨t, e.now + d, r, rfl, fun h => (by rw [hsend] at h; cases h), fun _ => rfl, hr⟩, rfl⟩
  · exact ⟨⟨t, e.now + d, r, rfl, fun h => (by rw [hsend] at h; cases h), fun _ => rfl, hr⟩, rfl⟩

theorem pollTx (h : Ahead d l l') : AheadWith d (l.pollTx e) (l'.pollTx (e.shift d)) := by
  obtain ⟨t, st, r, rfl, hw, hs, hr⟩ := h
  unfold withTimers Env.shift Link.pollTx
  dsimp only
  by_cases hp : l.tx.phase = .waitFc
  · rw [if_pos hp, if_pos hp, hw hp, elapsed_shift]
    split_ifs
    · exact ⟨of_idle rfl hr, rfl⟩
    · exact ⟨⟨_, st, r, rfl, fun _ => rfl, hs, hr⟩, rfl⟩
  by_cases hsend : l.tx.phase = .send
  swap
  · rw [if_neg hp, if_neg hp, if_neg hsend, if_neg hsend]
    exact ⟨⟨t, st, r, rfl, hw, hs, hr⟩, rfl⟩
  rw [if_neg hp, if_neg hp, if_pos hsend, if_pos hsend, hs hsend, elapsed_shift]
  by_cases hd : stminToMs l.tx.stmin ≤ elapsed e.now l.tx.stTimer
  swap
  · rw [if_neg hd, if_neg hd]
    exact ⟨⟨t, _, r, rfl, hw, fun _ => rfl, hr⟩, rfl⟩
  rw [if_pos hd, if_pos hd]
  by_cases hc : e.canTx = false
  · rw [if_pos hc, if_pos hc]
    exact ⟨of_idle rfl hr, rfl⟩
  · rw [if_neg hc, if_neg hc]
    exact cfSent e hsend _ _ hr

theorem pollRx (h : Ahead d l l') : Ahead d (l.pollRx e) (l'.pollRx (e.shift d)) := by
  obtain ⟨t, st, r, rfl, hw, hs, hr⟩ := h
  unfold withTimers Env.shift Link.pollRx
  dsimp only
  by_cases hp : l.rx.phase = .recv
  swap
  · rw [if_neg fun h => hp h.1, if_neg fun h => hp h.1]
    exact ⟨t, st, r, rfl, hw, hs, hr⟩
  rw [hr hp, elapsed_shift]
  split_ifs
  · exact ⟨t, st, _, rfl, hw, hs, fun h => (by cases h)⟩
  · exact ⟨t, st, _, rfl, hw, hs, fun _ => rfl⟩

theorem isotpPoll (h : Ahead d l l') :
    AheadWith d (l.isotpPoll e) (l'.isotpPoll (e.shift d)) := by
  obtain ⟨hl, hrest⟩ := h.pollTx e
  simp only [Link.isotpPoll, hrest]
  split_ifs
  · exact ⟨hl, rfl⟩
  · exact ⟨hl.pollRx e, rfl⟩

theorem isotpReceive (h : Ahead d l l') (outCap : ℕ) :
    AheadWith d (l.isotpReceive outCap) (l'.isotpReceive outCap) := by
  obtain ⟨t, st, r, rfl, hw, hs, hr⟩ := h
  unfold withTimers Link.isotpReceive
  dsimp only
  split_ifs
  · exact ⟨⟨t, st, r, rfl, hw, hs, hr⟩, rfl⟩
  · exact ⟨⟨t, st, r, rfl, hw, hs, hr⟩, rfl⟩
  · exact ⟨⟨t, st, r, rfl, hw, hs, hr⟩, rfl⟩

/-- A call keeps the links ahead and shows the same in both runs. -/
theorem step (h : Ahead d l l') (c : Call) :
    Ahead d (l.step c) (l'.step (c.shift d)) ∧ l'.shows (c.shift d) = l.shows c := by
  cases c with
  | send e data =>
    obtain ⟨hl, hrest⟩ := h.isotpSend e data
    exact ⟨hl, by simp only [shows, Call.shift, handed, hrest]⟩
  | frame e id data =>
    obtain ⟨hl, hrest⟩ := h.isotpOnCanFrame e data id
    exact ⟨hl, by simp only [shows, Call.shift, handed, hrest]⟩
  | poll e =>
    obtain ⟨hl, hrest⟩ := h.isotpPoll e
    exact ⟨hl, by simp only [shows, Call.shift, handed, hrest]⟩
  | receive outCap =>
    obtain ⟨hl, hrest⟩ := h.isotpReceive outCap
    exact ⟨hl, by simp only [shows, Call.shift, handed, hrest]⟩

theorem shown (h : Ahead d l l') (calls : List Call) :
    l'.shown (calls.map (Call.shift d)) = l.shown calls := by
  induction calls generalizing l l' with
  | nil => rfl
  | cons c calls ih =>
    obtain ⟨hl, hs⟩ := h.step c
    rw [List.map_cons, Link.shown, Link.shown, hs, ih hl]

end Ahead

end Link

/-- **Clock-wrap independence.**  Adding a constant modulo `2^32` to every reading of the clock
changes none of the frames handed to `can_tx`, none of the return codes and none of the delivered
messages, whatever the calls from `isotp_init()` on. -/
theorem shown_shift (txId rxId funcId : UInt32) (cfg : Option Cfg) (d : UInt32)
    (calls : List Call) :
    (isotpInit txId rxId funcId cfg).shown (calls.map (Call.shift d)) =
      (isotpInit txId rxId funcId cfg).shown calls :=
  have h : Link.Ahead d (isotpInit txId rxId funcId cfg) (isotpInit txId rxId funcId cfg) :=
    ⟨0, 0, 0, rfl, fun h => (by cases h), fun h => (by cases h), fun h => (by cases h)⟩
  h.shown calls

end IsoTp

end Espcan32
