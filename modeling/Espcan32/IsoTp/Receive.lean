import Espcan32.IsoTp.Sides

/-!
# What the receive side hands out

`RxEvent` lists the frames the receive side accepts: a SingleFrame with its payload, a
FirstFrame with its declared length and six bytes, a ConsecutiveFrame with the bytes taken from
it.  `rxHistory` records them from one successful `isotp_receive()` to the next, and `IsPdu`
says when a byte string is one complete message of such a record.

* `RxInv.step` : what every call keeps of the receive side and the record.
* `receive_isPdu` : **a collected message is one complete PDU**, in every run that never collects
  while a FirstFrame has taken the place of a message that was not collected yet.
* `cleanReceive_iff` : that condition is one on the order of the calls.
* `overrun_not_isPdu` : without that condition it need not be.
-/

namespace Espcan32

namespace IsoTp

/-- A frame the receive side accepts. -/
inductive RxEvent where
  /-- A SingleFrame and its payload. -/
  | sf (payload : List UInt8)
  /-- A FirstFrame: `FF_DL` and the first six bytes. -/
  | ff (ffDl : ℕ) (payload : List UInt8)
  /-- A ConsecutiveFrame and the bytes taken from it. -/
  | cf (payload : List UInt8)
  deriving DecidableEq, Repr

namespace Link

/-- The payload of a SingleFrame that `handle_sf()` accepts. -/
def acceptsSf (l : Link) (data : List UInt8) (functional : Bool) : Option (List UInt8) :=
  if 0 < pciLow (data.getD 0 0) ∧ pciLow (data.getD 0 0) ≤ sfMaxData ∧
      pciLow (data.getD 0 0) ≤ data.length - 1 ∧
      ¬(functional ∧ (l.rx.phase = .recv ∨ l.rx.complete)) then
    some ((data.drop 1).take (pciLow (data.getD 0 0)))
  else none

/-- The bytes `handle_cf()` takes from a ConsecutiveFrame it accepts. -/
def acceptsCf (l : Link) (data : List UInt8) : Option (List UInt8) :=
  if l.rx.phase = .recv ∧ pciLow (data.getD 0 0) = l.rx.sn ∧
      (l.rx.len - l.rx.off ≤ cfMaxData ∨ cfMaxData ≤ data.length - 1) then
    some ((data.drop 1).take (min (l.rx.len - l.rx.off) cfMaxData))
  else none

/-- The event of a frame fed to the link, if the receive side accepts it. -/
def rxEvent (l : Link) (id : UInt32) (data : List UInt8) : Option RxEvent :=
  if data.length < 1 ∨ isotpCanDl < data.length then none
  else
    match l.addressed id, pciType (data.getD 0 0) with
    | some functional, 0 => (l.acceptsSf data functional).map .sf
    | some false, 1 =>
      if data.length = isotpCanDl ∧ sfMaxData < ffDl data then some (.ff (ffDl data) (data.drop 2))
      else none
    | some false, 2 => (l.acceptsCf data).map .cf
    | _, _ => none

end Link

/-- The frames accepted since the last successful `isotp_receive()`. -/
def rxHistory (l : Link) (c : Call) (h : List RxEvent) : List RxEvent :=
  match c with
  | .frame _ id data => h ++ (l.rxEvent id data).toList
  | .receive outCap => if (l.isotpReceive outCap).2.ret = .ok then [] else h
  | _ => h

/-- `p` is one complete PDU of the record `h`: the payload of an accepted SingleFrame, or the
six bytes of an accepted FirstFrame and the bytes of the ConsecutiveFrames accepted right after
it, `FF_DL` bytes in all. -/
def IsPdu (h : List RxEvent) (p : List UInt8) : Prop :=
  (∃ pre post, h = pre ++ .sf p :: post) ∨
    ∃ (pre : List RxEvent) (six : List UInt8) (cfs : List (List UInt8)) (post : List RxEvent),
      h = pre ++ .ff p.length six :: (cfs.map .cf ++ post) ∧ p = six ++ cfs.flatten

theorem IsPdu.append {h : List RxEvent} {p : List UInt8} (hp : IsPdu h p) (es : List RxEvent) :
    IsPdu (h ++ es) p := by
  rcases hp with ⟨pre, post, rfl⟩ | ⟨pre, six, cfs, post, rfl, hp⟩
  · exact .inl ⟨pre, post ++ es, by simp⟩
  · exact .inr ⟨pre, six, cfs, post ++ es, by simp, hp⟩

/-! ### What the handlers do to the receive side -/

namespace Link

variable (l : Link) (e : Env) (data : List UInt8)

theorem handleSf_rx (functional : Bool) :
    (l.handleSf data functional).rx =
      match l.acceptsSf data functional with
      | some p => { l.rx with
          buf := l.rx.buf.copy 0 p, len := p.length, off := p.length, phase := .idle
          result := .ok, functional := functional, complete := true }
      | none => l.rx := by
  unfold handleSf acceptsSf
  dsimp only
  by_cases h₁ : pciLow (data.getD 0 0) = 0 ∨ sfMaxData < pciLow (data.getD 0 0)
  · rw [if_pos h₁, if_neg (by omega)]
  rw [if_neg h₁]
  by_cases h₂ : data.length - 1 < pciLow (data.getD 0 0)
  · rw [if_pos h₂, if_neg (by omega)]
  rw [if_neg h₂]
  by_cases h₃ : functional = true ∧ (l.rx.phase = .recv ∨ l.rx.complete = true)
  · rw [if_pos h₃, if_neg fun h => h.2.2.2 h₃]
  rw [if_neg h₃, if_pos ⟨by omega, by omega, by omega, h₃⟩]
  simp only [List.length_take, List.length_drop]
  rw [Nat.min_eq_left (by omega)]

theorem ffDl_le (data : List UInt8) : ffDl data ≤ isotpMaxMsg := by
  have h := (data.getD 1 0).toNat_lt
  rw [ffDl, shiftLeft_or_eq_add h, pciLow, toNat_low_nibble]
  simp only [isotpMaxMsg]
  omega

/-- The receive side after a FirstFrame that is accepted. -/
def rxAfterFf (now : UInt32) : RxSide :=
  { l.rx with
    buf := l.rx.buf.copy 0 ((data.drop 2).take ffFirstData), len := ffDl data, off := ffFirstData
    sn := 1, blockCf := 0, phase := .recv, result := .ok, functional := false, timer := now }

/-- A FirstFrame is accepted when it fills the frame and declares more than a SingleFrame holds:
no `FF_DL` is too long for the buffer. -/
theorem handleFf_accepts (hd : data.length = isotpCanDl) (hf : sfMaxData < ffDl data) :
    l.handleFf e data = ({ l with rx := l.rxAfterFf data e.now }, some (l.sendFc .cts)) := by
  rw [handleFf, if_neg (not_not.2 hd), if_neg (Nat.not_le.2 hf),
    if_neg (Nat.not_lt.2 (ffDl_le data))]
  rfl

theorem handleFf_ignores (h : ¬(data.length = isotpCanDl ∧ sfMaxData < ffDl data)) :
    l.handleFf e data = (l, none) := by
  by_cases hd : data.length = isotpCanDl
  · rw [handleFf, if_neg (not_not.2 hd), if_pos (Nat.not_lt.1 fun hf => h ⟨hd, hf⟩)]
  · rw [handleFf, if_pos hd]

theorem length_acceptsSf {functional : Bool} {p : List UInt8}
    (h : l.acceptsSf data functional = some p) : 0 < p.length ∧ p.length ≤ sfMaxData := by
  unfold acceptsSf at h
  split_ifs at h with hc
  obtain rfl := Option.some.inj h
  rw [List.length_take, List.length_drop]
  omega

theorem length_acceptsCf {p : List UInt8} (h : l.acceptsCf data = some p) :
    p.length ≤ l.rx.len - l.rx.off := by
  unfold acceptsCf at h
  split_ifs at h
  obtain rfl := Option.some.inj h
  rw [List.length_take]; omega

/-- The ConsecutiveFrame completes a block that is not the last one: the next grant is due. -/
def BlockDone : Prop := l.cfg.bs ≠ 0 ∧ l.cfg.bs.toNat ≤ (l.rx.blockCf + 1) % 256

instance : Decidable l.BlockDone := inferInstanceAs (Decidable (_ ∧ _))

/-- The receive side after a ConsecutiveFrame from which the bytes `p` are taken. -/
def rxAfterCf (p : List UInt8) (now : UInt32) : RxSide :=
  let r := { l.rx with
    buf := l.rx.buf.copy l.rx.off p, off := l.rx.off + p.length, sn := (l.rx.sn + 1) % 16
    blockCf := (l.rx.blockCf + 1) % 256, timer := now }
  if l.rx.len ≤ l.rx.off + p.length then { r with result := .ok, complete := true, phase := .idle }
  else if l.BlockDone then { r with blockCf := 0 }
  else r

/-- The grant sent after a ConsecutiveFrame from which the bytes `p` are taken. -/
def fcAfterCf (p : List UInt8) : Option CanFrame :=
  if l.rx.len ≤ l.rx.off + p.length then none
  else if l.BlockDone then some (l.sendFc .cts)
  else none

/-- `handle_cf()` in terms of the bytes it takes: in a reception below its length no subtraction
wraps. -/
theorem handleCf_some (hlen : l.rx.len ≤ isotpMaxMsg) (hoff : l.rx.off < l.rx.len)
    {p : List UInt8} (hp : l.acceptsCf data = some p) :
    l.handleCf e data = ({ l with rx := l.rxAfterCf p e.now }, l.fcAfterCf p) := by
  simp only [isotpMaxMsg] at hlen
  have hple := length_acceptsCf l data hp
  unfold acceptsCf at hp
  split_ifs at hp with h
  obtain ⟨hr, hsn, hsh⟩ := h
  replace hp := Option.some.inj hp
  -- the `uint16_t` arithmetic does not wrap
  have hrem : sub16 l.rx.len l.rx.off = l.rx.len - l.rx.off := sub16_of_le (by omega) hoff.le
  have hav : (if 1 < data.length then data.length - 1 else 0) = data.length - 1 := by
    split_ifs <;> omega
  have htake : (if data.length - 1 < (if l.rx.len - l.rx.off < cfMaxData then l.rx.len - l.rx.off
      else cfMaxData) then data.length - 1
      else if l.rx.len - l.rx.off < cfMaxData then l.rx.len - l.rx.off else cfMaxData) =
      p.length := by
    rw [← hp, List.length_take, List.length_drop]
    split_ifs <;> omega
  have htp : (data.drop 1).take p.length = p := by
    rw [← hp, List.length_take, List.take_eq_take_iff]
    omega
  have hoff' : wrap16 (l.rx.off + p.length) = l.rx.off + p.length := wrap16_of_lt (by omega)
  simp only [handleCf, if_neg (not_not.2 hr), if_neg (not_not.2 hsn), hrem, hav,
    if_neg (fun h => by omega : ¬(cfMaxData < l.rx.len - l.rx.off ∧ data.length - 1 < cfMaxData)),
    htake, htp, hoff', and_low_nibble]
  by_cases hfull : l.rx.len ≤ l.rx.off + p.length
  · simp only [rxAfterCf, fcAfterCf, if_pos hfull]
  by_cases hb : l.cfg.bs ≠ 0 ∧ l.cfg.bs.toNat ≤ (l.rx.blockCf + 1) % 256
  · have hb' : l.BlockDone := hb
    simp only [rxAfterCf, fcAfterCf, if_neg hfull, if_pos hb, if_pos hb']
    rfl
  · have hb' : ¬l.BlockDone := hb
    simp only [rxAfterCf, fcAfterCf, if_neg hfull, if_neg hb, if_neg hb']

/-- A ConsecutiveFrame that is not accepted ends the reception, if there is one. -/
theorem handleCf_none (hlen : l.rx.len ≤ isotpMaxMsg)
    (hoff : l.rx.phase = .recv → l.rx.off < l.rx.len) (hp : l.acceptsCf data = none) :
    (l.handleCf e data).2 = none ∧ ((l.rx.phase ≠ .recv ∧ (l.handleCf e data).1 = l) ∨
      (l.rx.phase = .recv ∧ RxAborted (l.handleCf e data).1.rx ∧
        (l.handleCf e data).1.rx.complete = l.rx.complete)) := by
  simp only [isotpMaxMsg] at hlen
  unfold acceptsCf at hp
  split_ifs at hp with h
  unfold handleCf
  extract_lets dlc _ remaining avail
  by_cases hr : l.rx.phase = .recv
  swap
  · rw [if_pos hr]; exact ⟨rfl, .inl ⟨hr, rfl⟩⟩
  rw [if_neg (not_not.2 hr)]
  by_cases hsn : pciLow (data.getD 0 0) = l.rx.sn
  swap
  · rw [if_pos hsn]; exact ⟨rfl, .inr ⟨hr, ⟨rfl, rfl⟩, rfl⟩⟩
  rw [if_neg (not_not.2 hsn), if_pos]
  · exact ⟨rfl, .inr ⟨hr, ⟨rfl, rfl⟩, rfl⟩⟩
  · have hrem : remaining = l.rx.len - l.rx.off := sub16_of_le (by omega) (hoff hr).le
    have hav : avail = data.length - 1 := by simp only [avail, dlc]; split_ifs <;> omega
    have hsh : ¬(l.rx.len - l.rx.off ≤ cfMaxData ∨ cfMaxData ≤ data.length - 1) :=
      fun h' => h ⟨hr, hsn, h'⟩
    omega

/-- A frame changes the receive side through one of its handlers, or not at all. -/
theorem rx_of_frame {P : RxSide → Option RxEvent → Prop} (id : UInt32) (hkeep : P l.rx none)
    (hsf : ∀ functional, P (l.handleSf data functional).rx ((l.acceptsSf data functional).map .sf))
    (hff : P (l.handleFf e data).1.rx (if data.length = isotpCanDl ∧ sfMaxData < ffDl data
      then some (.ff (ffDl data) (data.drop 2)) else none))
    (hcf : P (l.handleCf e data).1.rx ((l.acceptsCf data).map .cf)) :
    P (l.isotpOnCanFrame e id data).1.rx (l.rxEvent id data) := by
  unfold isotpOnCanFrame rxEvent
  by_cases hd : data.length < 1 ∨ isotpCanDl < data.length
  · rw [if_pos hd, if_pos hd]; exact hkeep
  rw [if_neg hd, if_neg hd]
  cases ha : l.addressed id with
  | none => exact hkeep
  | some functional =>
    dsimp only
    rcases hp : pciType (data.getD 0 0) with _ | _ | _ | _ | n
    · exact hsf functional
    · cases functional
      · exact hff
      · exact hkeep
    · cases functional
      · exact hcf
      · exact hkeep
    · cases functional <;> simpa using hkeep
    · exact hkeep

end Link

/-! ### The invariant of the receive side -/

/-- What holds of the receive side and the record between calls. -/
structure RxInv (r : RxSide) (h : List RxEvent) : Prop where
  /-- A reception under way has stored the bytes of the last FirstFrame and of the
  ConsecutiveFrames accepted since. -/
  recv : r.phase = .recv → ∃ (pre : List RxEvent) (six : List UInt8) (cfs : List (List UInt8)),
    h = pre ++ .ff r.len six :: cfs.map .cf ∧ r.buf.read 0 r.off = six ++ cfs.flatten ∧
      r.off < r.len ∧ r.len ≤ isotpMaxMsg
  /-- A message that is complete, with no reception over it or given up after it, is a PDU. -/
  done : r.phase ≠ .recv → r.complete → 0 < r.len → IsPdu h (r.buf.read 0 r.len)

namespace RxInv

variable {r : RxSide} {h : List RxEvent}

theorem of_aborted (hr : Link.RxAborted r) : RxInv r h where
  recv hp := by rw [hr.1] at hp; cases hp
  done _ _ hl := by rw [hr.2] at hl; cases hl

/-- Without a reception under way the record may grow. -/
theorem append (hi : RxInv r h) (hp : r.phase ≠ .recv) (es : List RxEvent) :
    RxInv r (h ++ es) where
  recv hr := absurd hr hp
  done _ hc hl := (hi.done hp hc hl).append es

variable {l : Link} {e : Env} {id : UInt32} {data : List UInt8}

theorem sf (hi : RxInv l.rx h) (functional : Bool) :
    RxInv (l.handleSf data functional).rx
      (h ++ ((l.acceptsSf data functional).map RxEvent.sf).toList) := by
  rw [Link.handleSf_rx]
  cases hs : l.acceptsSf data functional with
  | none => simpa using hi
  | some p =>
    refine ⟨by simp, fun _ _ _ => .inl ⟨h, [], ?_⟩⟩
    simp

theorem ff (hi : RxInv l.rx h) :
    RxInv (l.handleFf e data).1.rx (h ++ (if data.length = isotpCanDl ∧ sfMaxData < Link.ffDl data
      then some (RxEvent.ff (Link.ffDl data) (data.drop 2)) else none).toList) := by
  by_cases hf : data.length = isotpCanDl ∧ sfMaxData < Link.ffDl data
  swap
  · rw [if_neg hf, l.handleFf_ignores e data hf]; simpa using hi
  rw [if_pos hf, l.handleFf_accepts e data hf.1 hf.2]
  have hl : (data.drop 2).length = ffFirstData := by rw [List.length_drop, hf.1]; rfl
  have h6 : (data.drop 2).take ffFirstData = data.drop 2 := List.take_of_length_le hl.le
  refine ⟨fun _ => ⟨h, data.drop 2, [], by simp [Link.rxAfterFf], ?_, ?_, Link.ffDl_le data⟩,
    by simp [Link.rxAfterFf]⟩
  · dsimp only [Link.rxAfterFf]
    rw [h6, ← hl, Mem.read_copy]; simp
  · exact lt_of_le_of_lt (by simp [Link.rxAfterFf]) hf.2

theorem cf (hi : RxInv l.rx h) :
    RxInv (l.handleCf e data).1.rx (h ++ ((l.acceptsCf data).map RxEvent.cf).toList) := by
  by_cases hr : l.rx.phase = .recv
  swap
  · have ha : l.acceptsCf data = none := if_neg fun h => hr h.1
    simpa [ha, Link.handleCf, hr] using hi
  obtain ⟨pre, six, cfs, rfl, hbuf, hlt, hle⟩ := hi.recv hr
  cases hc : l.acceptsCf data with
  | none =>
    obtain ⟨-, ⟨-, hu⟩ | ⟨-, ha, -⟩⟩ := l.handleCf_none e data hle (fun _ => hlt) hc
    · rw [hu]; simpa using hi
    · exact of_aborted ha
  | some p =>
    rw [l.handleCf_some e data hle hlt hc]
    have hple := l.length_acceptsCf data hc
    -- the buffer grows by the bytes of the frame
    have hread : (l.rx.buf.copy l.rx.off p).read 0 (l.rx.off + p.length) =
        six ++ (cfs ++ [p]).flatten := by
      rw [Mem.read_copy_append, hbuf]; simp
    dsimp only [Link.rxAfterCf]
    by_cases hfull : l.rx.len ≤ l.rx.off + p.length
    · rw [if_pos hfull]
      refine ⟨by simp, fun _ _ _ => .inr ⟨pre, six, cfs ++ [p], [], by simp, ?_⟩⟩
      dsimp only
      rw [← hread]
      congr 1
      omega
    · rw [if_neg hfull]
      split_ifs
      · exact ⟨fun _ => ⟨pre, six, cfs ++ [p], by simp, hread, by simpa using hfull, hle⟩,
          fun hp => absurd hr hp⟩
      · exact ⟨fun _ => ⟨pre, six, cfs ++ [p], by simp, hread, by simpa using hfull, hle⟩,
          fun hp => absurd hr hp⟩

theorem frame (hi : RxInv l.rx h) :
    RxInv (l.isotpOnCanFrame e id data).1.rx (h ++ (l.rxEvent id data).toList) :=
  l.rx_of_frame e data (P := fun r x => RxInv r (h ++ x.toList)) id (by simpa using hi) hi.sf hi.ff
    hi.cf

/-- Collecting a message that no reception has displaced empties the record. -/
theorem collect (hp : r.phase ≠ .recv) : RxInv { r with complete := false } [] where
  recv hr := absurd hr hp
  done _ hc := by cases hc

end RxInv

/-! ### Collecting messages -/

/-- No call of `isotp_receive()` collects while a FirstFrame has taken the place of a message
that was not collected: with `rx_complete` set, and room for `rx_len` bytes, no reception is
under way and none was given up. -/
def CleanReceive (l : Link) : Call → Prop
  | .receive outCap =>
    l.rx.complete → l.rx.len ≤ outCap → l.rx.phase ≠ .recv ∧ 0 < l.rx.len
  | _ => True

theorem RxInv.step {l : Link} {h : List RxEvent} {c : Call} (hi : RxInv l.rx h)
    (hc : CleanReceive l c) : RxInv (l.step c).rx (rxHistory l c h) := by
  cases c with
  | send e data => simpa [Link.step, rxHistory] using hi
  | frame e id data => exact hi.frame
  | poll e =>
    rcases l.isotpPoll_rx e with hu | ha
    · simpa [Link.step, rxHistory, hu] using hi
    · exact .of_aborted ha
  | receive outCap =>
    simp only [Link.step, rxHistory, Link.isotpReceive]
    by_cases hcomp : l.rx.complete = false
    · simpa [hcomp] using hi
    by_cases hcap : outCap < l.rx.len
    · simpa [hcomp, hcap] using hi
    have hp := (hc (by simpa using hcomp) (Nat.not_lt.1 hcap)).1
    simpa [hcomp, hcap] using RxInv.collect hp

/-- What `isotp_receive()` does when it returns `ISOTP_OK`. -/
theorem Link.isotpReceive_ok {l : Link} {outCap : ℕ} (h : (l.isotpReceive outCap).2.ret = .ok) :
    l.rx.complete = true ∧ l.rx.len ≤ outCap ∧
      (l.isotpReceive outCap).2.out = l.rx.buf.read 0 l.rx.len := by
  unfold isotpReceive at h ⊢
  split_ifs at h ⊢ with hc hcap
  exact ⟨by simpa using hc, by omega, rfl⟩

/-! ### The condition on the calls -/

/-- Whether a FirstFrame has displaced a message that was not collected, and no message has been
completed since, after an event of the receive side. -/
def displacedBy (r : RxSide) (d : Bool) : Option RxEvent → Bool
  | some (.sf _) => false
  | some (.ff _ _) => r.complete
  | some (.cf p) => d && decide (r.off + p.length < r.len)
  | none => d

/-- The same after a call; what is collected is no longer displaced. -/
def displaced (l : Link) (c : Call) (d : Bool) : Bool :=
  match c with
  | .frame _ id data => displacedBy l.rx d (l.rxEvent id data)
  | .receive outCap => d && decide ((l.isotpReceive outCap).2.ret ≠ .ok)
  | _ => d

/-- What holds of the receive side between calls: a displaced message is one that `rx_complete`
still promises, while the reception over it is under way or was given up. -/
structure DisplacedInv (r : RxSide) (d : Bool) : Prop where
  recv : r.phase = .recv → r.off < r.len ∧ r.len ≤ isotpMaxMsg
  iff : d = true ↔ r.complete = true ∧ (r.phase = .recv ∨ r.len = 0)

namespace DisplacedInv

variable {r : RxSide} {d : Bool} {l : Link} {e : Env} {id : UInt32} {data : List UInt8}

theorem of_aborted {r' : RxSide} (hi : DisplacedInv r d) (hp : r.phase = .recv)
    (ha : Link.RxAborted r') (hc : r'.complete = r.complete) : DisplacedInv r' d where
  recv h := by rw [ha.1] at h; cases h
  iff := by simp [hi.iff, hp, ha.2, hc]

theorem sf (hi : DisplacedInv l.rx d) (functional : Bool) :
    DisplacedInv (l.handleSf data functional).rx
      (displacedBy l.rx d ((l.acceptsSf data functional).map .sf)) := by
  rw [Link.handleSf_rx]
  cases hs : l.acceptsSf data functional with
  | none => exact hi
  | some p =>
    have hlen := (l.length_acceptsSf data hs).1
    refine ⟨nofun, ?_⟩
    simp only [displacedBy, Option.map_some]
    exact iff_of_false nofun fun h => h.2.elim nofun hlen.ne'

theorem ff (hi : DisplacedInv l.rx d) :
    DisplacedInv (l.handleFf e data).1.rx (displacedBy l.rx d
      (if data.length = isotpCanDl ∧ sfMaxData < Link.ffDl data
      then some (RxEvent.ff (Link.ffDl data) (data.drop 2)) else none)) := by
  by_cases hf : data.length = isotpCanDl ∧ sfMaxData < Link.ffDl data
  swap
  · rw [if_neg hf, l.handleFf_ignores e data hf]
    exact hi
  rw [if_pos hf, l.handleFf_accepts e data hf.1 hf.2]
  -- the message is displaced if there is one
  refine ⟨fun _ => ⟨lt_of_le_of_lt (by simp [Link.rxAfterFf]) hf.2, Link.ffDl_le data⟩, ?_⟩
  exact ⟨fun hc => ⟨hc, .inl rfl⟩, fun h => h.1⟩

theorem cf (hi : DisplacedInv l.rx d) :
    DisplacedInv (l.handleCf e data).1.rx
      (displacedBy l.rx d ((l.acceptsCf data).map .cf)) := by
  by_cases hr : l.rx.phase = .recv
  swap
  · have ha : l.acceptsCf data = none := if_neg fun h => hr h.1
    simpa [ha, Link.handleCf, hr, displacedBy] using hi
  obtain ⟨hlt, hle⟩ := hi.recv hr
  cases hc : l.acceptsCf data with
  | none =>
    obtain ⟨-, ⟨hp, -⟩ | ⟨-, ha, hcomp⟩⟩ := l.handleCf_none e data hle (fun _ => hlt) hc
    · exact absurd hr hp
    · exact hi.of_aborted hr ha hcomp
  | some p =>
    rw [l.handleCf_some e data hle hlt hc]
    simp only [displacedBy, Option.map_some, Link.rxAfterCf]
    by_cases hfull : l.rx.len ≤ l.rx.off + p.length
    · -- the message that took its place is complete
      rw [if_pos hfull, decide_eq_false (Nat.not_lt.2 hfull), Bool.and_false]
      refine ⟨nofun, iff_of_false nofun fun h => h.2.elim nofun fun hl => ?_⟩
      have hl : l.rx.len = 0 := hl
      omega
    · rw [if_neg hfull, decide_eq_true (Nat.not_le.1 hfull), Bool.and_true]
      split_ifs <;> exact ⟨fun _ => ⟨Nat.not_le.1 hfull, hle⟩, hi.iff⟩

theorem frame (hi : DisplacedInv l.rx d) :
    DisplacedInv (l.isotpOnCanFrame e id data).1.rx (displacedBy l.rx d (l.rxEvent id data)) :=
  l.rx_of_frame e data (P := fun r x => DisplacedInv r (displacedBy l.rx d x)) id hi hi.sf hi.ff
    hi.cf

theorem poll (hi : DisplacedInv l.rx d) : DisplacedInv (l.isotpPoll e).1.rx d := by
  rw [Link.isotpPoll_eq]
  dsimp only
  unfold Link.pollRx
  split_ifs with _ hrecv
  · exact hi
  · exact hi.of_aborted hrecv.1 ⟨rfl, rfl⟩ rfl
  · exact hi

theorem step {c : Call} (hi : DisplacedInv l.rx d) :
    DisplacedInv (l.step c).rx (displaced l c d) := by
  cases c with
  | send e data => simpa [Link.step, displaced] using hi
  | frame e id data => exact hi.frame
  | poll e => exact hi.poll
  | receive outCap =>
    simp only [Link.step, displaced, Link.isotpReceive]
    by_cases hcomp : l.rx.complete = false
    · simpa [hcomp] using hi
    by_cases hcap : outCap < l.rx.len
    · simpa [hcomp, hcap] using hi
    · -- the message is collected
      refine ⟨?_, ?_⟩
      · simpa [hcomp, hcap] using hi.recv
      · simp [hcomp, hcap]

end DisplacedInv

/-- The condition in terms of the calls: no call of `isotp_receive()` returns `ISOTP_OK` after a
FirstFrame was accepted over a message that was not collected, unless a message has been completed
since. -/
theorem cleanReceive_iff {txId rxId funcId : UInt32} {cfg : Option Cfg} {calls : List Call}
    {l : Link} {d : Bool}
    (hrun : (linkSystem.withAux displaced).Run (isotpInit txId rxId funcId cfg, false) calls (l, d))
    (outCap : ℕ) :
    CleanReceive l (.receive outCap) ↔ ((l.isotpReceive outCap).2.ret = .ok → d = false) := by
  have hi : DisplacedInv l.rx d := by
    refine hrun.invariant (I := fun s => DisplacedInv s.1.rx s.2) ⟨?_, ?_⟩ ?_
    · simp [isotpInit]
    · simp [isotpInit]
    · rintro ⟨l, d⟩ c ⟨l', d'⟩ hi ⟨hst, rfl⟩
      obtain rfl : l.step c = l' := Option.some.inj hst
      exact hi.step
  have hok : (l.isotpReceive outCap).2.ret = .ok ↔ l.rx.complete = true ∧ l.rx.len ≤ outCap := by
    refine ⟨fun h => ⟨(Link.isotpReceive_ok h).1, (Link.isotpReceive_ok h).2.1⟩, fun ⟨hc, hcap⟩ => ?_⟩
    simp [Link.isotpReceive, hc, Nat.not_lt.2 hcap]
  rw [hok, CleanReceive, and_imp]
  refine forall_congr' fun hc => forall_congr' fun _ => ?_
  rw [← Bool.not_eq_true, hi.iff, not_and_or, not_or]
  constructor
  · rintro ⟨hp, hl⟩
    exact .inr ⟨hp, hl.ne'⟩
  · rintro (h | ⟨hp, hl⟩)
    · exact absurd hc h
    · exact ⟨hp, Nat.pos_of_ne_zero hl⟩

/-- **A collected message is one complete PDU.**  In every run of a link from `isotp_init()` in
which no call collects a displaced message, what `isotp_receive()` hands out with `ISOTP_OK` is
one complete PDU of the frames accepted since the previous successful call. -/
theorem receive_isPdu {txId rxId funcId : UInt32} {cfg : Option Cfg} {calls : List Call}
    {l : Link} {h : List RxEvent} {outCap : ℕ}
    (hrun : ((linkSystem.guard CleanReceive).withAux rxHistory).Run
      (isotpInit txId rxId funcId cfg, []) calls (l, h))
    (hclean : CleanReceive l (.receive outCap))
    (hok : (l.isotpReceive outCap).2.ret = .ok) : IsPdu h (l.isotpReceive outCap).2.out := by
  have hinv : RxInv l.rx h := by
    refine hrun.invariant (I := fun s => RxInv s.1.rx s.2) ⟨by simp [isotpInit], ?_⟩ ?_
    · simp [isotpInit]
    · rintro ⟨l, h⟩ c ⟨l', h'⟩ hi ⟨⟨hc, hst⟩, rfl⟩
      obtain rfl : l.step c = l' := Option.some.inj hst
      exact hi.step hc
  obtain ⟨hcomp, hcap, hout⟩ := Link.isotpReceive_ok hok
  obtain ⟨hp, hl⟩ := hclean hcomp hcap
  rw [hout]
  exact hinv.done hp hcomp hl

/-- The link and the record after a ten-byte message with a poll between its two frames. -/
def tenBytes : Link × List RxEvent :=
  [.frame ⟨0, true⟩ 0x7E0 [0x10, 10, 1, 2, 3, 4, 5, 6], .poll ⟨5, true⟩,
    .frame ⟨6, true⟩ 0x7E0 [0x21, 7, 8, 9, 10]].foldl
      (fun p c => (p.1.step c, rxHistory p.1 c p.2)) (testLink, [])

theorem receive_isPdu_tenBytes :
    IsPdu tenBytes.2 (tenBytes.1.isotpReceive 4095).2.out ∧
      (tenBytes.1.isotpReceive 4095).2.out = [1, 2, 3, 4, 5, 6, 7, 8, 9, 10] := by
  have h₀ : ((linkSystem.guard CleanReceive).withAux rxHistory).Run (testLink, []) [] _ := .nil
  have h₁ := h₀.snocFun (.frame ⟨0, true⟩ 0x7E0 [0x10, 10, 1, 2, 3, 4, 5, 6]) trivial
  have h₂ := h₁.snocFun (.poll ⟨5, true⟩) trivial
  have h₃ := h₂.snocFun (.frame ⟨6, true⟩ 0x7E0 [0x21, 7, 8, 9, 10]) trivial
  have hok : (tenBytes.1.isotpReceive 4095).2.ret = .ok := by decide +kernel
  refine ⟨receive_isPdu h₃ (fun _ _ => ?_) hok, ?_⟩ <;> decide +kernel

/-- A FirstFrame that arrives over a message not collected yet: the SingleFrame's `rx_complete`
hands out the ten bytes that are only just being received. -/
theorem overrun_not_isPdu : ¬∀ (calls : List Call) (l : Link) (h : List RxEvent) (outCap : ℕ),
    (linkSystem.withAux rxHistory).Run (testLink, []) calls (l, h) →
      (l.isotpReceive outCap).2.ret = .ok → IsPdu h (l.isotpReceive outCap).2.out := by
  intro hall
  have h := hall [.frame ⟨0, true⟩ 0x7E0 [0x01, 0xAA],
    .frame ⟨1, true⟩ 0x7E0 [0x10, 10, 1, 2, 3, 4, 5, 6]] _ _ 4095
      (System.Run.foldl Link.step rxHistory _ _) rfl
  replace h : IsPdu [.sf [0xAA], .ff 10 [1, 2, 3, 4, 5, 6]] [1, 2, 3, 4, 5, 6, 0, 0, 0, 0] := h
  rcases h with ⟨pre, post, h⟩ | ⟨pre, six, cfs, post, h, hp⟩
  · have hm : RxEvent.sf [1, 2, 3, 4, 5, 6, 0, 0, 0, 0] ∈
        [RxEvent.sf [0xAA], .ff 10 [1, 2, 3, 4, 5, 6]] := by rw [h]; simp
    exact absurd hm (by decide)
  · -- no ConsecutiveFrame was accepted, so the message would be the six bytes alone
    cases cfs with
    | nil =>
      have hm : RxEvent.ff 10 [1, 2, 3, 4, 5, 6, 0, 0, 0, 0] ∈
          [RxEvent.sf [0xAA], .ff 10 [1, 2, 3, 4, 5, 6]] := by
        have h6 : six = [1, 2, 3, 4, 5, 6, 0, 0, 0, 0] := by simpa using hp.symm
        rw [h, h6]; simp
      exact absurd hm (by decide)
    | cons c cfs =>
      have hm : RxEvent.cf c ∈ [RxEvent.sf [0xAA], .ff 10 [1, 2, 3, 4, 5, 6]] := by
        rw [h]; simp
      simp at hm

end IsoTp

end Espcan32
