import Espcan32.Bench.Loop

/-!
# Separation in real time

A CTS asks for a minimum time between ConsecutiveFrames.  The link measures it on a clock in whole
milliseconds, so that of two polls whose readings differ by one, one can come just before the
millisecond and the other right behind it.

`pace` notes, in a run of the bench loop, every two ConsecutiveFrames sent one after the other
under one CTS, with the microseconds at which the two polls read the clock.

* `Paced.poll` : what holds between the link and the notes when a ConsecutiveFrame goes out.
* `Pair.Kept.gap` : the real time is short of the measured one by what the first reading was past
  its millisecond, and no more.
* `separation` : **the separation time is kept in every run for STmin 0 only**, and for the other
  values in the runs whose ConsecutiveFrames go out early enough in a millisecond.
-/

namespace Espcan32

open IsoTp Uds

namespace Bench

/-- The separation time that a byte of STmin stands for, in microseconds. -/
def separationUs (s : UInt8) : ℕ :=
  if s ≤ 0x7F then s.toNat * 1000
  else if 0xF1 ≤ s ∧ s ≤ 0xF9 then (s.toNat - 0xF0) * 100
  else 127000

/-! ### What is noted of a run -/

/-- Two ConsecutiveFrames sent one after the other under a CTS with the byte `stmin`, and what the
clock showed at the polls that sent them. -/
structure Pair where
  stmin : UInt8
  first : ℕ
  second : ℕ
  deriving DecidableEq, Repr

/-- The STmin of the last CTS, the time of the last ConsecutiveFrame under it, and the pairs so
far. -/
structure Pace where
  grant : Option UInt8
  last : Option ℕ
  pairs : List Pair

/-- Nothing noted. -/
def Pace.zero : Pace := ⟨none, none, []⟩

/-- The notes after an event of the send side at the time `us`. -/
def Pace.note (us : ℕ) (r : Pace) : Option TxEvent → Pace
  | some (.cts _ st) => { r with grant := some st, last := none }
  | some (.cf _ _) => { r with
      last := some us
      pairs := r.pairs ++
        (r.grant.bind fun st => r.last.map fun a => (⟨st, a, us⟩ : Pair)).toList }
  | some _ => { r with grant := none, last := none }
  | none => r

/-- The event of the send side when the frame is fed. -/
def State.frameEvent (b : State) (t : Turn) : Option TxEvent :=
  t.frame.bind fun f => b.link.txEvent (.frame t.frameEnv f.1 f.2)

/-- The event of the send side when the link is polled. -/
def State.pollEvent (b : State) (t : Turn) : Option TxEvent :=
  (b.fed t).txEvent (.poll t.pollEnv)

/-- The notes after a turn of the loop. -/
def pace (b : State) (t : Turn) (r : Pace) : Pace :=
  (r.note t.frameUs (b.frameEvent t)).note t.pollUs (b.pollEvent t)

/-- The event is a ConsecutiveFrame. -/
def IsCf : Option TxEvent → Prop
  | some (.cf _ _) => True
  | _ => False

instance : (e : Option TxEvent) → Decidable (IsCf e)
  | some (.cf _ _) => instDecidableTrue
  | none | some (.start _ _) | some (.cts _ _) | some .giveUp => instDecidableFalse

/-- In every run of the bench loop, two ConsecutiveFrames sent one after the other under a CTS with
the byte `s` are at least its separation time apart. -/
def KeepsSeparation (s : UInt8) : Prop :=
  ∀ us turns b r, (system.withAux pace).Run (init us, .zero) turns (b, r) →
    ∀ p ∈ r.pairs, p.stmin = s → separationUs s ≤ p.second - p.first

/-! ### What the notes say about the link -/

/-- A pair that the link has measured: the readings are in order, in milliseconds they are the
separation time apart, and the first one meets `Q`. -/
def Pair.Kept (Q : UInt8 → ℕ → Prop) (p : Pair) : Prop :=
  p.first ≤ p.second ∧
    stminToMs p.stmin ≤ elapsed (benchMillis p.second) (benchMillis p.first) ∧ Q p.stmin p.first

/-- What holds between the link and the notes when the clock has shown `clock`; `Q` holds of every
ConsecutiveFrame that another one can follow in its block. -/
structure Paced (Q : UInt8 → ℕ → Prop) (l : Link) (r : Pace) (clock : ℕ) : Prop where
  inRange : l.InRange
  /-- In a block, the separation timer was set when the last ConsecutiveFrame went out. -/
  send : l.tx.phase = .send → r.grant = some l.tx.stmin ∧
    ∀ a, r.last = some a → l.tx.stTimer = benchMillis a ∧ a ≤ clock ∧ Q l.tx.stmin a
  pairs : ∀ p ∈ r.pairs, p.Kept Q

namespace Paced

variable {Q : UInt8 → ℕ → Prop} {l l' : Link} {r r' : Pace} {clock us : ℕ} {e : Env}

/-- The send side is left alone, or is not in a block. -/
theorem quiet (h : Paced Q l r clock) (hle : clock ≤ us) (hin : l'.InRange)
    (htx : l'.tx.phase = .send → l'.tx = l.tx) : Paced Q l' r us where
  inRange := hin
  send hs := by
    have heq := htx hs
    rw [heq] at hs ⊢
    obtain ⟨hg, hl⟩ := h.send hs
    exact ⟨hg, fun a ha => ⟨(hl a ha).1, (hl a ha).2.1.trans hle, (hl a ha).2.2⟩⟩
  pairs := h.pairs

/-- Outside a block nothing is measured, whatever is noted. -/
theorem stopped (h : Paced Q l r clock) (hin : l'.InRange) (hne : l'.tx.phase ≠ .send)
    (hpairs : r'.pairs = r.pairs) : Paced Q l' r' us where
  inRange := hin
  send hs := absurd hs hne
  pairs := by rw [hpairs]; exact h.pairs

theorem frame (h : Paced Q l r clock) (hle : clock ≤ us) (id : UInt32) (data : List UInt8) :
    Paced Q (l.step (.frame e id data)) (r.note us (l.txEvent (.frame e id data))) us := by
  have hin := h.inRange.step (.frame e id data)
  by_cases hf : l.IsFc data id
  swap
  · have hev : l.txEvent (.frame e id data) = none := if_neg fun h => hf h.1
    rw [hev]
    exact h.quiet hle hin fun _ => l.isotpOnCanFrame_tx e data hf
  have hstep : l.step (.frame e id data) = l.handleFc e data :=
    congrArg Prod.fst (l.isotpOnCanFrame_fc e data hf)
  rw [hstep] at hin ⊢
  rcases l.handleFc_cases e data with
    ⟨hp, hu⟩ | ⟨hp, bs, st, hcts, ht⟩ | ⟨hp, hcts, hg, hidle⟩ | ⟨hp, hcts, hg, wft, ht⟩
  · have hev : l.txEvent (.frame e id data) = none := if_neg fun h => hp h.2
    rw [hev]
    exact h.quiet hle hin fun _ => by rw [hu]
  · have hev : l.txEvent (.frame e id data) = some (.cts bs st) := by
      simp only [Link.txEvent, if_pos (And.intro hf hp), hcts]
    rw [hev]
    refine ⟨hin, fun _ => ?_, h.pairs⟩
    rw [ht]
    exact ⟨rfl, fun a ha => (by cases ha)⟩
  · have hev : l.txEvent (.frame e id data) = some .giveUp := by
      simp only [Link.txEvent, if_pos (And.intro hf hp), hcts, if_pos hg]
    rw [hev]
    exact h.stopped hin (by rw [hidle]; decide) rfl
  · have hev : l.txEvent (.frame e id data) = none := by
      simp only [Link.txEvent, if_pos (And.intro hf hp), hcts, if_neg hg]
    rw [hev]
    exact h.stopped hin (by rw [ht]; exact fun hs => absurd (hp.symm.trans hs) (by decide)) rfl

/-- A ConsecutiveFrame goes out when the separation time has passed since the last one. -/
theorem poll (h : Paced Q l r clock) (hle : clock ≤ us) (hnow : e.now = benchMillis us)
    (hQ : (l.step (.poll e)).tx.phase = .send → IsCf (l.txEvent (.poll e)) → Q l.tx.stmin us) :
    Paced Q (l.step (.poll e)) (r.note us (l.txEvent (.poll e))) us := by
  have hin := h.inRange.step (.poll e)
  rcases l.isotpPoll_cases e fun hs => (h.inRange.send (.inl hs)).2 with
    ⟨hu, hn, hw, hs⟩ | ⟨hp, ht, hidle, -⟩ | ⟨hp, hd, hf, hc⟩
  · have hev : l.txEvent (.poll e) = none := by
      simp only [Link.txEvent]
      split
      · exact if_neg fun ht => hw ⟨‹_›, ht⟩
      · rw [hn]; rfl
      · rfl
    rw [hev]
    exact h.quiet hle hin fun _ => hu
  · have hev : l.txEvent (.poll e) = some .giveUp := by
      simp only [Link.txEvent, hp, if_pos ht]
    rw [hev]
    exact h.stopped hin (by rw [Link.step, hidle]; decide) rfl
  · cases hcan : e.canTx with
    | false =>
      have hev : l.txEvent (.poll e) = some .giveUp := by
        simp only [Link.txEvent, hp, hf, hcan, Option.map_some]
        rfl
      have hidle : (l.isotpPoll e).1.tx.phase = .idle := by
        rcases hc with ⟨-, hi⟩ | ⟨ht, -⟩ | ⟨ht, -⟩
        · exact hi
        · rw [hcan] at ht; cases ht
        · rw [hcan] at ht; cases ht
      rw [hev]
      exact h.stopped hin (by rw [Link.step, hidle]; decide) rfl
    | true =>
      have hev : l.txEvent (.poll e) =
          some (.cf e.now (l.txFrame (pciByte 2 l.tx.sn :: l.nextCf))) := by
        simp only [Link.txEvent, hp, hf, hcan, Option.map_some]
        rfl
      obtain ⟨hg, hl⟩ := h.send hp
      rw [hev] at hQ ⊢
      refine ⟨hin, fun hs => ?_, fun p hpair => ?_⟩
      · rcases hc with ⟨-, hi⟩ | ⟨-, -, hi⟩ | ⟨-, -, hm⟩
        · exact absurd (hi.symm.trans hs) (by decide)
        · exact absurd (hi.symm.trans hs) (by decide)
        · have hq := hQ hs trivial
          rw [Link.step, hm]
          refine ⟨hg, fun a ha => ?_⟩
          cases ha
          exact ⟨hnow, le_refl _, hq⟩
      · -- the new pair, if a ConsecutiveFrame went out before under the same CTS
        simp only [Pace.note, hg, List.mem_append, Option.mem_toList, Option.bind_some,
          Option.map_eq_some_iff] at hpair
        rcases hpair with hpair | ⟨a, ha, rfl⟩
        · exact h.pairs p hpair
        · obtain ⟨ht, hac, hqa⟩ := hl a ha
          rw [hnow, ht] at hd
          exact ⟨hac.trans hle, hd, hqa⟩

end Paced

/-- The server only begins a transfer, which first has to be granted a block. -/
theorem benchTransport_keeps (us : ℕ) (l : Link) :
    (benchTransport us).Keeps fun p =>
      p.1.InRange ∧ (p.1.tx.phase = .send → p.1.tx = l.tx) where
  receive p h := ⟨h.1.step (.receive isotpMaxMsg), by
    dsimp only [benchTransport]
    rw [Link.isotpReceive_tx]
    exact h.2⟩
  send p data h := by
    refine ⟨h.1.step (.send ⟨benchMillis us, p.2.headD false⟩ data), fun hs => ?_⟩
    dsimp only [benchTransport] at hs ⊢
    rcases p.1.isotpSend_cases ⟨benchMillis us, p.2.headD false⟩ data with
      ⟨-, -, hu, -⟩ | ⟨-, -, -, -, hi, -⟩ | ⟨-, -, -, -, ⟨-, ht⟩ | ⟨-, hi⟩, -⟩
    · rw [hu] at hs ⊢
      exact h.2 hs
    · exact absurd (hi.symm.trans hs) (by decide)
    · rw [ht] at hs
      cases hs
    · exact absurd (hi.symm.trans hs) (by decide)

/-- `Q` holds of the ConsecutiveFrame that the poll of the link sends, unless its block ends. -/
def CfsMeet (Q : UInt8 → ℕ → Prop) (b : State) (t : Turn) : Prop :=
  (b.polled t).tx.phase = .send → IsCf (b.pollEvent t) → Q (b.fed t).tx.stmin t.pollUs

instance {Q : UInt8 → ℕ → Prop} [∀ s us, Decidable (Q s us)] (b : State) (t : Turn) :
    Decidable (CfsMeet Q b t) := by
  unfold CfsMeet; infer_instance

/-- A turn of the loop. -/
theorem Paced.turn {Q : UInt8 → ℕ → Prop} {b b' : State} {t : Turn} {r : Pace}
    (h : Paced Q b.link r b.clock) (hQ : CfsMeet Q b t) (hst : b.turn t = some b') :
    Paced Q b'.link (pace b t r) b'.clock := by
  unfold State.turn at hst
  split at hst
  swap
  · cases hst
  rename_i hord
  obtain ⟨h₁, h₂, h₃, h₄⟩ := hord
  simp only [Option.bind_eq_bind, Option.bind_eq_some_iff] at hst
  obtain ⟨p, hpoll, hst⟩ := hst
  split at hst
  · cases hst
  obtain rfl := Option.some.inj hst
  have hfed : Paced Q (b.fed t) (r.note t.frameUs (b.frameEvent t)) t.frameUs := by
    unfold State.fed State.frameEvent
    cases t.frame with
    | none => exact h.quiet h₁ h.inRange fun _ => rfl
    | some f => exact h.frame h₁ f.1 f.2
  have hpolled := hfed.poll (e := t.pollEnv) h₂ rfl hQ
  have hserver := Poll.udsServerPoll_keeps (benchTransport_keeps t.sendUs (b.polled t))
    ⟨hpolled.inRange, fun _ => rfl⟩ hpoll
  exact hpolled.quiet (h₃.trans h₄) hserver.1 hserver.2

theorem paced_init (Q : UInt8 → ℕ → Prop) (us : ℕ) : Paced Q (init us).link .zero us where
  inRange := Link.inRange_init _ _ _ _
  send hs := by cases hs
  pairs _ hp := by cases hp

/-- Every pair of a run is measured, and its first ConsecutiveFrame meets `Q`. -/
theorem kept_of_run {Q : UInt8 → ℕ → Prop} {us : ℕ} {turns : List Turn} {b : State} {r : Pace}
    (h : ((system.guard (CfsMeet Q)).withAux pace).Run (init us, .zero) turns (b, r)) :
    ∀ p ∈ r.pairs, p.Kept Q := by
  refine (h.invariant (I := fun s => Paced Q s.1.link s.2 s.1.clock) (paced_init Q us) ?_).pairs
  rintro ⟨b, r⟩ t ⟨b', r'⟩ hi ⟨⟨hQ, hst⟩, rfl⟩
  exact hi.turn hQ hst

/-! ### Real time -/

/-- What the link measures is no more than the whole milliseconds in between. -/
theorem elapsed_benchMillis_le {a b : ℕ} (h : a ≤ b) :
    (elapsed (benchMillis b) (benchMillis a)).toNat ≤ b / 1000 - a / 1000 := by
  have hdiv : a / 1000 ≤ b / 1000 := Nat.div_le_div_right h
  rw [elapsed, benchMillis, benchMillis, UInt32.toNat_sub, UInt32.toNat_ofNat',
    UInt32.toNat_ofNat']
  omega

/-- **The gap in real time** is short of what was measured by what the first reading was past its
millisecond, and no more. -/
theorem Pair.Kept.gap {Q : UInt8 → ℕ → Prop} {p : Pair} (h : p.Kept Q) :
    (stminToMs p.stmin).toNat * 1000 ≤ p.second - p.first + p.first % 1000 := by
  obtain ⟨hle, hst, -⟩ := h
  have hms := (UInt32.le_iff_toNat_le.1 hst).trans (elapsed_benchMillis_le hle)
  omega

/-! ### A run that is too fast -/

/-- The turns of a run in which the vehicle identification is read, and the CTS for the response
has the STmin `s`; its two ConsecutiveFrames go out at `first` and at `second`. -/
def vinRead (s : UInt8) (first second : ℕ) : List Turn :=
  [⟨some (0x7E0, [0x03, 0x22, 0xF1, 0x90]), 0, 0, true, 0, 0, [true], 0⟩,
    ⟨some (0x7E0, [0x30, 0x00, s]), 0, 0, true, 0, 0, [], 0⟩,
    ⟨none, first, first, true, first, first, [], 0⟩,
    ⟨none, second, second, true, second, second, [], 0⟩]

/-- The first ConsecutiveFrame goes out at the end of a millisecond, the second one at the beginning
of one. -/
def hurried (s : UInt8) : List Turn :=
  let n := (stminToMs s).toNat
  vinRead s (n * 1000 + 999) (2 * n * 1000)

/-- The run in numbers, for each of the 255 values. -/
theorem hurried_pairs : ∀ n < 256, n ≠ 0 →
    ((System.exec State.turn (fun _ _ => True) pace (init 0, .zero)
      (hurried (UInt8.ofNat n))).map fun q => q.2.pairs) =
        some [⟨UInt8.ofNat n, (stminToMs (UInt8.ofNat n)).toNat * 1000 + 999,
          2 * (stminToMs (UInt8.ofNat n)).toNat * 1000⟩] := by
  decide +kernel

theorem hurried_gap : ∀ n < 256, n ≠ 0 →
    2 * (stminToMs (UInt8.ofNat n)).toNat * 1000 -
      ((stminToMs (UInt8.ofNat n)).toNat * 1000 + 999) < separationUs (UInt8.ofNat n) := by
  decide +kernel

theorem not_keepsSeparation {s : UInt8} (hs : s ≠ 0) : ¬KeepsSeparation s := by
  intro hk
  have hn : s.toNat ≠ 0 := fun h => hs (UInt8.toNat_inj.1 h)
  have hpairs := hurried_pairs s.toNat s.toNat_lt hn
  have hgap := hurried_gap s.toNat s.toNat_lt hn
  rw [UInt8.ofNat_toNat] at hpairs hgap
  obtain ⟨⟨b, r⟩, hexec, hr⟩ := Option.map_eq_some_iff.1 hpairs
  have hrun := System.Run.of_guard_withAux (System.Run.of_exec hexec)
  have hle := hk 0 _ b r hrun _ (hr ▸ List.mem_singleton_self _) rfl
  exact absurd hle (Nat.not_le.2 hgap)

theorem not_keepsSeparation_tenMs : ¬KeepsSeparation 10 := not_keepsSeparation (by decide)

/-! ### When it is kept -/

theorem separationUs_le (s : UInt8) : separationUs s ≤ (stminToMs s).toNat * 1000 := by
  have hs := s.toNat_lt
  unfold separationUs stminToMs
  split_ifs with h₁ h₂
  · rw [UInt8.toNat_toUInt32]
  · have hle := UInt8.le_iff_toNat_le.1 h₂.2
    have h249 : (0xF9 : UInt8).toNat = 249 := rfl
    have h1 : (1 : UInt32).toNat = 1 := rfl
    omega
  · decide

/-- A ConsecutiveFrame that goes out at `us` under the STmin `s` is early enough in its millisecond
for the next one to be measured right; under another STmin it may go out at any time. -/
def Early (s stmin : UInt8) (us : ℕ) : Prop :=
  stmin = s → us % 1000 + separationUs s ≤ (stminToMs s).toNat * 1000

instance (s stmin : UInt8) (us : ℕ) : Decidable (Early s stmin us) := by
  unfold Early; infer_instance

/-- **Separation in real time.**  Two ConsecutiveFrames sent one after the other under a CTS with
the STmin `s` are at least its separation time apart, in every run of the bench loop, exactly when
`s` is 0; they are in every run whose ConsecutiveFrames under `s`, the last of a block excepted, go
out early enough in their millisecond; and in no run are they more than 999 microseconds short of
it. -/
theorem separation (s : UInt8) :
    (KeepsSeparation s ↔ s = 0) ∧
    (∀ us turns b r,
      ((system.guard (CfsMeet (Early s))).withAux pace).Run (init us, .zero) turns (b, r) →
        ∀ p ∈ r.pairs, p.stmin = s → separationUs s ≤ p.second - p.first) ∧
    ∀ us turns b r, (system.withAux pace).Run (init us, .zero) turns (b, r) →
      ∀ p ∈ r.pairs, p.stmin = s → separationUs s ≤ p.second - p.first + 999 := by
  refine ⟨⟨fun hk => ?_, ?_⟩, fun us turns b r hrun p hp hs => ?_,
    fun us turns b r hrun p hp hs => ?_⟩
  · by_contra hs
    exact not_keepsSeparation hs hk
  · rintro rfl us turns b r - p - -
    exact Nat.zero_le _
  · have hkept := kept_of_run hrun p hp
    have hgap := hkept.gap
    have hearly := hkept.2.2 hs
    rw [hs] at hgap
    omega
  · have hall : ((system.guard (CfsMeet fun _ _ => True)).withAux pace).Run (init us, .zero) turns
        (b, r) := hrun.mono fun _ _ _ hst => ⟨⟨fun _ _ => trivial, hst.1⟩, hst.2⟩
    have hgap := (kept_of_run hall p hp).gap
    have hle := separationUs_le s
    rw [hs] at hgap
    omega

/-- The first ConsecutiveFrame goes out at the beginning of a millisecond, the second one at any
time after the ten that the CTS asks for. -/
theorem separation_tenMs :
    ∃ p, System.exec State.turn (CfsMeet (Early 10)) pace (init 0, .zero)
        (vinRead 10 10000 20400) = some p ∧ p.2.pairs = [⟨10, 10000, 20400⟩] ∧
      ∀ q ∈ p.2.pairs, q.stmin = 10 → separationUs 10 ≤ q.second - q.first := by
  have hpairs : (System.exec State.turn (CfsMeet (Early 10)) pace (init 0, .zero)
      (vinRead 10 10000 20400)).map (·.2.pairs) = some [⟨10, 10000, 20400⟩] := by
    decide +kernel
  obtain ⟨⟨b, r⟩, h, hpairs⟩ := Option.map_eq_some_iff.1 hpairs
  exact ⟨(b, r), h, hpairs, (separation 10).2.1 0 _ b r (System.Run.of_exec h)⟩

end Bench

end Espcan32
