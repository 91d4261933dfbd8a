import Espcan32.Bridge.Owned

/-!
# Verdicts

`can_tx_task` keeps a frame until an event tells what became of its copy, and takes the first event
that it receives behind the acceptance as the verdict on that copy.

* `Faithful` : no frame is given up before it was transmitted or refused, the frames reach the wire
  in the order of `tx_ring`, and every verdict is the event on the copy it is taken for.
* `verdicts_faithful` : **so it is in every run** in which nothing is posted between the last read of
  the drain and the acceptance, and no cycle reuses a number that an acknowledgement still shows.
* `staleAbort_loses` : an abort that is posted in between makes `can_tx_task` submit the frame a
  second time, and give up the next one for the success of that copy.
-/

namespace Espcan32

namespace Bridge

open Pcan Twai

/-- What `can_tx_task` makes of its frames and of the events. -/
structure Faithful (s : CanState) (r : CanRecord) : Prop where
  /-- A frame that is no longer in hand was transmitted, or refused. -/
  released : ∀ n < s.pops, (∃ p ∈ s.pending, p.no = n) ∨ n ∈ r.wire ∨ n ∈ r.refused
  /-- The frames are transmitted in the order in which they were popped. -/
  order : r.wire.Pairwise (· ≤ ·)
  /-- The first event behind an acceptance is about that submission; the queue takes it, and it is
  the verdict, or the next event that `can_tx_task` receives. -/
  first : ∀ (i : ℕ) (x : Submission) (e : TxEvent) (taken : Bool), r.subs[i]? = some x →
    r.posted[x.first]? = some (e, taken) → taken = true ∧ e.about = [i] ∧
      (x.verdict = some e ∨
        x.verdict = none ∧ i + 1 = s.subs ∧ s.inflight = true ∧ s.txDone.head? = some e)
  /-- There is no other verdict. -/
  verdict : ∀ (i : ℕ) (x : Submission) (e : TxEvent), r.subs[i]? = some x → x.verdict = some e →
    r.posted[x.first]? = some (e, true) ∧ e.about = [i]

theorem Settled.first {posted : List (TxEvent × Bool)} {i : ℕ} {x : Submission} {e : TxEvent}
    {taken : Bool} (h : Settled posted i x) (he : posted[x.first]? = some (e, taken)) :
    taken = true ∧ e.about = [i] ∧ x.verdict = some e := by
  obtain ⟨e', hv, hp, ha⟩ := h
  obtain ⟨rfl, rfl⟩ := Prod.mk.inj (Option.some.inj (hp.symm.trans he))
  exact ⟨rfl, ha, hv⟩

theorem Settled.verdict {posted : List (TxEvent × Bool)} {i : ℕ} {x : Submission} {e : TxEvent}
    (h : Settled posted i x) (he : x.verdict = some e) :
    posted[x.first]? = some (e, true) ∧ e.about = [i] := by
  obtain ⟨e', hv, hp, ha⟩ := h
  obtain rfl := Option.some.inj (hv.symm.trans he)
  exact ⟨hp, ha⟩

/-- While every copy is in one place, nothing is lost or mistaken. -/
theorem Owned.faithful {s : CanState} {r : CanRecord} (h : Owned s r) : Faithful s r where
  released := h.frames
  order := h.order
  first := by
    intro i x e taken hx he
    cases h.flight with
    | idle _ _ hsubs =>
      obtain ⟨htaken, habout, hv⟩ := (hsubs i x hx).first he
      exact ⟨htaken, habout, .inl hv⟩
    | flying c xs _ _ _ _ hsubs _ hold =>
      rw [hsubs] at hx
      rcases getElem?_snoc hx with hx | ⟨-, rfl⟩
      · obtain ⟨htaken, habout, hv⟩ := (hold i x hx).first he
        exact ⟨htaken, habout, .inl hv⟩
      · -- nothing has been posted since
        have hlt := (List.getElem?_eq_some_iff.1 he).1
        rw [h.posts] at hlt
        exact absurd hlt (lt_irrefl _)
    | landed c xs e' events first hin _ _ hdone hsubs hno hposted habout _ hold =>
      -- the first event is the one at the head of the queue
      have hlen := h.subs
      rw [hsubs, List.length_append] at hlen
      rw [hsubs] at hx
      rcases getElem?_snoc hx with hx | ⟨rfl, rfl⟩
      · obtain ⟨htaken, habout, hv⟩ := (hold i x hx).first he
        exact ⟨htaken, habout, .inl hv⟩
      · obtain ⟨rfl, rfl⟩ := Prod.mk.inj (Option.some.inj (hposted.symm.trans he))
        exact ⟨rfl, by rw [habout, hno], .inr ⟨rfl, hlen, hin, by rw [hdone]; rfl⟩⟩
  verdict := by
    intro i x e hx he
    cases h.flight with
    | idle _ _ hsubs => exact (hsubs i x hx).verdict he
    | flying c xs _ _ _ _ hsubs _ hold | landed c xs _ _ _ _ _ _ _ hsubs _ _ _ _ hold =>
      rw [hsubs] at hx
      rcases getElem?_snoc hx with hx | ⟨-, rfl⟩
      · exact (hold i x hx).verdict he
      · cases he

/-! ### Runs -/

/-- The condition on the steps. -/
def Undisturbed (s : CanState) (l : CanStep) : Prop := FreshCycle s l ∧ DrainedAtSubmit s l

instance (s : CanState) (l : CanStep) : Decidable (Undisturbed s l) := by
  unfold Undisturbed; infer_instance

theorem owned_of_run {dev : DevState} {ls : List CanStep} {s : CanState} {r : CanRecord}
    (hrun : ((canSystem.guard Undisturbed).withAux canRecord).Run (.init dev, .none) ls (s, r)) :
    Owned s r := by
  refine hrun.invariant (I := fun p => Owned p.1 p.2) (.of_init dev) ?_
  rintro ⟨s, r⟩ l ⟨s', r'⟩ hi ⟨⟨hg, hst⟩, rfl⟩
  exact hi.step hg.1 hg.2 hst

/-- **No frame is lost or reordered, and no verdict is mistaken.**  In every run in which the driver
accepts a copy only while no event is left in `s_tx_done`, and no quiesce cycle reuses a number that
an acknowledgement still shows, `can_tx_task` gives a frame up only after its success or its refusal,
the successes come in the order of the ring, and the first event posted behind an acceptance is about
that submission, is never dropped, and is its verdict. -/
theorem verdicts_faithful {dev : DevState} {ls : List CanStep} {s : CanState} {r : CanRecord}
    (hrun : ((canSystem.guard Undisturbed).withAux canRecord).Run (.init dev, .none) ls (s, r)) :
    Faithful s r :=
  (owned_of_run hrun).faithful

/-- The quiesce cycle that installs the driver in normal mode. -/
def opening : List CanStep := ctrls 3 ++ parking ++ ctrls 14

/-- A frame of the host without data. -/
def emptyFrame (id : UInt32) : Frame := ⟨id, 0, 0, 0, .replicate frameMaxDlc 0, 0⟩

/-- The controller goes bus-off with the frame, which is submitted again after the recovery. -/
def resubmitted : Option (CanState × CanRecord) :=
  System.exec CanState.step Undisturbed canRecord (.init ⟨500000, false, true, true⟩, .none)
    (opening ++ [.host (emptyFrame 0x100) true] ++ txs 6 ++ [.busOff] ++ ctrls 5 ++ txs 2 ++
      [.recovered] ++ ctrls 5 ++ txs 3 ++ [.success] ++ ctrls 6 ++ txs 2)

theorem verdicts_faithful_resubmitted :
    ∃ p, resubmitted = some p ∧ p.2.subs.map (fun x => x.verdict.map (·.ev)) = [some .abort, some .ok] ∧
      p.2.wire = [0] ∧ Faithful p.1 p.2 := by
  have hr : resubmitted.map (fun p => (p.2.subs.map fun x => x.verdict.map (·.ev), p.2.wire)) =
      some ([some .abort, some .ok], [0]) := by decide +kernel
  obtain ⟨⟨s, r⟩, h, hr⟩ := Option.map_eq_some_iff.1 hr
  obtain ⟨hsubs, hwire⟩ := Prod.mk.inj hr
  exact ⟨(s, r), h, hsubs, hwire, verdicts_faithful (System.Run.of_exec h)⟩

/-- `can_tx_task` has drained `s_tx_done` when the controller goes bus-off; `ctrl_task` posts its
abort, and starts the recovered controller, before the frame is submitted.  The abort is taken for
the verdict on it, the success of the first copy for that of the second one, and the success of the
second copy for that of the next frame. -/
def staleAbort : Option (CanState × CanRecord) :=
  System.exec CanState.step FreshCycle canRecord (.init ⟨500000, false, true, true⟩, .none)
    (opening ++ [.host (emptyFrame 0x100) true] ++ txs 5 ++ [.busOff] ++ ctrls 5 ++ [.recovered] ++
      ctrls 4 ++ txs 6 ++ [.success] ++ ctrls 7 ++ txs 2 ++ [.host (emptyFrame 0x101) true] ++
      txs 4 ++ [.success] ++ ctrls 7 ++ txs 2)

theorem staleAbort_loses :
    ¬ ∀ (dev : DevState) (ls : List CanStep) (s : CanState) (r : CanRecord),
      (canSystem.withAux canRecord).Run (.init dev, .none) ls (s, r) → Faithful s r := by
  intro hall
  have hfinal : staleAbort.map (fun p => (p.1.pops, p.1.pending, p.2.wire, p.2.refused)) =
      some (2, none, [0, 0], []) := by decide +kernel
  obtain ⟨⟨s, r⟩, h, hfinal⟩ := Option.map_eq_some_iff.1 hfinal
  obtain ⟨hpops, hfinal⟩ := Prod.mk.inj hfinal
  obtain ⟨hpending, hfinal⟩ := Prod.mk.inj hfinal
  obtain ⟨hwire, hrefused⟩ := Prod.mk.inj hfinal
  have hfaithful := hall _ _ s r (System.Run.of_exec h).of_guard_withAux
  -- the second frame is gone, and only the first one was on the wire
  rcases hfaithful.released 1 (by rw [show s.pops = 2 from hpops]; decide) with ⟨p, hp, -⟩ | hn | hn
  · rw [show s.pending = none from hpending] at hp
    cases hp
  · rw [show r.wire = [0, 0] from hwire] at hn
    exact absurd hn (by decide)
  · rw [show r.refused = [] from hrefused] at hn
    cases hn

end Bridge

end Espcan32
