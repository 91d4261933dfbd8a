import Espcan32.Adapter.Basic

/-!
# From the host to the bus

The frames of the host pass from the EP2-OUT transfers through `s_msg_pending`, `tx_ring` and the
frame in hand of `can_tx_task` to the controller.

* `TxLink` : what the glue has pushed is what `can_tx_task` has popped and what is in `tx_ring`, and
  the frames on the wire are those popped under the same numbers.
* `TxInv.step` : every step keeps it.
* `host_to_bus` : **every frame that the host sent and no reset dropped is transmitted in its turn**, or
  refused for listen-only mode, or on its way.
-/

namespace Espcan32

namespace Adapter

open Pcan Bridge Usb

/-! ### The CAN side and `tx_ring` -/

theorem canTxTask_takes (c : CanState) (answer : Twai.TwaiAnswer) :
    c.txRing = popsFrame c (.tx answer) ++ (c.canTxTask answer).txRing ∧
      (c.canTxTask answer).pops = c.pops + (popsFrame c (.tx answer)).length ∧
      ∀ p ∈ (c.canTxTask answer).pending,
        p ∈ c.pending ∨ p.no = c.pops ∧ popsFrame c (.tx answer) = [p.frame] := by
  unfold popsFrame
  cases htx : c.tx with
  | top =>
    rw [CanState.canTxTask_top answer htx]
    exact ⟨rfl, rfl, fun p hp => .inl hp⟩
  | echo cycle =>
    rw [CanState.canTxTask_echo answer htx]
    exact ⟨rfl, rfl, fun p hp => .inl hp⟩
  | parked =>
    rw [CanState.canTxTask_parked answer htx]
    exact ⟨rfl, rfl, fun p hp => .inl hp⟩
  | pop =>
    cases hring : c.txRing with
    | nil =>
      rw [CanState.canTxTask_pop_nil answer htx hring]
      exact ⟨hring.symm, rfl, fun p hp => .inl hp⟩
    | cons f ring =>
      rw [CanState.canTxTask_pop_cons answer htx hring]
      refine ⟨rfl, rfl, fun p hp => .inr ?_⟩
      obtain rfl := Option.some.inj hp
      exact ⟨rfl, rfl⟩
  | drain =>
    cases hdone : c.txDone with
    | nil =>
      rw [CanState.canTxTask_drain_nil answer htx hdone]
      exact ⟨rfl, rfl, fun p hp => .inl hp⟩
    | cons e events =>
      rw [CanState.canTxTask_drain_cons answer htx hdone]
      exact ⟨rfl, rfl, fun p hp => .inl hp⟩
  | transmit =>
    cases hp : c.pending with
    | none =>
      simp only [CanState.canTxTask, htx, hp]
      exact ⟨rfl, rfl, fun p hp' => .inl (hp ▸ hp')⟩
    | some p =>
      rcases CanState.canTxTask_transmit answer htx hp with
        ⟨d, -, -, -, hc⟩ | ⟨-, hc⟩ | ⟨-, -, hc⟩ <;> rw [hc]
      · exact ⟨rfl, rfl, fun q hq => .inl (hp ▸ hq)⟩
      · exact ⟨rfl, rfl, fun q hq => by cases hq⟩
      · exact ⟨rfl, rfl, fun q hq => .inl (hp ▸ hq)⟩
  | confirm =>
    cases hdone : c.txDone with
    | nil =>
      rw [CanState.canTxTask_confirm_nil answer htx hdone]
      exact ⟨rfl, rfl, fun p hp => .inl hp⟩
    | cons e events =>
      rw [CanState.canTxTask_confirm_cons answer htx hdone]
      refine ⟨rfl, rfl, fun p hp => .inl ?_⟩
      dsimp only at hp
      split at hp
      · cases hp
      · exact hp

theorem ctrlTask_txRing (c : CanState) (ok : Bool) : (c.ctrlTask ok).txRing = c.txRing := by
  unfold CanState.ctrlTask CanState.sendAbort CanState.send CanState.discarding Option.elim
  repeat' split
  all_goals rfl

theorem twaiRxTask_tx (c : CanState) :
    c.twaiRxTask.txRing = c.txRing ∧ c.twaiRxTask.pops = c.pops ∧
      c.twaiRxTask.pending = c.pending := by
  unfold CanState.twaiRxTask
  repeat' split
  all_goals exact ⟨rfl, rfl, rfl⟩

/-- What the steps of the CAN side take out of `tx_ring`. -/
theorem canStep_takes {c c' : CanState} {l : CanStep} (hst : c.step l = some c')
    (hl : ∀ f lock, l ≠ .host f lock) :
    c.txRing = popsFrame c l ++ c'.txRing ∧ c'.pops = c.pops + (popsFrame c l).length ∧
      ∀ p ∈ c'.pending, p ∈ c.pending ∨ p.no = c.pops ∧ popsFrame c l = [p.frame] := by
  cases l with
  | host f lock => exact absurd rfl (hl f lock)
  | command dev =>
    obtain rfl := Option.some.inj hst
    exact ⟨rfl, rfl, fun p hp => .inl hp⟩
  | rx =>
    obtain rfl := Option.some.inj hst
    obtain ⟨hring, hpops, hpend⟩ := twaiRxTask_tx c
    rw [hring, hpops, hpend]
    exact ⟨rfl, rfl, fun p hp => .inl hp⟩
  | tx answer =>
    obtain rfl := Option.some.inj hst
    exact canTxTask_takes c answer
  | ctrl ok =>
    obtain rfl := Option.some.inj hst
    obtain ⟨-, -, hpend, -, -, hpops, -⟩ := c.ctrlTask_frame ok
    rw [ctrlTask_txRing, hpend, hpops]
    exact ⟨rfl, rfl, fun p hp => .inl hp⟩
  | success | failure | busOff | recovered =>
    obtain ⟨d, d', -, -, rfl⟩ := CanState.controller_eq hst
    exact ⟨rfl, rfl, fun p hp => .inl hp⟩

/-- What goes on the wire is the copy of the frame in hand. -/
theorem sendsFrame_eq {c c' : CanState} {l : CanStep} {r : CanRecord} (h : Owned c r)
    (hst : c.step l = some c') :
    (canRecord c l r).wire = r.wire ∧ sendsFrame c l = [] ∨
      ∃ p ∈ c.pending, (canRecord c l r).wire = r.wire ++ [p.no] ∧ sendsFrame c l = [p.frame] := by
  cases l with
  | success =>
    obtain ⟨d, d', hd, hf, rfl⟩ := CanState.controller_eq hst
    obtain ⟨⟨x, d''⟩, hx, rfl⟩ := Option.map_eq_some_iff.1 hf
    have hmem : x ∈ c.unreported := by
      rw [CanState.unreported, Twai.Hal.messages, hd]
      simp only [Twai.Driver.messages]
      rw [(Twai.Driver.success_eq hx).2.2]
      simp
    refine .inr ⟨x.popped, (h.copy_of_mem hmem).2.2.1, ?_, ?_⟩
    · simp only [canRecord, hd, Option.bind_some, hx]
    · simp only [sendsFrame, hd, Option.bind_some, hx, Option.map_some, Option.toList_some]
  | ctrl ok =>
    refine .inl ⟨?_, rfl⟩
    unfold canRecord
    dsimp only
    split <;> rfl
  | tx answer =>
    refine .inl ⟨?_, rfl⟩
    unfold canRecord
    dsimp only
    repeat' split
    all_goals rfl
  | host | command | rx | failure | busOff | recovered => exact .inl ⟨rfl, rfl⟩

/-! ### The glue and `tx_ring` -/

/-- A step of the glue pushes the frame that TinyUSB's task is about to push, if the ring takes it. -/
theorem outRecord_push {g : GlueState} {f : Frame} (hf : pushing g = some f) (ok : Bool)
    (r : OutRecord) :
    (outRecord g (.go ok) r).pushed = r.pushed ++ if ok then [f] else [] := by
  unfold pushing at hf
  split at hf
  · rename_i gen f' htask
    obtain rfl := Option.some.inj hf
    simp only [outRecord, htask]
    cases ok with
    | true => rfl
    | false => exact (List.append_nil _).symm
  · cases hf

theorem outRecord_pushed {g : GlueState} {l : GlueStep} (hl : ∀ ok, l = .go ok → pushing g = none)
    (r : OutRecord) : (outRecord g l r).pushed = r.pushed := by
  cases l with
  | go ok =>
    have hnone := hl ok rfl
    unfold outRecord
    cases ht : g.task
    case outPush gen f => rw [pushing, ht] at hnone; cases hnone
    all_goals rfl
  | completeMsg success data =>
    unfold outRecord
    dsimp only
    split <;> rfl
  | present | send | service | defer | takeStats | run | completeCmd | completeIn | reset | deinit
  | openItf | wire => rfl

/-! ### The link -/

/-- The frames on both sides of `tx_ring`, and the frames on the wire. -/
structure TxLink (d : AdapterState) (r : AdapterRecord) : Prop where
  pushed : r.outRec.pushed = r.popped ++ d.can.txRing
  pops : d.can.pops = r.popped.length
  pending : ∀ p ∈ d.can.pending, r.popped[p.no]? = some p.frame
  wire : List.Forall₂ (fun n f => r.popped[n]? = some f) r.canRec.wire r.sent

namespace TxLink

variable {d d' : AdapterState} {r r' : AdapterRecord}

/-- The frames keep their numbers when another one is popped. -/
theorem getElem?_popped {popped more : List Frame} {n : ℕ} {f : Frame} (h : popped[n]? = some f) :
    (popped ++ more)[n]? = some f := by
  rw [List.getElem?_append_left (List.getElem?_eq_some_iff.1 h).1]
  exact h

theorem init (dev : DevState) (us : ℕ) (b : Batch) : TxLink (.init dev us b) .none where
  pushed := rfl
  pops := rfl
  pending := by intro p hp; cases hp
  wire := .nil

/-- A step in which nothing is pushed. -/
theorem move (h : TxLink d r) (howned : Owned d.can r.canRec) {o : Option CanStep}
    (hst : System.stay CanState.step d.can o = some d'.can)
    (ho : ∀ f lock, o ≠ some (.host f lock)) (hpushed : r'.outRec.pushed = r.outRec.pushed)
    (hcan : r'.canRec = System.keep canRecord d.can o r.canRec)
    (hpopped : r'.popped = r.popped ++ o.elim [] (popsFrame d.can))
    (hsent : r'.sent = r.sent ++ o.elim [] (sendsFrame d.can)) : TxLink d' r' := by
  cases o with
  | none =>
    simp only [Option.elim_none, List.append_nil] at hpopped hsent
    have hc : d.can = d'.can := Option.some.inj hst
    refine ⟨?_, ?_, ?_, ?_⟩
    · rw [hpushed, hpopped, ← hc]; exact h.pushed
    · rw [hpopped, ← hc]; exact h.pops
    · rw [hpopped, ← hc]; exact h.pending
    · rw [hpopped, hcan, hsent]; exact h.wire
  | some l =>
    simp only [Option.elim_some] at hpopped hsent
    have hst : d.can.step l = some d'.can := hst
    have hcan : r'.canRec = canRecord d.can l r.canRec := hcan
    obtain ⟨hring, hpops, hpend⟩ := canStep_takes hst fun f lock hl => ho f lock (hl ▸ rfl)
    have hwire : List.Forall₂ (fun n f => r'.popped[n]? = some f) r.canRec.wire r.sent := by
      rw [hpopped]
      exact h.wire.imp fun n f hn => getElem?_popped hn
    refine ⟨?_, ?_, fun p hp => ?_, ?_⟩
    · rw [hpushed, hpopped, List.append_assoc, ← hring]; exact h.pushed
    · rw [hpops, h.pops, hpopped, List.length_append]
    · rw [hpopped]
      rcases hpend p hp with hp | ⟨hno, hp⟩
      · exact getElem?_popped (h.pending p hp)
      · -- the frame that is popped gets the next number
        rw [hp, hno, h.pops, List.getElem?_append_right (Nat.le_refl _), Nat.sub_self]
        rfl
    · rw [hcan, hsent]
      rcases sendsFrame_eq howned hst with ⟨hw, hs⟩ | ⟨p, hp, hw, hs⟩ <;> rw [hw, hs]
      · rw [List.append_nil]; exact hwire
      · refine List.rel_append hwire (.cons ?_ .nil)
        rw [hpopped]
        exact getElem?_popped (h.pending p hp)

/-- TinyUSB's task pushes a frame. -/
theorem push (h : TxLink d r) {lock : Bool} {f : Frame}
    (hst : d.can.step (.host f lock) = some d'.can)
    (hpushed : r'.outRec.pushed =
      r.outRec.pushed ++ if d.can.txRing.length < rbTxDepth ∧ lock then [f] else [])
    (hcan : r'.canRec = r.canRec) (hpopped : r'.popped = r.popped) (hsent : r'.sent = r.sent) :
    TxLink d' r' := by
  obtain hc := Option.some.inj hst
  refine ⟨?_, ?_, ?_, ?_⟩
  · rw [hpushed, hpopped, ← hc, h.pushed, List.append_assoc]
    dsimp only
    split
    · rfl
    · rw [List.append_nil]
  · rw [hpopped, ← hc]; exact h.pops
  · rw [hpopped, ← hc]; exact h.pending
  · rw [hcan, hpopped, hsent]; exact h.wire

theorem step (h : TxLink d r) (howned : Owned d.can r.canRec) {l : AdapterStep}
    (hst : d.step l = some d') : TxLink d' (adapterRecord d l r) := by
  obtain ⟨ha, -, hcan, -⟩ := AdapterState.step_parts hst
  cases l with
  | push lock =>
    obtain ⟨f, hf⟩ := Option.ne_none_iff_exists'.1 ha
    have hlabel : d.canStep (.push lock) = some (.host f lock) := by
      rw [AdapterState.canStep, hf]; rfl
    rw [hlabel] at hcan
    refine h.push hcan ?_ ?_ ?_ ?_ <;> simp only [adapterRecord, hlabel]
    · refine (outRecord_push hf _ r.outRec).trans ?_
      simp only [decide_eq_true_eq]
    · rfl
    · exact List.append_nil _
    · exact List.append_nil _
  | can x =>
    refine h.move howned hcan ?_ rfl rfl rfl rfl
    rintro f lock heq
    obtain rfl := Option.some.inj heq
    exact ha
  | glue x =>
    refine h.move howned hcan (by intro f lock ho; cases ho) (outRecord_pushed ?_ r.outRec) rfl rfl rfl
    rintro ok rfl
    exact ha
  | pushRx lock => exact h.move howned hcan (by intro f lock ho; cases ho) rfl rfl rfl rfl
  | service | defer kept | present | send | usb | receive m | clock k | post errMask =>
    exact h.move howned hcan (by intro f lock ho; cases ho) rfl rfl rfl rfl

end TxLink

/-! ### Runs -/

/-- What holds between steps: the invariants of the parts, and the link. -/
structure TxInv (d : AdapterState) (r : AdapterRecord) : Prop where
  endpoints : d.glue.Endpoints
  out : OutInv d.glue r.outRec
  once : Once d.can r.canRec
  link : TxLink d r

namespace TxInv

theorem init (dev : DevState) (us : ℕ) (b : Batch) : TxInv (.init dev us b) .none where
  endpoints := GlueState.endpoints_init
  out := .of_init
  once := .of_init dev
  link := .init dev us b

theorem step {d d' : AdapterState} {r : AdapterRecord} {l : AdapterStep} (h : TxInv d r)
    (hg : Orderly d l) (hst : d.step l = some d') : TxInv d' (adapterRecord d l r) := by
  obtain ⟨-, hglue, hcan, -⟩ := AdapterState.step_parts hst
  have hparts := System.stay_keeps (I := fun g r => g.Endpoints ∧ OutInv g r) hglue
    ⟨h.endpoints, h.out⟩ fun x g' hx hst =>
      ⟨GlueState.endpoints_step h.endpoints hst, h.out.step h.endpoints hst (hg.1 x hx)⟩
  have honce := System.stay_keeps (I := Once) hcan h.once fun x c' hx hst =>
    h.once.step (hg.2 x hx).1 (hg.2 x hx).2 hst
  exact ⟨hparts.1, hparts.2, honce, h.link.step h.once.owned hst⟩

end TxInv

/-- What becomes of the frames of the host. -/
structure Relayed (d : AdapterState) (r : AdapterRecord) : Prop where
  /-- In the order of the transfers, the frames that no reset dropped are those popped from
  `tx_ring`, those in it, and those still to be pushed. -/
  conserved : r.popped ++ (d.can.txRing ++ d.glue.unpushed) = r.outRec.kept
  /-- A frame that is popped is in hand, was transmitted, or was refused. -/
  released : ∀ n < r.popped.length,
    (∃ p ∈ d.can.pending, p.no = n ∧ r.popped[n]? = some p.frame) ∨ n ∈ r.canRec.wire ∨
      n ∈ r.canRec.refused
  /-- The frames on the bus are those of the host, -/
  sent : List.Forall₂ (fun n f => r.popped[n]? = some f) r.canRec.wire r.sent
  /-- each at most once, and in the order of the host. -/
  order : r.canRec.wire.Pairwise (· < ·)
  /-- The frames that a reset dropped are counted. -/
  counted : d.glue.resetDrops + r.outRec.taken = UInt32.ofNat r.outRec.dropped

/-- **From the host to the bus.**  In every run of the adapter that opens the interface after resets
only, posts nothing between the drain of `s_tx_done` and the acceptance of a copy, reuses no number
that an acknowledgement still shows, and completes no copy between the read of the alerts in a
reconfiguration and the stop of the driver, the frames of the successful EP2-OUT transfers, less
those that a reset dropped and counted, are in order those that `can_tx_task` has popped, those in
`tx_ring`, and those still to be pushed; what is on the bus are popped frames, each at most once and
in their order; and a popped frame that is not in hand was on the bus, or was refused for listen-only
mode. -/
theorem host_to_bus {dev : DevState} {us : ℕ} {b : Batch} {ls : List AdapterStep} {d : AdapterState}
    {r : AdapterRecord}
    (hrun : ((adapterSystem.guard Orderly).withAux adapterRecord).Run (.init dev us b, .none) ls
      (d, r)) : Relayed d r := by
  have h : TxInv d r := by
    refine hrun.invariant (I := fun p => TxInv p.1 p.2) (.init dev us b) ?_
    rintro ⟨d, r⟩ l ⟨d', r'⟩ h ⟨⟨hg, hst⟩, rfl⟩
    exact h.step hg hst
  have horder : r.canRec.wire.Pairwise (· < ·) :=
    (h.once.owned.order.and h.once.nodup).imp fun hle => Nat.lt_of_le_of_ne hle.1 hle.2
  refine ⟨?_, fun n hn => ?_, h.link.wire, horder, h.out.counted⟩
  · rw [← List.append_assoc, ← h.link.pushed]
    exact h.out.order
  · rcases h.once.owned.frames n (h.link.pops ▸ hn) with ⟨p, hp, rfl⟩ | hn
    · exact .inl ⟨p, hp, rfl, h.link.pending p hp⟩
    · exact .inr hn

/-- A transfer with two frames, both of which are pushed; the first one goes on the bus, and the
second one is in hand. -/
def twoFrames : Option (AdapterState × AdapterRecord) :=
  System.exec AdapterState.step Orderly adapterRecord
    (.init ⟨500000, false, true, true⟩ 0 ⟨fun _ => 0, 0, 0, ⟨true, 0⟩⟩, .none)
    (opening.map .can ++
      [.glue .openItf, .glue (.go true), .glue (.go true), .glue (.go true),
        .glue (.completeMsg true [2, 2, 0x01, 0x20, 0x00, 0xAA, 0x00, 0x40, 0x00]),
        .glue (.go true), .service, .defer true, .glue (.run .msgOut 2 false), .glue (.go true),
        .push true, .glue (.go true), .glue (.go true), .push true] ++
      (txs 6 ++ CanStep.success :: ctrls 6 ++ txs 6).map .can)

theorem host_to_bus_twoFrames :
    ∃ p, twoFrames = some p ∧ p.2.popped.map (·.id) = [1, 2] ∧ p.2.sent.map (·.id) = [1] ∧
      Relayed p.1 p.2 := by
  have hids : twoFrames.map (fun p => (p.2.popped.map (·.id), p.2.sent.map (·.id))) =
      some ([1, 2], [1]) := by decide +kernel
  obtain ⟨⟨d, r⟩, h, hids⟩ := Option.map_eq_some_iff.1 hids
  obtain ⟨hpopped, hsent⟩ := Prod.mk.inj hids
  exact ⟨(d, r), h, hpopped, hsent, host_to_bus (System.Run.of_exec h)⟩

end Adapter

end Espcan32
