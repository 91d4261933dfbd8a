import Espcan32.IsoTp.Duplex

/-!
# The channel of two links

The frames in flight to one end of a `Duplex` are those with data and the grants.  What sorts them
makes a direction a `Flow`: what one end has sent the other has got, or has to collect, or it is on
its way in a `Flight`.  A step of either end is a step of the sender of one flow and of the receiver
of the other.

* `sender_step`, `receiver_step` : what the steps of either end do to a direction.
* `DuplexInv.step` : both directions, and the work that is left in them.
* `duplex_delivers` : **each end gets what the other has sent, in order and once**; while something
  is on its way there is a step that brings it on, and there are only finitely many.
-/

namespace Espcan32

namespace IsoTp

/-! ### One channel for data and grants -/

/-- The frames with data. -/
def dataOf (fs : List CanFrame) : List CanFrame := fs.filter fun f => ¬f.IsGrant

/-- The grants. -/
def grantsOf (fs : List CanFrame) : List CanFrame := fs.filter fun f => f.IsGrant

section Sorted

variable {fs : List CanFrame} {f : CanFrame} {o : Option CanFrame}

theorem dataOf_append_data (h : ∀ f ∈ o, ¬f.IsGrant) :
    dataOf (fs ++ o.toList) = dataOf fs ++ o.toList := by
  cases o with
  | none => simp [dataOf]
  | some f => simp [dataOf, h f rfl]

theorem dataOf_append_grant (h : ∀ f ∈ o, f.IsGrant) : dataOf (fs ++ o.toList) = dataOf fs := by
  cases o with
  | none => simp [dataOf]
  | some f => simp [dataOf, h f rfl]

theorem grantsOf_append_data (h : ∀ f ∈ o, ¬f.IsGrant) :
    grantsOf (fs ++ o.toList) = grantsOf fs := by
  cases o with
  | none => simp [grantsOf]
  | some f => simp [grantsOf, h f rfl]

theorem grantsOf_append_grant (h : ∀ f ∈ o, f.IsGrant) :
    grantsOf (fs ++ o.toList) = grantsOf fs ++ o.toList := by
  cases o with
  | none => simp [grantsOf]
  | some f => simp [grantsOf, h f rfl]

theorem dataOf_cons_data (h : ¬f.IsGrant) : dataOf (f :: fs) = f :: dataOf fs := by
  simp [dataOf, h]

theorem dataOf_cons_grant (h : f.IsGrant) : dataOf (f :: fs) = dataOf fs := by
  simp [dataOf, h]

theorem grantsOf_cons_data (h : ¬f.IsGrant) : grantsOf (f :: fs) = grantsOf fs := by
  simp [grantsOf, h]

theorem grantsOf_cons_grant (h : f.IsGrant) : grantsOf (f :: fs) = f :: grantsOf fs := by
  simp [grantsOf, h]

end Sorted

/-! ### A direction -/

/-- The direction from the left end to the right one: what the left end has sent the right one has
got, or has to collect, or it is on its way. -/
structure Flow (a₀ b₀ : Link) (d : Duplex) : Prop where
  sender : a₀.SameConfig d.left.link
  receiver : b₀.SameConfig d.right.link
  flight : ∃ pending, d.left.sent = d.right.got ++ d.right.link.rx.waiting ++ pending ∧
    Flight a₀ b₀ d.left.link.tx d.right.link.rx (dataOf d.right.inbox) (grantsOf d.left.inbox)
      pending

/-- The work left in the direction from the left end to the right one. -/
def flowWork (d : Duplex) : ℕ :=
  flightWork d.left.link.tx (dataOf d.right.inbox) (grantsOf d.left.inbox)

namespace End

/-- The work that the messages sent so far were. -/
def total (n : End) : ℕ := (n.sent.map messageWork).sum

/-- A step that brings on what the end sends. -/
def Sends (n : End) : EndStep → Prop
  | .poll now => n.link.handed (.poll ⟨now, true⟩) ≠ none
  | .deliver _ => ∃ f ∈ n.inbox.head?, f.IsGrant
  | _ => False

/-- A step that brings on what the end receives. -/
def Hears (n : End) : EndStep → Prop
  | .deliver _ => ∃ f ∈ n.inbox.head?, ¬f.IsGrant
  | _ => False

instance (n : End) (s : EndStep) : Decidable (n.Sends s) :=
  match s with
  | .poll _ => inferInstanceAs (Decidable (_ ≠ _))
  | .deliver _ => inferInstanceAs (Decidable (∃ f ∈ n.inbox.head?, f.IsGrant))
  | .send _ _ | .receive _ => inferInstanceAs (Decidable False)

instance (n : End) (s : EndStep) : Decidable (n.Hears s) :=
  match s with
  | .deliver _ => inferInstanceAs (Decidable (∃ f ∈ n.inbox.head?, ¬f.IsGrant))
  | .poll _ | .send _ _ | .receive _ => inferInstanceAs (Decidable False)

end End

/-! ### What a step does to a direction -/

section Directions

variable {a₀ b₀ : Link} {n m : End} {pending : List (List UInt8)} {s : EndStep} {c : Call}

theorem deliver_cases {now : UInt32} (hc : n.call (.deliver now) = some c) :
    ∃ f rest, n.inbox = f :: rest ∧ c = .frame ⟨now, true⟩ f.id f.data := by
  unfold End.call at hc
  cases hin : n.inbox with
  | nil => rw [hin] at hc; cases hc
  | cons f rest =>
    rw [hin] at hc
    exact ⟨f, rest, rfl, (Option.some.inj hc).symm⟩

/-- A step of the sender. -/
theorem sender_step (hab : Connected a₀ b₀) (hn : a₀.SameConfig n.link) (hm : b₀.SameConfig m.link)
    (h : Flight a₀ b₀ n.link.tx m.link.rx (dataOf m.inbox) (grantsOf n.inbox) pending)
    (ht : n.Timely s) (hc : n.call s = some c) :
    Flight a₀ b₀ (n.link.step c).tx m.link.rx (dataOf (m.inbox ++ (n.link.handed c).toList))
        (grantsOf (n.after s c).inbox) (pending ++ (n.link.takes c).toList) ∧
      flightWork (n.link.step c).tx (dataOf (m.inbox ++ (n.link.handed c).toList))
          (grantsOf (n.after s c).inbox) + (if n.Sends s then 1 else 0) ≤
        flightWork n.link.tx (dataOf m.inbox) (grantsOf n.inbox) +
          ((n.link.takes c).toList.map messageWork).sum := by
  cases s with
  | send now msg =>
    obtain rfl := Option.some.inj hc
    rw [if_neg (show ¬n.Sends (.send now msg) from id)]
    simp only [End.after, Link.step, Link.handed]
    rcases n.link.send_cases now msg with ⟨htake, hs⟩ | ⟨htake, hp, hb, hf⟩
    · rw [htake, hs, Option.toList_none, Option.toList_none, List.append_nil, List.append_nil]
      exact ⟨h, le_rfl⟩
    · rw [htake, hf, dataOf_append_data (by rintro f ⟨⟩; exact n.link.startFrame_not_grant msg)]
      have hstart : n.link.startFrame msg = a₀.startFrame msg := by
        unfold Link.startFrame Link.ffFrame
        rw [hn.txFrame, hn.txFrame]
      rw [hstart]
      refine ⟨h.push hp hb, ?_⟩
      have hw := hb.work_le hp (dataOf m.inbox) (grantsOf n.inbox) (a₀.startFrame msg)
      simpa using hw
  | poll now =>
    obtain rfl := Option.some.inj hc
    have hdata (f : CanFrame) (hf : f ∈ (n.link.isotpPoll ⟨now, true⟩).2) : ¬f.IsGrant :=
      n.link.pollTx_not_grant ⟨now, true⟩ hf
    obtain ⟨hfl, hw⟩ := h.poll hn hm ht.1
    simp only [End.after, Link.step, Link.handed, Link.takes, Option.toList_none, List.append_nil,
      List.map_nil, List.sum_nil, Nat.add_zero, dataOf_append_data hdata, End.Sends]
    exact ⟨hfl, hw⟩
  | deliver now =>
    obtain ⟨f, rest, hin, rfl⟩ := deliver_cases hc
    simp only [End.after, Link.step, Link.handed, Link.takes, Option.toList_none, List.append_nil,
      List.map_nil, List.sum_nil, Nat.add_zero, hin, List.tail_cons]
    rw [hin] at h
    by_cases hf : f.IsGrant
    · have hout := (n.link.isotpOnCanFrame_grant ⟨now, true⟩ hf).2
      rw [grantsOf_cons_grant hf] at h ⊢
      rw [if_pos (show n.Sends (.deliver now) from ⟨f, by rw [hin]; rfl, hf⟩),
        dataOf_append_data (by rw [hout]; intro g hg; cases hg)]
      exact h.grant hab hn hm now
    · obtain ⟨htx, hout⟩ := n.link.isotpOnCanFrame_data ⟨now, true⟩ hf
      rw [grantsOf_cons_data hf] at h ⊢
      rw [if_neg, dataOf_append_grant hout, htx]
      · exact ⟨h, le_rfl⟩
      · rintro ⟨g, hg, hgrant⟩
        rw [hin] at hg
        obtain rfl := Option.some.inj hg
        exact hf hgrant
  | receive outCap =>
    obtain rfl := Option.some.inj hc
    rw [if_neg (show ¬n.Sends (.receive outCap) from id)]
    simp only [End.after, Link.step, Link.handed, Link.takes, Option.toList_none, List.append_nil,
      Link.isotpReceive_tx]
    exact ⟨h, le_rfl⟩

/-- A step of the receiver. -/
theorem receiver_step (hab : Connected a₀ b₀) (hn : a₀.SameConfig n.link)
    (hm : b₀.SameConfig m.link)
    (h : Flight a₀ b₀ n.link.tx m.link.rx (dataOf m.inbox) (grantsOf n.inbox) pending)
    (ht : m.Timely s) (hc : m.call s = some c) :
    (∃ rest, m.link.rx.waiting ++ pending =
        (m.link.returns c).toList ++ (m.link.step c).rx.waiting ++ rest ∧
      Flight a₀ b₀ n.link.tx (m.link.step c).rx (dataOf (m.after s c).inbox)
        (grantsOf (n.inbox ++ (m.link.handed c).toList)) rest) ∧
      flightWork n.link.tx (dataOf (m.after s c).inbox)
          (grantsOf (n.inbox ++ (m.link.handed c).toList)) + (if m.Hears s then 1 else 0) ≤
        flightWork n.link.tx (dataOf m.inbox) (grantsOf n.inbox) := by
  cases s with
  | send now msg =>
    obtain rfl := Option.some.inj hc
    have hdata (f : CanFrame) (hf : f ∈ (m.link.isotpSend ⟨now, true⟩ msg).2.2) : ¬f.IsGrant := by
      rcases m.link.send_cases now msg with ⟨-, hs⟩ | ⟨-, -, -, hout⟩
      · rw [hs] at hf; cases hf
      · rw [hout] at hf
        obtain rfl := Option.some.inj hf
        exact m.link.startFrame_not_grant msg
    rw [if_neg (show ¬m.Hears (.send now msg) from id)]
    simp only [End.after, Link.step, Link.handed, Link.returns, Option.toList_none, List.nil_append,
      Link.isotpSend_rx, grantsOf_append_data hdata]
    exact ⟨⟨pending, rfl, h⟩, le_rfl⟩
  | poll now =>
    obtain rfl := Option.some.inj hc
    have hdata (f : CanFrame) (hf : f ∈ (m.link.isotpPoll ⟨now, true⟩).2) : ¬f.IsGrant :=
      m.link.pollTx_not_grant ⟨now, true⟩ hf
    rw [if_neg (show ¬m.Hears (.poll now) from id)]
    simp only [End.after, Link.step, Link.handed, Link.returns, Option.toList_none, List.nil_append,
      m.link.isotpPoll_rx_same ⟨now, true⟩ ht.2, grantsOf_append_data hdata]
    exact ⟨⟨pending, rfl, h⟩, le_rfl⟩
  | deliver now =>
    obtain ⟨f, rest, hin, rfl⟩ := deliver_cases hc
    simp only [End.after, Link.step, Link.handed, Link.returns, Option.toList_none, List.nil_append,
      hin, List.tail_cons]
    rw [hin] at h
    by_cases hf : f.IsGrant
    · obtain ⟨hrx, hout⟩ := m.link.isotpOnCanFrame_grant ⟨now, true⟩ hf
      rw [dataOf_cons_grant hf] at h ⊢
      rw [if_neg, hrx, hout, Option.toList_none, List.append_nil]
      · exact ⟨⟨pending, rfl, h⟩, le_rfl⟩
      · rintro ⟨g, hg, hdata⟩
        rw [hin] at hg
        obtain rfl := Option.some.inj hg
        exact hdata hf
    · have hout := (m.link.isotpOnCanFrame_data ⟨now, true⟩ hf).2
      have hwait : m.link.rx.waiting = [] := by
        rw [RxSide.waiting, if_neg]
        rw [show m.link.rx.complete = false from ht]
        exact Bool.false_ne_true
      rw [dataOf_cons_data hf] at h ⊢
      rw [if_pos (show m.Hears (.deliver now) from ⟨f, by rw [hin]; rfl, hf⟩),
        grantsOf_append_grant hout, hwait, List.nil_append]
      exact h.deliver hf ht hab hn hm now
  | receive outCap =>
    obtain rfl := Option.some.inj hc
    obtain ⟨hwait, hrx⟩ := m.link.receive_waiting outCap
    rw [if_neg (show ¬m.Hears (.receive outCap) from id)]
    simp only [End.after, Link.step, Link.handed, Option.toList_none, List.append_nil, hwait]
    refine ⟨⟨pending, rfl, ?_⟩, le_rfl⟩
    rcases hrx with hrx | hrx
    · rw [hrx]; exact h
    · rw [hrx]; exact h.collect

end Directions

/-! ### Steps of the two ends -/

theorem total_after (n : End) (s : EndStep) (c : Call) :
    (n.after s c).total = n.total + ((n.link.takes c).toList.map messageWork).sum := by
  have hsent : (n.after s c).sent = n.sent ++ (n.link.takes c).toList := rfl
  rw [End.total, End.total, hsent, List.map_append, List.sum_append]

/-- What delivers or sends a frame brings on one of the two directions. -/
theorem works_eq {n : End} {s : EndStep} {c : Call} (hc : n.call s = some c) :
    (if n.Works s then 1 else 0) = (if n.Sends s then 1 else 0) + (if n.Hears s then 1 else 0) := by
  cases s with
  | send now m => simp [End.Works, End.Sends, End.Hears]
  | receive outCap => simp [End.Works, End.Sends, End.Hears]
  | poll now =>
    by_cases hf : n.link.handed (.poll ⟨now, true⟩) = none <;>
      simp [End.Works, End.Sends, End.Hears, hf]
  | deliver now =>
    obtain ⟨f, rest, hin, -⟩ := deliver_cases hc
    by_cases hf : f.IsGrant <;> simp [End.Works, End.Sends, End.Hears, hin, hf]

namespace Flow

variable {a₀ b₀ : Link} {d d' : Duplex} {s : EndStep} {c : Call}

/-- A step of the left end, as the sender. -/
theorem of_sender (h : Flow a₀ b₀ d) (hab : Connected a₀ b₀) (ht : d.left.Timely s)
    (hc : d.left.call s = some c) (hst : d.stepLeft s = some d') :
    Flow a₀ b₀ d' ∧ flowWork d' + (if d.left.Sends s then 1 else 0) ≤
      flowWork d + ((d.left.link.takes c).toList.map messageWork).sum := by
  rw [Duplex.stepLeft, hc] at hst
  obtain rfl := Option.some.inj hst
  obtain ⟨pending, hsent, hfl⟩ := h.flight
  obtain ⟨hfl', hw⟩ := sender_step hab h.sender h.receiver hfl ht hc
  refine ⟨⟨h.sender.trans (d.left.link.step_sameConfig c), h.receiver, _, ?_, hfl'⟩, hw⟩
  rw [← List.append_assoc, ← hsent]
  rfl

/-- A step of the left end, as the receiver. -/
theorem of_receiver (h : Flow a₀ b₀ d.swap) (hab : Connected a₀ b₀) (ht : d.left.Timely s)
    (hc : d.left.call s = some c) (hst : d.stepLeft s = some d') :
    Flow a₀ b₀ d'.swap ∧ flowWork d'.swap + (if d.left.Hears s then 1 else 0) ≤
      flowWork d.swap := by
  rw [Duplex.stepLeft, hc] at hst
  obtain rfl := Option.some.inj hst
  obtain ⟨pending, hsent, hfl⟩ := h.flight
  obtain ⟨⟨rest, hrest, hfl'⟩, hw⟩ := receiver_step hab h.sender h.receiver hfl ht hc
  refine ⟨⟨h.sender, h.receiver.trans (d.left.link.step_sameConfig c), rest, ?_, hfl'⟩, hw⟩
  rw [List.append_assoc, hrest, ← List.append_assoc, ← List.append_assoc] at hsent
  exact hsent

end Flow

/-- What holds of the two ends between steps, and of the number `n` of steps that delivered or sent
a frame. -/
structure DuplexInv (a₀ b₀ : Link) (d : Duplex) (n : ℕ) : Prop where
  forth : Flow a₀ b₀ d
  back : Flow b₀ a₀ d.swap
  work : n + flowWork d + flowWork d.swap ≤ d.left.total + d.right.total

namespace DuplexInv

variable {a₀ b₀ : Link} {d d' : Duplex} {n : ℕ}

theorem swap (h : DuplexInv a₀ b₀ d n) : DuplexInv b₀ a₀ d.swap n where
  forth := h.back
  back := h.forth
  work := by
    have hw := h.work
    rw [Duplex.swap_swap, Duplex.swap_left, Duplex.swap_right]
    omega

theorem of_start {a b : Link} (ha : a.Idle) (hb : b.Idle) : DuplexInv a b (.start a b) 0 := by
  have hflow {a b : Link} (ha : a.Idle) (hb : b.Idle) : Flow a b (.start a b) := by
    have hwait : b.rx.waiting = [] := if_neg (by rw [hb.complete]; exact Bool.false_ne_true)
    refine ⟨.refl a, .refl b, [], ?_, .empty ha.tx rfl rfl⟩
    rw [show (Duplex.start a b).right.link.rx.waiting = [] from hwait]
    rfl
  have hwork {a b : Link} (ha : a.Idle) : flowWork (.start a b) = 0 :=
    flightWork_idle (t := a.tx) ha.tx [] []
  refine ⟨hflow ha hb, hflow hb ha, ?_⟩
  rw [hwork ha, show flowWork (Duplex.start a b).swap = 0 from hwork (b := a) hb]
  exact Nat.zero_le _

/-- A step of the left end. -/
theorem stepLeft (h : DuplexInv a₀ b₀ d n) (hab : Connected a₀ b₀) {s : EndStep}
    (ht : d.left.Timely s) (hst : d.stepLeft s = some d') :
    DuplexInv a₀ b₀ d' (if d.left.Works s then n + 1 else n) := by
  obtain ⟨c, hc, -⟩ := Option.map_eq_some_iff.1 hst
  obtain ⟨hforth, hw⟩ := h.forth.of_sender hab ht hc hst
  obtain ⟨hback, hw'⟩ := h.back.of_receiver ⟨hab.ba, hab.ab⟩ ht hc hst
  refine ⟨hforth, hback, ?_⟩
  have hwork := h.work
  have hsplit := works_eq hc
  have htotal : d'.left.total = d.left.total + ((d.left.link.takes c).toList.map messageWork).sum ∧
      d'.right.total = d.right.total := by
    rw [Duplex.stepLeft, hc] at hst
    obtain rfl := Option.some.inj hst
    exact ⟨total_after d.left s c, rfl⟩
  have hn : (if d.left.Works s then n + 1 else n) = n + (if d.left.Works s then 1 else 0) := by
    split <;> rfl
  omega

theorem step (h : DuplexInv a₀ b₀ d n) (hab : Connected a₀ b₀) {s : Place × EndStep}
    (ht : d.Timely s) (hst : d.step s = some d') : DuplexInv a₀ b₀ d' (d.countWork s n) := by
  obtain ⟨place, s⟩ := s
  cases place with
  | left => exact h.stepLeft hab ht hst
  | right =>
    obtain ⟨e, he, rfl⟩ := Option.map_eq_some_iff.1 hst
    exact (h.swap.stepLeft ⟨hab.ba, hab.ab⟩ ht he).swap

end DuplexInv

/-! ### Progress -/

/-- Something brings the direction from the left end to the right one on: a message to collect, a
frame in flight, or the sender, whose next poll after the separation time sends a frame. -/
def Duplex.Moves (d : Duplex) : Prop :=
  d.right.link.rx.complete = true ∨ d.right.inbox ≠ [] ∨ d.left.inbox ≠ [] ∨
    (d.left.link.tx.phase = .send ∧ ∀ now,
      stminToMs d.right.link.cfg.stmin ≤ elapsed now d.left.link.tx.stTimer →
        d.left.link.handed (.poll ⟨now, true⟩) ≠ none)

theorem Flight.moves {a₀ b₀ a b : Link} {data fc : List CanFrame} {pending : List (List UInt8)}
    (h : Flight a₀ b₀ a.tx b.rx data fc pending) (ha : a₀.SameConfig a) (hb : b₀.SameConfig b)
    (hne : pending ≠ []) : data ≠ [] ∨ fc ≠ [] ∨ (a.tx.phase = .send ∧ ∀ now,
      stminToMs b.cfg.stmin ≤ elapsed now a.tx.stTimer → a.handed (.poll ⟨now, true⟩) ≠ none) := by
  cases h with
  | empty => exact absurd rfl hne
  | newest hst =>
    rcases (Flight.pairInv ha hb hst).no_deadlock rfl with hab | hba | ⟨hp, i, -, hpoll⟩
    · exact .inl hab
    · exact .inr (.inl hba)
    · refine .inr (.inr ⟨hp, fun now hnow => ?_⟩)
      rw [Link.handed, hpoll now (hb.cfg ▸ hnow)]
      simp
  | older _ hq hdata =>
    refine .inl ?_
    rw [hdata]
    cases hq <;> simp

/-- What has been sent has arrived, or is brought on. -/
theorem Flow.moves {a₀ b₀ : Link} {d : Duplex} (h : Flow a₀ b₀ d)
    (hne : d.right.got ≠ d.left.sent) : d.Moves := by
  obtain ⟨pending, hsent, hfl⟩ := h.flight
  by_cases hc : d.right.link.rx.complete = true
  · exact .inl hc
  have hpending : pending ≠ [] := by
    rintro rfl
    rw [RxSide.waiting, if_neg hc, List.append_nil, List.append_nil] at hsent
    exact hne hsent.symm
  rcases hfl.moves h.sender h.receiver hpending with hdata | hfc | hpoll
  · refine .inr (.inl fun hin => hdata ?_)
    rw [hin]
    rfl
  · refine .inr (.inr (.inl fun hin => hfc ?_))
    rw [hin]
    rfl
  · exact .inr (.inr (.inr hpoll))

theorem Flow.got_le {a₀ b₀ : Link} {d : Duplex} (h : Flow a₀ b₀ d) :
    d.right.got <+: d.left.sent := by
  obtain ⟨pending, hsent, -⟩ := h.flight
  rw [hsent, List.append_assoc]
  exact List.prefix_append _ _

/-! ### Runs -/

/-- **Two links are a message channel in each direction.**  In every run of two idle links through
lossless channels, in which both ends send as they like, no timer expires, and messages are
collected before the next frame is fed: what an end has got is, in order and once, what the other
has sent, up to what is on its way; while something is, there is a step that brings it on; and no
more steps deliver or send a frame than the messages sent are worth, so that everything arrives. -/
theorem duplex_delivers {a b : Link} (hab : Connected a b) (ha : a.Idle) (hb : b.Idle)
    {steps : List (Place × EndStep)} {d : Duplex} {n : ℕ}
    (hrun : ((duplexSystem.guard Duplex.Timely).withAux Duplex.countWork).Run (.start a b, 0) steps
      (d, n)) :
    (d.right.got <+: d.left.sent ∧ (d.right.got ≠ d.left.sent → d.Moves)) ∧
      (d.left.got <+: d.right.sent ∧ (d.left.got ≠ d.right.sent → d.swap.Moves)) ∧
      n ≤ d.left.total + d.right.total := by
  have hi : DuplexInv a b d n :=
    hrun.invariant (I := fun s => DuplexInv a b s.1 s.2) (.of_start ha hb) fun _ _ _ hi hst =>
      hst.2 ▸ hi.step hab hst.1.1 hst.1.2
  have hwork := hi.work
  exact ⟨⟨hi.forth.got_le, hi.forth.moves⟩, ⟨hi.back.got_le, hi.back.moves⟩, by omega⟩

/-- Ten bytes from the left and a SingleFrame from the right, at the same time, then another
SingleFrame behind the last ConsecutiveFrame. -/
def crossing : Option (Duplex × ℕ) :=
  System.exec Duplex.step Duplex.Timely Duplex.countWork
    (.start (isotpInit 0x7E0 0x7E8 0x7DF none) testLink, 0)
    [(.left, .send 0 [1, 2, 3, 4, 5, 6, 7, 8, 9, 10]), (.right, .send 0 [0xAA, 0xBB]),
      (.right, .deliver 1), (.left, .deliver 1), (.left, .receive 4095), (.left, .deliver 2),
      (.left, .poll 3), (.left, .send 3 [0xCC]), (.right, .deliver 4), (.right, .receive 4095),
      (.right, .deliver 5)]

theorem duplex_delivers_crossing : ∃ d n, crossing = some (d, n) ∧
    d.right.got = [[1, 2, 3, 4, 5, 6, 7, 8, 9, 10]] ∧ d.left.got = [[0xAA, 0xBB]] ∧ d.Moves ∧
    d.left.got <+: d.right.sent ∧ n ≤ d.left.total + d.right.total := by
  have hgot : crossing.map (fun x => (x.1.right.got, x.1.left.got, x.1.left.sent.length)) =
      some ([[1, 2, 3, 4, 5, 6, 7, 8, 9, 10]], [[0xAA, 0xBB]], 2) := by decide +kernel
  obtain ⟨⟨d, n⟩, hd, heq⟩ := Option.map_eq_some_iff.1 hgot
  simp only [Prod.mk.injEq] at heq
  obtain ⟨hright, hleft, hlen⟩ := heq
  obtain ⟨⟨-, hmoves⟩, ⟨hle, -⟩, hn⟩ := duplex_delivers
    (a := isotpInit 0x7E0 0x7E8 0x7DF none) (b := testLink) ⟨rfl, rfl⟩ ⟨rfl, rfl, rfl⟩
    ⟨rfl, rfl, rfl⟩ (System.Run.of_exec hd)
  refine ⟨d, n, hd, hright, hleft, hmoves fun h => ?_, hle, hn⟩
  rw [← h, hright] at hlen
  cases hlen

end IsoTp

end Espcan32
