import Espcan32.IsoTp.Channel

/-!
# Two links over a bus that loses frames

The channels lose frames at will, `can_tx` fails at will, and timers expire at any time.  What an
end collects is then not all that the other end has sent, but nothing else: a reception that has
missed a ConsecutiveFrame never has as many as it needs, since no other message follows without a
FirstFrame that starts the reception anew.

That depends on the grants: a grant that has outlived the message that it was for would make the
sender go on with a message whose FirstFrame was lost.  A message is therefore begun when no frame
of an earlier one and no grant for it is in flight.

* `Catches` : what the receiver has of the message whose ConsecutiveFrames arrive.
* `Passage` : the newest message, on its way to the receiver or lost.
* `lossy_delivers` : **what an end collects is some of what the other has sent, in order, each
  message at most once and unaltered**.
* `staleGrant_mixes` : with a grant in flight this fails.
-/

namespace Espcan32

namespace IsoTp

/-! ### The system -/

/-- A step at one end: a call, the delivery of the oldest frame in flight to it, or the loss of one
of them. -/
inductive LossyStep where
  | send (e : Env) (m : List UInt8)
  | poll (e : Env)
  | deliver (e : Env)
  | receive (outCap : ℕ)
  | lose (i : ℕ)

/-- The frame that `can_tx` takes in a call. -/
def Link.puts (l : Link) (c : Call) : Option CanFrame := if c.canTx then l.handed c else none

namespace End

/-- The call of a step. -/
def callOf (n : End) : LossyStep → Option Call
  | .send e m => some (.send e m)
  | .poll e => some (.poll e)
  | .deliver e => n.inbox.head?.map fun f => .frame e f.id f.data
  | .receive outCap => some (.receive outCap)
  | .lose _ => none

/-- The end after a call. -/
def afterCall (n : End) (c : Call) : End where
  link := n.link.step c
  inbox := match c with
    | .frame _ _ _ => n.inbox.tail
    | _ => n.inbox
  sent := n.sent ++ (n.link.takes c).toList
  got := n.got ++ (n.link.returns c).toList

end End

namespace Duplex

/-- A step of the left end: what `can_tx` takes is in flight to the right one. -/
def lossyLeft (d : Duplex) : LossyStep → Option Duplex
  | .lose i => some { d with left := { d.left with inbox := d.left.inbox.eraseIdx i } }
  | s => (d.left.callOf s).map fun c => ⟨d.left.afterCall c,
      { d.right with inbox := d.right.inbox ++ (d.left.link.puts c).toList }⟩

/-- A step of either end. -/
def lossyStep (d : Duplex) : Place × LossyStep → Option Duplex
  | (.left, s) => d.lossyLeft s
  | (.right, s) => (d.swap.lossyLeft s).map swap

/-- The left end begins a message when nothing of an earlier one and no grant for it is in flight,
and it is fed a frame when no message waits to be collected. -/
def SettledLeft (d : Duplex) : LossyStep → Prop
  | .send _ _ => dataOf d.right.inbox = [] ∧ grantsOf d.left.inbox = []
  | .deliver _ => d.left.link.rx.complete = false
  | _ => True

/-- Either end does so. -/
def Settled (d : Duplex) : Place × LossyStep → Prop
  | (.left, s) => d.SettledLeft s
  | (.right, s) => d.swap.SettledLeft s

instance (d : Duplex) (s : LossyStep) : Decidable (d.SettledLeft s) :=
  match s with
  | .send _ _ => inferInstanceAs (Decidable (_ ∧ _))
  | .deliver _ => inferInstanceAs (Decidable (_ = _))
  | .poll _ | .receive _ | .lose _ => inferInstanceAs (Decidable True)

instance (d : Duplex) (s : Place × LossyStep) : Decidable (d.Settled s) :=
  match s with
  | (.left, s) => inferInstanceAs (Decidable (d.SettledLeft s))
  | (.right, s) => inferInstanceAs (Decidable (d.swap.SettledLeft s))

end Duplex

/-- Two ends and a bus that loses frames. -/
def lossySystem : System Duplex (Place × LossyStep) := .ofFun Duplex.lossyStep

/-! ### Frames that are missed -/

/-- The receive side in the middle of a message as long as `m`, after `c` ConsecutiveFrames. -/
structure RxCounts (r : RxSide) (m : List UInt8) (c : ℕ) : Prop where
  phase : r.phase = .recv
  len : r.len = m.length
  off : r.off = ffFirstData + cfMaxData * c
  lt : r.off < m.length
  le : m.length ≤ isotpMaxMsg

theorem RxAt.counts {r : RxSide} {m : List UInt8} {c : ℕ} (h : RxAt r m c) : RxCounts r m c :=
  ⟨h.phase, h.len, h.off, h.lt, h.le⟩

/-- A ConsecutiveFrame arrives. -/
theorem isotpOnCanFrame_cfFrame {a b : Link} (hab : a.txId = b.rxId) (e : Env) (m : List UInt8)
    (j : ℕ) : b.isotpOnCanFrame e (a.cfFrame m j).id (a.cfFrame m j).data =
      b.handleCf e (a.cfFrame m j).data := by
  have hc := length_chunk m j
  exact b.isotpOnCanFrame_cf e (a.cfFrame m j).data (a.txFrame_dlc _ (by omega))
    (addressed_of_rxId hab) (by rw [Link.cfFrame, Link.txFrame_head, pciType_pciByte _ (by omega)])

/-- A ConsecutiveFrame arrives that is further on than the reception: it is taken for another one,
or ends the reception, but completes nothing. -/
theorem RxCounts.skip {a b : Link} (hab : a.txId = b.rxId) (e : Env) {m : List UInt8} {c j : ℕ}
    (h : RxCounts b.rx m c) (hj : c < j) (hlen : ffFirstData + cfMaxData * j < m.length) :
    let r := (b.isotpOnCanFrame e (a.cfFrame m j).id (a.cfFrame m j).data).1.rx
    r.complete = b.rx.complete ∧ (r.phase ≠ .recv ∨ RxCounts r m (c + 1)) := by
  intro r
  have hoff : b.rx.off = 6 + 7 * c := h.off
  have hr : r = (b.handleCf e (a.cfFrame m j).data).1.rx := by
    rw [← isotpOnCanFrame_cfFrame hab]
  simp only [ffFirstData, cfMaxData] at hlen
  have hle : b.rx.len ≤ isotpMaxMsg := h.len.le.trans h.le
  cases hacc : b.acceptsCf (a.cfFrame m j).data with
  | none =>
    obtain ⟨-, ⟨hp, -⟩ | ⟨-, hab', hcomplete⟩⟩ :=
      b.handleCf_none e _ hle (fun _ => h.len ▸ h.lt) hacc
    · exact absurd h.phase hp
    · exact ⟨hr ▸ hcomplete, .inl (by rw [hr, hab'.1]; simp)⟩
  | some p =>
    rw [b.handleCf_some e _ hle (h.len ▸ h.lt) hacc] at hr
    have hp : p.length = 7 := by
      unfold Link.acceptsCf at hacc
      split_ifs at hacc with hok
      obtain rfl := Option.some.inj hacc
      have hfull := hok.2.2
      rw [h.len, hoff] at hfull ⊢
      simp only [cfMaxData] at hfull ⊢
      rw [List.length_take, List.length_drop]
      omega
    have hmore : ¬b.rx.len ≤ b.rx.off + 7 := by rw [h.len, hoff]; omega
    simp only [Link.rxAfterCf, hp, if_neg hmore] at hr
    rw [hr]
    have hlt : b.rx.off + 7 < m.length := by omega
    have hnext : b.rx.off + 7 = ffFirstData + cfMaxData * (c + 1) := by
      simp only [ffFirstData, cfMaxData]
      omega
    split
    · exact ⟨rfl, .inr ⟨h.phase, h.len, hnext, hlt, h.le⟩⟩
    · exact ⟨rfl, .inr ⟨h.phase, h.len, hnext, hlt, h.le⟩⟩

/-! ### A message on its way -/

/-- What the receiver has of the message `m`, the ConsecutiveFrames `js` of which are in flight
after `n` have been sent: it has given it up or completed it, or all that have arrived, or fewer
than that.  `done` are the messages that it has completed, and `olds` those sent before `m`. -/
inductive Catches (olds : List (List UInt8)) (m : List UInt8) (r : RxSide) (js : List ℕ) (n : ℕ)
    (done : List (List UInt8)) : Prop
  | off (hp : r.phase ≠ .recv) (hdone : done.Sublist (olds ++ [m])) : Catches olds m r js n done
  | all {c : ℕ} (hr : RxAt r m c) (hjs : ∀ j ∈ js, c ≤ j) (hc : c ≤ n)
      (hdone : done.Sublist olds) : Catches olds m r js n done
  | fewer {c : ℕ} (hr : RxCounts r m c) (hjs : ∀ j ∈ js, c < j) (hc : c < n)
      (hdone : done.Sublist olds) : Catches olds m r js n done

/-- The newest message in one direction, by the sides that take part in it and what is in flight of
it; `sent` are all messages, and `a₀` has the address and configuration of the sender. -/
inductive Passage (a₀ : Link) (t : TxSide) (r : RxSide) (data fc : List CanFrame)
    (sent done : List (List UInt8)) : Prop
  /-- The SingleFrame is in flight. -/
  | single {olds : List (List UInt8)} {m : List UInt8} (h0 : 0 < m.length)
      (h7 : m.length ≤ sfMaxData) (hp : t.phase = .idle)
      (hdata : data = [a₀.txFrame (pciByte 0 m.length :: m)]) (hfc : fc = [])
      (hsent : sent = olds ++ [m]) (hdone : done.Sublist olds)
  /-- The FirstFrame is in flight. -/
  | first {olds : List (List UInt8)} {m : List UInt8} (h7 : sfMaxData < m.length)
      (hle : m.length ≤ isotpMaxMsg) (ht : t.phase = .idle ∨ t.phase = .waitFc ∧ TxAt t m 0)
      (hdata : data = [a₀.ffFrame m]) (hfc : fc = []) (hsent : sent = olds ++ [m])
      (hdone : done.Sublist olds)
  /-- Nothing more of it arrives. -/
  | ended (hp : t.phase ≠ .send) (hdata : data = []) (hfc : fc = []) (hdone : done.Sublist sent)
  /-- The FirstFrame has arrived. -/
  | bringing {olds : List (List UInt8)} {m : List UInt8} {js : List ℕ} {n : ℕ}
      (ht : t.phase = .idle ∨ TxAt t m n) (hdata : data = js.map (a₀.cfFrame m))
      (hjs : js.Pairwise (· < ·)) (hn : ∀ j ∈ js, j < n)
      (hlen : ∀ j ∈ js, ffFirstData + cfMaxData * j < m.length) (hsent : sent = olds ++ [m])
      (hr : Catches olds m r js n done)

section

variable {a₀ b₀ : Link} {t : TxSide} {r : RxSide} {data fc : List CanFrame}
  {olds sent done : List (List UInt8)} {m : List UInt8} {js : List ℕ} {n : ℕ}

theorem eq_of_sublist_singleton {α : Type} {l : List α} {x : α} (h : l.Sublist [x]) :
    l = [] ∨ l = [x] := by
  cases h with
  | cons _ h => exact .inl (List.sublist_nil.1 h)
  | cons_cons _ h => exact .inr (by rw [List.sublist_nil.1 h])

theorem Catches.done_sublist (h : Catches olds m r js n done) : done.Sublist (olds ++ [m]) := by
  cases h with
  | off _ hdone => exact hdone
  | all _ _ _ hdone => exact hdone.trans (List.sublist_append_left _ _)
  | fewer _ _ _ hdone => exact hdone.trans (List.sublist_append_left _ _)

/-- The next ConsecutiveFrame is sent. -/
theorem Catches.push (h : Catches olds m r js n done) :
    Catches olds m r (js ++ [n]) (n + 1) done := by
  have hmem {p : ℕ → Prop} (hjs : ∀ j ∈ js, p j) (hn : p n) : ∀ j ∈ js ++ [n], p j := fun j hj =>
    (List.mem_append.1 hj).elim (hjs j) fun hj => List.mem_singleton.1 hj ▸ hn
  cases h with
  | off hp hdone => exact .off hp hdone
  | all hr hjs hc hdone => exact .all hr (hmem hjs hc) (Nat.le_succ_of_le hc) hdone
  | fewer hr hjs hc hdone => exact .fewer hr (hmem hjs hc) (Nat.lt_succ_of_lt hc) hdone

namespace Passage

theorem done_sublist (h : Passage a₀ t r data fc sent done) : done.Sublist sent := by
  cases h with
  | single _ _ _ _ _ hsent hdone => exact hsent ▸ hdone.trans (List.sublist_append_left _ _)
  | first _ _ _ _ _ hsent hdone => exact hsent ▸ hdone.trans (List.sublist_append_left _ _)
  | ended _ _ _ hdone => exact hdone
  | bringing _ _ _ _ _ hsent hr => exact hsent ▸ hr.done_sublist

/-- Frames are lost. -/
theorem lose {data' fc' : List CanFrame} (h : Passage a₀ t r data fc sent done)
    (hd : data'.Sublist data) (hf : fc'.Sublist fc) : Passage a₀ t r data' fc' sent done := by
  cases h with
  | single h0 h7 hp hdata hfc hsent hdone =>
    rw [hfc, List.sublist_nil] at hf
    rcases eq_of_sublist_singleton (hdata ▸ hd) with hd | hd
    · exact .ended (by rw [hp]; simp) hd hf
        (hsent ▸ hdone.trans (List.sublist_append_left _ _))
    · exact .single h0 h7 hp hd hf hsent hdone
  | first h7 hle ht hdata hfc hsent hdone =>
    rw [hfc, List.sublist_nil] at hf
    rcases eq_of_sublist_singleton (hdata ▸ hd) with hd | hd
    · refine .ended ?_ hd hf (hsent ▸ hdone.trans (List.sublist_append_left _ _))
      rcases ht with hp | ⟨hp, -⟩ <;> rw [hp] <;> simp
    · exact .first h7 hle ht hd hf hsent hdone
  | ended hp hdata hfc hdone =>
    rw [hdata, List.sublist_nil] at hd
    rw [hfc, List.sublist_nil] at hf
    exact .ended hp hd hf hdone
  | @bringing olds m js n ht hdata hjs hn hlen hsent hr =>
    rw [hdata, List.sublist_map_iff] at hd
    obtain ⟨js', hsub, hd⟩ := hd
    refine .bringing ht hd (hjs.sublist hsub) (fun j hj => hn j (hsub.subset hj))
      (fun j hj => hlen j (hsub.subset hj)) hsent ?_
    cases hr with
    | off hp hdone => exact .off hp hdone
    | all hr hjs hc hdone => exact .all hr (fun j hj => hjs j (hsub.subset hj)) hc hdone
    | fewer hr hjs hc hdone => exact .fewer hr (fun j hj => hjs j (hsub.subset hj)) hc hdone

/-- The receiver gives up a reception. -/
theorem abort {r' : RxSide} (h : Passage a₀ t r data fc sent done) (hr : r'.phase ≠ .recv) :
    Passage a₀ t r' data fc sent done := by
  cases h with
  | single h0 h7 hp hdata hfc hsent hdone => exact .single h0 h7 hp hdata hfc hsent hdone
  | first h7 hle ht hdata hfc hsent hdone => exact .first h7 hle ht hdata hfc hsent hdone
  | ended hp hdata hfc hdone => exact .ended hp hdata hfc hdone
  | bringing ht hdata hjs hn hlen hsent hcatch =>
    exact .bringing ht hdata hjs hn hlen hsent (.off hr hcatch.done_sublist)

/-- A message that is collected is not on its way. -/
theorem collect (h : Passage a₀ t r data fc sent done) :
    Passage a₀ t { r with complete := false } data fc sent done := by
  cases h with
  | single h0 h7 hp hdata hfc hsent hdone => exact .single h0 h7 hp hdata hfc hsent hdone
  | first h7 hle ht hdata hfc hsent hdone => exact .first h7 hle ht hdata hfc hsent hdone
  | ended hp hdata hfc hdone => exact .ended hp hdata hfc hdone
  | bringing ht hdata hjs hn hlen hsent hcatch =>
    refine .bringing ht hdata hjs hn hlen hsent ?_
    cases hcatch with
    | off hp hdone => exact .off hp hdone
    | all hr hjs hc hdone =>
      exact .all ⟨hr.phase, hr.len, hr.off, hr.sn, hr.buf, hr.lt, hr.le⟩ hjs hc hdone
    | fewer hr hjs hc hdone =>
      exact .fewer ⟨hr.phase, hr.len, hr.off, hr.lt, hr.le⟩ hjs hc hdone

/-- `isotp_send()`, with nothing of an earlier message in flight. -/
theorem send {a : Link} (ha : a₀.SameConfig a) (h : Passage a₀ a.tx r [] [] sent done) (e : Env)
    (m : List UInt8) :
    Passage a₀ (a.isotpSend e m).1.tx r (a.puts (.send e m)).toList []
      (sent ++ (a.takes (.send e m)).toList) done := by
  have hdone := h.done_sublist
  rcases a.isotpSend_cases e m with ⟨-, hret, hl, hf⟩ | ⟨hp, h0, h7, hret, hp', hf⟩ |
    ⟨hp, h7, hle, hret, htx, hf⟩
  · have htake : a.takes (.send e m) = none :=
      if_neg (by rcases hret with hret | hret <;> simp [hret])
    have hput : a.puts (.send e m) = none := by
      rw [Link.puts, Link.handed, hf, ite_self]
    rw [htake, hput, hl, Option.toList_none, Option.toList_none, List.append_nil]
    exact h
  · cases hc : e.canTx with
    | false =>
      rw [hc] at hret
      have htake : a.takes (.send e m) = none := if_neg (by simp [hret])
      have hput : a.puts (.send e m) = none := if_neg (by simp [Call.canTx, hc])
      rw [htake, hput, Option.toList_none, Option.toList_none, List.append_nil]
      exact .ended (by simp [hp']) rfl rfl hdone
    | true =>
      rw [hc] at hret
      have htake : a.takes (.send e m) = some m := if_pos (.inl hret)
      have hput : a.puts (.send e m) = some (a₀.txFrame (pciByte 0 m.length :: m)) := by
        rw [Link.puts, if_pos (by exact hc), Link.handed, hf, ha.txFrame]
      rw [htake, hput]
      exact .single h0 h7 hp' rfl rfl rfl hdone
  · cases hc : e.canTx with
    | false =>
      rw [hc] at hret htx
      have htake : a.takes (.send e m) = none := if_neg (by simp [hret])
      have hput : a.puts (.send e m) = none := if_neg (by simp [Call.canTx, hc])
      rw [htake, hput, Option.toList_none, Option.toList_none, List.append_nil]
      rcases htx with ⟨hno, -⟩ | ⟨-, hp'⟩
      · cases hno
      · exact .ended (by simp [hp']) rfl rfl hdone
    | true =>
      rw [hc] at hret htx
      have htake : a.takes (.send e m) = some m := if_pos (.inr hret)
      have hput : a.puts (.send e m) = some (a₀.ffFrame m) := by
        rw [Link.puts, if_pos (by exact hc), Link.handed, hf, ha.txFrame]
        rfl
      rw [htake, hput]
      rcases htx with ⟨-, htx⟩ | ⟨hno, -⟩
      · rw [htx]
        exact .first h7 hle (.inr ⟨rfl, .started h7 hle e.now⟩) rfl rfl rfl hdone
      · cases hno

/-- A poll of the sender sends the next ConsecutiveFrame, if it is at one. -/
theorem poll {a : Link} (ha : a₀.SameConfig a) (h : Passage a₀ a.tx r data fc sent done) (e : Env) :
    Passage a₀ (a.isotpPoll e).1.tx r (data ++ (a.puts (.poll e)).toList) fc sent done := by
  have hquiet (hs : a.tx.phase ≠ .send) : a.puts (.poll e) = none ∧
      ((a.isotpPoll e).1.tx = a.tx ∨ (a.isotpPoll e).1.tx.phase = .idle) := by
    rcases a.isotpPoll_cases e (fun hs' => absurd hs' hs) with ⟨htx, hf, -⟩ | ⟨-, -, hp, hf⟩ |
      ⟨hp, -⟩
    · exact ⟨by rw [Link.puts, Link.handed, hf, ite_self], .inl htx⟩
    · exact ⟨by rw [Link.puts, Link.handed, hf, ite_self], .inr hp⟩
    · exact absurd hp hs
  cases h with
  | single h0 h7 hp hdata hfc hsent hdone =>
    obtain ⟨hput, htx⟩ := hquiet (by rw [hp]; simp)
    rw [hput, Option.toList_none, List.append_nil]
    refine .single h0 h7 ?_ hdata hfc hsent hdone
    rcases htx with htx | htx
    · rw [htx, hp]
    · exact htx
  | first h7 hle ht hdata hfc hsent hdone =>
    obtain ⟨hput, htx⟩ := hquiet (by rcases ht with hp | ⟨hp, -⟩ <;> rw [hp] <;> simp)
    rw [hput, Option.toList_none, List.append_nil]
    refine .first h7 hle ?_ hdata hfc hsent hdone
    rcases htx with htx | htx
    · rw [htx]; exact ht
    · exact .inl htx
  | ended hp hdata hfc hdone =>
    obtain ⟨hput, htx⟩ := hquiet hp
    rw [hput, Option.toList_none, List.append_nil]
    refine .ended ?_ hdata hfc hdone
    rcases htx with htx | htx
    · rw [htx]; exact hp
    · rw [htx]; simp
  | @bringing olds m js n ht hdata hjs hn hlen hsent hr =>
    by_cases hs : a.tx.phase = .send
    swap
    · obtain ⟨hput, htx⟩ := hquiet hs
      rw [hput, Option.toList_none, List.append_nil]
      refine .bringing ?_ hdata hjs hn hlen hsent hr
      rcases htx with htx | htx
      · rw [htx]; exact ht
      · exact .inl htx
    have hat : TxAt a.tx m n := ht.resolve_left (by rw [hs]; simp)
    rcases a.isotpPoll_cases e (fun _ => ⟨hat.len ▸ hat.lt, hat.len.le.trans hat.le⟩) with
      ⟨htx, hf, -⟩ | ⟨hp, -⟩ | ⟨-, -, hf, hcase⟩
    · rw [htx, Link.puts, Link.handed, hf, ite_self, Option.toList_none, List.append_nil]
      exact .bringing ht hdata hjs hn hlen hsent hr
    · rw [hs] at hp; cases hp
    -- ConsecutiveFrame `n` is handed to `can_tx`
    have hframe : a.txFrame (pciByte 2 a.tx.sn :: a.nextCf) = a₀.cfFrame m n := by
      rw [ha.txFrame, hat.nextCf_eq, hat.sn, hat.off]
      rfl
    rw [hframe] at hf
    have hbring (hc : e.canTx = true)
        (ht' : (a.isotpPoll e).1.tx.phase = .idle ∨ TxAt (a.isotpPoll e).1.tx m (n + 1)) :
        Passage a₀ (a.isotpPoll e).1.tx r (data ++ (a.puts (.poll e)).toList) fc sent done := by
      rw [Link.puts, if_pos (by exact hc), Link.handed, hf, hdata]
      refine .bringing ht' (by rw [List.map_append]; rfl) ?_ ?_ ?_ hsent hr.push
      · rw [List.pairwise_append]
        exact ⟨hjs, List.pairwise_singleton _ _, fun j hj k hk => List.mem_singleton.1 hk ▸ hn j hj⟩
      · intro j hj
        rcases List.mem_append.1 hj with hj | hj
        · exact Nat.lt_succ_of_lt (hn j hj)
        · rw [List.mem_singleton.1 hj]
          exact Nat.lt_succ_self n
      · intro j hj
        rcases List.mem_append.1 hj with hj | hj
        · exact hlen j hj
        · rw [List.mem_singleton.1 hj, ← hat.off]
          exact hat.lt
    rcases hcase with ⟨hno, hp⟩ | ⟨hc, -, hp⟩ | ⟨hc, hmore, htx⟩
    · rw [Link.puts, if_neg (by simp [Call.canTx, hno]), Option.toList_none, List.append_nil]
      exact .bringing (.inl hp) hdata hjs hn hlen hsent hr
    · exact hbring hc (.inl hp)
    · exact hbring hc (.inr (htx ▸ hat.next hmore e.now))

/-- FlowControl arrives at the sender. -/
theorem grant {a : Link} {f : CanFrame} (h : Passage a₀ a.tx r data (f :: fc) sent done) (e : Env) :
    Passage a₀ (a.isotpOnCanFrame e f.id f.data).1.tx r data fc sent done := by
  cases h with
  | single _ _ _ _ hfc | first _ _ _ _ hfc | ended _ _ hfc => cases hfc
  | @bringing olds m js n ht hdata hjs hn hlen hsent hr =>
    refine .bringing ?_ hdata hjs hn hlen hsent hr
    by_cases hfc : a.IsFc f.data f.id
    swap
    · rw [a.isotpOnCanFrame_tx e f.data hfc]
      exact ht
    rw [a.isotpOnCanFrame_fc e f.data hfc]
    rcases a.handleFc_cases e f.data with ⟨-, hl⟩ | ⟨hp, bs, st, -, htx⟩ | ⟨-, -, -, hp⟩ |
      ⟨hp, -, -, wft, htx⟩
    · rw [hl]
      exact ht
    · have hat : TxAt a.tx m n := ht.resolve_left (by rw [hp]; simp)
      exact .inr (htx ▸ hat.congr rfl rfl rfl rfl)
    · exact .inl hp
    · have hat : TxAt a.tx m n := ht.resolve_left (by rw [hp]; simp)
      exact .inr (htx ▸ hat.congr rfl rfl rfl rfl)

/-- A ConsecutiveFrame arrives at the receiver. -/
theorem deliver_cf {b : Link} (hab : a₀.txId = b.rxId) (hc : b.rx.complete = false) {j : ℕ}
    (hj : ffFirstData + cfMaxData * j < m.length) (hjn : j < n) (hjs : ∀ k ∈ js, j < k)
    (h : Catches olds m b.rx (j :: js) n done) (e : Env) :
    let r := (b.isotpOnCanFrame e (a₀.cfFrame m j).id (a₀.cfFrame m j).data).1.rx
    (r.phase = .recv → r.complete = false) ∧ Catches olds m r js n (done ++ r.waiting) := by
  intro r
  have hskip {c : ℕ} (hr : RxCounts b.rx m c) (hcj : c < j) (hdone : done.Sublist olds) :
      (r.phase = .recv → r.complete = false) ∧ Catches olds m r js n (done ++ r.waiting) := by
    obtain ⟨hcomplete, hr'⟩ := hr.skip hab e hcj hj
    have hfalse : r.complete = false := hcomplete.trans hc
    have hwait : r.waiting = [] := if_neg (by rw [hfalse]; exact Bool.false_ne_true)
    rw [hwait, List.append_nil]
    refine ⟨fun _ => hfalse, ?_⟩
    rcases hr' with hoff | hr'
    · exact .off hoff (hdone.trans (List.sublist_append_left _ _))
    · exact .fewer hr' (fun k hk => Nat.lt_of_le_of_lt hcj (hjs k hk))
        (Nat.lt_of_le_of_lt hcj hjn) hdone
  cases h with
  | off hp hdone =>
    have hsame : r = b.rx := by
      have hnone : b.acceptsCf (a₀.cfFrame m j).data = none := if_neg fun hok => hp hok.1
      have hr : r = (b.handleCf e (a₀.cfFrame m j).data).1.rx := by
        rw [← isotpOnCanFrame_cfFrame hab]
      rw [hr, Link.handleCf, if_pos hp]
    have hwait : b.rx.waiting = [] := if_neg (by rw [hc]; exact Bool.false_ne_true)
    rw [hsame, hwait, List.append_nil]
    exact ⟨fun hp' => absurd hp' hp, .off hp hdone⟩
  | @all c hr hjs' hcn hdone =>
    rcases Nat.lt_or_eq_of_le (hjs' j List.mem_cons_self) with hcj | rfl
    · exact hskip hr.counts hcj hdone
    have hrx : r = b.rxAfterCf (chunk m c) e.now := by
      have hcf := receive_cf hab e hr
      exact congrArg (fun q => q.1.rx) hcf
    rw [hrx]
    by_cases hlast : m.length ≤ 6 + 7 * (c + 1)
    · -- the message is complete
      obtain ⟨-, hcomplete, hread⟩ := hr.last hlast e.now
      have hwait : (b.rxAfterCf (chunk m c) e.now).waiting = [m] := by
        rw [RxSide.waiting, if_pos hcomplete, hread]
      have hfull : b.rx.len ≤ b.rx.off + (chunk m c).length := by
        have hoff : b.rx.off = 6 + 7 * c := hr.off
        rw [hr.len, hoff, length_chunk]
        omega
      have hp : (b.rxAfterCf (chunk m c) e.now).phase ≠ .recv := by
        simp [Link.rxAfterCf, if_pos hfull]
      rw [hwait]
      exact ⟨fun hp' => absurd hp' hp, .off hp (hdone.append (List.Sublist.refl _))⟩
    · obtain ⟨-, -, hcomplete⟩ := hr.blockCf_next (Nat.lt_of_not_le hlast) e.now
      have hfalse := hcomplete.trans hc
      have hwait : (b.rxAfterCf (chunk m c) e.now).waiting = [] :=
        if_neg (by rw [hfalse]; exact Bool.false_ne_true)
      rw [hwait, List.append_nil]
      exact ⟨fun _ => hfalse, .all (hr.next (Nat.lt_of_not_le hlast) e.now)
        (fun k hk => hjs k hk) hjn hdone⟩
  | fewer hr hjs' _ hdone => exact hskip hr (hjs' j List.mem_cons_self) hdone

/-- A frame with data arrives at the receiver. -/
theorem deliver {b : Link} {f : CanFrame} (hab : a₀.txId = b.rxId) (hc : b.rx.complete = false)
    (h : Passage a₀ t b.rx (f :: data) fc sent done) (e : Env) :
    let r := (b.isotpOnCanFrame e f.id f.data).1.rx
    (r.phase = .recv → r.complete = false) ∧ Passage a₀ t r data
      (fc ++ (b.puts (.frame e f.id f.data)).toList) sent (done ++ r.waiting) := by
  intro r
  cases h with
  | @single olds m h0 h7 hp hdata hfc hsent hdone =>
    obtain ⟨rfl, rfl⟩ := List.cons.inj hdata
    obtain ⟨rx, hon, hidle, hcomplete, hread⟩ := receive_sf hab e h0 h7
    have hr : r = rx := congrArg (fun q => q.1.rx) hon
    have hput : b.puts (.frame e a₀.txId (a₀.txFrame (pciByte 0 m.length :: m)).data) = none := by
      rw [Link.puts, Link.handed, hon, ite_self]
    have hwait : r.waiting = [m] := by rw [hr, RxSide.waiting, if_pos hcomplete, hread]
    have hrecv : r.phase ≠ .recv := by
      rw [hr, hidle]
      simp
    rw [hwait, hsent, hfc]
    refine ⟨fun hp' => absurd hp' hrecv, .ended (by rw [hp]; simp) rfl ?_
      (hdone.append (List.Sublist.refl _))⟩
    rw [show (a₀.txFrame (pciByte 0 m.length :: m)).id = a₀.txId from rfl, hput]
    rfl
  | @first olds m h7 hle ht hdata hfc hsent hdone =>
    obtain ⟨rfl, rfl⟩ := List.cons.inj hdata
    obtain ⟨hon, hat⟩ := receive_ff hab e h7 hle
    have hr : r = b.rxAfterFf (a₀.ffFrame m).data e.now := congrArg (fun q => q.1.rx) hon
    have hfalse : r.complete = false := by rw [hr]; exact hc
    have hwait : r.waiting = [] := if_neg (by rw [hfalse]; exact Bool.false_ne_true)
    have hcatch : Catches olds m r [] 0 done := .all (hr ▸ hat) (by simp) (Nat.zero_le _) hdone
    rw [hwait, List.append_nil]
    exact ⟨fun _ => hfalse, .bringing (ht.imp id And.right) rfl .nil (by simp) (by simp) hsent
      hcatch⟩
  | ended _ hdata => cases hdata
  | @bringing olds m js n ht hdata hjs hn hlen hsent hcatch =>
    rcases js with _ | ⟨j, js⟩
    · cases hdata
    obtain ⟨rfl, rfl⟩ := List.cons.inj hdata
    rw [List.pairwise_cons] at hjs
    obtain ⟨hbusy, hcatch'⟩ := deliver_cf hab hc (hlen j List.mem_cons_self)
      (hn j List.mem_cons_self) hjs.1 hcatch e
    exact ⟨hbusy, .bringing ht rfl hjs.2 (fun k hk => hn k (List.mem_cons_of_mem _ hk))
      (fun k hk => hlen k (List.mem_cons_of_mem _ hk)) hsent hcatch'⟩

end Passage

end

/-! ### Steps of the two ends -/

/-- The direction from the left end to the right one. -/
structure LossyFlow (a₀ b₀ : Link) (d : Duplex) : Prop where
  sender : a₀.SameConfig d.left.link
  receiver : b₀.SameConfig d.right.link
  busy : d.right.link.rx.phase = .recv → d.right.link.rx.complete = false
  passage : Passage a₀ d.left.link.tx d.right.link.rx (dataOf d.right.inbox)
    (grantsOf d.left.inbox) d.left.sent (d.right.got ++ d.right.link.rx.waiting)

theorem Link.puts_data {l : Link} {c : Call} (hc : ∀ e id data, c ≠ .frame e id data) :
    ∀ f ∈ l.puts c, ¬f.IsGrant := by
  intro f hf
  unfold Link.puts at hf
  split at hf
  swap
  · cases hf
  cases c with
  | send e m =>
    rcases l.isotpSend_cases e m with ⟨-, -, -, hno⟩ | ⟨-, -, -, -, -, hsf⟩ | ⟨-, -, -, -, -, hff⟩
    · rw [Link.handed, hno] at hf; cases hf
    · rw [Link.handed, hsf] at hf
      obtain rfl := Option.some.inj hf
      rw [CanFrame.IsGrant, Link.txFrame_head, pciType_pciByte _ (by omega)]
      omega
    · rw [Link.handed, hff] at hf
      obtain rfl := Option.some.inj hf
      rw [CanFrame.IsGrant, Link.txFrame_head, pciType_pciByte _ (by omega)]
      omega
  | poll e => exact l.pollTx_not_grant e hf
  | frame e id data => exact absurd rfl (hc e id data)
  | receive outCap => cases hf

/-- A poll leaves the receive side alone, or ends its reception. -/
theorem Link.isotpPoll_expires (l : Link) (e : Env) : (l.isotpPoll e).1.rx = l.rx ∨
    l.rx.phase = .recv ∧ (l.isotpPoll e).1.rx.phase = .idle ∧
      (l.isotpPoll e).1.rx.complete = l.rx.complete := by
  rw [Link.isotpPoll_eq]
  dsimp only
  split
  · exact .inl rfl
  unfold Link.pollRx
  split
  · rename_i hexp
    exact .inr ⟨hexp.1, rfl, rfl⟩
  · exact .inl rfl

theorem lossyLeft_deliver {d d' : Duplex} {e : Env} (hst : d.lossyLeft (.deliver e) = some d') :
    ∃ f rest, d.left.inbox = f :: rest ∧ d' = ⟨d.left.afterCall (.frame e f.id f.data),
      { d.right with
        inbox := d.right.inbox ++ (d.left.link.puts (.frame e f.id f.data)).toList }⟩ := by
  obtain ⟨c, hc, rfl⟩ := Option.map_eq_some_iff.1 hst
  obtain ⟨f, hf, rfl⟩ := Option.map_eq_some_iff.1 hc
  obtain ⟨rest, hrest⟩ := List.head?_eq_some_iff.1 hf
  exact ⟨f, rest, hrest, rfl⟩

/-- FlowControl is not answered. -/
theorem Link.puts_grant {l : Link} {e : Env} {f : CanFrame} (hf : f.IsGrant) :
    l.puts (.frame e f.id f.data) = none := by
  rw [Link.puts, Link.handed, (l.isotpOnCanFrame_grant e hf).2, ite_self]

/-- What is no FlowControl is answered by nothing else. -/
theorem Link.puts_frame {l : Link} {e : Env} {f : CanFrame} (hf : ¬f.IsGrant) :
    ∀ g ∈ l.puts (.frame e f.id f.data), g.IsGrant := by
  intro g hg
  unfold Link.puts at hg
  split at hg
  · exact (l.isotpOnCanFrame_data e hf).2 g hg
  · cases hg

namespace LossyFlow

variable {a₀ b₀ : Link} {d d' : Duplex} {s : LossyStep}

/-- A step of the left end, as the sender. -/
theorem of_sender (h : LossyFlow a₀ b₀ d) (ht : d.SettledLeft s) (hst : d.lossyLeft s = some d') :
    LossyFlow a₀ b₀ d' := by
  have hp := h.passage
  cases s with
  | lose i =>
    obtain rfl := Option.some.inj hst
    exact ⟨h.sender, h.receiver, h.busy, hp.lose (List.Sublist.refl _)
      ((List.eraseIdx_sublist _ i).filter _)⟩
  | send e m =>
    obtain rfl := Option.some.inj hst
    refine ⟨h.sender.trans (d.left.link.step_sameConfig (.send e m)), h.receiver, h.busy, ?_⟩
    simp only [dataOf_append_data (Link.puts_data (l := d.left.link)
      (c := .send e m) (by simp))]
    obtain ⟨hdata, hgrants⟩ := ht
    rw [hdata, hgrants] at hp
    simp only [hdata, List.nil_append, End.afterCall, hgrants]
    exact hp.send h.sender e m
  | poll e =>
    obtain rfl := Option.some.inj hst
    refine ⟨h.sender.trans (d.left.link.step_sameConfig (.poll e)), h.receiver, h.busy, ?_⟩
    simp only [dataOf_append_data (Link.puts_data (l := d.left.link) (c := .poll e) (by simp)),
      End.afterCall, Link.takes, Option.toList_none, List.append_nil]
    exact hp.poll h.sender e
  | receive outCap =>
    obtain rfl := Option.some.inj hst
    refine ⟨h.sender.trans (d.left.link.step_sameConfig (.receive outCap)), h.receiver, h.busy, ?_⟩
    simp only [Link.puts, Call.canTx, Bool.false_eq_true, if_false, End.afterCall, Link.takes,
      Option.toList_none, List.append_nil, Link.step, Link.isotpReceive_tx]
    exact hp
  | deliver e =>
    obtain ⟨f, rest, hin, rfl⟩ := lossyLeft_deliver hst
    refine ⟨h.sender.trans (d.left.link.step_sameConfig (.frame e f.id f.data)), h.receiver,
      h.busy, ?_⟩
    rw [hin] at hp
    simp only [End.afterCall, hin, List.tail_cons, Link.takes, Option.toList_none, List.append_nil,
      Link.step]
    by_cases hf : f.IsGrant
    · rw [grantsOf_cons_grant hf] at hp
      rw [Link.puts_grant hf, Option.toList_none, List.append_nil]
      exact hp.grant e
    · rw [grantsOf_cons_data hf] at hp
      rw [dataOf_append_grant (Link.puts_frame hf), (d.left.link.isotpOnCanFrame_data e hf).1]
      exact hp

/-- A step of the left end, as the receiver. -/
theorem of_receiver (h : LossyFlow a₀ b₀ d.swap) (hab : Connected a₀ b₀) (ht : d.SettledLeft s)
    (hst : d.lossyLeft s = some d') : LossyFlow a₀ b₀ d'.swap := by
  have hp : Passage a₀ d.right.link.tx d.left.link.rx (dataOf d.left.inbox)
    (grantsOf d.right.inbox) d.right.sent (d.left.got ++ d.left.link.rx.waiting) := h.passage
  have hbusy : d.left.link.rx.phase = .recv → d.left.link.rx.complete = false := h.busy
  cases s with
  | lose i =>
    obtain rfl := Option.some.inj hst
    exact ⟨h.sender, h.receiver, h.busy, hp.lose ((List.eraseIdx_sublist _ i).filter _)
      (List.Sublist.refl _)⟩
  | send e m =>
    obtain rfl := Option.some.inj hst
    have hrx : (d.left.link.step (.send e m)).rx = d.left.link.rx := d.left.link.isotpSend_rx e m
    refine ⟨h.sender, h.receiver.trans (d.left.link.step_sameConfig (.send e m)), ?_, ?_⟩
    · simp only [Duplex.swap_right, End.afterCall, hrx]
      exact hbusy
    · simp only [Duplex.swap_left, Duplex.swap_right, End.afterCall, hrx, Link.returns,
        Option.toList_none, List.append_nil,
        grantsOf_append_data (Link.puts_data (l := d.left.link) (c := .send e m) (by simp))]
      exact hp
  | poll e =>
    obtain rfl := Option.some.inj hst
    refine ⟨h.sender, h.receiver.trans (d.left.link.step_sameConfig (.poll e)), ?_, ?_⟩
    · simp only [Duplex.swap_right, End.afterCall, Link.step]
      rcases d.left.link.isotpPoll_expires e with hrx | ⟨-, hidle, -⟩
      · rw [hrx]
        exact hbusy
      · intro hrecv
        rw [hidle] at hrecv
        cases hrecv
    · simp only [Duplex.swap_left, Duplex.swap_right, End.afterCall, Link.step, Link.returns,
        Option.toList_none, List.append_nil,
        grantsOf_append_data (Link.puts_data (l := d.left.link) (c := .poll e) (by simp))]
      rcases d.left.link.isotpPoll_expires e with hrx | ⟨hrecv, hidle, hsame⟩
      · rw [hrx]
        exact hp
      · have hfalse := hbusy hrecv
        have hwait : d.left.link.rx.waiting = [] :=
          if_neg (by rw [hfalse]; exact Bool.false_ne_true)
        have hwait' : (d.left.link.isotpPoll e).1.rx.waiting = [] :=
          if_neg (by rw [hsame, hfalse]; exact Bool.false_ne_true)
        rw [hwait] at hp
        rw [hwait']
        exact hp.abort (by rw [hidle]; simp)
  | receive outCap =>
    obtain rfl := Option.some.inj hst
    obtain ⟨hwait, hrx⟩ := d.left.link.receive_waiting outCap
    refine ⟨h.sender, h.receiver.trans (d.left.link.step_sameConfig (.receive outCap)), ?_, ?_⟩
    · simp only [Duplex.swap_right, End.afterCall, Link.step]
      rcases hrx with hrx | hrx <;> rw [hrx]
      · exact hbusy
      · exact fun _ => rfl
    · simp only [Duplex.swap_left, Duplex.swap_right, End.afterCall, Link.step, Link.puts,
        Call.canTx, Bool.false_eq_true, if_false, Option.toList_none, List.append_nil,
        List.append_assoc]
      rw [hwait]
      rcases hrx with hrx | hrx <;> rw [hrx]
      · exact hp
      · exact hp.collect
  | deliver e =>
    obtain ⟨f, rest, hin, rfl⟩ := lossyLeft_deliver hst
    have hc : d.left.link.rx.complete = false := ht
    have hwait : d.left.link.rx.waiting = [] := if_neg (by rw [hc]; exact Bool.false_ne_true)
    rw [hin] at hp
    by_cases hf : f.IsGrant
    · have hrx := (d.left.link.isotpOnCanFrame_grant e hf).1
      rw [dataOf_cons_grant hf] at hp
      refine ⟨h.sender,
        h.receiver.trans (d.left.link.step_sameConfig (.frame e f.id f.data)), ?_, ?_⟩
      · simp only [Duplex.swap_right, End.afterCall, Link.step, hrx]
        exact hbusy
      · simp only [Duplex.swap_left, Duplex.swap_right, End.afterCall, hin, List.tail_cons,
          Link.step, hrx, Link.returns, Option.toList_none, List.append_nil, Link.puts_grant hf]
        exact hp
    · rw [dataOf_cons_data hf, hwait, List.append_nil] at hp
      have hrxId : a₀.txId = d.left.link.rxId := hab.ab.trans h.receiver.rxId.symm
      obtain ⟨hbusy', hp'⟩ := hp.deliver hrxId hc e
      refine ⟨h.sender,
        h.receiver.trans (d.left.link.step_sameConfig (.frame e f.id f.data)), hbusy', ?_⟩
      simp only [Duplex.swap_left, Duplex.swap_right, End.afterCall, hin, List.tail_cons,
        Link.step, Link.returns, Option.toList_none, List.append_nil,
        grantsOf_append_grant (Link.puts_frame hf)]
      exact hp'

end LossyFlow

/-! ### Runs -/

theorem LossyFlow.of_start {a b : Link} (ha : a.Idle) (hb : b.Idle) :
    LossyFlow a b (.start a b) := by
  refine ⟨.refl a, .refl b, fun _ => hb.complete,
    .ended (t := a.tx) (by rw [ha.tx]; simp) rfl rfl ?_⟩
  have hwait : b.rx.waiting = [] := if_neg (by rw [hb.complete]; exact Bool.false_ne_true)
  show ([] ++ b.rx.waiting).Sublist []
  rw [hwait]
  exact List.Sublist.refl _

/-- **No message is altered by the loss of frames.**  In every run of two idle links over a bus that
loses frames, in which `can_tx` may fail and timers may expire at any time, messages cross, and a
message is begun when nothing of an earlier one and no grant for it is in flight: what an end has
collected is some of what the other end has sent, in order, each message at most once. -/
theorem lossy_delivers {a b : Link} (hab : Connected a b) (ha : a.Idle) (hb : b.Idle)
    {steps : List (Place × LossyStep)} {d : Duplex}
    (hrun : (lossySystem.guard Duplex.Settled).Run (.start a b) steps d) :
    d.right.got.Sublist d.left.sent ∧ d.left.got.Sublist d.right.sent := by
  have hflow : LossyFlow a b d ∧ LossyFlow b a d.swap := by
    refine hrun.invariant (I := fun d => LossyFlow a b d ∧ LossyFlow b a d.swap)
      ⟨.of_start ha hb, .of_start hb ha⟩ fun d s d' h hst => ?_
    obtain ⟨place, s⟩ := s
    obtain ⟨ht, hst⟩ := hst
    cases place with
    | left => exact ⟨h.1.of_sender ht hst, h.2.of_receiver ⟨hab.ba, hab.ab⟩ ht hst⟩
    | right =>
      obtain ⟨e, he, rfl⟩ := Option.map_eq_some_iff.1 hst
      exact ⟨LossyFlow.of_receiver (d := d.swap) h.1 hab ht he, h.2.of_sender ht he⟩
  constructor
  · exact (List.sublist_append_left _ _).trans hflow.1.passage.done_sublist
  · exact (List.sublist_append_left _ _).trans hflow.2.passage.done_sublist

/-- A message of twenty bytes. -/
def bytesFrom (n : ℕ) : List UInt8 := (List.range 20).map fun i => UInt8.ofNat (n + i)

/-- The second ConsecutiveFrame of a message is lost, and the next message arrives. -/
def lostFrame : Option (Duplex × Unit) :=
  System.exec Duplex.lossyStep Duplex.Settled (fun _ _ u => u)
    (.start testLink (isotpInit 0x7E0 0x7E8 isotpNoFuncId none), ())
    [(.left, .send ⟨0, true⟩ (bytesFrom 0)), (.right, .deliver ⟨1, true⟩),
      (.left, .deliver ⟨2, true⟩), (.left, .poll ⟨3, true⟩), (.left, .poll ⟨4, true⟩),
      (.right, .lose 1), (.right, .deliver ⟨5, true⟩), (.left, .send ⟨6, true⟩ (bytesFrom 100)),
      (.right, .deliver ⟨7, true⟩), (.left, .deliver ⟨8, true⟩), (.left, .poll ⟨9, true⟩),
      (.left, .poll ⟨10, true⟩), (.right, .deliver ⟨11, true⟩), (.right, .deliver ⟨12, true⟩),
      (.right, .receive isotpMaxMsg)]

theorem lossy_delivers_lostFrame : ∃ d, lostFrame = some (d, ()) ∧
    d.left.sent = [bytesFrom 0, bytesFrom 100] ∧ d.right.got = [bytesFrom 100] ∧
    d.right.got.Sublist d.left.sent := by
  have hrun : lostFrame.map (fun q => (q.1.left.sent, q.1.right.got)) =
      some ([bytesFrom 0, bytesFrom 100], [bytesFrom 100]) := by decide +kernel
  obtain ⟨⟨d, u⟩, hd, heq⟩ := Option.map_eq_some_iff.1 hrun
  obtain ⟨hsent, hgot⟩ := Prod.mk.inj heq
  exact ⟨d, hd, hsent, hgot, (lossy_delivers (a := testLink)
    (b := isotpInit 0x7E0 0x7E8 isotpNoFuncId none) ⟨rfl, rfl⟩ ⟨rfl, rfl, rfl⟩ ⟨rfl, rfl, rfl⟩
    (System.Run.of_exec hd).of_withAux).1⟩

/-- The grant for a message that was given up arrives when the FirstFrame of the next one has been
lost. -/
def staleGrant : Option Duplex :=
  System.runs Duplex.lossyStep (.start testLink (isotpInit 0x7E0 0x7E8 isotpNoFuncId none))
    [(.left, .send ⟨0, true⟩ (bytesFrom 0)), (.right, .deliver ⟨1, true⟩),
      (.left, .poll ⟨1000, true⟩), (.left, .send ⟨1001, true⟩ (bytesFrom 100)), (.right, .lose 0),
      (.left, .deliver ⟨1002, true⟩), (.left, .poll ⟨1003, true⟩), (.left, .poll ⟨1004, true⟩),
      (.right, .deliver ⟨1005, true⟩), (.right, .deliver ⟨1006, true⟩),
      (.right, .receive isotpMaxMsg)]

/-- **A stale grant mixes two messages**: the receiver collects the beginning of the one and the
rest of the other. -/
theorem staleGrant_mixes : ¬∀ (steps : List (Place × LossyStep)) (d : Duplex),
    lossySystem.Run (.start testLink (isotpInit 0x7E0 0x7E8 isotpNoFuncId none)) steps d →
      d.right.got.Sublist d.left.sent := by
  intro hall
  have hrun : staleGrant.map (fun d => (d.left.sent, d.right.got)) =
      some ([bytesFrom 0, bytesFrom 100], [(bytesFrom 0).take 6 ++ (bytesFrom 100).drop 6]) := by
    decide +kernel
  obtain ⟨d, hd, heq⟩ := Option.map_eq_some_iff.1 hrun
  obtain ⟨hsent, hgot⟩ := Prod.mk.inj heq
  have hsub := hall _ d (System.Run.of_runs hd)
  rw [hsent, hgot] at hsub
  exact absurd (hsub.subset List.mem_cons_self) (by decide)

end IsoTp

end Espcan32
