import Espcan32.Uds.Server

/-!
# The server does not look behind its transport

All that a poll of the server takes from its transport is the request it finds and what its sends
return.  A `Script` writes these down beforehand; a poll that replays them is the poll itself, and
what it does to the link is what the sends do, one after the other.

* `Transport.SendsAll` : the sends of a poll, from one link to another.
* `Poll.Replay` : a part of a poll that a script can stand for; `Replay.andThen` composes them.
* `udsServerPoll_replay` : **a poll on any transport is a poll on its script.**
-/

namespace Espcan32

namespace Uds

open IsoTp (Ret Received)

/-! ### Scripts -/

/-- What a poll takes from its transport: the request that it finds, and what its sends return. -/
structure Script where
  found : Received
  rets : List Ret

/-- The transport that does what is written. -/
def scriptTransport : Transport Script where
  receive l := (l, l.found)
  send l _ := ({ l with rets := l.rets.tail }, l.rets.headD .error)

/-- Sending the PDUs of `sent` in turn, with the results of `sent`, leads from one link to the
other. -/
inductive Transport.SendsAll {L : Type} (T : Transport L) : L → List (List UInt8 × Ret) → L → Prop
  | nil (l : L) : SendsAll T l [] l
  | cons {l l' l'' : L} {pdu : List UInt8} {r : Ret} {sent : List (List UInt8 × Ret)}
      (h : T.send l pdu = (l', r)) (hs : SendsAll T l' sent l'') :
      SendsAll T l ((pdu, r) :: sent) l''

theorem Transport.SendsAll.append {L : Type} {T : Transport L} {l l' l'' : L}
    {sent sent' : List (List UInt8 × Ret)} (h : T.SendsAll l sent l')
    (h' : T.SendsAll l' sent' l'') : T.SendsAll l (sent ++ sent') l'' := by
  induction h with
  | nil => exact h'
  | cons hsend _ ih => exact .cons hsend (ih h')

/-- What a send keeps, the sends keep. -/
theorem Transport.SendsAll.keeps {L : Type} {T : Transport L} {I : L → Prop} {l l' : L}
    {sent : List (List UInt8 × Ret)} (h : T.SendsAll l sent l') (hI : I l)
    (hsend : ∀ l pdu, I l → I (T.send l pdu).1) : I l' := by
  induction h with
  | nil => exact hI
  | @cons l _ _ pdu _ _ hs _ ih =>
    have hkept := hsend l pdu hI
    rw [hs] at hkept
    exact ih hkept

namespace Poll

variable {L W β γ : Type}

/-- The poll on a script. -/
def script (p : Poll L W) (c : Received) (rets : List Ret) : Poll Script W where
  server := p.server
  link := ⟨c, rets⟩
  world := p.world
  sent := p.sent
  restarted := p.restarted

/-- What leads from `p` to `r` on the transport `T` is what `f` does on a script that has the
results of the sends in between. -/
def Replay (T : Transport L) (p : Poll L W) (r : Poll L W × β)
    (f : Poll Script W → Option (Poll Script W × β)) : Prop :=
  ∃ new, r.1.sent = p.sent ++ new ∧ T.SendsAll p.link new r.1.link ∧
    ∀ c rest, f (p.script c (new.map Prod.snd ++ rest)) = some (r.1.script c rest, r.2)

variable {T : Transport L} {p : Poll L W}

/-- Nothing is sent. -/
theorem Replay.of_quiet {r : Poll L W × β} {f : Poll Script W → Option (Poll Script W × β)}
    (hsent : r.1.sent = p.sent) (hlink : r.1.link = p.link)
    (hf : ∀ c rets, f (p.script c rets) = some (r.1.script c rets, r.2)) : Replay T p r f := by
  refine ⟨[], by rw [hsent, List.append_nil], ?_, hf⟩
  rw [hlink]
  exact .nil _

/-- What a script does is read off where it starts. -/
theorem Replay.congr {r : Poll L W × β} {f g : Poll Script W → Option (Poll Script W × β)}
    (hf : Replay T p r f) (hg : ∀ c rets, g (p.script c rets) = f (p.script c rets)) :
    Replay T p r g := by
  obtain ⟨new, hsent, hall, hf⟩ := hf
  exact ⟨new, hsent, hall, fun c rest => (hg c _).trans (hf c rest)⟩

theorem Replay.andThen {r : Poll L W × β} {r' : Poll L W × γ}
    {f : Poll Script W → Option (Poll Script W × β)}
    {g : β → Poll Script W → Option (Poll Script W × γ)}
    {h : Poll Script W → Option (Poll Script W × γ)} (hf : Replay T p r f)
    (hg : Replay T r.1 r' (g r.2)) (hh : ∀ x, h x = (f x).bind fun y => g y.2 y.1) :
    Replay T p r' h := by
  obtain ⟨new, hsent, hall, hf⟩ := hf
  obtain ⟨new', hsent', hall', hg⟩ := hg
  refine ⟨new ++ new', ?_, hall.append hall', fun c rest => ?_⟩
  · rw [hsent', hsent, List.append_assoc]
  rw [List.map_append, List.append_assoc, hh, hf]
  exact hg c rest

/-! ### The steps of a poll -/

theorem udsSendRaw_replay (p : Poll L W) (buf : List UInt8) :
    Replay T p (p.udsSendRaw T buf) fun x => some (x.udsSendRaw scriptTransport buf) :=
  ⟨[(buf, (T.send p.link buf).2)], rfl, .cons rfl (.nil _), fun _ _ => rfl⟩

theorem udsSendNrc_replay (p : Poll L W) (sid nrc : UInt8) (functional : Bool) :
    Replay T p (p.udsSendNrc T sid nrc functional, ())
      fun x => some (x.udsSendNrc scriptTransport sid nrc functional, ()) := by
  by_cases hs : functional ∧ udsNrcSuppressedOnFunctional nrc
  · have hT : p.udsSendNrc T sid nrc functional = p := if_pos hs
    rw [hT]
    exact .of_quiet rfl rfl fun c rets => by rw [udsSendNrc, if_pos hs]
  · have hraw := udsSendRaw_replay (T := T) p [udsNegRespSid, sid, nrc]
    unfold udsSendNrc
    simp only [if_neg hs]
    generalize p.udsSendRaw T [udsNegRespSid, sid, nrc] = r at hraw ⊢
    obtain ⟨q, taken⟩ := r
    refine hraw.andThen (g := fun taken x => some (if taken then x else { x with
      server := { x.server with respDropped := x.server.respDropped + 1 } }, ())) ?_ fun x => ?_
    · cases taken <;> exact .of_quiet rfl rfl fun c rets => rfl
    · dsimp only [Option.bind_some]
      rcases x.udsSendRaw scriptTransport [udsNegRespSid, sid, nrc] with ⟨y, taken⟩
      cases taken <;> rfl

theorem udsSendResponse_replay (p : Poll L W) (sid : UInt8) (buf : List UInt8) (functional : Bool) :
    Replay T p (p.udsSendResponse T sid buf functional)
      fun x => some (x.udsSendResponse scriptTransport sid buf functional) := by
  have hraw := udsSendRaw_replay (T := T) p buf
  unfold udsSendResponse
  generalize p.udsSendRaw T buf = r at hraw ⊢
  obtain ⟨q, taken⟩ := r
  refine hraw.andThen (g := fun taken x => if taken then some (x, true)
    else some (x.udsSendNrc scriptTransport sid Nrc.brr functional, false)) ?_ fun x => ?_
  · cases taken with
    | true => exact .of_quiet rfl rfl fun c rets => rfl
    | false =>
      exact (q.udsSendNrc_replay sid Nrc.brr functional).andThen
        (g := fun _ x => some (x, false)) (.of_quiet rfl rfl fun c rets => rfl) fun x => rfl
  · dsimp only [Option.bind_some]
    rcases x.udsSendRaw scriptTransport buf with ⟨y, taken⟩
    cases taken <;> rfl

theorem call_replay {fn : Handler W} {c c' : Ctx} {q : Poll L W} {disp : Disp}
    (h : p.call fn c = some (q, disp, c')) :
    Replay T p (q, disp, c') fun x => x.call fn c := by
  unfold call at h
  simp only [Option.bind_eq_bind, Option.bind_eq_some_iff, Option.some.injEq, Prod.mk.injEq] at h
  obtain ⟨⟨w, d, e, g⟩, hfn, rfl, rfl, rfl⟩ := h
  refine .of_quiet rfl rfl fun c rets => ?_
  unfold call
  rw [show (p.script c rets).world = p.world from rfl,
    show (p.script c rets).server = p.server from rfl, hfn]
  rfl

theorem settle_replay {fn : Handler W} {sid : UInt8} {functional : Bool} {n : ℕ}
    {disp disp' : Disp} {c c' : Ctx} {q : Poll L W}
    (h : p.settle T fn sid functional n disp c = some (q, disp', c')) :
    Replay T p (q, disp', c') fun x => x.settle scriptTransport fn sid functional n disp c := by
  induction n generalizing p disp c with
  | zero =>
    simp only [settle, Option.some.injEq, Prod.mk.injEq] at h
    obtain ⟨rfl, rfl, rfl⟩ := h
    exact .of_quiet rfl rfl fun c rets => rfl
  | succ n ih =>
    cases disp with
    | responsePending =>
      simp only [settle, Option.bind_eq_bind, Option.bind_eq_some_iff] at h
      obtain ⟨⟨q', disp₁, c₁⟩, hcall, h⟩ := h
      have hnrc := (p.udsSendNrc_replay (T := T) sid Nrc.rcrrp functional).andThen
        (g := fun _ x => x.call fn { c with respLen := 0, nrc := Nrc.generalReject })
        (call_replay hcall) fun _ => rfl
      exact hnrc.andThen
        (g := fun dc x => x.settle scriptTransport fn sid functional n dc.1 dc.2) (ih h)
        fun _ => rfl
    | _ =>
      simp only [settle, Option.some.injEq, Prod.mk.injEq] at h
      obtain ⟨rfl, rfl, rfl⟩ := h
      exact .of_quiet rfl rfl fun c rets => rfl

theorem finish_replay (p : Poll L W) : Replay T p (p.finish, ()) fun x => some (x.finish, ()) :=
  .of_quiet (by rw [finish_eq]) (by rw [finish_eq]) fun c rets => by rw [finish_eq, finish_eq]; rfl

theorem respond_replay (p : Poll L W) (sid : UInt8) (suppress functional : Bool) (c : Ctx) :
    Replay T p (p.respond T sid suppress functional c, ())
      fun x => some (x.respond scriptTransport sid suppress functional c, ()) := by
  unfold respond
  dsimp only
  by_cases hs : suppress = false ∧ 0 < c.respLen
  swap
  · simp only [if_neg hs]
    exact .of_quiet rfl rfl fun c rets => rfl
  simp only [if_pos hs]
  have hresp := udsSendResponse_replay (T := T)
    { p with server := p.server.commit sid c.session } sid (c.resp.read 0 c.respLen) functional
  generalize udsSendResponse T _ sid (c.resp.read 0 c.respLen) functional = r at hresp ⊢
  obtain ⟨q, taken⟩ := r
  have hcommit : Replay T p ({ p with server := p.server.commit sid c.session }, ())
      fun x => some ({ x with server := x.server.commit sid c.session }, ()) :=
    .of_quiet rfl rfl fun c rets => rfl
  refine (hcommit.andThen (g := fun _ x => some (x.udsSendResponse scriptTransport sid
    (c.resp.read 0 c.respLen) functional)) hresp fun _ => rfl).andThen
    (g := fun taken x => some (if taken then x else { x with server := { x.server with
      g := { x.server.g with pendingReset := false } } }, ())) ?_ fun x => ?_
  · cases taken <;> exact .of_quiet rfl rfl fun c rets => rfl
  · dsimp only [Option.bind_some]
    generalize udsSendResponse scriptTransport _ sid (c.resp.read 0 c.respLen) functional = r
    obtain ⟨y, taken⟩ := r
    cases taken <;> rfl

theorem emit_replay (p : Poll L W) (sid : UInt8) (suppress functional : Bool) (disp : Disp)
    (c : Ctx) : Replay T p (p.emit T sid suppress functional disp c, ())
      fun x => some (x.emit scriptTransport sid suppress functional disp c, ()) := by
  cases disp with
  | responsePending => exact p.udsSendNrc_replay sid Nrc.generalReject functional
  | positive =>
    exact (p.respond_replay sid suppress functional c).andThen (g := fun _ x => some (x.finish, ()))
      (finish_replay _) fun _ => rfl
  | negative =>
    exact (p.udsSendNrc_replay sid c.nrc functional).andThen (g := fun _ x => some (x.finish, ()))
      (finish_replay _) fun _ => rfl
  | noResponse => exact finish_replay p

theorem dispatch_replay {services : List (Service W)} {req : List UInt8} {functional : Bool}
    {q : Poll L W} (h : p.dispatch T services req functional = some q) :
    Replay T p (q, ())
      fun x => (x.dispatch scriptTransport services req functional).map fun y => (y, ()) := by
  simp only [dispatch, Option.bind_eq_bind, Option.bind_eq_some_iff] at h
  obtain ⟨sid, hsid, h⟩ := h
  unfold dispatch
  simp only [hsid, Option.bind_eq_bind, Option.bind_some]
  cases hfind : udsFindService services sid with
  | none =>
    rw [hfind] at h
    obtain rfl := Option.some.inj h
    exact p.udsSendNrc_replay sid Nrc.sns functional
  | some svc =>
    rw [hfind] at h
    obtain ⟨sid', mask, fn⟩ := svc
    cases fn with
    | none =>
      obtain rfl := Option.some.inj h
      exact p.udsSendNrc_replay sid Nrc.sns functional
    | some fn =>
      dsimp only at h ⊢
      -- the session is that of the server at the start
      by_cases hmask : mask ≠ 0 ∧ (1 <<< p.server.session.toNat) &&& mask.toNat = 0
      · rw [if_pos hmask] at h
        obtain rfl := Option.some.inj h
        exact (p.udsSendNrc_replay sid Nrc.snsias functional).congr fun c rets =>
          congrArg (Option.map _) (if_pos hmask)
      · rw [if_neg hmask] at h
        obtain ⟨⟨q₁, disp₁, c₁⟩, hcall, h⟩ := Option.bind_eq_some_iff.1 h
        obtain ⟨⟨q₂, disp₂, c₂⟩, hsettle, h⟩ := Option.bind_eq_some_iff.1 h
        obtain rfl := Option.some.inj h
        have hrun := ((call_replay (T := T) hcall).andThen
          (g := fun dc x => x.settle scriptTransport fn sid functional udsMaxPendingIters dc.1 dc.2)
          (settle_replay hsettle) fun _ => rfl).andThen
          (g := fun dc x =>
            some (x.emit scriptTransport sid (suppressed sid req) functional dc.1 dc.2, ()))
          (q₂.emit_replay sid (suppressed sid req) functional disp₂ c₂) fun _ => rfl
        refine hrun.congr fun c rets => ?_
        rw [show (p.script c rets).server = p.server from rfl, if_neg hmask]
        rw [Option.map_bind, Option.bind_assoc]
        congr 1
        funext y
        exact Option.map_bind

/-- **A poll on any transport is a poll on its script**, and what it does to the link is what
`isotp_receive()` and the sends do. -/
theorem udsServerPoll_replay {services : List (Service W)} {elapsedMs : UInt32} {q : Poll L W}
    (h : p.udsServerPoll T services elapsedMs = some q) :
    ∃ new, q.sent = p.sent ++ new ∧ T.SendsAll (T.receive p.link).1 new q.link ∧
      (p.script (T.receive p.link).2 (new.map Prod.snd)).udsServerPoll scriptTransport services
          elapsedMs = some (q.script (T.receive p.link).2 []) := by
  unfold udsServerPoll at h ⊢
  dsimp only at h ⊢
  by_cases hno : (T.receive p.link).2.ret ≠ .ok ∨ (T.receive p.link).2.out.length = 0
  · rw [if_pos hno] at h
    obtain rfl := Option.some.inj h
    exact ⟨[], (List.append_nil _).symm, .nil _, if_pos hno⟩
  · rw [if_neg hno] at h
    obtain ⟨new, hsent, hall, hf⟩ := dispatch_replay h
    refine ⟨new, hsent, hall, (if_neg hno).trans ?_⟩
    obtain ⟨y, hy, heq⟩ := Option.map_eq_some_iff.1 (hf (T.receive p.link).2 [])
    rw [List.append_nil] at hy
    rw [← (Prod.mk.inj heq).1]
    exact hy

end Poll

end Uds

end Espcan32
