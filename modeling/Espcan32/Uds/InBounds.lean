import Espcan32.Uds.ReadDid

/-!
# The handlers stay in bounds

A handler is given a request, and a buffer for its response whose contents it must not rely on.
The accesses of the model fail out of bounds, so that a handler that returns has made none.  A
byte of the response has been written if it is the same whatever the buffer held before.

* `InBounds` : a handler returns, within its bounds, and with a response it has written.
* `InBounds.refuse`, `InBounds.reply`, `InBounds.ite` : the ways in which it does so.
* `builtinHandlers_inBounds` : **all nine handlers do, for every state of the server, every request
  and every capacity.**
-/

namespace Espcan32

namespace Uds

open IsoTp (isotpMaxMsg)

/-- What a handler does with a response buffer, `run`, stays in bounds: it returns, and the buffer
is as it was from its capacity on.  If the result is positive, the response has a length from 1 to
the capacity, and its bytes are the same whatever the buffer held. -/
def InBounds (c : Ctx) (run : Mem UInt8 → Option (Disp × Ctx × Statics)) : Prop :=
  ∃ disp g' out, ∀ resp, ∃ c', run resp = some (disp, c', g') ∧
    (∀ j, c.respCap ≤ j → c'.resp j = resp j) ∧
    (disp = .positive →
      1 ≤ c'.respLen ∧ c'.respLen ≤ c.respCap ∧ c'.resp.read 0 c'.respLen = out)

namespace InBounds

variable {c : Ctx} {g : Statics}

theorem refuse (c : Ctx) (nrc : UInt8) (g : Statics) :
    InBounds c fun resp => Ctx.refuse { c with resp := resp } nrc g := by
  refine ⟨.negative, g, [], ?_⟩
  intro resp
  exact ⟨{ c with resp := resp, nrc := nrc }, rfl, fun _ _ => rfl, fun h => by cases h⟩

theorem reply (session : UInt8) (bs : List UInt8) (g : Statics) (h : bs.length ≤ c.respCap)
    (hpos : 0 < bs.length) :
    InBounds c fun resp => Ctx.reply { c with resp := resp, session := session } bs g := by
  refine ⟨.positive, g, bs, ?_⟩
  intro resp
  have hput : 0 + bs.length ≤ c.respCap := by omega
  refine ⟨{ c with
    resp := resp.copy 0 bs, session := session, respLen := bs.length }, ?_, ?_, ?_⟩
  · dsimp only [Ctx.reply, Ctx.put]
    rw [if_pos hput]
    rfl
  · intro j hj
    exact Mem.copy_of_ge (hput.trans hj)
  · intro _
    exact ⟨hpos, h, Mem.read_copy resp 0 bs⟩

/-- A condition that does not look at the response buffer. -/
theorem ite {p : Prop} {dec : Mem UInt8 → Decidable p}
    {run run' : Mem UInt8 → Option (Disp × Ctx × Statics)} (h : p → InBounds c run)
    (h' : ¬p → InBounds c run') :
    InBounds c fun resp => @ite _ p (dec resp) (run resp) (run' resp) := by
  by_cases hp : p
  · simp only [if_pos hp]
    exact h hp
  · simp only [if_neg hp]
    exact h' hp

/-- A handler that has the same result for every response buffer. -/
theorem of_meets {run : Mem UInt8 → Option (Disp × Ctx × Statics)} {v : Result}
    (hmeets : ∀ resp, Meets { c with resp := resp } (run resp) v g)
    (hkeeps : ∀ resp disp c' g', run resp = some (disp, c', g') →
      Ctx.Keeps { c with resp := resp } c') : InBounds c run := by
  cases v with
  | negative nrc =>
    refine ⟨.negative, g, [], ?_⟩
    intro resp
    have hrun := hmeets resp
    have hbeyond := hkeeps resp
    generalize run resp = r at hrun hbeyond
    cases hrun with
    | negative _ resp' => exact ⟨_, rfl, (hbeyond _ _ _ rfl).beyond, fun h => by cases h⟩
  | positive bs session =>
    refine ⟨.positive, g, bs, ?_⟩
    intro resp
    have hrun := hmeets resp
    have hbeyond := hkeeps resp
    generalize run resp = r at hrun hbeyond
    cases hrun with
    | positive _ _ resp' _ hlen hpos hresp =>
      exact ⟨_, rfl, (hbeyond _ _ _ rfl).beyond, fun _ => ⟨hpos, hlen, hresp⟩⟩

end InBounds

/-! ### The handlers -/

section

variable (c : Ctx) (g : Statics)

theorem udsHDiagSession_inBounds :
    InBounds c fun resp => udsHDiagSession { c with resp := resp } g := by
  unfold udsHDiagSession
  dsimp only
  refine .ite (fun _ => .refuse c _ g) fun hlen => ?_
  rw [List.getElem?_eq_getElem (show 1 < c.req.length by omega)]
  simp only [Option.bind_eq_bind, Option.bind_some]
  refine .ite (fun _ => .refuse c _ g) fun _ => ?_
  refine .ite (fun _ => .refuse c _ g) fun hcap => ?_
  exact .reply _ _ g (by simp [be16]; omega) (by simp)

theorem udsHEcuReset_inBounds : InBounds c fun resp => udsHEcuReset { c with resp := resp } g := by
  unfold udsHEcuReset
  dsimp only
  refine .ite (fun _ => .refuse c _ g) fun hlen => ?_
  rw [List.getElem?_eq_getElem (show 1 < c.req.length by omega)]
  simp only [Option.bind_eq_bind, Option.bind_some]
  refine .ite (fun _ => .refuse c _ g) fun _ => ?_
  refine .ite (fun _ => .refuse c _ g) fun hcap => ?_
  refine .ite (fun _ => ?_) fun _ => ?_
  · exact .reply _ _ _ (by simp; omega) (by simp)
  · exact .reply c.session _ g (by simp; omega) (by simp)

/-- ReadDataByIdentifier, with its 16-bit indices. -/
theorem udsHReadDid_inBounds (hreq : c.req.length ≤ isotpMaxMsg) (hcap : c.respCap < 65536) :
    InBounds c fun resp => Word.udsHReadDid { c with resp := resp } g := by
  have hword (resp : Mem UInt8) : Word.udsHReadDid { c with resp := resp } g =
      udsHReadDid { c with resp := resp } g :=
    @Word.udsHReadDid_eq { c with resp := resp } g hreq hcap
  simp only [hword]
  by_cases hroom : c.respCap < 1
  · unfold udsHReadDid
    dsimp only
    refine .ite (fun _ => .refuse c _ g) fun _ => ?_
    exact .ite (fun _ => .refuse c _ g) fun hpos => absurd hroom hpos
  · have hmeets (resp : Mem UInt8) : Meets { c with resp := resp }
        (udsHReadDid { c with resp := resp } g) (didAnswer c.req c.respCap c.session) g :=
      udsHReadDid_didAnswer { c with resp := resp } g (Nat.le_of_not_lt hroom)
    refine .of_meets hmeets ?_
    intro resp disp c' g' hrun
    exact .udsHReadDid hrun

theorem udsHSecurity_inBounds (random : UInt32) :
    InBounds c fun resp => udsHSecurity random { c with resp := resp } g := by
  unfold udsHSecurity
  dsimp only
  refine .ite (fun _ => .refuse c _ g) fun hlen => ?_
  refine .ite (fun _ => .refuse c _ g) fun _ => ?_
  rw [List.getElem?_eq_getElem (show 1 < c.req.length by omega)]
  simp only [Option.bind_eq_bind, Option.bind_some]
  refine .ite (fun _ => .refuse c _ g) fun _ => ?_
  refine .ite (fun _ => ?_) fun _ => ?_
  · -- requestSeed
    unfold requestSeed
    dsimp only
    refine .ite (fun _ => .refuse c _ g) fun hcap => ?_
    refine .ite (fun _ => ?_) fun _ => ?_
    · exact .reply c.session _ _ (by simp [be32]; omega) (by simp)
    · exact .reply c.session _ _ (by simp [be32]; omega) (by simp)
  · -- sendKey
    unfold sendKey
    dsimp only
    refine .ite (fun _ => .refuse c _ g) fun hkey => ?_
    refine .ite (fun _ => .refuse c _ g) fun _ => ?_
    refine .ite (fun _ => .refuse c _ g) fun hcap => ?_
    rw [List.getElem?_eq_getElem (show 2 < c.req.length by omega),
      List.getElem?_eq_getElem (show 3 < c.req.length by omega),
      List.getElem?_eq_getElem (show 4 < c.req.length by omega),
      List.getElem?_eq_getElem (show 5 < c.req.length by omega)]
    simp only [Option.bind_eq_bind, Option.bind_some]
    refine .ite (fun _ => ?_) fun _ => ?_
    · exact .ite (fun _ => .refuse c _ _) fun _ => .refuse c _ _
    · exact .reply c.session _ _ (by simp; omega) (by simp)

theorem udsHRoutine_inBounds : InBounds c fun resp => udsHRoutine { c with resp := resp } g := by
  unfold udsHRoutine
  dsimp only
  refine .ite (fun _ => .refuse c _ g) fun hlen => ?_
  rw [List.getElem?_eq_getElem (show 1 < c.req.length by omega),
    List.getElem?_eq_getElem (show 2 < c.req.length by omega),
    List.getElem?_eq_getElem (show 3 < c.req.length by omega)]
  simp only [Option.bind_eq_bind, Option.bind_some]
  refine .ite (fun _ => .refuse c _ g) fun _ => ?_
  refine .ite (fun _ => .refuse c _ g) fun hcap => ?_
  exact .reply c.session _ g (by simp; omega) (by simp)

theorem udsHTesterPresent_inBounds :
    InBounds c fun resp => udsHTesterPresent { c with resp := resp } g := by
  unfold udsHTesterPresent
  dsimp only
  refine .ite (fun _ => .refuse c _ g) fun hlen => ?_
  rw [List.getElem?_eq_getElem (show 1 < c.req.length by omega)]
  simp only [Option.bind_eq_bind, Option.bind_some]
  refine .ite (fun _ => .refuse c _ g) fun _ => ?_
  refine .ite (fun _ => .refuse c _ g) fun hcap => ?_
  exact .reply c.session _ g (by simp; omega) (by simp)

/-- The bytes of the memorySize are behind those of the address, within the request. -/
theorem udsHRequestDownload_inBounds :
    InBounds c fun resp => udsHRequestDownload { c with resp := resp } g := by
  unfold udsHRequestDownload
  dsimp only
  refine .ite (fun _ => .refuse c _ g) fun hlen => ?_
  refine .ite (fun _ => .refuse c _ g) fun _ => ?_
  refine .ite (fun _ => .refuse c _ g) fun _ => ?_
  rw [List.getElem?_eq_getElem (show 2 < c.req.length by omega)]
  simp only [Option.bind_eq_bind, Option.bind_some]
  refine .ite (fun _ => .refuse c _ g) fun _ => ?_
  refine .ite (fun _ => .refuse c _ g) fun hneed => ?_
  refine .ite (fun _ => .refuse c _ g) fun hcap => ?_
  obtain ⟨size, hsize⟩ := memorySize_isSome c.req _ _ 0 (Nat.le_of_not_lt hneed)
  rw [hsize]
  simp only [Option.bind_some]
  refine .ite (fun _ => .refuse c _ g) fun _ => ?_
  exact .reply c.session _ _ (by simp [be16]; omega) (by simp)

theorem udsHTransferData_inBounds :
    InBounds c fun resp => udsHTransferData { c with resp := resp } g := by
  unfold udsHTransferData
  dsimp only
  refine .ite (fun _ => .refuse c _ g) fun hlen => ?_
  refine .ite (fun _ => .refuse c _ g) fun _ => ?_
  refine .ite (fun _ => .refuse c _ g) fun _ => ?_
  refine .ite (fun _ => .refuse c _ g) fun hcap => ?_
  rw [List.getElem?_eq_getElem (show 1 < c.req.length by omega)]
  simp only [Option.bind_eq_bind, Option.bind_some]
  refine .ite (fun _ => ?_) fun _ => ?_
  · refine .ite (fun _ => .refuse c _ g) fun _ => ?_
    refine .ite (fun _ => .refuse c _ g) fun _ => ?_
    exact .reply c.session _ _ (by simp; omega) (by simp)
  · refine .ite (fun _ => ?_) fun _ => .refuse c _ g
    exact .reply c.session _ g (by simp; omega) (by simp)

theorem udsHRequestTransferExit_inBounds :
    InBounds c fun resp => udsHRequestTransferExit { c with resp := resp } g := by
  unfold udsHRequestTransferExit
  dsimp only
  refine .ite (fun _ => .refuse c _ g) fun _ => ?_
  refine .ite (fun _ => .refuse c _ g) fun _ => ?_
  refine .ite (fun _ => .refuse c _ g) fun hcap => ?_
  exact .reply c.session _ _ (by simp; omega) (by simp)

end

/-! ### All of them -/

/-- The nine handlers, with what `esp_random()` returns. -/
def builtinHandlers : List (UInt32 → Ctx → Statics → Option (Disp × Ctx × Statics)) :=
  [fun _ => udsHDiagSession, fun _ => udsHEcuReset, fun _ => Word.udsHReadDid, udsHSecurity,
    fun _ => udsHRoutine, fun _ => udsHTesterPresent, fun _ => udsHRequestDownload,
    fun _ => udsHTransferData, fun _ => udsHRequestTransferExit]

/-- **The handlers stay in bounds**, in every state of the server, for every request that the link
can bring and every capacity of 16 bits. -/
theorem builtinHandlers_inBounds (c : Ctx) (g : Statics) (random : UInt32)
    (hreq : c.req.length ≤ isotpMaxMsg) (hcap : c.respCap < 65536) :
    ∀ handler ∈ builtinHandlers, InBounds c fun resp => handler random { c with resp := resp } g := by
  intro handler hmem
  simp only [builtinHandlers, List.mem_cons, List.not_mem_nil, or_false] at hmem
  obtain rfl | rfl | rfl | rfl | rfl | rfl | rfl | rfl | rfl := hmem
  · exact udsHDiagSession_inBounds c g
  · exact udsHEcuReset_inBounds c g
  · exact udsHReadDid_inBounds c g hreq hcap
  · exact udsHSecurity_inBounds c g random
  · exact udsHRoutine_inBounds c g
  · exact udsHTesterPresent_inBounds c g
  · exact udsHRequestDownload_inBounds c g
  · exact udsHTransferData_inBounds c g
  · exact udsHRequestTransferExit_inBounds c g

/-- A RequestDownload with four bytes of each kind, and a response buffer of no bytes. -/
theorem builtinHandlers_inBounds_download :
    InBounds
      ((udsServerInit (fun _ => 0) 0).ctx [0x34, 0x00, 0x44, 0, 0, 0, 0, 0, 0, 16, 0] false)
      fun resp => udsHRequestDownload
        { (udsServerInit (fun _ => 0) 0).ctx [0x34, 0x00, 0x44, 0, 0, 0, 0, 0, 0, 16, 0] false with
          resp := resp }
        { Statics.init with secLevel := udsSecLevelDownload } :=
  builtinHandlers_inBounds
    ((udsServerInit (fun _ => 0) 0).ctx [0x34, 0x00, 0x44, 0, 0, 0, 0, 0, 0, 16, 0] false)
    { Statics.init with secLevel := udsSecLevelDownload } 0 (by decide) (by decide)
    (fun _ => udsHRequestDownload) (by simp [builtinHandlers])

end Uds

end Espcan32
