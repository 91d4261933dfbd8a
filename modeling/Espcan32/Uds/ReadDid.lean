import Espcan32.Uds.Handlers

/-!
# ReadDataByIdentifier

The handler walks over the requested identifiers with 16-bit indices into the request and into the
response.

* `Word.udsHReadDid` : the handler with its indices as 16-bit words.
* `Word.udsHReadDid_eq` : no index wraps, for a request that the link can bring.
* `didResponse` : the response, from the list of identifiers alone.
* `read_did_reference` : **the handler answers with it**, or with the negative response that is due.
-/

namespace Espcan32

namespace Uds

open IsoTp (isotpMaxMsg)

/-! ### The handler with 16-bit indices -/

namespace Word

/-- The loop of `uds_h_read_did()` over the requested DIDs, on 16-bit words.  An index is widened
before 1 is added to it to read the request, and before the length of a record is added to it to
compare with the capacity. -/
def readDids : ℕ → Ctx → UInt16 → UInt16 → UInt16 → Option (Ctx × Option (UInt16 × UInt16))
  | fuel, c, i, oi, matched =>
    if c.req.length ≤ (i + 1).toNat then some (c, some (oi, matched))
    else
      match fuel with
      | 0 => none
      | fuel + 1 => do
        let did := didOf (← c.req[i.toNat]?) (← c.req[i.toNat + 1]?)
        match findDid did with
        | none => readDids fuel c (i + 2) oi matched
        | some entry =>
          let dlen := UInt8.ofNat entry.data.length
          if c.respCap < oi.toNat + 2 + dlen.toNat then some (c, none)
          else
            let c ← c.put oi.toNat [(did >>> 8).toUInt8]
            let c ← c.put (oi + 1).toNat [(did &&& 0xFF).toUInt8]
            let c ← c.put (oi + 1 + 1).toNat entry.data
            readDids fuel c (i + 2) (oi + 1 + 1 + dlen.toUInt16) (matched + 1)

/-- `uds_h_read_did()` on 16-bit words. -/
def udsHReadDid (c : Ctx) (g : Statics) : Option (Disp × Ctx × Statics) :=
  if c.req.length < 3 ∨ (c.req.length - 1) % 2 ≠ 0 then c.refuse Nrc.imloif g
  else if c.respCap < 1 then c.refuse Nrc.generalReject g
  else do
    let c ← c.put 0 [Sid.readDid + udsPosRespOffset]
    match ← readDids c.req.length c 1 1 0 with
    | (c, none) => c.refuse Nrc.roor g
    | (c, some (oi, matched)) =>
      if matched = 0 then c.refuse Nrc.roor g
      else some (.positive, { c with respLen := oi.toNat }, g)

end Word

/-! ### No index wraps -/

/-- The data of an identifier is short. -/
theorem length_data_of_findDid {did : UInt16} {entry : DidEntry} (h : findDid did = some entry) :
    entry.data.length < 256 := by
  have hall : ∀ e ∈ kDidTable, e.data.length < 256 := by decide
  exact hall entry (List.mem_of_find?_eq_some h)

/-- Bytes and those behind them: one write does both. -/
theorem Ctx.put_append {α : Type} (c : Ctx) (i : ℕ) (bs bs' : List UInt8) (k : Ctx → Option α) :
    ((c.put i bs).bind fun c => (c.put (i + bs.length) bs').bind k) =
      (c.put i (bs ++ bs')).bind k := by
  unfold Ctx.put
  rw [List.length_append]
  by_cases h : i + bs.length ≤ c.respCap
  · rw [if_pos h, Option.bind_some]
    dsimp only
    rw [Mem.copy_append, Nat.add_assoc]
  · rw [if_neg h, if_neg (by omega)]
    rfl

/-- A record is written in three pieces, or in one. -/
theorem Ctx.put_record {α : Type} (c : Ctx) (oi : ℕ) (hi lo : UInt8) (data : List UInt8)
    (k : Ctx → Option α) :
    ((c.put oi [hi]).bind fun c => (c.put (oi + 1) [lo]).bind fun c =>
        (c.put (oi + 2) data).bind k) = (c.put oi ([hi, lo] ++ data)).bind k := by
  have htail (c : Ctx) : ((c.put (oi + 1) [lo]).bind fun c => (c.put (oi + 2) data).bind k) =
      (c.put (oi + 1) (lo :: data)).bind k := c.put_append (oi + 1) [lo] data k
  simp only [htail]
  exact c.put_append oi [hi] (lo :: data) k

/-- The index on its way behind a record of `len` bytes does not wrap. -/
theorem Word.toNat_behind {oi : UInt16} {len : ℕ} (hlen : len < 256)
    (h : oi.toNat + 2 + len < 65536) :
    (oi + 1).toNat = oi.toNat + 1 ∧ (oi + 1 + 1).toNat = oi.toNat + 2 ∧
      (oi + 1 + 1 + (UInt8.ofNat len).toUInt16).toNat = oi.toNat + 2 + len := by
  have hone : (oi + 1).toNat = oi.toNat + 1 := toNat_add16 rfl (by omega)
  have htwo : (oi + 1 + 1).toNat = oi.toNat + 1 + 1 := by
    rw [← hone]
    exact toNat_add16 rfl (by omega)
  have hbyte : (UInt8.ofNat len).toUInt16.toNat = len := by
    rw [UInt8.toNat_toUInt16, UInt8.toNat_ofNat', Nat.mod_eq_of_lt hlen]
  refine ⟨hone, htwo, ?_⟩
  rw [toNat_add16 hbyte (by omega), htwo]

/-- The words are the numbers. -/
def Word.Reads (r : Option (Ctx × Option (UInt16 × UInt16)))
    (r' : Option (Ctx × Option (ℕ × ℕ))) : Prop :=
  r.map (fun q => (q.1, q.2.map fun o => (o.1.toNat, o.2.toNat))) = r'

/-- The loop on words is the loop on numbers, while those stay in range. -/
theorem Word.readDids_reads (fuel : ℕ) (c : Ctx) (i oi matched : UInt16)
    (hreq : c.req.length ≤ isotpMaxMsg) (hcap : c.respCap < 65536) (hi : i.toNat ≤ isotpMaxMsg + 1)
    (hoi : oi.toNat ≤ c.respCap) (hmatched : matched.toNat ≤ i.toNat) :
    Word.Reads (Word.readDids fuel c i oi matched)
      (Uds.readDids fuel c i.toNat oi.toNat matched.toNat) := by
  have hmax : isotpMaxMsg = 4095 := rfl
  induction fuel generalizing c i oi matched with
  | zero =>
    have hone : (i + 1).toNat = i.toNat + 1 := toNat_add16 rfl (by omega)
    unfold Word.readDids Uds.readDids
    rw [hone]
    split <;> rfl
  | succ fuel ih =>
    have hone : (i + 1).toNat = i.toNat + 1 := toNat_add16 rfl (by omega)
    have htwo : (i + 2).toNat = i.toNat + 2 := toNat_add16 rfl (by omega)
    unfold Word.readDids Uds.readDids
    rw [hone]
    split
    · rfl
    rename_i hend
    have hlt : i.toNat < c.req.length := by omega
    have hlt' : i.toNat + 1 < c.req.length := by omega
    rw [List.getElem?_eq_getElem hlt, List.getElem?_eq_getElem hlt']
    simp only [Option.bind_eq_bind, Option.bind_some]
    generalize didOf c.req[i.toNat] c.req[i.toNat + 1] = did
    cases hfind : findDid did with
    | none =>
      have hloop := ih c (i + 2) oi matched hreq hcap (by omega) hoi (by omega)
      rw [htwo] at hloop
      exact hloop
    | some entry =>
      have hdata := length_data_of_findDid hfind
      have hdlen : (UInt8.ofNat entry.data.length).toNat = entry.data.length := by
        rw [UInt8.toNat_ofNat', Nat.mod_eq_of_lt hdata]
      dsimp only
      rw [hdlen]
      split
      · rfl
      rename_i hroom
      -- the record fits, so that the index behind it is within the capacity
      obtain ⟨hoi1, hoi2, hoi3⟩ := @Word.toNat_behind oi _ hdata (by omega)
      have hmatched1 : (matched + 1).toNat = matched.toNat + 1 := toNat_add16 rfl (by omega)
      have hput : oi.toNat + (be16 did ++ entry.data).length ≤ c.respCap := by
        rw [List.length_append, show (be16 did).length = 2 from rfl]
        omega
      have hloop := ih { c with resp := c.resp.copy oi.toNat (be16 did ++ entry.data) } (i + 2)
        (oi + 1 + 1 + (UInt8.ofNat entry.data.length).toUInt16) (matched + 1) hreq hcap (by omega)
        (by rw [hoi3]; exact Nat.not_lt.1 hroom) (by omega)
      rw [htwo, hoi3, hmatched1] at hloop
      rw [hoi1, hoi2, Ctx.put_record]
      rw [show [(did >>> 8).toUInt8, (did &&& 0xFF).toUInt8] = be16 did from rfl, Ctx.put_eq hput,
        Option.bind_some, Option.bind_some]
      exact hloop

/-- **No index wraps**: for a request that the link can bring, and a capacity of 16 bits, the
handler on words is the handler on numbers. -/
theorem Word.udsHReadDid_eq {c : Ctx} (g : Statics) (hreq : c.req.length ≤ isotpMaxMsg)
    (hcap : c.respCap < 65536) : Word.udsHReadDid c g = Uds.udsHReadDid c g := by
  unfold Word.udsHReadDid Uds.udsHReadDid
  split
  · rfl
  split
  · rfl
  rename_i hlen hpos
  have hput : 0 + [Sid.readDid + udsPosRespOffset].length ≤ c.respCap := by
    rw [List.length_singleton]
    omega
  have hreads := Word.readDids_reads c.req.length
    { c with resp := c.resp.copy 0 [Sid.readDid + udsPosRespOffset] } 1 1 0 hreq hcap (by decide)
    (Nat.not_lt.1 hpos) (by decide)
  rw [Ctx.put_eq hput]
  simp only [Option.bind_eq_bind, Option.bind_some]
  rw [show Uds.readDids c.req.length _ 1 1 0 = _ from hreads.symm]
  rcases Word.readDids c.req.length _ 1 1 0 with _ | ⟨c', _ | ⟨oi, matched⟩⟩
  · rfl
  · rfl
  · simp only [Option.map_some, Option.bind_some]
    have hzero : matched = 0 ↔ matched.toNat = 0 := by
      rw [← UInt16.toNat_inj, UInt16.toNat_zero]
    by_cases h0 : matched = 0
    · rw [if_pos h0, if_pos (hzero.1 h0)]
    · rw [if_neg h0, if_neg fun h => h0 (hzero.2 h)]

/-! ### What is written -/

/-- The response buffer is as it was from its capacity on. -/
structure Ctx.Keeps (c c' : Ctx) : Prop where
  cap : c'.respCap = c.respCap
  beyond : ∀ j, c.respCap ≤ j → c'.resp j = c.resp j

namespace Ctx.Keeps

variable {c c' c'' : Ctx}

theorem refl (c : Ctx) : c.Keeps c := ⟨rfl, fun _ _ => rfl⟩

theorem trans (h : c.Keeps c') (h' : c'.Keeps c'') : c.Keeps c'' where
  cap := h'.cap.trans h.cap
  beyond j hj := (h'.beyond j (h.cap ▸ hj)).trans (h.beyond j hj)

theorem put {i : ℕ} {bs : List UInt8} (h : c.put i bs = some c') : c.Keeps c' := by
  unfold Ctx.put at h
  split at h
  · obtain rfl := Option.some.inj h
    exact ⟨rfl, fun j hj => Mem.copy_of_ge (by omega)⟩
  · cases h

/-- The loop writes nothing at the capacity or beyond it. -/
theorem readDids {fuel i oi matched : ℕ} {o : Option (ℕ × ℕ)}
    (h : Uds.readDids fuel c i oi matched = some (c', o)) : c.Keeps c' := by
  induction fuel generalizing c i oi matched with
  | zero =>
    unfold Uds.readDids at h
    split at h
    · obtain ⟨rfl, -⟩ := Prod.mk.inj (Option.some.inj h)
      exact refl _
    · cases h
  | succ fuel ih =>
    unfold Uds.readDids at h
    split at h
    · obtain ⟨rfl, -⟩ := Prod.mk.inj (Option.some.inj h)
      exact refl _
    simp only [Option.bind_eq_bind, Option.bind_eq_some_iff] at h
    obtain ⟨hi, -, lo, -, h⟩ := h
    cases hfind : findDid (didOf hi lo) with
    | none =>
      rw [hfind] at h
      exact ih h
    | some entry =>
      rw [hfind] at h
      dsimp only at h
      split at h
      · obtain ⟨rfl, -⟩ := Prod.mk.inj (Option.some.inj h)
        exact refl _
      · obtain ⟨c₁, hput, h⟩ := Option.bind_eq_some_iff.1 h
        exact (put hput).trans (ih h)

/-- Neither does the handler. -/
theorem udsHReadDid {g g' : Statics} {disp : Disp}
    (h : Uds.udsHReadDid c g = some (disp, c', g')) : c.Keeps c' := by
  unfold Uds.udsHReadDid at h
  split at h
  · obtain ⟨-, rfl, -⟩ := by simpa [Ctx.refuse] using h
    exact ⟨rfl, fun _ _ => rfl⟩
  split at h
  · obtain ⟨-, rfl, -⟩ := by simpa [Ctx.refuse] using h
    exact ⟨rfl, fun _ _ => rfl⟩
  simp only [Option.bind_eq_bind, Option.bind_eq_some_iff] at h
  obtain ⟨c₁, hput, ⟨c₂, o⟩, hloop, h⟩ := h
  have hkeeps := (put hput).trans (readDids hloop)
  rcases o with _ | ⟨oi, matched⟩
  · obtain ⟨-, rfl, -⟩ := by simpa [Ctx.refuse] using h
    exact ⟨hkeeps.cap, hkeeps.beyond⟩
  · dsimp only at h
    split at h
    · obtain ⟨-, rfl, -⟩ := by simpa [Ctx.refuse] using h
      exact ⟨hkeeps.cap, hkeeps.beyond⟩
    · obtain ⟨-, rfl, -⟩ := by simpa using h
      exact ⟨hkeeps.cap, hkeeps.beyond⟩

end Ctx.Keeps

/-! ### The reference -/

/-- The response to a request: for each known identifier, in the order of the request, its two
bytes and its data. -/
def didResponse (req : List UInt8) : List UInt8 := 0x62 :: didBytes (didRecords (req.drop 1))

/-- What a request is answered with, for a buffer of `cap` bytes. -/
def didAnswer (req : List UInt8) (cap : ℕ) (session : UInt8) : Result :=
  if req.length < 3 ∨ req.length % 2 = 0 then .negative 0x13
  else if didRecords (req.drop 1) ≠ [] ∧ (didResponse req).length ≤ cap then
    .positive (didResponse req) session
  else .negative 0x31

/-- The handler on numbers answers with it. -/
theorem udsHReadDid_didAnswer (c : Ctx) (g : Statics) (hcap : 1 ≤ c.respCap) :
    Meets c (Uds.udsHReadDid c g) (didAnswer c.req c.respCap c.session) g := by
  unfold didAnswer
  by_cases hlen : c.req.length < 3 ∨ (c.req.length - 1) % 2 ≠ 0
  · rw [if_pos (by omega), Uds.udsHReadDid, if_pos hlen]
    exact .refuse c Nrc.imloif g
  · rw [if_neg (by omega)]
    have hsize : (didResponse c.req).length =
        1 + (didBytes (didRecords (c.req.drop 1))).length := Nat.add_comm _ _
    rw [hsize]
    exact udsHReadDid_meets hlen (by omega)

/-- **ReadDataByIdentifier answers with its reference**, for every request that the link can bring
and every response buffer: it returns, with the records of all the known identifiers if there are
any and they fit, and else with the negative response that is due; and it writes nothing at the
capacity of the buffer or beyond it. -/
theorem read_did_reference (c : Ctx) (g : Statics)
    (hreq : c.req.length ≤ isotpMaxMsg) (hcap : 1 ≤ c.respCap) (hcap' : c.respCap < 65536) :
    ∃ disp c', Word.udsHReadDid c g = some (disp, c', g) ∧
      Meets c (some (disp, c', g)) (didAnswer c.req c.respCap c.session) g ∧
      ∀ j, c.respCap ≤ j → c'.resp j = c.resp j := by
  have hmeets := udsHReadDid_didAnswer c g hcap
  rw [Word.udsHReadDid_eq g hreq hcap']
  rcases hr : Uds.udsHReadDid c g with _ | ⟨disp, c', g'⟩
  · rw [hr] at hmeets
    generalize didAnswer c.req c.respCap c.session = v at hmeets
    cases hmeets
  · have hkeeps := Ctx.Keeps.udsHReadDid hr
    rw [hr] at hmeets
    have hg : g' = g := by
      generalize didAnswer c.req c.respCap c.session = v at hmeets
      cases hmeets <;> rfl
    rw [hg] at hmeets ⊢
    exact ⟨disp, c', rfl, hmeets, hkeeps.beyond⟩

/-- The request of the host tests for two identifiers, of which one is not known. -/
theorem read_did_reference_two :
    ∃ disp c', Word.udsHReadDid
        ((udsServerInit (fun _ => 0) 4095).ctx [0x22, 0xF1, 0x97, 0xAB, 0xCD] false) .init =
          some (disp, c', .init) ∧
      Meets ((udsServerInit (fun _ => 0) 4095).ctx [0x22, 0xF1, 0x97, 0xAB, 0xCD] false)
        (some (disp, c', .init))
        (.positive [0x62, 0xF1, 0x97, 0x45, 0x53, 0x50, 0x43, 0x41, 0x4E, 0x33, 0x32] 1) .init := by
  obtain ⟨disp, c', hrun, hmeets, -⟩ := read_did_reference
    ((udsServerInit (fun _ => 0) 4095).ctx [0x22, 0xF1, 0x97, 0xAB, 0xCD] false) .init (by decide)
    (by decide) (by decide)
  exact ⟨disp, c', hrun, hmeets⟩

end Uds

end Espcan32
