import Espcan32.Usb.Glue

/-!
# Who owns an EP2-IN batch

`usb_glue_send_msg_batch()` copies a batch once and keeps it through refused submissions, failed
transfers and bus resets; the caller presents the same batch until the call returns its length.
There is one buffer, and the batch is only known by its length.

* `InInv` : how the state of the buffer, the transfer in flight and TinyUSB's task go together.
* `InInv.step` : every step keeps it.
* `batch_released` : **a batch is released after a transfer of its bytes went through**, or after
  the driver went away; transfers go through in the order of the batches, and no batch twice
  between two resets.
-/

namespace Espcan32

namespace Usb

/-! ### The record -/

/-- A transfer that went through: between which resets, the batch, and the bytes. -/
structure Sent where
  session : ℕ
  batch : ℕ
  bytes : List UInt8
  deriving DecidableEq, Repr

/-- The resets so far, and the transfers that went through.  `presented` says that the current
batch has been presented, and then `since` counts the transfers before that, and `deinited` says
that the driver has gone away since. -/
structure InRecord where
  session : ℕ
  wire : List Sent
  presented : Bool
  since : ℕ
  deinited : Bool
  deriving DecidableEq, Repr

namespace InRecord

/-- Nothing has happened. -/
def none : InRecord := ⟨0, [], false, 0, false⟩

/-- A batch is presented, for the first time or again. -/
def present (r : InRecord) : InRecord :=
  if r.presented then r else { r with presented := true, since := r.wire.length, deinited := false }

end InRecord

/-- Keep the record. -/
def inRecord (s : GlueState) (l : GlueStep) (r : InRecord) : InRecord :=
  match l with
  | .send =>
    match s.batch with
    | some buf => { r.present with presented := !(s.sendMsgBatch buf).2.1 }
    | none => r
  | .wire true =>
    match s.inFlight with
    | some t => { r with wire := r.wire ++ [⟨r.session, t.batch, t.bytes⟩] }
    | none => r
  | .reset => { r with session := r.session + 1 }
  | .deinit => { r with deinited := true }
  | _ => r

/-! ### The invariant -/

namespace InRecord

variable (r : InRecord) (s : GlueState)

/-- A transfer of the bytes in the buffer has gone through since the batch was presented. -/
def Through : Prop := ∃ t ∈ r.wire.drop r.since, t.bytes = s.msgIn

/-- No transfer of the current batch has gone through since the last reset. -/
def Fresh : Prop := ∀ t ∈ r.wire, t.session = r.session → t.batch ≠ s.batchNo

/-- What the place of TinyUSB's task says about EP2-IN. -/
def TaskOk : TaskPc → Prop
  | .inXfer gen len =>
    s.msgInState = .queued ∧ gen = s.gen ∧ s.msgInGen = gen ∧ len = s.msgInLen ∧ s.inFlight = .none
  | .inCommit gen submitted =>
    s.msgInState = .queued ∧ gen = s.gen ∧ s.msgInGen = gen ∧ s.inFlight.isSome = submitted
  | .doneIn success =>
    s.msgInState = .submitted ∧ s.inFlight = .none ∧ if success then r.Through s else r.Fresh s
  | .resetLocked => s.inFlight = .none ∧ ∀ t ∈ r.wire, t.session < r.session
  | .deinitLocked =>
    s.inFlight = .none ∧ s.itfOpen = false ∧ (s.msgInState ≠ .idle → r.deinited = true)
  | _ => True

end InRecord

/-- How the buffer, the transfer in flight and TinyUSB's task go together. -/
structure InInv (s : GlueState) (r : InRecord) : Prop where
  copied : s.msgInState ≠ .idle →
    s.batch = some s.msgIn ∧ s.inBatch = s.batchNo ∧ s.msgInLen = s.msgIn.length ∧
      r.presented = true
  idle : s.msgInState = .idle → ∀ t ∈ r.wire, t.batch < s.batchNo
  flight : ∀ t, s.inFlight = some t →
    t.bytes = s.msgIn ∧ t.batch = s.batchNo ∧
      (s.msgInState = .submitted ∨ s.msgInState = .queued ∧ ∃ gen, s.task = .inCommit gen true) ∧
      if t.done = some true then r.Through s else r.Fresh s
  work : s.msgInState = .queued ∨ s.msgInState = .retry → s.inFlight = none → r.Fresh s
  complete : s.msgInState = .complete → r.Through s
  dropped : s.msgInState = .dropped → r.deinited = true
  task : r.TaskOk s s.task
  since : r.since ≤ r.wire.length
  le : ∀ t ∈ r.wire, t.session ≤ r.session ∧ t.batch ≤ s.batchNo
  order : r.wire.Pairwise fun t u => t.batch ≤ u.batch
  nodup : (r.wire.map fun t => (t.session, t.batch)).Nodup

namespace InInv

variable {s s' : GlueState} {r : InRecord} {l : GlueStep}

/-- A step of TinyUSB's task that leaves EP2-IN alone. -/
theorem move (h : InInv s r)
    (hs : s'.msgInState = s.msgInState ∧ s'.msgInLen = s.msgInLen ∧ s'.msgIn = s.msgIn ∧
      s'.inBatch = s.inBatch ∧ s'.inFlight = s.inFlight ∧ s'.batch = s.batch ∧
      s'.batchNo = s.batchNo)
    (hpc : (∀ gen, s.task ≠ .inCommit gen true) ∨ s'.task = s.task)
    (ht : r.TaskOk s' s'.task) : InInv s' r := by
  obtain ⟨hst, hlen, hin, hno, hfl, hb, hn⟩ := hs
  have hthrough : r.Through s' ↔ r.Through s := by rw [InRecord.Through, InRecord.Through, hin]
  have hfresh : r.Fresh s' ↔ r.Fresh s := by rw [InRecord.Fresh, InRecord.Fresh, hn]
  refine ⟨?_, ?_, fun t hf => ?_, ?_, ?_, ?_, ht, h.since, ?_, h.order, h.nodup⟩
  · rw [hst, hb, hin, hno, hn, hlen]; exact h.copied
  · rw [hst, hn]; exact h.idle
  · rw [hfl] at hf
    obtain ⟨hbytes, hbatch, hwhere, hdone⟩ := h.flight t hf
    rw [hin, hn, hst, hthrough, hfresh]
    refine ⟨hbytes, hbatch, ?_, hdone⟩
    rcases hwhere with hsub | ⟨hq, gen, hgen⟩
    · exact .inl hsub
    · rcases hpc with hpc | hpc
      · exact absurd hgen (hpc gen)
      · exact .inr ⟨hq, gen, hpc.trans hgen⟩
  · rw [hst, hfl, hfresh]; exact h.work
  · rw [hst, hthrough]; exact h.complete
  · rw [hst]; exact h.dropped
  · rw [hn]; exact h.le

/-- Between two functions, and before a submission, nothing is in flight but what is submitted. -/
theorem flight_none (h : InInv s r) (hq : s.msgInState ≠ .submitted)
    (ht : ∀ gen, s.task ≠ .inCommit gen true) : s.inFlight = none := by
  cases hf : s.inFlight with
  | none => rfl
  | some t =>
    obtain ⟨-, -, hsub | ⟨-, gen, hgen⟩, -⟩ := h.flight t hf
    · exact absurd hsub hq
    · exact absurd hgen (ht gen)

/-- While a transfer is in flight, the task is in none of these places. -/
theorem taskOk_flight (h : InInv s r) {t u : InTransfer} {w : List Sent}
    (hf : s.inFlight = some t) :
    InRecord.TaskOk { r with wire := w } { s with inFlight := some u } s.task := by
  have ht := h.task
  cases htask : s.task <;> rw [htask] at ht <;> try trivial
  case inXfer => obtain ⟨-, -, -, -, hnone⟩ := ht; rw [hf] at hnone; cases hnone
  case inCommit => exact ⟨ht.1, ht.2.1, ht.2.2.1, by rw [← ht.2.2.2, hf]; rfl⟩
  case doneIn => obtain ⟨-, hnone, -⟩ := ht; rw [hf] at hnone; cases hnone
  case resetLocked | deinitLocked => obtain ⟨hnone, -⟩ := ht; rw [hf] at hnone; cases hnone

/-- The bus decides the transfer in flight. -/
theorem wire (h : InInv s r) {success : Bool} {t : InTransfer} (hf : s.inFlight = some t)
    (hd : t.done = none) :
    InInv { s with inFlight := some { t with done := some success } }
      (inRecord s (.wire success) r) := by
  obtain ⟨hbytes, hbatch, hst, hfresh⟩ := h.flight t hf
  rw [hd, if_neg (by simp)] at hfresh
  -- the transfer is in flight, so that the batch is neither released nor complete
  have hidle : s.msgInState ≠ .idle := by rcases hst with hst | ⟨hst, -⟩ <;> rw [hst] <;> decide
  have hcomplete : s.msgInState ≠ .complete := by
    rcases hst with hst | ⟨hst, -⟩ <;> rw [hst] <;> decide
  cases success with
  | false =>
    refine ⟨h.copied, h.idle, fun u hu => ?_, (fun _ hu => by cases hu), h.complete, h.dropped,
      h.taskOk_flight hf, h.since, h.le, h.order, h.nodup⟩
    obtain rfl := Option.some.inj hu
    exact ⟨hbytes, hbatch, hst, hfresh⟩
  | true =>
    have hr : inRecord s (.wire true) r =
        { r with wire := r.wire ++ [⟨r.session, t.batch, t.bytes⟩] } := by
      simp only [inRecord, hf]
    rw [hr]
    refine ⟨h.copied, fun hi => absurd hi hidle, fun u hu => ?_, (fun _ hu => by cases hu),
      fun hc => absurd hc hcomplete, h.dropped, h.taskOk_flight hf, ?_, ?_, ?_, ?_⟩
    · obtain rfl := Option.some.inj hu
      refine ⟨hbytes, hbatch, hst, ?_⟩
      rw [if_pos rfl]
      refine ⟨⟨r.session, t.batch, t.bytes⟩, ?_, hbytes⟩
      rw [List.drop_append_of_le_length h.since]
      simp
    · exact Nat.le_trans h.since (by rw [List.length_append]; exact Nat.le_add_right _ _)
    · intro u hu
      rcases List.mem_append.1 hu with hu | hu
      · exact h.le u hu
      · rw [List.mem_singleton.1 hu]
        exact ⟨Nat.le_refl _, Nat.le_of_eq hbatch⟩
    · refine List.pairwise_append.2 ⟨h.order, List.pairwise_singleton .., fun u hu v hv => ?_⟩
      rw [List.mem_singleton.1 hv]
      exact (h.le u hu).2.trans_eq hbatch.symm
    · rw [List.map_append, List.nodup_append]
      refine ⟨h.nodup, by simp, fun x hx y hy hxy => ?_⟩
      obtain ⟨u, hu, rfl⟩ := List.mem_map.1 hx
      rw [List.map_cons, List.map_nil, List.mem_singleton] at hy
      subst hy
      obtain ⟨hsession, hno⟩ := Prod.mk.inj hxy
      exact hfresh u hu hsession (hno.trans hbatch)

/-- The next step of the function in TinyUSB's task. -/
theorem go (h : InInv s r) (ok : Bool) : InInv (s.go ok) r := by
  have htask := h.task
  unfold GlueState.go
  cases ht : s.task <;> rw [ht] at htask <;> dsimp only
  case idle => exact h
  case inStart gen =>
    have hpc : ∀ gen, s.task ≠ .inCommit gen true := by simp [ht]
    split
    · rename_i hlive
      obtain ⟨-, hgen, hq, hing, -⟩ := hlive
      exact h.move ⟨rfl, rfl, rfl, rfl, rfl, rfl, rfl⟩ (.inl hpc)
        ⟨hq, hgen, hing, rfl, h.flight_none (by rw [hq]; decide) hpc⟩
    · exact h.move ⟨rfl, rfl, rfl, rfl, rfl, rfl, rfl⟩ (.inl hpc) trivial
  case inXfer gen len =>
    obtain ⟨hq, hgen, hing, rfl, hnone⟩ := htask
    have hidle : s.msgInState ≠ .idle := by rw [hq]; decide
    obtain ⟨hb, hno, hlen, hp⟩ := h.copied hidle
    have hfresh := h.work (.inl hq) hnone
    split
    · refine ⟨h.copied, fun hi => absurd hi hidle, fun t hf => ?_, (fun _ hf => by cases hf),
        h.complete, h.dropped, ⟨hq, hgen, hing, rfl⟩, h.since, h.le, h.order, h.nodup⟩
      obtain rfl := Option.some.inj hf
      refine ⟨?_, hno, .inr ⟨hq, gen, rfl⟩, hfresh⟩
      show s.msgIn.take s.msgInLen = s.msgIn
      rw [hlen, List.take_length]
    · exact h.move ⟨rfl, rfl, rfl, rfl, rfl, rfl, rfl⟩ (.inl (by simp [ht]))
        ⟨hq, hgen, hing, by rw [hnone]; rfl⟩
  case inCommit gen submitted =>
    obtain ⟨hq, hgen, hing, hsome⟩ := htask
    rw [if_pos ⟨hgen, hq, hing⟩]
    have hidle : s.msgInState ≠ .idle := by rw [hq]; decide
    cases submitted with
    | true =>
      refine ⟨fun _ => h.copied hidle, (fun hi => by cases hi), fun t hf => ?_,
        (fun hw => by rcases hw with hw | hw <;> cases hw), (fun hc => by cases hc),
        (fun hd => by cases hd), trivial, h.since, h.le, h.order, h.nodup⟩
      obtain ⟨hbytes, hbatch, -, hdone⟩ := h.flight t hf
      exact ⟨hbytes, hbatch, .inl rfl, hdone⟩
    | false =>
      have hnone : s.inFlight = none := by simpa using hsome
      exact ⟨fun _ => h.copied hidle, (fun hi => by cases hi),
        (fun t hf => by rw [hnone] at hf; cases hf), fun _ _ => h.work (.inl hq) hnone,
        (fun hc => by cases hc), (fun hd => by cases hd), trivial, h.since, h.le, h.order, h.nodup⟩
  case doneIn success =>
    obtain ⟨hsub, hnone, hdone⟩ := htask
    rw [if_pos hsub]
    have hidle : s.msgInState ≠ .idle := by rw [hsub]; decide
    cases success with
    | true =>
      exact ⟨fun _ => h.copied hidle, (fun hi => by cases hi),
        (fun t hf => by rw [hnone] at hf; cases hf),
        (fun hw => by rcases hw with hw | hw <;> cases hw), fun _ => hdone,
        (fun hd => by cases hd), trivial, h.since, h.le, h.order, h.nodup⟩
    | false =>
      exact ⟨fun _ => h.copied hidle, (fun hi => by cases hi),
        (fun t hf => by rw [hnone] at hf; cases hf), fun _ _ => hdone,
        (fun hc => by cases hc), (fun hd => by cases hd), trivial, h.since, h.le, h.order, h.nodup⟩
  case resetLocked =>
    obtain ⟨hnone, hold⟩ := htask
    split
    · rename_i hret
      have hidle : s.msgInState ≠ .idle := fun hi => by simp [GlueState.retained, hi] at hret
      -- the transfers so far are those of earlier sessions
      exact ⟨fun _ => h.copied hidle, (fun hi => by cases hi),
        fun t hf => absurd (hf.symm.trans hnone) (by simp),
        fun _ _ t ht hsession => absurd hsession (Nat.ne_of_lt (hold t ht)),
        (fun hc => by cases hc), (fun hd => by cases hd), trivial, h.since, h.le, h.order, h.nodup⟩
    · exact h.move ⟨rfl, rfl, rfl, rfl, rfl, rfl, rfl⟩ (.inl (by simp [ht])) trivial
  case deinitLocked =>
    obtain ⟨hnone, -, hdein⟩ := htask
    split
    · rename_i hret
      have hidle : s.msgInState ≠ .idle := fun hi => by simp [GlueState.retained, hi] at hret
      exact ⟨fun _ => h.copied hidle, (fun hi => by cases hi),
        fun t hf => absurd (hf.symm.trans hnone) (by simp),
        (fun hw => by rcases hw with hw | hw <;> cases hw), (fun hc => by cases hc),
        fun _ => hdein hidle, trivial, h.since, h.le, h.order, h.nodup⟩
    · exact h.move ⟨rfl, rfl, rfl, rfl, rfl, rfl, rfl⟩ (.inl (by simp [ht])) trivial
  case outLoop | cmdStart | openLocked | doneCmd | openCmd | openMsg | outPush | outNext | outCommit
      | cmdCommit | doneMsg =>
    repeat' split
    all_goals exact h.move ⟨rfl, rfl, rfl, rfl, rfl, rfl, rfl⟩ (.inl (by simp [ht])) trivial
  case outXfer | cmdXfer | doneCmdFlag | doneMsgFlag | openCmdFlag | openMsgFlag =>
    exact h.move ⟨rfl, rfl, rfl, rfl, rfl, rfl, rfl⟩ (.inl (by simp [ht])) trivial

/-- The batch that is being worked on has been presented before. -/
theorem present_eq (h : InInv s r) (hne : s.msgInState ≠ .idle) : r.present = r := by
  rw [InRecord.present, if_pos (h.copied hne).2.2.2]

/-- Presenting a batch changes no more than the record of the presentation. -/
theorem present_since (r : InRecord) :
    r.present.wire = r.wire ∧ r.present.session = r.session ∧ r.present.presented = true ∧
      (r.since ≤ r.wire.length → r.present.since ≤ r.present.wire.length) := by
  unfold InRecord.present
  split
  · exact ⟨rfl, rfl, ‹_›, fun h => h⟩
  · exact ⟨rfl, rfl, rfl, fun _ => Nat.le_refl _⟩

/-- A batch that is neither queued nor submitted has no transfer in flight. -/
theorem flight_quiet (h : InInv s r) (hq : s.msgInState ≠ .queued)
    (hsub : s.msgInState ≠ .submitted) : s.inFlight = none := by
  cases hf : s.inFlight with
  | none => rfl
  | some t =>
    obtain ⟨-, -, hw | ⟨hw, -⟩, -⟩ := h.flight t hf
    · exact absurd hw hsub
    · exact absurd hw hq

/-- While the batch is neither queued nor submitted, the task is at no place of EP2-IN but those
of a reset or of the end of the driver. -/
theorem task_quiet (h : InInv s r) (hq : s.msgInState ≠ .queued) (hsub : s.msgInState ≠ .submitted)
    (s' : GlueState) (r' : InRecord) (hs : s'.inFlight = s.inFlight ∧ s'.itfOpen = s.itfOpen)
    (hr : r'.wire = r.wire ∧ r'.session = r.session)
    (hdein : s.itfOpen = false → s'.msgInState ≠ .idle → r'.deinited = true) :
    r'.TaskOk s' s.task := by
  obtain ⟨hfl, hopen⟩ := hs
  obtain ⟨hwire, hsession⟩ := hr
  have htask := h.task
  cases ht : s.task <;> rw [ht] at htask
  case inXfer | inCommit => exact absurd htask.1 hq
  case doneIn => exact absurd htask.1 hsub
  case resetLocked => exact ⟨hfl.trans htask.1, by rw [hwire, hsession]; exact htask.2⟩
  case deinitLocked =>
    exact ⟨hfl.trans htask.1, hopen.trans htask.2.1, hdein htask.2.1⟩
  all_goals trivial

/-- While no batch has been copied, the record of the presentation does not matter. -/
theorem idle_record (h : InInv s r) (hidle : s.msgInState = .idle) {r' : InRecord}
    (hwire : r'.wire = r.wire) (hsession : r'.session = r.session)
    (hsince : r'.since ≤ r'.wire.length) : InInv s r' := by
  have hq : s.msgInState ≠ .queued := by rw [hidle]; decide
  have hsub : s.msgInState ≠ .submitted := by rw [hidle]; decide
  have hnone := h.flight_quiet hq hsub
  refine ⟨fun hne => absurd hidle hne, ?_, fun t hf => absurd (hf.symm.trans hnone) (by simp),
    (fun hw => by rw [hidle] at hw; rcases hw with hw | hw <;> cases hw),
    (fun hc => by rw [hidle] at hc; cases hc), (fun hd => by rw [hidle] at hd; cases hd),
    h.task_quiet hq hsub s r' ⟨rfl, rfl⟩ ⟨hwire, hsession⟩ fun _ hne => absurd hidle hne, hsince,
    ?_, ?_, ?_⟩
  · rw [hwire]; exact h.idle
  · rw [hwire, hsession]; exact h.le
  · rw [hwire]; exact h.order
  · rw [hwire]; exact h.nodup

/-- The batch is copied: no transfer carries its number yet. -/
theorem copy (h : InInv s r) (hidle : s.msgInState = .idle) (hopen : s.itfOpen = true)
    {buf : List UInt8} (hbatch : s.batch = some buf) (hpres : r.presented = true) :
    InInv { s with
      msgIn := buf, inBatch := s.batchNo, msgInLen := buf.length, msgInGen := s.gen
      msgInState := .queued, caller := .deferIn s.gen } r := by
  have hq : s.msgInState ≠ .queued := by rw [hidle]; decide
  have hsub : s.msgInState ≠ .submitted := by rw [hidle]; decide
  have hnew := h.idle hidle
  have hnone := h.flight_quiet hq hsub
  have htask := h.task_quiet hq hsub { s with
      msgIn := buf, inBatch := s.batchNo, msgInLen := buf.length, msgInGen := s.gen
      msgInState := .queued, caller := .deferIn s.gen } r
      ⟨rfl, rfl⟩ ⟨rfl, rfl⟩ fun hc => by rw [hopen] at hc; cases hc
  exact ⟨fun _ => ⟨hbatch, rfl, rfl, hpres⟩, (fun hi => by cases hi),
    fun t hf => absurd (hf.symm.trans hnone) (by simp),
    fun _ _ t ht _ => Nat.ne_of_lt (hnew t ht), (fun hc => by cases hc), (fun hd => by cases hd),
    htask, h.since, h.le, h.order, h.nodup⟩

/-- A batch whose transfer failed is queued again. -/
theorem requeue (h : InInv s r) (hretry : s.msgInState = .retry) (hopen : s.itfOpen = true) :
    InInv { s with msgInState := .queued, caller := .deferIn s.gen } r := by
  have hq : s.msgInState ≠ .queued := by rw [hretry]; decide
  have hsub : s.msgInState ≠ .submitted := by rw [hretry]; decide
  have hne : s.msgInState ≠ .idle := by rw [hretry]; decide
  have hnone := h.flight_quiet hq hsub
  have htask := h.task_quiet hq hsub { s with msgInState := .queued, caller := .deferIn s.gen } r
    ⟨rfl, rfl⟩ ⟨rfl, rfl⟩ fun hc => by rw [hopen] at hc; cases hc
  exact ⟨fun _ => h.copied hne, (fun hi => by cases hi),
    fun t hf => absurd (hf.symm.trans hnone) (by simp), fun _ => h.work (.inr hretry),
    (fun hc => by cases hc), (fun hd => by cases hd), htask, h.since, h.le, h.order, h.nodup⟩

/-- The batch is released, and the next one gets its number. -/
theorem release (h : InInv s r) (hend : s.msgInState = .complete ∨ s.msgInState = .dropped) :
    InInv { s with msgInState := .idle, msgInLen := 0, batch := none, batchNo := s.batchNo + 1 }
      { r with presented := false } := by
  have hq : s.msgInState ≠ .queued := by rcases hend with hst | hst <;> rw [hst] <;> decide
  have hsub : s.msgInState ≠ .submitted := by rcases hend with hst | hst <;> rw [hst] <;> decide
  have hnone := h.flight_quiet hq hsub
  have htask := h.task_quiet hq hsub
    { s with msgInState := .idle, msgInLen := 0, batch := none, batchNo := s.batchNo + 1 }
    { r with presented := false } ⟨rfl, rfl⟩ ⟨rfl, rfl⟩ fun _ hne => absurd rfl hne
  exact ⟨fun hne => absurd rfl hne, fun _ t ht => Nat.lt_succ_of_le (h.le t ht).2,
    fun t hf => absurd (hf.symm.trans hnone) (by simp),
    (fun hw => by rcases hw with hw | hw <;> cases hw), (fun hc => by cases hc),
    (fun hd => by cases hd), htask, h.since,
    fun t ht => ⟨(h.le t ht).1, (h.le t ht).2.trans (Nat.le_succ _)⟩, h.order, h.nodup⟩

/-- The caller presents its batch. -/
theorem send (h : InInv s r) (hst : s.send = some s') : InInv s' (inRecord s .send r) := by
  obtain ⟨buf, -, hbatch, hcase⟩ := GlueState.send_cases hst
  rw [show inRecord s .send r = { r.present with presented := !(s.sendMsgBatch buf).2.1 } by
    simp only [inRecord, hbatch]]
  obtain ⟨hwire, hsession, hpres, hsince⟩ := present_since r
  have hkept : ({ r.present with presented := !false } : InRecord) = r.present := by
    rw [Bool.not_false, ← hpres]
  rcases hcase with ⟨hfin, heq⟩ | ⟨hfin, hend, rfl⟩ | ⟨hfin, hidle, hopen, -, rfl⟩ |
    ⟨hfin, hretry, hopen, -, rfl⟩ <;> rw [hfin]
  · -- nothing changes but, perhaps, the record of a first presentation
    rw [hkept, heq]
    by_cases hidle : s.msgInState = .idle
    · exact h.idle_record hidle hwire hsession (hsince h.since)
    · rw [h.present_eq hidle]; exact h
  · have hne : s.msgInState ≠ .idle := by rcases hend with hst | hst <;> rw [hst] <;> decide
    rw [h.present_eq hne]
    exact h.release hend
  · rw [hkept]
    exact (h.idle_record hidle hwire hsession (hsince h.since)).copy hidle hopen hbatch hpres
  · have hne : s.msgInState ≠ .idle := by rw [hretry]; decide
    rw [hkept, h.present_eq hne]
    exact h.requeue hretry hopen

/-- The endpoint starts afresh, between two functions of TinyUSB's task. -/
theorem afresh (h : InInv s r) (hidle : s.task = .idle) (op : Bool) (pc : TaskPc) {r' : InRecord}
    (hr : r'.wire = r.wire ∧ r'.presented = r.presented ∧ r'.since = r.since)
    (hsession : r.session ≤ r'.session) (hdein : r.deinited = true → r'.deinited = true)
    (hpc : r'.TaskOk { s.freshEndpoints with itfOpen := op, task := pc } pc) :
    InInv { s.freshEndpoints with itfOpen := op, task := pc } r' := by
  obtain ⟨hwire, hpres, hsince⟩ := hr
  refine ⟨fun hne => ?_, ?_, (fun t hf => by cases hf), fun hw _ => ?_, fun hc => ?_,
    fun hd => hdein (h.dropped hd), hpc, ?_, ?_, ?_, ?_⟩
  · rw [hpres]; exact h.copied hne
  · rw [hwire]; exact h.idle
  · -- what was queued has not been submitted: that takes the task to `inCommit`
    have hnone : s.inFlight = none :=
      h.flight_none (fun hsub => by rcases hw with hw | hw <;> cases hw.symm.trans hsub)
        (by simp [hidle])
    intro t ht ht'
    rw [hwire] at ht
    exact h.work hw hnone t ht
      (Nat.le_antisymm (h.le t ht).1 (hsession.trans_eq ht'.symm))
  · have hthrough := h.complete hc
    rwa [InRecord.Through, ← hwire, ← hsince] at hthrough
  · rw [hwire, hsince]; exact h.since
  · rw [hwire]; exact fun t ht => ⟨(h.le t ht).1.trans hsession, (h.le t ht).2⟩
  · rw [hwire]; exact h.order
  · rw [hwire]; exact h.nodup

/-- Every step keeps the invariant. -/
theorem step (h : InInv s r) (hst : s.step l = some s') : InInv s' (inRecord s l r) := by
  cases l with
  | go ok => obtain rfl := Option.some.inj hst; exact h.go ok
  | send => exact h.send hst
  | wire success =>
    rw [GlueState.step] at hst
    split at hst
    · rename_i batch bytes hf
      obtain rfl := Option.some.inj hst
      exact h.wire hf rfl
    · cases hst
  | present buf =>
    rw [GlueState.step] at hst
    split at hst
    · rename_i hnone
      obtain rfl := Option.some.inj hst
      -- the batch before has been released
      have hidle : s.msgInState = .idle := by
        by_contra hne
        rw [(h.copied hne).1] at hnone
        cases hnone.2
      have hq : s.msgInState ≠ .queued := by rw [hidle]; decide
      have hsub : s.msgInState ≠ .submitted := by rw [hidle]; decide
      have htask := h.task_quiet hq hsub { s with batch := some buf } r ⟨rfl, rfl⟩ ⟨rfl, rfl⟩
        fun _ hne => absurd hidle hne
      exact ⟨fun hne => absurd hidle hne, h.idle, h.flight, h.work, h.complete, h.dropped, htask,
        h.since, h.le, h.order, h.nodup⟩
    · cases hst
  | service =>
    rw [GlueState.step, GlueState.service] at hst
    split at hst <;> cases hst <;>
      exact h.move ⟨rfl, rfl, rfl, rfl, rfl, rfl, rfl⟩ (.inr rfl) h.task
  | defer kept =>
    rw [GlueState.step, GlueState.defer] at hst
    split at hst
    · cases hst
    all_goals
      obtain rfl := Option.some.inj hst
      cases kept <;> exact h.move ⟨rfl, rfl, rfl, rfl, rfl, rfl, rfl⟩ (.inr rfl) h.task
  | takeStats =>
    obtain rfl := Option.some.inj hst
    exact h.move ⟨rfl, rfl, rfl, rfl, rfl, rfl, rfl⟩ (.inr rfl) h.task
  | run fn gen again =>
    rw [GlueState.step] at hst
    split at hst
    · obtain ⟨hidle, rfl⟩ := GlueState.callback_eq hst
      refine h.move ⟨rfl, rfl, rfl, rfl, rfl, rfl, rfl⟩ (.inl (by simp [hidle])) ?_
      cases fn <;> trivial
    · cases hst
  | completeCmd =>
    rw [GlueState.step] at hst
    split at hst
    · obtain ⟨hidle, rfl⟩ := GlueState.callback_eq hst
      exact h.move ⟨rfl, rfl, rfl, rfl, rfl, rfl, rfl⟩ (.inl (by simp [hidle])) trivial
    · cases hst
  | completeMsg success data =>
    rw [GlueState.step] at hst
    split at hst
    · obtain ⟨hidle, rfl⟩ := GlueState.callback_eq hst
      refine h.move ⟨rfl, rfl, rfl, rfl, rfl, rfl, rfl⟩ (.inl (by simp [hidle])) ?_
      dsimp only
      split <;> trivial
    · cases hst
  | completeIn =>
    rw [GlueState.step] at hst
    split at hst
    · rename_i batch bytes success hf
      obtain ⟨hidle, rfl⟩ := GlueState.callback_eq hst
      obtain ⟨-, -, hwhere, hdone⟩ := h.flight _ hf
      -- a transfer is decided after its submission has been committed
      have hsub : s.msgInState = .submitted := by
        rcases hwhere with hsub | ⟨-, gen, hgen⟩
        · exact hsub
        · rw [hidle] at hgen; cases hgen
      have hne : s.msgInState ≠ .idle := by rw [hsub]; decide
      refine ⟨fun _ => h.copied hne, h.idle, (fun t hf => by cases hf),
        (fun hw => by rcases hw with hw | hw <;> cases hw.symm.trans hsub), h.complete, h.dropped,
        ⟨hsub, rfl, ?_⟩, h.since, h.le, h.order, h.nodup⟩
      cases success <;> exact hdone
    · cases hst
  | reset =>
    obtain ⟨hidle, rfl⟩ := GlueState.callback_eq hst
    exact h.afresh hidle false .resetLocked ⟨rfl, rfl, rfl⟩ (Nat.le_succ _) (fun hd => hd)
      ⟨rfl, fun t ht => Nat.lt_succ_of_le (h.le t ht).1⟩
  | deinit =>
    obtain ⟨hidle, rfl⟩ := GlueState.callback_eq hst
    exact h.afresh hidle false .deinitLocked ⟨rfl, rfl, rfl⟩ (Nat.le_refl _) (fun _ => rfl)
      ⟨rfl, rfl, fun _ => rfl⟩
  | openItf =>
    obtain ⟨hidle, rfl⟩ := GlueState.callback_eq hst
    exact h.afresh hidle true .openLocked ⟨rfl, rfl, rfl⟩ (Nat.le_refl _) (fun hd => hd) trivial

theorem init : InInv .init .none :=
  ⟨fun hne => absurd rfl hne, (fun _ t ht => by cases ht), (fun _ hf => by cases hf),
    (fun hw => by rcases hw with hw | hw <;> cases hw), (fun hc => by cases hc),
    (fun hd => by cases hd), trivial, Nat.le_refl _, (fun _ ht => by cases ht), .nil, .nil⟩

/-- What the buffer holds when the batch is released. -/
theorem released (h : InInv s r) {buf : List UInt8} (hbatch : s.batch = some buf)
    (hlen : (s.sendMsgBatch buf).2.1 = true) :
    r.presented = true ∧ ((∃ t ∈ r.wire.drop r.since, t.bytes = buf) ∨ r.deinited = true) := by
  have hend : s.msgInState = .complete ∨ s.msgInState = .dropped := by
    unfold GlueState.sendMsgBatch at hlen
    split at hlen
    · cases hlen
    cases hst : s.msgInState <;> rw [hst] at hlen <;> dsimp only at hlen
    case complete => exact .inl rfl
    case dropped => exact .inr rfl
    case queued | submitted => cases hlen
    case idle | retry => split at hlen <;> cases hlen
  have hne : s.msgInState ≠ .idle := by rcases hend with hst | hst <;> rw [hst] <;> decide
  obtain ⟨hbuf, -, -, hpres⟩ := h.copied hne
  obtain rfl : buf = s.msgIn := Option.some.inj (hbatch.symm.trans hbuf)
  exact ⟨hpres, hend.imp h.complete h.dropped⟩

end InInv

/-! ### Runs -/

theorem inInv_of_run {ls : List GlueStep} {s : GlueState} {r : InRecord}
    (hrun : (glueSystem.withAux inRecord).Run (.init, .none) ls (s, r)) : InInv s r := by
  refine hrun.invariant (I := fun p => InInv p.1 p.2) .init fun p l q h hst => ?_
  obtain ⟨hst, haux⟩ := hst
  rw [haux]
  exact h.step hst

/-- **A batch is released after a transfer of exactly its bytes.**  In every run, a call that
returns `len` for the batch follows, since the batch was first presented, a transfer of its bytes
that went through, or the end of the driver; the transfers go through in the order of the batches;
and between two resets no batch goes through twice. -/
theorem batch_released {ls : List GlueStep} {s : GlueState} {r : InRecord}
    (hrun : (glueSystem.withAux inRecord).Run (.init, .none) ls (s, r)) :
    (∀ buf, s.caller = .idle → s.batch = some buf → (s.sendMsgBatch buf).2.1 = true →
      r.presented = true ∧
        ((∃ t ∈ r.wire.drop r.since, t.bytes = buf) ∨ r.deinited = true)) ∧
      (r.wire.Pairwise fun t u => t.batch ≤ u.batch) ∧
      (r.wire.map fun t => (t.session, t.batch)).Nodup := by
  have h := inInv_of_run hrun
  exact ⟨fun buf _ => h.released, h.order, h.nodup⟩

/-- A transfer goes through, but the bus is reset before its completion is handled; the batch is
sent again, and the call is about to return its length. -/
def sentAgain : Option (GlueState × InRecord) :=
  System.exec GlueState.step (fun _ _ => True) inRecord (.init, .none)
    [.openItf, .go true, .go true, .go true, .present [1, 2], .send, .defer true,
      .run .msgIn 2 false, .go true, .go true, .go true, .wire true, .reset, .go true,
      .openItf, .go true, .go true, .go true, .send, .defer true,
      .run .msgIn 4 false, .go true, .go true, .go true, .wire true, .completeIn, .go true]

theorem batch_released_sentAgain :
    ∃ s r, sentAgain = some (s, r) ∧ (s.sendMsgBatch [1, 2]).2.1 = true ∧
      r.wire = [⟨0, 0, [1, 2]⟩, ⟨1, 0, [1, 2]⟩] ∧
      ((∃ t ∈ r.wire.drop r.since, t.bytes = [1, 2]) ∨ r.deinited = true) := by
  have hs : sentAgain.map (fun p =>
      (p.1.caller, p.1.batch, (p.1.sendMsgBatch [1, 2]).2.1, p.2.wire)) =
      some (.idle, some [1, 2], true, [⟨0, 0, [1, 2]⟩, ⟨1, 0, [1, 2]⟩]) := by decide +kernel
  obtain ⟨⟨s, r⟩, h, hs⟩ := Option.map_eq_some_iff.1 hs
  rw [Prod.mk.injEq, Prod.mk.injEq, Prod.mk.injEq] at hs
  obtain ⟨hcaller, hbatch, hlen, hwire⟩ := hs
  obtain ⟨hrel, -⟩ := batch_released (System.Run.of_exec h).of_guard_withAux
  exact ⟨s, r, h, hlen, hwire, (hrel [1, 2] hcaller hbatch hlen).2⟩

end Usb

end Espcan32
