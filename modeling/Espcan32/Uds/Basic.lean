import Espcan32.IsoTp.Basic

/-!
# The UDS server

`uds.c` is a minimal ISO 14229-1 server: a dispatcher, `uds_server_poll()`, over a table of
services, and nine built-in handlers that keep their state in file statics.

* `Server` : the `uds_server_t` and the file statics.
* `udsHDiagSession` … `udsHRequestTransferExit` : the built-in handlers.
* `Poll.udsServerPoll` : one iteration of the server over any transport and any table.
* `udsSystem` : the server with the built-in table, polled again and again.

A handler reads its request and writes its response through `Ctx.req` and `Ctx.put`; an access
out of bounds is `none`.  It also has a `W`, which is its own: for the built-in handlers it is
what `esp_random()` returns.  The response buffer keeps what is left in it, so that nothing is
assumed about bytes that a handler does not write.
-/

namespace Espcan32

namespace Uds

open IsoTp (Ret Received Link Env isotpMaxMsg)

/-! ### Constants -/

/-- `UDS_SEC_KEY_XOR`. -/
def udsSecKeyXor : UInt32 := 0x5A5A5A5A

/-- `UDS_SEC_MAX_ATTEMPTS`. -/
def udsSecMaxAttempts : UInt8 := 3

/-- `UDS_SEC_LOCK_MS`. -/
def udsSecLockMs : UInt32 := 10000

/-- `UDS_SEC_LEVEL_1`. -/
def udsSecLevel1 : UInt8 := 0x01

/-- `UDS_SEC_LEVEL_DOWNLOAD`. -/
def udsSecLevelDownload : UInt8 := udsSecLevel1

/-- `UDS_MAX_BLOCK_LEN`. -/
def udsMaxBlockLen : ℕ := 0x0402

/-- `UDS_MAX_PENDING_ITERS`. -/
def udsMaxPendingIters : ℕ := 8

/-- `UDS_P2_ENC`. -/
def udsP2Enc : UInt16 := 50

/-- `UDS_P2STAR_ENC`. -/
def udsP2StarEnc : UInt16 := 500

/-- `UDS_S3_SERVER_MS`. -/
def udsS3ServerMs : UInt32 := 5000

/-- `UDS_POS_RESP_OFFSET`. -/
def udsPosRespOffset : UInt8 := 0x40

/-- `UDS_NEG_RESP_SID`. -/
def udsNegRespSid : UInt8 := 0x7F

/-- `UDS_SUPPRESS_POS_RSP`. -/
def udsSuppressPosRsp : UInt8 := 0x80

/-- `UDS_SESSION_DEFAULT`. -/
def udsSessionDefault : UInt8 := 0x01

/-- `UDS_SESSION_PROG`. -/
def udsSessionProg : UInt8 := 0x02

/-- `UDS_SESSION_EXTENDED`. -/
def udsSessionExtended : UInt8 := 0x03

/-! The service identifiers, `UDS_SID_…`. -/

namespace Sid

def diagSession : UInt8 := 0x10
def ecuReset : UInt8 := 0x11
def readDid : UInt8 := 0x22
def security : UInt8 := 0x27
def routine : UInt8 := 0x31
def reqDownload : UInt8 := 0x34
def transferData : UInt8 := 0x36
def reqXferExit : UInt8 := 0x37
def testerPres : UInt8 := 0x3E

end Sid

/-! The negative response codes, `NRC_…`, and `UDS_NRC_WRONG_BSC`. -/

namespace Nrc

def generalReject : UInt8 := 0x10
def sns : UInt8 := 0x11
def sfns : UInt8 := 0x12
def imloif : UInt8 := 0x13
def brr : UInt8 := 0x21
def cnc : UInt8 := 0x22
def rse : UInt8 := 0x24
def roor : UInt8 := 0x31
def sad : UInt8 := 0x33
def ik : UInt8 := 0x35
def enoa : UInt8 := 0x36
def rtdne : UInt8 := 0x37
def wrongBsc : UInt8 := 0x73
def rcrrp : UInt8 := 0x78
def sfnsias : UInt8 := 0x7E
def snsias : UInt8 := 0x7F

end Nrc

/-! ### Data model -/

/-- `uds_disp_t`. -/
inductive Disp where
  | positive
  | negative
  | responsePending
  | noResponse
  deriving DecidableEq, Repr

/-- The file statics of the built-in handlers. -/
structure Statics where
  secLevel : UInt8
  secPending : UInt8
  secSeed : UInt32
  secAttempts : UInt8
  secLockMs : UInt32
  xferActive : Bool
  xferSize : UInt32
  xferReceived : UInt32
  xferBsc : UInt8
  pendingReset : Bool
  deriving DecidableEq, Repr

/-- `uds_ctx_t`; `req` holds the `req_len` bytes of the request. -/
structure Ctx where
  req : List UInt8
  resp : Mem UInt8
  respCap : ℕ
  respLen : ℕ
  nrc : UInt8
  functional : Bool
  session : UInt8

/-- `uds_handler_fn`; the handler's own state is a `W`. -/
def Handler (W : Type) := W → Ctx → Statics → Option (W × Disp × Ctx × Statics)

/-- `uds_service_t`. -/
structure Service (W : Type) where
  sid : UInt8
  minSessionMask : UInt8
  fn : Option (Handler W)

/-- `uds_server_t` without its link, its table and the pointer of its user, and the statics. -/
structure Server where
  session : UInt8
  s3TimerMs : UInt32
  s3TimeoutMs : UInt32
  secLevel : UInt8
  secSeed : UInt32
  respDropped : UInt32
  respBuf : Mem UInt8
  respCap : ℕ
  g : Statics

/-- What the server calls of `isotp.c`: `isotp_receive()` into a buffer of `ISOTP_MAX_MSG` bytes,
and `isotp_send()`. -/
structure Transport (L : Type) where
  receive : L → L × Received
  send : L → List UInt8 → L × Ret

/-! ### Small helpers -/

/-- `uds_put_be16()`: the bytes it writes. -/
def be16 (v : UInt16) : List UInt8 := [(v >>> 8).toUInt8, (v &&& 0xFF).toUInt8]

/-- The bytes of a seed, most significant first. -/
def be32 (v : UInt32) : List UInt8 :=
  [(v >>> 24).toUInt8, (v >>> 16).toUInt8, (v >>> 8).toUInt8, (v &&& 0xFF).toUInt8]

/-- `uds_nrc_suppressed_on_functional()`. -/
def udsNrcSuppressedOnFunctional (nrc : UInt8) : Bool :=
  nrc = Nrc.sns ∨ nrc = Nrc.sfns ∨ nrc = Nrc.roor ∨ nrc = Nrc.sfnsias ∨ nrc = Nrc.snsias

/-- `uds_sid_has_suppress()`. -/
def udsSidHasSuppress (sid : UInt8) : Bool :=
  sid = Sid.diagSession ∨ sid = Sid.ecuReset ∨ sid = Sid.routine ∨ sid = Sid.testerPres

/-- `uds_sec_level_supported()`. -/
def udsSecLevelSupported (level : UInt8) : Bool := level = udsSecLevel1

/-- `uds_find_service()`. -/
def udsFindService {W : Type} (services : List (Service W)) (sid : UInt8) : Option (Service W) :=
  services.find? fun svc => svc.sid = sid

/-- `sub & ~UDS_SUPPRESS_POS_RSP`. -/
def subFunction (b : UInt8) : UInt8 := b &&& ~~~udsSuppressPosRsp

namespace Ctx

variable (c : Ctx)

/-- Write bytes into the response from index `i` on. -/
def put (i : ℕ) (bs : List UInt8) : Option Ctx :=
  if i + bs.length ≤ c.respCap then some { c with resp := c.resp.copy i bs } else none

/-- Set `nrc`, and return `UDS_NEGATIVE`. -/
def refuse (nrc : UInt8) (g : Statics) : Option (Disp × Ctx × Statics) :=
  some (.negative, { c with nrc := nrc }, g)

/-- Write the response, and return `UDS_POSITIVE`. -/
def reply (bs : List UInt8) (g : Statics) : Option (Disp × Ctx × Statics) :=
  (c.put 0 bs).map fun c => (.positive, { c with respLen := bs.length }, g)

end Ctx

/-! ### DID table -/

/-- `uds_did_entry_t`. -/
structure DidEntry where
  did : UInt16
  data : List UInt8
  deriving DecidableEq, Repr

/-- The bytes of a C string. -/
def ascii (cs : List Char) : List UInt8 := cs.map fun ch => UInt8.ofNat ch.toNat

/-- `k_did_table`. -/
def kDidTable : List DidEntry :=
  [⟨0xF190, ascii ['Z', 'Z', 'Z', 'B', 'E', 'N', 'C', 'H', '0', 'P', '0', '0', '0', '0', '0', '0',
      '1']⟩,
    ⟨0xF187, ascii ['P', 'N', '-', 'B', 'E', 'N', 'C', 'H', '-', '0', '0', '0', '1']⟩,
    ⟨0xF189, ascii ['B', 'E', 'N', 'C', 'H', '-', 'U', 'D', 'S', '-', '1', '.', '0', '.', '0']⟩,
    ⟨0xF18C, ascii ['E', 'S', 'N', '-', '0', '0', '0', '0', 'C', '0', 'F', 'F', 'E', 'E']⟩,
    ⟨0xF197, ascii ['E', 'S', 'P', 'C', 'A', 'N', '3', '2']⟩]

/-- The DID of two bytes of a request. -/
def didOf (hi lo : UInt8) : UInt16 := hi.toUInt16 <<< 8 ||| lo.toUInt16

/-- The inner loop of `uds_h_read_did()`: the first entry of `k_did_table` with this DID. -/
def findDid (did : UInt16) : Option DidEntry := kDidTable.find? fun entry => entry.did = did

/-! ### Built-in handlers -/

/-- `uds_h_diag_session()`. -/
def udsHDiagSession (c : Ctx) (g : Statics) : Option (Disp × Ctx × Statics) :=
  if c.req.length < 2 then c.refuse Nrc.imloif g
  else do
    let sub := subFunction (← c.req[1]?)
    if sub ≠ udsSessionDefault ∧ sub ≠ udsSessionProg ∧ sub ≠ udsSessionExtended then
      c.refuse Nrc.sfns g
    else if c.respCap < 6 then c.refuse Nrc.generalReject g
    else
      Ctx.reply { c with session := sub }
        ([Sid.diagSession + udsPosRespOffset, sub] ++ be16 udsP2Enc ++ be16 udsP2StarEnc) g

/-- `uds_h_ecu_reset()`. -/
def udsHEcuReset (c : Ctx) (g : Statics) : Option (Disp × Ctx × Statics) :=
  if c.req.length < 2 then c.refuse Nrc.imloif g
  else do
    let sub := subFunction (← c.req[1]?)
    if sub < 0x01 ∨ 0x05 < sub then c.refuse Nrc.sfns g
    else if c.respCap < 2 then c.refuse Nrc.generalReject g
    else if sub = 0x01 ∨ sub = 0x02 ∨ sub = 0x03 then
      Ctx.reply { c with session := udsSessionDefault }
        [Sid.ecuReset + udsPosRespOffset, sub] { g with pendingReset := true }
    else c.reply [Sid.ecuReset + udsPosRespOffset, sub] g

/-- The loop of `uds_h_read_did()` over the requested DIDs: `i` is the index into the request,
`oi` the one into the response, and `matched` counts the known DIDs.  What comes back is `none`
if the response would overflow, and `oi` and `matched` otherwise.  The loop is given `fuel`
rounds; `none` outside means that it needs more, or reads or writes out of bounds. -/
def readDids : ℕ → Ctx → ℕ → ℕ → ℕ → Option (Ctx × Option (ℕ × ℕ))
  | fuel, c, i, oi, matched =>
    if c.req.length ≤ i + 1 then some (c, some (oi, matched))
    else
      match fuel with
      | 0 => none
      | fuel + 1 => do
        let did := didOf (← c.req[i]?) (← c.req[i + 1]?)
        match findDid did with
        -- an unknown DID is left out of the response
        | none => readDids fuel c (i + 2) oi matched
        | some entry =>
          if c.respCap < oi + 2 + entry.data.length then some (c, none)
          else
            let c ← c.put oi (be16 did ++ entry.data)
            readDids fuel c (i + 2) (oi + 2 + entry.data.length) (matched + 1)

/-- `uds_h_read_did()`. -/
def udsHReadDid (c : Ctx) (g : Statics) : Option (Disp × Ctx × Statics) :=
  if c.req.length < 3 ∨ (c.req.length - 1) % 2 ≠ 0 then c.refuse Nrc.imloif g
  else if c.respCap < 1 then c.refuse Nrc.generalReject g
  else do
    let c ← c.put 0 [Sid.readDid + udsPosRespOffset]
    match ← readDids c.req.length c 1 1 0 with
    | (c, none) => c.refuse Nrc.roor g
    | (c, some (oi, matched)) =>
      if matched = 0 then c.refuse Nrc.roor g
      else some (.positive, { c with respLen := oi }, g)

/-- The seed `uds_h_security()` hands out for the random number `random`. -/
def challenge (random : UInt32) : UInt32 := if random = 0 then 0xA5A5A5A5 else random

/-- The key that `uds_h_security()` expects for a seed. -/
def expectedKey (seed : UInt32) : UInt32 := seed ^^^ udsSecKeyXor

/-- Four bytes, most significant first. -/
def ofBe32 (b3 b2 b1 b0 : UInt8) : UInt32 :=
  b3.toUInt32 <<< 24 ||| b2.toUInt32 <<< 16 ||| b1.toUInt32 <<< 8 ||| b0.toUInt32

/-- `uds_h_security()` for a requestSeed; `random` is what `esp_random()` returns. -/
def requestSeed (random : UInt32) (sub : UInt8) (c : Ctx) (g : Statics) :
    Option (Disp × Ctx × Statics) :=
  if c.respCap < 6 then c.refuse Nrc.generalReject g
  else if g.secLevel = sub then
    -- the level is unlocked already
    c.reply ([Sid.security + udsPosRespOffset, sub] ++ be32 0) g
  else
    c.reply ([Sid.security + udsPosRespOffset, sub] ++ be32 (challenge random))
      { g with secSeed := challenge random, secPending := sub }

/-- `uds_h_security()` for a sendKey of the level `level`. -/
def sendKey (sub level : UInt8) (c : Ctx) (g : Statics) : Option (Disp × Ctx × Statics) :=
  if c.req.length < 6 then c.refuse Nrc.imloif g
  else if g.secPending = 0 ∨ g.secPending ≠ level then c.refuse Nrc.rse g
  else if c.respCap < 2 then c.refuse Nrc.generalReject g
  else do
    let key := ofBe32 (← c.req[2]?) (← c.req[3]?) (← c.req[4]?) (← c.req[5]?)
    if key ≠ expectedKey g.secSeed then
      if udsSecMaxAttempts ≤ g.secAttempts + 1 then
        c.refuse Nrc.enoa { g with secPending := 0, secAttempts := 0, secLockMs := udsSecLockMs }
      else c.refuse Nrc.ik { g with secPending := 0, secAttempts := g.secAttempts + 1 }
    else
      c.reply [Sid.security + udsPosRespOffset, sub]
        { g with secLevel := level, secPending := 0, secAttempts := 0 }

/-- The level that a sub-function of SecurityAccess is about. -/
def seedLevel (sub : UInt8) : UInt8 := if sub &&& 0x01 ≠ 0 then sub else sub - 1

/-- `uds_h_security()`: an odd sub-function requests the seed of a level, and the even one behind
it sends the key. -/
def udsHSecurity (random : UInt32) (c : Ctx) (g : Statics) : Option (Disp × Ctx × Statics) :=
  if c.req.length < 2 then c.refuse Nrc.imloif g
  else if 0 < g.secLockMs then c.refuse Nrc.rtdne g
  else do
    let sub ← c.req[1]?
    if udsSecLevelSupported (seedLevel sub) = false then c.refuse Nrc.sfns g
    else if sub &&& 0x01 ≠ 0 then requestSeed random sub c g
    else sendKey sub (seedLevel sub) c g

/-- `uds_h_routine()`. -/
def udsHRoutine (c : Ctx) (g : Statics) : Option (Disp × Ctx × Statics) :=
  if c.req.length < 4 then c.refuse Nrc.imloif g
  else do
    let sub := subFunction (← c.req[1]?)
    if sub < 0x01 ∨ 0x03 < sub then c.refuse Nrc.sfns g
    else if c.respCap < 5 then c.refuse Nrc.generalReject g
    else c.reply [Sid.routine + udsPosRespOffset, sub, ← c.req[2]?, ← c.req[3]?, 0x00] g

/-- `uds_h_tester_present()`. -/
def udsHTesterPresent (c : Ctx) (g : Statics) : Option (Disp × Ctx × Statics) :=
  if c.req.length < 2 then c.refuse Nrc.imloif g
  else do
    let sub := subFunction (← c.req[1]?)
    if sub ≠ 0x00 then c.refuse Nrc.sfns g
    else if c.respCap < 2 then c.refuse Nrc.generalReject g
    else c.reply [Sid.testerPres + udsPosRespOffset, 0x00] g

/-- The `n` bytes of the memorySize from index `i` on, most significant first, behind `size`. -/
def memorySize (req : List UInt8) : ℕ → ℕ → UInt32 → Option UInt32
  | 0, _, size => some size
  | n + 1, i, size => do
    let b ← req[i]?
    memorySize req n (i + 1) (size <<< 8 ||| b.toUInt32)

/-- `uds_h_request_download()`. -/
def udsHRequestDownload (c : Ctx) (g : Statics) : Option (Disp × Ctx × Statics) :=
  if c.req.length < 4 then c.refuse Nrc.imloif g
  else if g.secLevel ≠ udsSecLevelDownload then c.refuse Nrc.sad g
  else if g.xferActive then c.refuse Nrc.cnc g
  else do
    let alfid ← c.req[2]?
    let sizeLen := (alfid &&& 0x0F).toNat
    let addrLen := (alfid >>> 4 &&& 0x0F).toNat
    if sizeLen = 0 ∨ 4 < sizeLen ∨ addrLen = 0 ∨ 4 < addrLen then c.refuse Nrc.roor g
    else if c.req.length < 3 + addrLen + sizeLen then c.refuse Nrc.imloif g
    else if c.respCap < 4 then c.refuse Nrc.generalReject g
    else
      let size ← memorySize c.req sizeLen (3 + addrLen) 0
      if size = 0 then c.refuse Nrc.roor g
      else
        c.reply ([Sid.reqDownload + udsPosRespOffset, 0x20] ++ be16 (UInt16.ofNat udsMaxBlockLen))
          { g with xferActive := true, xferSize := size, xferReceived := 0, xferBsc := 1 }

/-- `uds_h_transfer_data()`. -/
def udsHTransferData (c : Ctx) (g : Statics) : Option (Disp × Ctx × Statics) :=
  if c.req.length < 2 then c.refuse Nrc.imloif g
  else if g.xferActive = false then c.refuse Nrc.rse g
  else if g.secLevel ≠ udsSecLevelDownload then c.refuse Nrc.sad g
  else if c.respCap < 2 then c.refuse Nrc.generalReject g
  else do
    let bsc ← c.req[1]?
    let dlen := UInt32.ofNat (c.req.length - 2)
    if bsc = g.xferBsc then
      if udsMaxBlockLen < c.req.length then c.refuse Nrc.roor g
      else if g.xferSize < g.xferReceived + dlen then c.refuse Nrc.roor g
      else
        c.reply [Sid.transferData + udsPosRespOffset, bsc]
          { g with xferReceived := g.xferReceived + dlen, xferBsc := g.xferBsc + 1 }
    -- the block before is acknowledged again, and not counted again
    else if 0 < g.xferReceived ∧ bsc = g.xferBsc - 1 then
      c.reply [Sid.transferData + udsPosRespOffset, bsc] g
    else c.refuse Nrc.wrongBsc g

/-- `uds_h_request_transfer_exit()`. -/
def udsHRequestTransferExit (c : Ctx) (g : Statics) : Option (Disp × Ctx × Statics) :=
  if g.xferActive = false then c.refuse Nrc.rse g
  else if g.secLevel ≠ udsSecLevelDownload then c.refuse Nrc.sad g
  else if c.respCap < 1 then c.refuse Nrc.generalReject g
  else
    c.reply [Sid.reqXferExit + udsPosRespOffset]
      { g with xferActive := false, xferSize := 0, xferReceived := 0, xferBsc := 0 }

/-- A built-in handler as one that keeps its `W`. -/
def builtin {W : Type} (h : W → Ctx → Statics → Option (Disp × Ctx × Statics)) : Handler W :=
  fun w c g => (h w c g).map (Prod.mk w)

/-- `s_bench_services`. -/
def benchServices : List (Service UInt32) :=
  [⟨Sid.diagSession, 0, some (builtin fun _ => udsHDiagSession)⟩,
    ⟨Sid.ecuReset, 0, some (builtin fun _ => udsHEcuReset)⟩,
    ⟨Sid.readDid, 0, some (builtin fun _ => udsHReadDid)⟩,
    ⟨Sid.security, 0, some (builtin udsHSecurity)⟩,
    ⟨Sid.routine, 0, some (builtin fun _ => udsHRoutine)⟩,
    ⟨Sid.testerPres, 0, some (builtin fun _ => udsHTesterPresent)⟩,
    ⟨Sid.reqDownload, 0, some (builtin fun _ => udsHRequestDownload)⟩,
    ⟨Sid.transferData, 0, some (builtin fun _ => udsHTransferData)⟩,
    ⟨Sid.reqXferExit, 0, some (builtin fun _ => udsHRequestTransferExit)⟩]

/-! ### The server -/

namespace Statics

/-- The statics after `uds_server_init()`. -/
def init : Statics where
  secLevel := 0
  secPending := 0
  secSeed := 0
  secAttempts := 0
  secLockMs := 0
  xferActive := false
  xferSize := 0
  xferReceived := 0
  xferBsc := 0
  pendingReset := false

/-- What `uds_relock()` clears. -/
def relock (g : Statics) : Statics :=
  { g with
    secLevel := 0, secPending := 0
    xferActive := false, xferSize := 0, xferReceived := 0, xferBsc := 0 }

end Statics

/-- `uds_server_init()`. -/
def udsServerInit (respBuf : Mem UInt8) (respCap : ℕ) : Server where
  session := udsSessionDefault
  s3TimerMs := 0
  s3TimeoutMs := udsS3ServerMs
  secLevel := 0
  secSeed := 0
  respDropped := 0
  respBuf := respBuf
  respCap := respCap
  g := .init

namespace Server

variable (s : Server)

/-- `uds_relock()`. -/
def udsRelock : Server := { s with g := s.g.relock, secLevel := 0 }

/-- Age the lockout timer of SecurityAccess. -/
def ageLock (elapsedMs : UInt32) : Server :=
  { s with g := { s.g with
      secLockMs :=
        if 0 < s.g.secLockMs then
          if elapsedMs < s.g.secLockMs then s.g.secLockMs - elapsedMs else 0
        else s.g.secLockMs } }

/-- Age the S3 timer, in a poll without a request. -/
def ageS3 (elapsedMs : UInt32) : Server :=
  let s := { s with s3TimerMs := s.s3TimerMs + elapsedMs }
  if s.s3TimeoutMs ≤ s.s3TimerMs then
    { s with s3TimerMs := 0, session := udsSessionDefault }.udsRelock
  else s

/-- The context of a request. -/
def ctx (req : List UInt8) (functional : Bool) : Ctx where
  req := req
  resp := s.respBuf
  respCap := s.respCap
  respLen := 0
  nrc := Nrc.generalReject
  functional := functional
  session := s.session

/-- Step 5 for a positive result: commit the session that the handler asks for. -/
def commit (sid session : UInt8) : Server :=
  if session ≠ s.session ∨ sid = Sid.diagSession ∧ session = udsSessionDefault then
    { s with session := session }.udsRelock
  else s

end Server

/-- An iteration under way: the server, its link, what has been handed to `isotp_send()` with what
it returned, and whether `esp_restart()` has been called. -/
structure Poll (L W : Type) where
  server : Server
  link : L
  world : W
  sent : List (List UInt8 × Ret)
  restarted : Bool

namespace Poll

variable {L W : Type} (T : Transport L) (p : Poll L W)

/-- `uds_send_raw()`. -/
def udsSendRaw (buf : List UInt8) : Poll L W × Bool :=
  let (link, r) := T.send p.link buf
  ({ p with link := link, sent := p.sent ++ [(buf, r)] }, r = .ok ∨ r = .inprogress)

/-- `uds_send_nrc()`. -/
def udsSendNrc (sid nrc : UInt8) (functional : Bool) : Poll L W :=
  if functional ∧ udsNrcSuppressedOnFunctional nrc then p
  else
    match p.udsSendRaw T [udsNegRespSid, sid, nrc] with
    | (p, true) => p
    | (p, false) =>
      { p with server := { p.server with respDropped := p.server.respDropped + 1 } }

/-- `uds_send_response()`. -/
def udsSendResponse (sid : UInt8) (buf : List UInt8) (functional : Bool) : Poll L W × Bool :=
  match p.udsSendRaw T buf with
  | (p, true) => (p, true)
  | (p, false) => (p.udsSendNrc T sid Nrc.brr functional, false)

/-- The next call of the handler; what it writes stays in the response buffer. -/
def call (fn : Handler W) (c : Ctx) : Option (Poll L W × Disp × Ctx) := do
  let (w, disp, c, g) ← fn p.world c p.server.g
  some ({ p with world := w, server := { p.server with g := g, respBuf := c.resp } }, disp, c)

/-- The loop of step 4, with `n` iterations left: `UDS_RESPONSE_PENDING` calls the handler again. -/
def settle (fn : Handler W) (sid : UInt8) (functional : Bool) :
    ℕ → Poll L W → Disp → Ctx → Option (Poll L W × Disp × Ctx)
  | n + 1, p, .responsePending, c => do
    let (p, disp, c) ← (p.udsSendNrc T sid Nrc.rcrrp functional).call fn
      { c with respLen := 0, nrc := Nrc.generalReject }
    settle fn sid functional n p disp c
  | _, p, disp, c => some (p, disp, c)

/-- Steps 6 and 7: mirror the security state, and restart if a handler asks for it. -/
def finish : Poll L W :=
  let s := { p.server with secLevel := p.server.g.secLevel, secSeed := p.server.g.secSeed }
  if s.g.pendingReset then
    { p with server := { s with g := { s.g with pendingReset := false } }, restarted := true }
  else { p with server := s }

/-- Step 5 for a positive result: commit the session, and send the response unless it is
suppressed. -/
def respond (sid : UInt8) (suppress functional : Bool) (c : Ctx) : Poll L W :=
  let p := { p with server := p.server.commit sid c.session }
  if suppress = false ∧ 0 < c.respLen then
    match p.udsSendResponse T sid (c.resp.read 0 c.respLen) functional with
    | (p, true) => p
    | (p, false) =>
      -- no restart without the response that announces it
      { p with server := { p.server with g := { p.server.g with pendingReset := false } } }
  else p

/-- Steps 5 to 7: emit what the handler settled on. -/
def emit (sid : UInt8) (suppress functional : Bool) : Disp → Ctx → Poll L W
  | .responsePending, _ => p.udsSendNrc T sid Nrc.generalReject functional
  | .positive, c => (p.respond T sid suppress functional c).finish
  | .negative, c => (p.udsSendNrc T sid c.nrc functional).finish
  | .noResponse, _ => p.finish

/-- Whether the positive response to a request is suppressed. -/
def suppressed (sid : UInt8) (req : List UInt8) : Bool :=
  udsSidHasSuppress sid && (req[1]?).any fun b => b &&& udsSuppressPosRsp ≠ 0

/-- Steps 2 to 7: dispatch the request. -/
def dispatch (services : List (Service W)) (req : List UInt8) (functional : Bool) :
    Option (Poll L W) := do
  let sid ← req[0]?
  match udsFindService services sid with
  | none => some (p.udsSendNrc T sid Nrc.sns functional)
  | some ⟨_, _, none⟩ => some (p.udsSendNrc T sid Nrc.sns functional)
  | some ⟨_, mask, some fn⟩ =>
    if mask ≠ 0 ∧ (1 <<< p.server.session.toNat) &&& mask.toNat = 0 then
      some (p.udsSendNrc T sid Nrc.snsias functional)
    else
      let (p, disp, c) ← p.call fn (p.server.ctx req functional)
      let (p, disp, c) ← p.settle T fn sid functional udsMaxPendingIters disp c
      some (p.emit T sid (suppressed sid req) functional disp c)

/-- `uds_server_poll()`. -/
def udsServerPoll (services : List (Service W)) (elapsedMs : UInt32) : Option (Poll L W) :=
  let p := { p with server := p.server.ageLock elapsedMs }
  let (link, r) := T.receive p.link
  let p := { p with link := link }
  if r.ret ≠ .ok ∨ r.out.length = 0 then
    -- no request
    some { p with server := p.server.ageS3 elapsedMs }
  else
    { p with server := { p.server with s3TimerMs := 0 } }.dispatch T services r.out r.functional

end Poll

/-! ### Runs -/

/-- What a poll takes from outside: the link as the poll finds it, the time since the last poll,
and the random number that `esp_random()` would return. -/
structure Tick (L : Type) where
  link : L
  elapsedMs : UInt32
  random : UInt32

section

variable {L : Type} (T : Transport L)

/-- The poll of the server with the built-in table. -/
def Server.poll (s : Server) (t : Tick L) : Option (Poll L UInt32) :=
  (⟨s, t.link, t.random, [], false⟩ : Poll L UInt32).udsServerPoll T benchServices t.elapsedMs

/-- The server with the built-in table, polled again and again. -/
def udsSystem : System Server (Tick L) := .ofFun fun s t => (s.poll T t).map Poll.server

end

/-- The ISO-TP link as a transport; `e` is what its hooks return during the poll. -/
def linkTransport (e : Env) : Transport Link where
  receive l := l.isotpReceive isotpMaxMsg
  send l data := ((l.isotpSend e data).1, (l.isotpSend e data).2.1)

/-- A poll that finds the request `req` complete on the link of the host tests. -/
def heldTick (req : List UInt8) (elapsedMs random : UInt32) : Tick Link where
  link :=
    { IsoTp.testLink with rx := { IsoTp.testLink.rx with
        buf := IsoTp.testLink.rx.buf.copy 0 req, len := req.length, complete := true } }
  elapsedMs := elapsedMs
  random := random

end Uds

end Espcan32
