import InetManet.Library.ByteOrder
import InetManet.Library.Cursor
import InetManet.SCTP.SendStreams

/-!
# SCTP wire format

`SCTPSerializer`. A buffer is a list of bytes, and `parse` gets a list of `bufsize` bytes. Where the
code reads a field or a range of bytes, the model checks that it lies within the list: `need bs n`
says that the first `n` bytes from the start of the chunk are read. The loops over parameters have as
many rounds as the chunk has bytes, so one that is still running then makes no progress.

The checksum is left out, and so is the length of a message object where the serializer does not read
it. A simulation time is a number of picoseconds. `serialize` writes into a buffer that the external
interface has filled with zeros.
-/

namespace InetManet.SCTP

open TransitionSystem ByteOrder

/-! ## Chunks -/

inductive Address
  | v4 (address : BitVec 32)
  | v6 (address : List Byte)
  deriving DecidableEq, Repr

structure WireData where
  uBit : Bool := false
  bBit : Bool := false
  eBit : Bool := false
  tsn : BitVec 32 := 0
  sid : BitVec 16 := 0
  ssn : BitVec 16 := 0
  ppid : BitVec 32 := 0
  data : Option (List Byte) := none
  byteLength : ℕ := 16
  deriving DecidableEq, Repr

structure InitChunk where
  initTag : BitVec 32 := 0
  a_rwnd : BitVec 32 := 0
  noOutStreams : BitVec 16 := 0
  noInStreams : BitVec 16 := 0
  initTSN : BitVec 32 := 0
  addresses : List Address := []
  unrecognizedParameters : List Byte := []
  deriving DecidableEq, Repr

structure StateCookie where
  creationTime : ℕ := 0
  localTag : BitVec 32 := 0
  peerTag : BitVec 32 := 0
  localTieTag : List Byte := []
  peerTieTag : List Byte := []
  deriving DecidableEq, Repr

structure InitAckChunk extends InitChunk where
  cookie : List Byte := []
  stateCookie : Option StateCookie := none
  deriving DecidableEq, Repr

structure SackChunk where
  cumTsnAck : BitVec 32 := 0
  a_rwnd : BitVec 32 := 0
  gaps : List (BitVec 32 × BitVec 32) := []
  dupTsns : List (BitVec 32) := []
  byteLength : ℕ := 16
  deriving DecidableEq, Repr

/-- HEARTBEAT and HEARTBEAT_ACK. -/
structure HeartbeatChunk where
  remoteAddr : Address := .v4 0
  timeField : ℕ := 0
  info : List Byte := []
  byteLength : ℕ := 16
  deriving DecidableEq, Repr

structure CookieEchoChunk where
  cookie : List Byte := []
  stateCookie : Option StateCookie := none
  unrecognizedParameters : List Byte := []
  byteLength : ℕ := 4
  deriving DecidableEq, Repr

inductive SCTPChunk
  | data (c : WireData)
  | init (c : InitChunk)
  | initAck (c : InitAckChunk)
  | sack (c : SackChunk)
  | heartbeat (c : HeartbeatChunk)
  | heartbeatAck (c : HeartbeatChunk)
  | abort (tBit : Bool) (byteLength : ℕ)
  | shutdown (cumTsnAck : BitVec 32) (byteLength : ℕ)
  | shutdownAck (byteLength : ℕ)
  | error (parameters : List (List Byte))
  | cookieEcho (c : CookieEchoChunk)
  | cookieAck (byteLength : ℕ)
  | shutdownComplete (tBit : Bool) (byteLength : ℕ)
  deriving DecidableEq, Repr

structure SCTPMessage where
  srcPort : BitVec 16 := 0
  destPort : BitVec 16 := 0
  tag : BitVec 32 := 0
  chunks : List SCTPChunk := []
  deriving DecidableEq, Repr

/-! ## Parser -/

/-- A read past `bufsize`, a loop without progress, or the exception for an empty DATA chunk. -/
inductive ParseFault
  | outOfBounds
  | endlessLoop
  | runtimeError
  deriving DecidableEq, Repr

section

variable (bs : List Byte)

def need (n : ℕ) : Except ParseFault Unit :=
  if n ≤ bs.length then .ok () else .error .outOfBounds

def picoseconds : ℕ := 10 ^ 12

def chunkType : ℕ := (u8 bs 0).toNat
def flags : Byte := u8 bs 1

/-- `woPadding`. -/
def chunkLength : ℕ := (u16 bs 2).toNat

/-- `cLen`; for ABORT the length without padding. -/
def cLen : ℕ :=
  if chunkType bs = 6 then chunkLength bs else addPadding (chunkLength bs)

def parseData : Except ParseFault SCTPChunk := do
  if addPadding (chunkLength bs) = 0 then .error .runtimeError
  else
    need bs 16
    let c : WireData :=
      { uBit := (flags bs).getLsbD 2, bBit := (flags bs).getLsbD 1, eBit := (flags bs).getLsbD 0
        tsn := u32 bs 4, sid := u16 bs 8, ssn := u16 bs 10, ppid := u32 bs 12 }
    if 16 < chunkLength bs then
      need bs (chunkLength bs)
      return .data { c with
        data := some (bytes bs 16 (chunkLength bs - 16))
        byteLength := chunkLength bs }
    else return .data c

def paramType (p : ℕ) : ℕ := (u16 bs (20 + p)).toNat
def paramLength (p : ℕ) : ℕ := (u16 bs (20 + p + 2)).toNat

/-- The parameter of an INIT or INIT_ACK chunk at `p`; the flag says that processing stops. Only
INIT_ACK has a cookie. -/
def initParam (ack : Bool) (p : ℕ) (c : InitAckChunk) :
    Except ParseFault (InitAckChunk × Bool) := do
  need bs (20 + p + 4)
  let type := paramType bs p
  let length := paramLength bs p
  if type = 12 then return (c, false)
  else if type = 5 then
    need bs (20 + p + 8)
    return ({ c with addresses := c.addresses ++ [.v4 (u32 bs (20 + p + 4))] }, false)
  else if type = 6 then
    need bs (20 + p + 20)
    return ({ c with addresses := c.addresses ++ [.v6 (bytes bs (20 + p + 4) 16)] }, false)
  else if ack ∧ type = 7 then
    need bs (20 + p + max 4 length)
    return ({ c with cookie := bytes bs (20 + p + 4) (length - 4) }, false)
  else
    let stop := !(u16 bs (20 + p)).getLsbD 15
    if (u16 bs (20 + p)).getLsbD 14 then
      need bs (20 + p + addPadding length)
      return ({ c with
        unrecognizedParameters := c.unrecognizedParameters ++
          bytes bs (20 + p) (addPadding length) }, stop)
    else return (c, stop)

/-- `while (cLen > size_init_chunk + parptr && !stopProcessing)`. -/
def initBody (ack : Bool) (p : ℕ) (c : InitAckChunk) :
    Except ParseFault (InitAckChunk × Option ℕ) :=
  if 20 + p < cLen bs then do
    let (c, stop) ← initParam bs ack p c
    return (c, if stop then none else some (addPadding (paramLength bs p)))
  else .ok (c, none)

def parseInit (ack : Bool) : Except ParseFault SCTPChunk := do
  need bs 20
  let c : InitAckChunk :=
    { initTag := u32 bs 4, a_rwnd := u32 bs 8, noOutStreams := u16 bs 12, noInStreams := u16 bs 14
      initTSN := u32 bs 16 }
  let c ← walk .endlessLoop (initBody bs ack) (cLen bs + 1) 0 c
  return if ack then .initAck c else .init c.toInitChunk

def parseSack : Except ParseFault SCTPChunk := do
  need bs 16
  let cumtsnack := u32 bs 4
  let ngaps := (u16 bs 12).toNat
  let ndups := (u16 bs 14).toNat
  need bs (16 + 4 * ngaps + 4 * ndups)
  return .sack
    { cumTsnAck := cumtsnack, a_rwnd := u32 bs 8
      gaps := (List.range ngaps).map fun i ↦ ((u16 bs (16 + 4 * i)).setWidth 32 + cumtsnack,
        (u16 bs (16 + 4 * i + 2)).setWidth 32 + cumtsnack)
      dupTsns := (List.range ndups).map fun i ↦ u32 bs (16 + 4 * ngaps + 4 * i)
      byteLength := cLen bs }

def infoType (p : ℕ) : ℕ := (u16 bs (4 + p)).toNat
def infoLength (p : ℕ) : ℕ := (u16 bs (4 + p + 2)).toNat

/-- `while (cLen > size_heartbeat_chunk + parptr)`. -/
def infoBody (p : ℕ) (c : HeartbeatChunk) :
    Except ParseFault (HeartbeatChunk × Option ℕ) :=
  if 4 + p < cLen bs then do
    need bs (4 + p + 4)
    if infoType bs p = 1 then
      need bs (4 + p + max 4 (infoLength bs p))
      return ({ c with info := bytes bs (4 + p + 4) (infoLength bs p - 4) },
        some (addPadding (infoLength bs p)))
    else return (c, some (addPadding (infoLength bs p)))
  else .ok (c, none)

/-- The same loop for HEARTBEAT_ACK: the info is an address and a time, and other parameters are
skipped without their padding. -/
def ackInfoBody (p : ℕ) (c : HeartbeatChunk) :
    Except ParseFault (HeartbeatChunk × Option ℕ) :=
  if 4 + p < cLen bs then do
    need bs (4 + p + 4)
    if infoType bs p = 1 then
      need bs (4 + p + 12)
      return ({ c with
        remoteAddr := .v4 (u32 bs (4 + p + 4))
        timeField := (u32 bs (4 + p + 8)).toNat * picoseconds }, some 12)
    else return (c, some (infoLength bs p))
  else .ok (c, none)

def parseHeartbeat (ack : Bool) : Except ParseFault SCTPChunk := do
  let c : HeartbeatChunk := { byteLength := cLen bs }
  if ack then
    let c ← walk .endlessLoop (ackInfoBody bs) (cLen bs + 1) 0 c
    return .heartbeatAck c
  else
    let c ← walk .endlessLoop (infoBody bs) (cLen bs + 1) 0 c
    return .heartbeat c

def parseCookieEcho : Except ParseFault SCTPChunk := do
  if 4 < cLen bs then
    need bs 80
    return .cookieEcho
      { stateCookie := some
          { creationTime := (u32 bs 4).toNat * picoseconds, localTag := u32 bs 8, peerTag := u32 bs 12
            localTieTag := bytes bs 16 32, peerTieTag := bytes bs 48 32 }
        byteLength := chunkLength bs }
  else return .cookieEcho { byteLength := chunkLength bs }

/-- `switch (chunkType)`. Chunks of unknown type are skipped. -/
def parseChunk : Except ParseFault (Option SCTPChunk) := do
  need bs 4
  match chunkType bs with
  | 0 => some <$> parseData bs
  | 1 => some <$> parseInit bs false
  | 2 => some <$> parseInit bs true
  | 3 => some <$> parseSack bs
  | 4 => some <$> parseHeartbeat bs false
  | 5 => some <$> parseHeartbeat bs true
  | 6 => return some (.abort ((flags bs).getLsbD 0) (cLen bs))
  | 7 => do
      need bs 8
      return some (.shutdown (u32 bs 4) (cLen bs))
  | 8 => return some (.shutdownAck (cLen bs))
  | 9 => return some (.error [])
  | 10 => some <$> parseCookieEcho bs
  | 11 => return some (.cookieAck (cLen bs))
  | 14 => return some (.shutdownComplete ((flags bs).getLsbD 0) (cLen bs))
  | _ => return none

end

/-- `while (chunkPtr < (bufsize - size_common_header))`, on `uint32`. -/
def parseChunks (chunks : List Byte) : ℕ → ℕ → List SCTPChunk → Except ParseFault (List SCTPChunk)
  | 0, _, _ => .error .endlessLoop
  | rounds + 1, chunkPtr, acc =>
      if chunkPtr < chunks.length then
        match parseChunk (chunks.drop chunkPtr) with
        | .error e => .error e
        | .ok chunk => parseChunks chunks rounds ((chunkPtr + cLen (chunks.drop chunkPtr)) % 2 ^ 32)
            (acc ++ chunk.toList)
      else .ok acc

/-- `parse`, stopped after `rounds` chunks. -/
def parse (rounds : ℕ) (buf : List Byte) : Except ParseFault SCTPMessage := do
  need buf 12
  let chunks ← parseChunks (buf.drop 12) rounds 0 []
  return { srcPort := u16 buf 0, destPort := u16 buf 2, tag := u32 buf 4, chunks }

/-! ## Serializer -/

/-- An exception of the runtime (a cast of a missing object, an index past the end of an array, an
IPv6 address taken for an IPv4 one), or a loop without progress. -/
inductive SerializeFault
  | runtimeError
  | endlessLoop
  deriving DecidableEq, Repr

/-- What has been written, with zeros behind it. -/
structure WireBuffer where
  buf : List Byte
  writtenbytes : ℕ

namespace WireBuffer

variable (b : WireBuffer)

/-- The first `n` bytes. -/
def first (n : ℕ) : List Byte := b.buf.take n ++ List.replicate (n - b.buf.length) 0

/-- Write `bs` at `writtenbytes`, and advance that by `n`. -/
def write (bs : List Byte) (n : ℕ) : WireBuffer :=
  { buf := b.first b.writtenbytes ++ bs ++ b.buf.drop (b.writtenbytes + bs.length)
    writtenbytes := b.writtenbytes + n }

end WireBuffer

def flag (set : Bool) (bit : Byte) : Byte := if set then bit else 0

def chunkHeader (type flags : Byte) (length : ℕ) : List Byte :=
  [type, flags] ++ put16 (BitVec.ofNat 16 length)

/-- `(uint32) t.dbl()`. -/
def seconds (t : ℕ) : BitVec 32 := BitVec.ofNat 32 (t / picoseconds)

def get4 : Address → Except SerializeFault (BitVec 32)
  | .v4 address => .ok address
  | .v6 _ => .error .runtimeError

def supportedAddressTypes : List Byte := put16 12 ++ put16 6 ++ put16 5 ++ [0, 0]

def v4Param (address : BitVec 32) : List Byte := put16 5 ++ put16 8 ++ put32 address

def dataFlags (c : WireData) : Byte := flag c.uBit 4 ||| flag c.bBit 2 ||| flag c.eBit 1

def dataFields (c : WireData) : List Byte :=
  put32 c.tsn ++ put16 c.sid ++ put16 c.ssn ++ put32 c.ppid

def sackFields (c : SackChunk) : List Byte :=
  put32 c.cumTsnAck ++ put32 c.a_rwnd ++ put16 (BitVec.ofNat 16 c.gaps.length) ++
    put16 (BitVec.ofNat 16 c.dupTsns.length)

/-- `sack_gap`: offsets from the cumulative TSN. -/
def sackGap (cumtsnack : BitVec 32) (gap : BitVec 32 × BitVec 32) : List Byte :=
  put16 ((gap.1 - cumtsnack).setWidth 16) ++ put16 ((gap.2 - cumtsnack).setWidth 16)

def initFields (c : InitChunk) : List Byte :=
  put32 c.initTag ++ put32 c.a_rwnd ++ put16 c.noOutStreams ++ put16 c.noInStreams ++ put32 c.initTSN

/-- `cookie_parameter`. -/
def cookieParameter (c : StateCookie) : Except SerializeFault (List Byte) :=
  if 32 ≤ c.localTieTag.length ∧ 32 ≤ c.peerTieTag.length then
    .ok (put32 (seconds c.creationTime) ++ put32 c.localTag ++ put32 c.peerTag ++
      c.localTieTag.take 32 ++ c.peerTieTag.take 32)
  else .error .runtimeError

/-- `check_and_cast<SCTPCookie *>(getStateCookie())`. -/
def castCookie : Option StateCookie → Except SerializeFault StateCookie
  | some c => .ok c
  | none => .error .runtimeError

/-- The parameters in an array of unrecognized ones, each with the length read from its third and
fourth byte. The array has `rounds` bytes. -/
def unrecognized : ℕ → List Byte → Except SerializeFault (List (ℕ × List Byte))
  | _, [] => .ok []
  | 0, _ => .error .endlessLoop
  | rounds + 1, params =>
      let pLen := (u8 params 2).toNat * 16 + (u8 params 3).toNat
      if params.length < 4 ∨ params.length < addPadding pLen then .error .runtimeError
      else if pLen = 0 then .error .endlessLoop
      else do
        let rest ← unrecognized rounds (params.drop (addPadding pLen))
        return (pLen, params.take (addPadding pLen)) :: rest

/-- They are sent as `UNRECOGNIZED_PARAMETER`. -/
def unrecognizedBytes (params : List (ℕ × List Byte)) : List Byte :=
  params.flatMap fun (pLen, value) ↦ put16 8 ++ put16 (BitVec.ofNat 16 (pLen + 4)) ++ value

/-- `heartbeat_info`. -/
def heartbeatInfo (c : HeartbeatChunk) : Except SerializeFault (List Byte) := do
  let address ← get4 c.remoteAddr
  return put16 1 ++ put16 12 ++ put32 address ++ put32 (seconds c.timeField)

def initParams (c : InitChunk) : Except SerializeFault (List Byte) := do
  let addresses ← c.addresses.mapM get4
  return supportedAddressTypes ++ addresses.flatMap v4Param

def initAckCookie (c : InitAckChunk) : Except SerializeFault (List Byte) :=
  if c.cookie = [] then do
    let cookie ← castCookie c.stateCookie
    let value ← cookieParameter cookie
    return put16 7 ++ put16 80 ++ value
  else .ok (put16 7 ++ put16 (BitVec.ofNat 16 (c.cookie.length + 4)) ++ c.cookie)

/-- The ERROR chunk after a COOKIE_ECHO chunk. -/
def errorChunk (params : List (ℕ × List Byte)) : List Byte :=
  chunkHeader 9 0 (4 + (params.map fun (pLen, _) ↦ pLen + 4).sum) ++ unrecognizedBytes params

/-- `switch (chunkType)`. Flags that are not set are zeros in the buffer. -/
def serializeChunk (b : WireBuffer) : SCTPChunk → Except SerializeFault WireBuffer
  | .data c =>
      match c.data with
      | none => .error .runtimeError
      | some d =>
          .ok (b.write (chunkHeader 0 (dataFlags c) c.byteLength ++ (dataFields c ++ d))
            (addPadding c.byteLength))
  | .init c => do
      let params ← initParams c
      return b.write (chunkHeader 1 0 (20 + params.length) ++ (initFields c ++ params))
        (20 + params.length)
  | .initAck c => do
      let addresses ← initParams c.toInitChunk
      let unknown ← unrecognized c.unrecognizedParameters.length c.unrecognizedParameters
      let cookie ← initAckCookie c
      let params := addresses ++ unrecognizedBytes unknown ++ cookie
      return b.write (chunkHeader 2 0 (20 + params.length) ++ (initFields c.toInitChunk ++ params))
        (20 + params.length)
  | .sack c =>
      .ok (b.write (chunkHeader 3 0 c.byteLength ++ (sackFields c ++
        (c.gaps.flatMap (sackGap c.cumTsnAck) ++ c.dupTsns.flatMap put32))) c.byteLength)
  | .heartbeat c => do
      let info ← heartbeatInfo c
      return b.write (chunkHeader 4 0 c.byteLength ++ info) c.byteLength
  | .heartbeatAck c => do
      let info ← if c.info = [] then heartbeatInfo c
        else .ok (put16 1 ++ put16 (BitVec.ofNat 16 (c.info.length + 4)) ++ c.info)
      return b.write (chunkHeader 5 0 c.byteLength ++ info) c.byteLength
  | .abort tBit byteLength =>
      .ok (b.write (chunkHeader 6 (flag tBit 1) byteLength) byteLength)
  | .shutdown cumTsnAck byteLength =>
      .ok (b.write (chunkHeader 7 0 byteLength ++ put32 cumTsnAck) byteLength)
  | .shutdownAck byteLength => .ok (b.write (chunkHeader 8 0 byteLength) byteLength)
  | .error parameters =>
      -- `error->length` is read as it lies in the buffer, without `ntohs`, and never written
      let length := u8 b.buf (b.writtenbytes + 3) ++ u8 b.buf (b.writtenbytes + 2)
      let written := b.write [9, 0] 0
      .ok { written with
        writtenbytes := b.writtenbytes + if parameters = [] then addPadding length.toNat else 4 }
  | .cookieEcho c => do
      let cookie ← if c.cookie = [] then castCookie c.stateCookie >>= cookieParameter
        else .ok c.cookie
      let unknown ← unrecognized c.unrecognizedParameters.length c.unrecognizedParameters
      let b := b.write (chunkHeader 10 0 c.byteLength ++ cookie) (addPadding c.byteLength)
      if unknown = [] then return b
      else return b.write (errorChunk unknown) (4 + (unrecognizedBytes unknown).length)
  | .cookieAck byteLength => .ok (b.write (chunkHeader 11 0 byteLength) byteLength)
  | .shutdownComplete tBit byteLength =>
      .ok (b.write (chunkHeader 14 (flag tBit 1) byteLength) byteLength)

/-- `serialize`: the first `writtenbytes` bytes of the buffer. -/
def serialize (msg : SCTPMessage) : Except SerializeFault (List Byte) := do
  let header := put16 msg.srcPort ++ put16 msg.destPort ++ put32 msg.tag ++ List.replicate 4 0
  let b ← msg.chunks.foldlM serializeChunk { buf := header, writtenbytes := 12 }
  return b.first b.writtenbytes

end InetManet.SCTP
