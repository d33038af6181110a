import InetManet.Library.OnesComplement
import InetManet.Network.Address
import InetManet.SCTP.Serializer

/-!
# Packets on the wire

The serializers write into memory of the caller, where the bytes that they do not write keep their values.
The host stores the low byte of a number first, and its `long` has 64 bits, so that the pseudo header for
TCP ends in padding, which holds whatever is left in the memory for it. Lengths do not overflow an `int`.
-/

namespace InetManet.Serializers

open ByteOrder OnesComplement

/-- Memory from a pointer on. -/
abbrev Buffer := ℕ → Byte

namespace Buffer

variable (buf : Buffer)

def write (i : ℕ) (bs : List Byte) : Buffer :=
  fun j ↦ if i ≤ j ∧ j < i + bs.length then bs.getD (j - i) 0 else buf j

/-- The pointer moved on. -/
def drop (i : ℕ) : Buffer := fun j ↦ buf (i + j)

/-- The memory after a function has worked on `buf.drop i`. -/
def setDrop (i : ℕ) (rest : Buffer) : Buffer := fun j ↦ if j < i then buf j else rest (j - i)

def take (n : ℕ) : List Byte := (List.range n).map buf

def u16 (i : ℕ) : BitVec 16 := buf i ++ buf (i + 1)

def u32 (i : ℕ) : BitVec 32 := buf i ++ buf (i + 1) ++ buf (i + 2) ++ buf (i + 3)

end Buffer

inductive Fault
  | cannotSerializeProtocol (protocol : ℤ)
  | wrongType
  | negativeLength
  | tooShort
  | sctpSerialize (f : SCTP.SerializeFault)
  | sctpParse (f : SCTP.ParseFault)
  deriving DecidableEq

/-! ## Messages -/

structure UDPPacket where
  sourcePort : ℤ
  destinationPort : ℤ
  payloadLength : ℕ
  deriving DecidableEq

def UDPPacket.byteLength (pkt : UDPPacket) : ℕ := 8 + pkt.payloadLength

structure TCPSegment where
  srcPort : ℤ
  destPort : ℤ
  sequenceNo : BitVec 32
  ackNo : BitVec 32
  urgBit : Bool
  ackBit : Bool
  pshBit : Bool
  rstBit : Bool
  synBit : Bool
  finBit : Bool
  window : ℕ
  urgentPointer : ℕ
  /-- Options and payload. -/
  restLength : ℕ
  deriving DecidableEq

def TCPSegment.byteLength (msg : TCPSegment) : ℕ := 20 + msg.restLength

/-- The length is meant to count the identifier and the sequence number as well. -/
structure PingPayload where
  originatorId : ℤ
  seqNo : ℤ
  data : List Byte
  byteLength : ℕ
  deriving DecidableEq

structure IPHeader where
  version : ℤ
  headerLength : ℤ
  srcAddress : IPAddress
  destAddress : IPAddress
  transportProtocol : ℤ
  timeToLive : ℤ
  identification : ℤ
  moreFragments : Bool
  dontFragment : Bool
  fragmentOffset : ℤ
  diffServCodePoint : ℤ
  deriving DecidableEq

/-- What a datagram encapsulates. An ICMP message has a ping, a datagram or nothing. -/
inductive Packet
  | udp (pkt : UDPPacket)
  | tcp (msg : TCPSegment)
  | sctp (msg : SCTP.SCTPMessage)
  | icmpEcho (type code : ℤ) (pp : PingPayload)
  | icmpError (type code : ℤ) (dgram : IPHeader) (encapPacket : Packet)
  | icmpEmpty (type code : ℤ)

structure IPDatagram where
  header : IPHeader
  encapPacket : Packet

/-! ## UDP -/

namespace UDPSerializer

/-- The header fields other than the checksum. -/
def fields (pkt : UDPPacket) (buf : Buffer) : Buffer :=
  ((buf.write 0 (put16 (BitVec.ofInt 16 pkt.sourcePort))).write 2
    (put16 (BitVec.ofInt 16 pkt.destinationPort))).write 4 (put16 (BitVec.ofNat 16 pkt.byteLength))

/-- The memory, and the length of the packet. -/
def serialize (pkt : UDPPacket) (buf : Buffer) : Buffer × ℕ :=
  let buf := fields pkt buf
  (buf.write 6 (word (checksum (buf.take pkt.byteLength))), pkt.byteLength)

def parse (buf : Buffer) : Except Fault UDPPacket :=
  if (buf.u16 4).toNat < 8 then .error .negativeLength
  else .ok {
    sourcePort := (buf.u16 0).toNat
    destinationPort := (buf.u16 2).toNat
    payloadLength := (buf.u16 4).toNat - 8 }

end UDPSerializer

/-! ## TCP -/

structure PseudoHeader where
  srcaddr : IPAddress
  dstaddr : IPAddress
  ptcl : Byte
  len : BitVec 16
  padding : BitVec 32

/-- As it stands in memory: an address takes the first half of a `long`. -/
def PseudoHeader.memory (pseudo : PseudoHeader) : List Byte :=
  put32 pseudo.srcaddr ++ [0, 0, 0, 0] ++ put32 pseudo.dstaddr ++ [0, 0, 0, 0] ++ [0, pseudo.ptcl] ++
    put16 pseudo.len ++ put32 pseudo.padding

/-- As the checksum of TCP is defined. -/
def PseudoHeader.wire (pseudo : PseudoHeader) : List Byte :=
  put32 pseudo.srcaddr ++ put32 pseudo.dstaddr ++ [0, pseudo.ptcl] ++ put16 pseudo.len

namespace TCPSerializer

def bit (set : Bool) (flag : Byte) : Byte := if set then flag else 0

def flags (msg : TCPSegment) : Byte :=
  bit msg.finBit 0x01 ||| bit msg.synBit 0x02 ||| bit msg.rstBit 0x04 ||| bit msg.pshBit 0x08 |||
    bit msg.ackBit 0x10 ||| bit msg.urgBit 0x20

/-- The header, with a zero for the checksum. -/
def fields (msg : TCPSegment) (buf : Buffer) : Buffer :=
  buf.write 0 (put16 (BitVec.ofInt 16 msg.srcPort) ++ put16 (BitVec.ofInt 16 msg.destPort) ++
    put32 msg.sequenceNo ++ put32 msg.ackNo ++ [0x50, flags msg] ++ put16 (BitVec.ofNat 16 msg.window) ++
    [0, 0] ++ put16 (BitVec.ofNat 16 msg.urgentPointer))

def serialize (msg : TCPSegment) (buf : Buffer) (pseudo : PseudoHeader) : Buffer × ℕ :=
  let buf := fields msg buf
  let wholeheader := pseudo.memory ++ buf.take msg.byteLength
  (buf.write 16 (word (checksum wholeheader)), msg.byteLength)

end TCPSerializer

/-! ## ICMP -/

namespace ICMPSerializer

def echoRequest : ℤ := 128
def echoReply : ℤ := 129
def destinationUnreachable : ℤ := 13
def timeExceeded : ℤ := 11

/-- Type, code, the two fields of the ping and its data. -/
def echo (type : Byte) (pp : PingPayload) (data : List Byte) (buf : Buffer) : Buffer × ℕ :=
  (((buf.write 0 [type, 0]).write 4
      (put16 (BitVec.ofInt 16 pp.originatorId) ++ put16 (BitVec.ofInt 16 pp.seqNo))).write 8 data,
    8 + data.length)

/-- The rest of a request is filled up with the letter a. -/
def requestData (pp : PingPayload) : List Byte :=
  (List.range (pp.byteLength - 4)).map fun i ↦ pp.data.getD i 0x61

/-- Type, code and the datagram, which `dgram` serializes. -/
def error (type code : Byte) (dgram : Buffer → Except Fault (Buffer × ℕ)) (buf : Buffer) :
    Except Fault (Buffer × ℕ) := do
  let buf := buf.write 0 [type, code]
  let (rest, n) ← dgram (buf.drop 8)
  .ok (buf.setDrop 8 rest, 8 + n)

/-- The checksum goes over what is in the memory, the old checksum included. -/
def finish (r : Buffer × ℕ) : Buffer × ℕ := (r.1.write 2 (word (checksum (r.1.take r.2))), r.2)

/-- The data ends with the `bufsize` bytes. In fewer than eight of them the length of the data would wrap
around. -/
def parsePing (buf : Buffer) (bufsize : ℕ) : Except Fault PingPayload :=
  if bufsize < 8 then .error .tooShort
  else .ok {
    originatorId := (buf.u16 4).toNat
    seqNo := (buf.u16 6).toNat
    data := (buf.drop 8).take (bufsize - 8)
    byteLength := bufsize - 4 }

/-- A message of another type stays as it has been made, without content. -/
def parse (buf : Buffer) (bufsize : ℕ) : Except Fault Packet :=
  if buf 0 = 8 then (parsePing buf bufsize).map (.icmpEcho echoRequest 0)
  else if buf 0 = 0 then (parsePing buf bufsize).map (.icmpEcho echoReply 0)
  else .ok (.icmpEmpty 0 0)

end ICMPSerializer

/-! ## IP -/

namespace IPSerializer

def protICMP : ℤ := 1
def protTCP : ℤ := 6
def protUDP : ℤ := 17
def protSCTP : ℤ := 132

/-- The fields of the header other than the length. -/
def fields (h : IPHeader) (buf : Buffer) : Buffer :=
  (buf.write 0 [BitVec.ofInt 4 h.version ++ (5 : BitVec 4), BitVec.ofInt 8 h.diffServCodePoint]).write 4
    (put16 (BitVec.ofInt 16 h.identification) ++ put16 (BitVec.ofInt 16 h.fragmentOffset) ++
      [BitVec.ofInt 8 h.timeToLive, BitVec.ofInt 8 h.transportProtocol] ++ [0, 0] ++
      put32 h.srcAddress ++ put32 h.destAddress)

def pseudoHeader (padding : BitVec 32) (h : IPHeader) (msg : TCPSegment) : PseudoHeader where
  srcaddr := h.srcAddress
  dstaddr := h.destAddress
  ptcl := 6
  len := BitVec.ofNat 16 msg.byteLength
  padding := padding

/-- What the header serializer of the protocol does behind the IP header; `icmp` serializes ICMP
messages. -/
def encapsulated (padding : BitVec 32) (icmp : Buffer → Except Fault (Buffer × ℕ)) (h : IPHeader)
    (encapPacket : Packet) (buf : Buffer) : Except Fault (Buffer × ℕ) :=
  if h.transportProtocol = protICMP then icmp buf
  else if h.transportProtocol = protUDP then
    match encapPacket with
    | .udp pkt => .ok (UDPSerializer.serialize pkt buf)
    | _ => .error .wrongType
  else if h.transportProtocol = protSCTP then
    match encapPacket with
    | .sctp msg =>
      match SCTP.serialize msg with
      | .ok bs => .ok (buf.write 0 bs, bs.length)
      | .error f => .error (.sctpSerialize f)
    | _ => .error .wrongType
  else if h.transportProtocol = protTCP then
    match encapPacket with
    | .tcp msg => .ok (TCPSerializer.serialize msg buf (pseudoHeader padding h msg))
    | _ => .error .wrongType
  else .error (.cannotSerializeProtocol h.transportProtocol)

/-- The header, the packet behind it, and then the length. -/
def write (h : IPHeader) (encapsulated : Buffer → Except Fault (Buffer × ℕ)) (buf : Buffer) :
    Except Fault (Buffer × ℕ) := do
  let buf := fields h buf
  let (rest, n) ← encapsulated (buf.drop 20)
  .ok ((buf.setDrop 20 rest).write 2 (put16 (BitVec.ofNat 16 (20 + n))), 20 + n)

/-- An ICMP message; what it quotes is serialized like a datagram of its own. -/
def icmp (padding : BitVec 32) : Packet → Buffer → Except Fault (Buffer × ℕ)
  | .icmpEcho type _ pp, buf =>
    if type = ICMPSerializer.echoRequest then
      -- The length of the data would wrap around, and the loop run out of the memory.
      if pp.byteLength < 4 then .error .tooShort
      else .ok (ICMPSerializer.finish (ICMPSerializer.echo 8 pp (ICMPSerializer.requestData pp) buf))
    else if type = ICMPSerializer.echoReply then
      .ok (ICMPSerializer.finish (ICMPSerializer.echo 0 pp pp.data buf))
    else if type = ICMPSerializer.destinationUnreachable ∨ type = ICMPSerializer.timeExceeded then
      .error .wrongType
    else .ok (ICMPSerializer.finish (buf, 0))
  | .icmpError type code dgram encapPacket, buf =>
    let inner := write dgram
      (encapsulated padding (fun buf ↦ icmp padding encapPacket buf) dgram encapPacket)
    if type = ICMPSerializer.destinationUnreachable then
      (ICMPSerializer.error 3 (BitVec.ofInt 8 code) inner buf).map ICMPSerializer.finish
    else if type = ICMPSerializer.timeExceeded then
      (ICMPSerializer.error 11 0 inner buf).map ICMPSerializer.finish
    else if type = ICMPSerializer.echoRequest ∨ type = ICMPSerializer.echoReply then .error .wrongType
    else .ok (ICMPSerializer.finish (buf, 0))
  | .icmpEmpty type _, buf =>
    if type = ICMPSerializer.echoRequest ∨ type = ICMPSerializer.echoReply ∨
        type = ICMPSerializer.destinationUnreachable ∨ type = ICMPSerializer.timeExceeded then
      .error .wrongType
    else .ok (ICMPSerializer.finish (buf, 0))
  | _, _ => .error .wrongType

def serialize (padding : BitVec 32) (dgram : IPDatagram) (buf : Buffer) : Except Fault (Buffer × ℕ) :=
  write dgram.header (encapsulated padding (icmp padding dgram.encapPacket) dgram.header dgram.encapPacket)
    buf

/-- The header. The masks for the flags are made with a logical negation, which gives `0`. -/
def parseHeader (buf : Buffer) : IPHeader where
  version := ((buf 0).extractLsb' 4 4).toNat
  headerLength := 20
  srcAddress := buf.u32 12
  destAddress := buf.u32 16
  transportProtocol := (buf 9).toNat
  timeToLive := (buf 8).toNat
  identification := (buf.u16 4).toNat
  moreFragments := buf.u16 6 &&& 0 &&& 0x2000 != 0
  dontFragment := buf.u16 6 &&& 0 &&& 0x4000 != 0
  fragmentOffset := (buf.u16 6 &&& 0x1fff).toNat
  diffServCodePoint := (buf 1).toNat

/-- The packet behind the header; the chunks of an SCTP message are read in `rounds` rounds at most. -/
def parseEncapsulated (rounds : ℕ) (protocol : ℤ) (buf : Buffer) (bufsize : ℕ) : Except Fault Packet :=
  if protocol = protICMP then ICMPSerializer.parse buf bufsize
  else if protocol = protUDP then (UDPSerializer.parse buf).map .udp
  else if protocol = protSCTP then
    match SCTP.parse rounds (buf.take bufsize) with
    | .ok msg => .ok (.sctp msg)
    | .error f => .error (.sctpParse f)
  else .error (.cannotSerializeProtocol protocol)

def parse (rounds : ℕ) (buf : Buffer) (bufsize : ℕ) : Except Fault IPDatagram := do
  let header := parseHeader buf
  let totalLength := (buf.u16 2).toNat
  let headerLength := ((buf 0).extractLsb' 0 4).toNat * 4
  let encapPacket ← parseEncapsulated rounds header.transportProtocol (buf.drop headerLength)
    ((min totalLength bufsize + (2 ^ 32 - headerLength)) % 2 ^ 32)
  .ok { header, encapPacket }

end IPSerializer

end InetManet.Serializers
