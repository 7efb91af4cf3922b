import Workbench.Library.Layout
import Workbench.Network.Packet

/-! The capture of what a node sends: each transmit is written as an IPv4 packet.

The two headers are written one after the other into one buffer of fixed size. Its bytes
are not cleared in between, so the IP header comes to lie over the UDP packet, which
was copied out before. Until it is set itself, the total length of the IP header is
the destination port of the UDP header, and the payload is set before. The packet library's
checksums and sizes are parameters here. -/

set_option autoImplicit false

namespace Workbench.Network

open Workbench.Library

/-! The layouts of the headers. -/

namespace Udp

def source : BitField := ⟨0, 16⟩
def destination : BitField := ⟨16, 16⟩
def length : BitField := ⟨32, 16⟩
def checksum : BitField := ⟨48, 16⟩

end Udp

namespace Ipv4

def version : BitField := ⟨0, 4⟩
def headerLength : BitField := ⟨4, 4⟩
def dscp : BitField := ⟨8, 6⟩
def ecn : BitField := ⟨14, 2⟩
def totalLength : BitField := ⟨16, 16⟩
def identification : BitField := ⟨32, 16⟩
def flags : BitField := ⟨48, 3⟩
def fragmentOffset : BitField := ⟨51, 13⟩
def ttl : BitField := ⟨64, 8⟩
def nextLevelProtocol : BitField := ⟨72, 8⟩
def checksum : BitField := ⟨80, 16⟩
def source : BitField := ⟨96, 32⟩
def destination : BitField := ⟨128, 32⟩

/-- The payload comes after the options, which the header length counts in words. -/
def payloadOffset (packet : List UInt8) : Nat := 20 + (headerLength.get packet - 5) * 4

end Ipv4

/-! The exporter. -/

/-- What the packet library computes of a packet. -/
structure Pnet where
  udpIpv4Checksum : List UInt8 → BitVec 32 → BitVec 32 → Nat
  ipv4Checksum : List UInt8 → Nat
  ipv4PayloadLength : List UInt8 → Nat
  packetSize : List UInt8 → Nat

/-- Without options, the size of a packet is the total length that its header gives, and
the payload takes what the header leaves of it. -/
structure Pnet.MeasuresTotalLength (pnet : Pnet) : Prop where
  packetSize : ∀ packet : List UInt8, 20 ≤ packet.length → Ipv4.headerLength.get packet = 5 →
    20 ≤ Ipv4.totalLength.get packet → pnet.packetSize packet = Ipv4.totalLength.get packet
  payloadLength : ∀ packet : List UInt8, 20 ≤ packet.length → Ipv4.headerLength.get packet = 5 →
    pnet.ipv4PayloadLength packet = Ipv4.totalLength.get packet - 20

/-- `set_payload` of an IPv4 packet: it asserts that the payload is not longer than the lengths in
the header say, and panics as well where the buffer has no room for it. -/
def Pnet.setPayload (pnet : Pnet) (payload packet : List UInt8) : Option (List UInt8) :=
  if payload.length ≤ pnet.ipv4PayloadLength packet
  then overwrite (Ipv4.payloadOffset packet) payload packet else none

structure EnhancedPacketBlock where
  interfaceId : Nat
  timestamp : Nat
  originalLen : Nat
  data : List UInt8
  deriving DecidableEq, Repr

/-! The packet library itself, as far as it is known from what it documents. -/

namespace Pnet

/-- The sum of the words of some bytes, but for one of them. -/
def sumBeWords (skipword : Nat) (data : List UInt8) : Nat :=
  (((List.range ((data.length + 1) / 2)).filter (· ≠ skipword)).map fun k =>
    (data.getD (2 * k) 0).toNat * 256 + (data.getD (2 * k + 1) 0).toNat).sum

/-- The complement of a sum whose carries are added to it again. -/
def finalizeChecksum (sum : Nat) : Nat :=
  65535 - if sum = 0 then 0 else (sum - 1) % 65535 + 1

def standard : Pnet where
  udpIpv4Checksum packet source destination :=
    finalizeChecksum <| sumBeWords 3 packet + source.toNat / 65536 + source.toNat % 65536 +
      destination.toNat / 65536 + destination.toNat % 65536 + 17 + packet.length
  ipv4Checksum packet :=
    finalizeChecksum <| sumBeWords 5 (packet.take (Ipv4.headerLength.get packet * 4))
  ipv4PayloadLength packet := Ipv4.totalLength.get packet - Ipv4.headerLength.get packet * 4
  packetSize packet :=
    Ipv4.payloadOffset packet +
      (Ipv4.totalLength.get packet - Ipv4.headerLength.get packet * 4)

theorem standard_measuresTotalLength : standard.MeasuresTotalLength where
  packetSize packet _ header total := by
    simp only [standard, Ipv4.payloadOffset, header]
    omega
  payloadLength packet _ header := by simp only [standard, header]

end Pnet

/-- An exporter, with the blocks that were given to its writer. -/
structure PcapExporter where
  captureStart : Nat
  totalTrackedPackets : Nat
  tmpWriter : List EnhancedPacketBlock
  deriving DecidableEq, Repr

namespace PcapExporter

/-- A cast to `u16`, and what a sum of that type wraps to. -/
def u16 (value : Nat) : Nat := value % 65536

def udpPacketLength (transmit : OwnedTransmit) : Nat := u16 (8 + u16 transmit.contents.length)

def udpHeader (transmit : OwnedTransmit) : List (BitField × Nat) :=
  [(Udp.source, transmit.source.port), (Udp.destination, transmit.destination.port),
    (Udp.length, udpPacketLength transmit)]

/-- Wraps the data in a UDP packet: the buffer after it, and the packet. -/
def wrapInUdp (pnet : Pnet) (transmit : OwnedTransmit) (source destination : BitVec 32)
    (buffer : List UInt8) : Option (List UInt8 × List UInt8) := do
  let buffer := write (udpHeader transmit) buffer
  let buffer ← overwrite 8 transmit.contents buffer
  let buffer := write [(Udp.checksum, pnet.udpIpv4Checksum buffer source destination)] buffer
  let udpPacket ← slice (udpPacketLength transmit) buffer
  some (buffer, udpPacket)

/-- What is set before the payload: no options, no fragments, and UDP as the protocol. -/
def ipHeader (transmit : OwnedTransmit) (source destination : BitVec 32) :
    List (BitField × Nat) :=
  [(Ipv4.version, 4), (Ipv4.headerLength, 5), (Ipv4.dscp, 0), (Ipv4.identification, 0),
    (Ipv4.flags, 0b010), (Ipv4.fragmentOffset, 0), (Ipv4.ttl, transmit.ttl),
    (Ipv4.nextLevelProtocol, 17), (Ipv4.source, source.toNat),
    (Ipv4.destination, destination.toNat)]

def ecnBits (transmit : OwnedTransmit) : Nat := (transmit.ecn.map EcnCodepoint.bits).getD 0

/-- Wraps the UDP packet in an IP packet. -/
def wrapInIp (pnet : Pnet) (transmit : OwnedTransmit) (source destination : BitVec 32)
    (udpPacket buffer : List UInt8) : Option (List UInt8) := do
  let ipPacketLength := u16 (20 + udpPacketLength transmit)
  let buffer := write (ipHeader transmit source destination) buffer
  let buffer ← pnet.setPayload udpPacket buffer
  let buffer := write [(Ipv4.totalLength, ipPacketLength), (Ipv4.ecn, ecnBits transmit)] buffer
  let buffer := write [(Ipv4.checksum, pnet.ipv4Checksum buffer)] buffer
  slice (pnet.packetSize buffer) buffer

/-- Writes a transmit, or panics: for an address other than IPv4, and where a payload
does not fit the buffer or the header that it is set under. -/
def writePcapngTransmit (pnet : Pnet) (correctTimestamp : Nat → Nat) (this : PcapExporter)
    (transmit : OwnedTransmit) (sent : Nat) : Option PcapExporter :=
  match transmit.source.ip, transmit.destination.ip with
  | .v4 source, .v4 destination => do
    let (buffer, udpPacket) ← wrapInUdp pnet transmit source destination (.replicate 2000 0)
    let ipPacket ← wrapInIp pnet transmit source destination udpPacket buffer
    some { this with
      totalTrackedPackets := this.totalTrackedPackets + 1
      tmpWriter := this.tmpWriter ++ [{
        interfaceId := 0
        timestamp := correctTimestamp (sent - this.captureStart)
        originalLen := ipPacket.length
        data := ipPacket }] }
  | _, _ => none

end PcapExporter

/-! Decoding. -/

/-- What an IPv4 packet with a UDP datagram tells. -/
structure Datagram where
  source : BitVec 32
  destination : BitVec 32
  sourcePort : Nat
  destinationPort : Nat
  ttl : Nat
  ecn : Nat
  contents : List UInt8
  deriving DecidableEq, Repr

/-- Reads a packet by the layouts of the headers: whole, of version 4, with the lengths
of both headers those of the bytes that are there. -/
def Datagram.decode (packet : List UInt8) : Option Datagram :=
  let datagram := packet.drop (Ipv4.headerLength.get packet * 4)
  if Ipv4.version.get packet = 4 ∧ 5 ≤ Ipv4.headerLength.get packet ∧
      Ipv4.totalLength.get packet = packet.length ∧ Ipv4.flags.get packet % 2 = 0 ∧
      Ipv4.fragmentOffset.get packet = 0 ∧ Ipv4.nextLevelProtocol.get packet = 17 ∧
      8 ≤ datagram.length ∧ Udp.length.get datagram = datagram.length
  then some {
    source := .ofNat 32 (Ipv4.source.get packet)
    destination := .ofNat 32 (Ipv4.destination.get packet)
    sourcePort := Udp.source.get datagram
    destinationPort := Udp.destination.get datagram
    ttl := Ipv4.ttl.get packet
    ecn := Ipv4.ecn.get packet
    contents := datagram.drop 8 }
  else none

namespace PcapExporter

section Wrapping

variable {pnet : Pnet} {transmit : OwnedTransmit} {source destination : BitVec 32}

theorem udpLayout (checksum : Nat) :
    BitField.Layout 8 ((udpHeader transmit ++ [(Udp.checksum, checksum)]).map Prod.fst) :=
  (by decide : BitField.Layout 8 [Udp.source, Udp.destination, Udp.length, Udp.checksum])

theorem ipLayout (transmit : OwnedTransmit) (source destination : BitVec 32)
    (totalLength ecn checksum : Nat) :
    BitField.Layout 20 ((ipHeader transmit source destination ++ [(Ipv4.totalLength, totalLength),
      (Ipv4.ecn, ecn), (Ipv4.checksum, checksum)]).map Prod.fst) :=
  (by decide : BitField.Layout 20 [Ipv4.version, Ipv4.headerLength, Ipv4.dscp,
    Ipv4.identification, Ipv4.flags, Ipv4.fragmentOffset, Ipv4.ttl, Ipv4.nextLevelProtocol,
    Ipv4.source, Ipv4.destination, Ipv4.totalLength, Ipv4.ecn, Ipv4.checksum])

theorem udpPacketLength_eq (bounded : transmit.contents.length ≤ 65507) :
    udpPacketLength transmit = 8 + transmit.contents.length := by
  unfold udpPacketLength u16
  omega

/-- Both headers are written as they are wrapped, if there is room in the buffer. -/
theorem wrapInUdp_eq_some (pnet : Pnet) (source destination : BitVec 32) {buffer : List UInt8}
    (bounded : transmit.contents.length ≤ 65507) (room : 8 + transmit.contents.length ≤ buffer.length) :
    ∃ buffer' packet, wrapInUdp pnet transmit source destination buffer = some (buffer', packet) ∧
      buffer'.length = buffer.length ∧ packet = buffer'.take packet.length ∧
      Framed 8 (udpHeader transmit) transmit.contents packet := by
  have size := udpPacketLength_eq bounded
  obtain ⟨copy, copied, length, framed⟩ := framed_of_overwrite (udpHeader transmit) room
  let checksum := pnet.udpIpv4Checksum copy source destination
  let buffer' := write [(Udp.checksum, checksum)] copy
  have whole : buffer'.length = buffer.length := length_write.trans length
  have enough : 8 + transmit.contents.length ≤ buffer'.length := by rwa [whole]
  refine ⟨buffer', buffer'.take (8 + transmit.contents.length), ?_, whole, ?_, ?_⟩
  · simp only [wrapInUdp, copied, Option.bind_eq_bind, Option.bind_some, size]
    rw [slice_eq_some enough, Option.bind_some]
  · rw [List.length_take, Nat.min_eq_left enough]
  · have packet := framed [(Udp.checksum, checksum)] (udpLayout checksum)
    exact ⟨packet.length, packet.payload, fun value member =>
      packet.header value (List.mem_append_left _ member)⟩

section IpHeader

variable {buffer : List UInt8} (transmit : OwnedTransmit) (source destination : BitVec 32)

theorem headerLength_ipHeader (room : 20 ≤ buffer.length) :
    Ipv4.headerLength.get (write (ipHeader transmit source destination) buffer) = 5 := by
  have apart := (ipLayout transmit source destination 0 0 0).1
  rw [List.pairwise_map, List.pairwise_append] at apart
  exact get_write (by simp [ipHeader]) apart.1
    (Nat.le_trans (by decide : Ipv4.headerLength.endsBy 160) (by omega)) (by decide)

theorem payloadOffset_ipHeader (room : 20 ≤ buffer.length) :
    Ipv4.payloadOffset (write (ipHeader transmit source destination) buffer) = 20 := by
  rw [Ipv4.payloadOffset, headerLength_ipHeader transmit source destination room]

/-- What is set before the payload leaves the total length as it was. -/
theorem totalLength_ipHeader :
    Ipv4.totalLength.get (write (ipHeader transmit source destination) buffer) =
      Ipv4.totalLength.get buffer := by
  have apart := (ipLayout transmit source destination 0 0 0).1
  rw [List.pairwise_map, List.pairwise_append] at apart
  apply get_write_of_apart
  intro value member
  exact (apart.2.2 value member (Ipv4.totalLength, 0) List.mem_cons_self).symm

/-- The payload is set under the total length that the buffer had before. -/
theorem setPayload_ipHeader {pnet : Pnet} (sizes : pnet.MeasuresTotalLength) (payload : List UInt8)
    (room : 20 ≤ buffer.length) :
    pnet.setPayload payload (write (ipHeader transmit source destination) buffer) =
      if payload.length + 20 ≤ max 20 (Ipv4.totalLength.get buffer)
      then overwrite 20 payload (write (ipHeader transmit source destination) buffer)
      else none := by
  have measured := sizes.payloadLength (write (ipHeader transmit source destination) buffer)
    (by rwa [length_write]) (headerLength_ipHeader transmit source destination room)
  unfold Pnet.setPayload
  rw [measured, totalLength_ipHeader, payloadOffset_ipHeader transmit source destination room]
  refine if_congr ?_ rfl rfl
  omega

end IpHeader

theorem wrapInIp_eq_some (source destination : BitVec 32) {udpPacket buffer : List UInt8}
    (sizes : pnet.MeasuresTotalLength)
    (bounded : transmit.contents.length ≤ 65507)
    (length : udpPacket.length = 8 + transmit.contents.length)
    (room : 20 + udpPacket.length ≤ buffer.length)
    (stale : 20 + udpPacket.length ≤ Ipv4.totalLength.get buffer) :
    ∃ packet, wrapInIp pnet transmit source destination udpPacket buffer = some packet ∧
      Framed 20 (ipHeader transmit source destination ++ [(Ipv4.totalLength, packet.length),
        (Ipv4.ecn, ecnBits transmit)]) udpPacket packet := by
  have total : u16 (20 + udpPacketLength transmit) = 20 + udpPacket.length := by
    rw [udpPacketLength_eq bounded, u16]
    omega
  have payload := setPayload_ipHeader transmit source destination sizes udpPacket
    (show 20 ≤ buffer.length by omega)
  rw [if_pos (by omega)] at payload
  obtain ⟨copy, copied, same, framed⟩ :=
    framed_of_overwrite (ipHeader transmit source destination) room
  let lengths := [(Ipv4.totalLength, 20 + udpPacket.length), (Ipv4.ecn, ecnBits transmit)]
  let checksum := pnet.ipv4Checksum (write lengths copy)
  let buffer' := write [(Ipv4.checksum, checksum)] (write lengths copy)
  have whole : buffer'.length = buffer.length := length_write.trans (length_write.trans same)
  have packet : Framed 20 (ipHeader transmit source destination ++ lengths ++
      [(Ipv4.checksum, checksum)]) udpPacket (buffer'.take (20 + udpPacket.length)) := by
    have written := framed (lengths ++ [(Ipv4.checksum, checksum)])
      (ipLayout transmit source destination _ _ _)
    rwa [← List.append_assoc, show write (lengths ++ [_]) copy = buffer' from
      List.foldl_append] at written
  -- The size is read from the buffer, whose fields are those of its first bytes.
  have size : pnet.packetSize buffer' = 20 + udpPacket.length := by
    have field {f : BitField} {value : Nat} (ends : f.endsBy 160) (fits : value < 2 ^ f.width)
        (member : (f, value) ∈ ipHeader transmit source destination ++ lengths) :
        f.get buffer' = value := by
      rw [← BitField.get_take (Nat.le_trans ends (by omega : 160 ≤ 8 * (20 + udpPacket.length)))]
      exact packet.header (f, value) (List.mem_append_left _ member) fits
    have header : Ipv4.headerLength.get buffer' = 5 :=
      field (by decide) (by decide) (by simp [ipHeader])
    have length : Ipv4.totalLength.get buffer' = 20 + udpPacket.length :=
      field (by decide) (by simp only [Ipv4.totalLength]; omega) (by simp [lengths])
    rw [sizes.packetSize buffer' (by omega) header (by omega), length]
  refine ⟨buffer'.take (20 + udpPacket.length), ?_, packet.length, packet.payload, ?_⟩
  · have enough : 20 + udpPacket.length ≤ buffer'.length := by rwa [whole]
    simp only [wrapInIp, payload, copied, Option.bind_eq_bind, Option.bind_some, total]
    exact (congrArg (slice · buffer') size).trans (slice_eq_some enough)
  · rw [packet.length]
    exact fun value member => packet.header value (List.mem_append_left _ member)

theorem wrapInUdp_eq_none {buffer : List UInt8}
    (large : buffer.length < 8 + transmit.contents.length) :
    wrapInUdp pnet transmit source destination buffer = none := by
  simp only [wrapInUdp]
  rw [overwrite_eq_none (by rwa [length_write])]
  rfl

theorem wrapInIp_eq_none {udpPacket buffer : List UInt8} (room : 20 ≤ buffer.length)
    (large : buffer.length < 20 + udpPacket.length) :
    wrapInIp pnet transmit source destination udpPacket buffer = none := by
  simp only [wrapInIp, Pnet.setPayload]
  rw [payloadOffset_ipHeader transmit source destination room,
    overwrite_eq_none (by rwa [length_write]), ite_self]
  rfl

theorem wrapInIp_eq_none_of_stale (sizes : pnet.MeasuresTotalLength) {udpPacket buffer : List UInt8}
    (room : 20 ≤ buffer.length) (some : udpPacket ≠ [])
    (stale : Ipv4.totalLength.get buffer < 20 + udpPacket.length) :
    wrapInIp pnet transmit source destination udpPacket buffer = none := by
  have positive := List.length_pos_iff.mpr some
  simp only [wrapInIp]
  rw [setPayload_ipHeader transmit source destination sizes udpPacket room, if_neg (by omega)]
  rfl

end Wrapping

section Decoding

variable {transmit : OwnedTransmit} {source destination : BitVec 32} {udpPacket packet : List UInt8}

/-- What a transmit between IPv4 addresses is for its receiver. -/
def datagram (transmit : OwnedTransmit) (source destination : BitVec 32) : Datagram where
  source
  destination
  sourcePort := transmit.source.port
  destinationPort := transmit.destination.port
  ttl := transmit.ttl
  ecn := ecnBits transmit
  contents := transmit.contents

theorem ecnBits_lt (transmit : OwnedTransmit) : ecnBits transmit < 4 := by
  unfold ecnBits
  rcases transmit.ecn with _ | codepoint
  · decide
  · cases codepoint <;> decide

/-- The ranges of the types of a transmit's fields. -/
structure Representable (transmit : OwnedTransmit) : Prop where
  sourcePort : transmit.source.port < 65536
  destinationPort : transmit.destination.port < 65536
  ttl : transmit.ttl < 256

theorem decode_of_framed (representable : Representable transmit)
    (bounded : transmit.contents.length ≤ 65507)
    (udp : Framed 8 (udpHeader transmit) transmit.contents udpPacket)
    (ip : Framed 20 (ipHeader transmit source destination ++
      [(Ipv4.totalLength, packet.length), (Ipv4.ecn, ecnBits transmit)]) udpPacket packet) :
    Datagram.decode packet = some (datagram transmit source destination) := by
  have total : packet.length = 28 + transmit.contents.length := by
    rw [ip.length, udp.length]
    omega
  -- Every field that is written and fits its width is read back.
  have ipField {f : BitField} {value : Nat} (fits : value < 2 ^ f.width)
      (member : (f, value) ∈ ipHeader transmit source destination ++
        [(Ipv4.totalLength, packet.length), (Ipv4.ecn, ecnBits transmit)]) :
      f.get packet = value := ip.header (f, value) member fits
  have udpField {f : BitField} {value : Nat} (fits : value < 2 ^ f.width)
      (member : (f, value) ∈ udpHeader transmit) : f.get udpPacket = value :=
    udp.header (f, value) member fits
  have headerLength : Ipv4.headerLength.get packet = 5 := ipField (by decide) (by simp [ipHeader])
  have version : Ipv4.version.get packet = 4 := ipField (by decide) (by simp [ipHeader])
  have totalLength : Ipv4.totalLength.get packet = packet.length :=
    ipField (by simp only [Ipv4.totalLength]; omega) (by simp)
  have flags : Ipv4.flags.get packet = 0b010 := ipField (by decide) (by simp [ipHeader])
  have offset : Ipv4.fragmentOffset.get packet = 0 := ipField (by decide) (by simp [ipHeader])
  have protocol : Ipv4.nextLevelProtocol.get packet = 17 :=
    ipField (by decide) (by simp [ipHeader])
  -- The length is written modulo `2 ^ 16`, which a datagram within bounds does not reach.
  have length : Udp.length.get udpPacket = udpPacket.length := by
    rw [udp.length, ← udpPacketLength_eq bounded]
    exact udpField (Nat.mod_lt _ (by decide)) (by simp [udpHeader])
  unfold Datagram.decode
  simp only [headerLength, ip.payload, udp.payload]
  rw [if_pos ⟨version, Nat.le_refl 5, totalLength, by rw [flags], offset, protocol,
    by rw [udp.length]; omega, length⟩]
  congr 1
  unfold datagram
  congr 1
  · rw [ipField source.isLt (by simp [ipHeader]), BitVec.ofNat_toNat, BitVec.setWidth_eq]
  · rw [ipField destination.isLt (by simp [ipHeader]), BitVec.ofNat_toNat, BitVec.setWidth_eq]
  · exact udpField representable.sourcePort (by simp [udpHeader])
  · exact udpField representable.destinationPort (by simp [udpHeader])
  · exact ipField representable.ttl (by simp [ipHeader])
  · exact ipField (ecnBits_lt transmit) (by simp)

end Decoding

section Writing

variable {pnet : Pnet} {transmit : OwnedTransmit} {source destination : BitVec 32}

/-- After the UDP packet is written, the place of the total length has its destination port. -/
theorem totalLength_of_udp (representable : Representable transmit) {udpPacket buffer : List UInt8}
    (copied : udpPacket = buffer.take udpPacket.length)
    (udp : Framed 8 (udpHeader transmit) transmit.contents udpPacket) :
    Ipv4.totalLength.get buffer = transmit.destination.port := by
  have port : Udp.destination.get udpPacket = transmit.destination.port :=
    udp.header (Udp.destination, transmit.destination.port) (by simp [udpHeader])
      representable.destinationPort
  have ends : Udp.destination.endsBy (8 * udpPacket.length) :=
    Nat.le_trans (by decide : Udp.destination.endsBy 64) (by rw [udp.length]; omega)
  rwa [copied, BitField.get_take ends] at port

/-- The contents have room in the buffer behind both headers, and the destination port is not
less than the length of all three. -/
def Fits (transmit : OwnedTransmit) : Prop :=
  transmit.contents.length ≤ 1972 ∧ 28 + transmit.contents.length ≤ transmit.destination.port

instance (transmit : OwnedTransmit) : Decidable (Fits transmit) := inferInstanceAs (Decidable (_ ∧ _))

/-- What fits is written as a packet that can be read as the transmit. -/
theorem writePcapngTransmit_of_fits (sizes : pnet.MeasuresTotalLength)
    (sender : transmit.source.ip = .v4 source) (receiver : transmit.destination.ip = .v4 destination)
    (representable : Representable transmit) (fits : Fits transmit)
    (correctTimestamp : Nat → Nat) (this : PcapExporter) (sent : Nat) :
    ∃ block, writePcapngTransmit pnet correctTimestamp this transmit sent = some { this with
        totalTrackedPackets := this.totalTrackedPackets + 1
        tmpWriter := this.tmpWriter ++ [block] } ∧
      Datagram.decode block.data = some (datagram transmit source destination) := by
  obtain ⟨room, port⟩ := fits
  have bounded : transmit.contents.length ≤ 65507 := by omega
  have size : (List.replicate 2000 (0 : UInt8)).length = 2000 := List.length_replicate
  have fits : 8 + transmit.contents.length ≤ (List.replicate 2000 (0 : UInt8)).length := by
    rw [size]
    omega
  obtain ⟨buffer, udpPacket, first, length, copied, udp⟩ :=
    wrapInUdp_eq_some pnet source destination bounded fits
  have enough : 20 + udpPacket.length ≤ buffer.length := by
    rw [length, size, udp.length]
    omega
  have stale : 20 + udpPacket.length ≤ Ipv4.totalLength.get buffer := by
    rw [totalLength_of_udp representable copied udp, udp.length]
    omega
  obtain ⟨packet, second, ip⟩ :=
    wrapInIp_eq_some source destination sizes bounded udp.length enough stale
  let block : EnhancedPacketBlock :=
    ⟨0, correctTimestamp (sent - this.captureStart), packet.length, packet⟩
  refine ⟨block, ?_, decode_of_framed representable bounded udp ip⟩
  simp only [writePcapngTransmit, sender, receiver, first, second, Option.bind_eq_bind,
    Option.bind_some, block]

theorem writePcapngTransmit_eq_none (sizes : pnet.MeasuresTotalLength)
    (representable : Representable transmit) (misfits : ¬ Fits transmit)
    (bounded : transmit.contents.length ≤ 65507) (correctTimestamp : Nat → Nat)
    (this : PcapExporter) (sent : Nat) :
    writePcapngTransmit pnet correctTimestamp this transmit sent = none := by
  have size : (List.replicate 2000 (0 : UInt8)).length = 2000 := List.length_replicate
  unfold writePcapngTransmit
  split
  · next source destination _ _ =>
    by_cases room : 8 + transmit.contents.length ≤ (List.replicate 2000 (0 : UInt8)).length
    · obtain ⟨buffer, udpPacket, first, length, copied, udp⟩ :=
        wrapInUdp_eq_some pnet source destination bounded room
      have whole : 20 ≤ buffer.length := by omega
      have panics : wrapInIp pnet transmit source destination udpPacket buffer = none := by
        by_cases large : 1972 < transmit.contents.length
        · -- The UDP packet still fits, and no longer does once it is moved behind an IP header.
          exact wrapInIp_eq_none whole (by rw [length, size, udp.length]; omega)
        · -- The port that lies in the place of the total length is too small for it.
          have small : ¬ 28 + transmit.contents.length ≤ transmit.destination.port :=
            fun enough => misfits ⟨Nat.le_of_not_lt large, enough⟩
          apply wrapInIp_eq_none_of_stale sizes whole
          · exact List.ne_nil_of_length_pos (by rw [udp.length]; omega)
          · rw [totalLength_of_udp representable copied udp, udp.length]
            omega
      simp only [first, Option.bind_eq_bind, Option.bind_some]
      rw [panics]
      rfl
    · rw [wrapInUdp_eq_none (Nat.lt_of_not_le room)]
      rfl
  · rfl

/-- A transmit between IPv4 addresses is captured as a packet that decodes to it iff
the buffer has room for its contents after both headers, and its destination port, which lies
where the total length is to be set, is not less than the length of all three. -/
theorem writePcapngTransmit_decodes_iff (sizes : pnet.MeasuresTotalLength)
    (sender : transmit.source.ip = .v4 source) (receiver : transmit.destination.ip = .v4 destination)
    (representable : Representable transmit) (bounded : transmit.contents.length ≤ 65507)
    (correctTimestamp : Nat → Nat) (this : PcapExporter) (sent : Nat) :
    (∃ this' block, writePcapngTransmit pnet correctTimestamp this transmit sent = some this' ∧
        this'.tmpWriter = this.tmpWriter ++ [block] ∧
        Datagram.decode block.data = some (datagram transmit source destination)) ↔
      transmit.contents.length ≤ 1972 ∧
        28 + transmit.contents.length ≤ transmit.destination.port := by
  constructor
  · rintro ⟨this', block, written, -⟩
    by_contra misfits
    rw [writePcapngTransmit_eq_none sizes representable misfits bounded] at written
    cases written
  · intro fits
    obtain ⟨block, written, decoded⟩ := writePcapngTransmit_of_fits sizes sender receiver
      representable fits correctTimestamp this sent
    exact ⟨_, block, written, rfl, decoded⟩

end Writing

/-- A transmit of so many zeros. -/
def zeros (count : Nat) (port : Port) : OwnedTransmit :=
  ⟨⟨.v4 0x0a000001, 8080⟩, ⟨.v4 0x0a000002, port⟩, some .ce, .replicate count 0, none, defaultTtl⟩

theorem zeros_length (count : Nat) (port : Port) : (zeros count port).contents.length = count :=
  List.length_replicate

theorem writePcapngTransmit_decodes_iff_zeros :
    (∃ this' block, writePcapngTransmit .standard id ⟨0, 0, []⟩ (zeros 1200 4433) 5 = some this' ∧
        this'.tmpWriter = [] ++ [block] ∧
        Datagram.decode block.data =
          some (datagram (zeros 1200 4433) 0x0a000001 0x0a000002)) ↔
      (zeros 1200 4433).contents.length ≤ 1972 ∧ 28 + (zeros 1200 4433).contents.length ≤ 4433 :=
  writePcapngTransmit_decodes_iff Pnet.standard_measuresTotalLength rfl rfl
    ⟨by decide, by decide, by decide⟩ (by rw [zeros_length]; decide) id ⟨0, 0, []⟩ 5

/-- One byte more than there is room for, and a datagram of common size to a well-known port. -/
theorem writePcapngTransmit_panics : (zeros 1973 4433).contents.length = 1973 ∧
    writePcapngTransmit .standard id ⟨0, 0, []⟩ (zeros 1973 4433) 5 = none ∧
    (zeros 1200 443).contents.length = 1200 ∧
    writePcapngTransmit .standard id ⟨0, 0, []⟩ (zeros 1200 443) 5 = none := by
  have panics (count : Nat) (port : Port) (bounded : count ≤ 65507) (small : port < 65536)
      (misfits : ¬ (count ≤ 1972 ∧ 28 + count ≤ port)) :
      writePcapngTransmit .standard id ⟨0, 0, []⟩ (zeros count port) 5 = none := by
    apply writePcapngTransmit_eq_none Pnet.standard_measuresTotalLength
      ⟨(by decide : 8080 < 65536), small, (by decide : defaultTtl < 256)⟩
    · rwa [Fits, zeros_length]
    · rwa [zeros_length]
  exact ⟨zeros_length 1973 4433, panics 1973 4433 (by decide) (by decide) (by decide),
    zeros_length 1200 443, panics 1200 443 (by decide) (by decide) (by decide)⟩

end PcapExporter

end Workbench.Network
