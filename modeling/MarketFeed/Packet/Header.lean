import MarketFeed.Bytes

/-!
# Packet Headers

The three headers in front of a datagram, and why a packet is passed over.

A packet opens with the link's header of 14 octets, then the network's, whose
first octet tells its own length in words of four octets, then the
transport's of 8 octets. The datagram is what follows, up to the end of the
packet. Only the network header's protocol number decides whether the
transport is the right one; neither the kind of network nor the declared
lengths are looked at.

The checks are made from the outside in, so a packet is reported for the
first header that it lacks, and a packet of another transport is reported as
such even if nothing follows its network header.

## Main definitions

* `PacketSkip`: Why a packet has no datagram.
* `LinkHeader`, `NetworkHeader`: The headers with their fields.
* `Packet.payload`: The datagram in a packet.

## Theorems

* `link_eq_error_iff`: A link header is missing exactly from a packet shorter
  than it.
-/

namespace MarketFeed

/-- The headers of a packet, from the outside in. -/
inductive PacketLayer
  /-- The header of the link. -/
  | link
  /-- The header of the network. -/
  | network
  /-- The header of the transport. -/
  | transport
  deriving DecidableEq, Repr

/-- Why a packet has no datagram. -/
inductive PacketSkip
  /-- A header runs past the end of the packet. -/
  | truncated (layer : PacketLayer) (needed available : Nat)
  /-- The network header is shorter than its fixed part. -/
  | badHeaderLength (words : UInt8)
  /-- The packet belongs to another transport. -/
  | unsupportedTransport (protocol : UInt8)
  deriving DecidableEq, Repr

/-- The header of the link. -/
structure LinkHeader where
  /-- The six octets of the receiver's address. -/
  destination : Bytes
  /-- The six octets of the sender's address. -/
  source : Bytes
  /-- What kind of network follows. -/
  etherType : UInt16
  deriving DecidableEq, Repr

/-- The header of the network. -/
structure NetworkHeader where
  /-- The version of the protocol. -/
  version : UInt8
  /-- The length of the header in octets. -/
  length : Nat
  /-- The declared length of the packet from this header on. -/
  totalLength : UInt16
  /-- How many more hops the packet may take. -/
  timeToLive : UInt8
  /-- The number of the transport. -/
  protocol : UInt8
  deriving DecidableEq, Repr

namespace Packet

/-- The length of the link's header. -/
def linkLength : Nat := 14

/-- The length of the fixed part of the network's header. -/
def networkLength : Nat := 20

/-- The length of the transport's header. -/
def transportLength : Nat := 8

/-- The number of the transport that carries datagrams. -/
def datagramProtocol : UInt8 := 17

/-- The link's header at the front of a packet. -/
def link (packet : Bytes) : Except PacketSkip LinkHeader :=
  match packet.window? 0 linkLength with
  | none => .error (.truncated .link linkLength packet.length)
  | some raw =>
    .ok { destination := raw.take 6
          source := (raw.drop 6).take 6
          etherType := ByteOrder.big.u16At raw 12 }

/-- The network's header at the front of what follows the link's. -/
def network (input : Bytes) : Except PacketSkip NetworkHeader :=
  match input.window? 0 networkLength with
  | none => .error (.truncated .network networkLength input.length)
  | some raw =>
    let first := raw.u8At 0
    let words := first &&& 0x0f
    let length := words.toNat * 4
    if length < networkLength then .error (.badHeaderLength words)
    else if input.length < length then .error (.truncated .network length input.length)
    else
      .ok { version := first >>> 4
            length
            totalLength := ByteOrder.big.u16At raw 2
            timeToLive := raw.u8At 8
            protocol := raw.u8At 9 }

/-- The datagram in what follows the network's header. -/
def transport (input : Bytes) : Except PacketSkip Bytes :=
  if input.length < transportLength then
    .error (.truncated .transport transportLength input.length)
  else .ok (input.drop transportLength)

/-- The datagram in a packet. -/
def payload (packet : Bytes) : Except PacketSkip Bytes :=
  match link packet with
  | .error skip => .error skip
  | .ok _ =>
    let rest := packet.drop linkLength
    match network rest with
    | .error skip => .error skip
    | .ok header =>
      if header.protocol = datagramProtocol then transport (rest.drop header.length)
      else .error (.unsupportedTransport header.protocol)

/-- The only fault of the first header is that the packet is too short for
    it. -/
theorem link_eq_error_iff {packet : Bytes} {skip : PacketSkip} :
    link packet = .error skip ↔
      packet.length < linkLength ∧ skip = .truncated .link linkLength packet.length := by
  unfold link
  cases h : packet.window? 0 linkLength with
  | none =>
    have hlt := Bytes.window?_eq_none_iff.mp h
    simp only [Except.error.injEq]
    constructor
    · intro hs
      exact ⟨by omega, hs.symm⟩
    · exact fun hs => hs.2.symm
  | some raw =>
    have hle := (Bytes.window?_eq_some_iff.mp h).1
    simp only [reduceCtorEq, false_iff]
    intro hs
    omega

end Packet

end MarketFeed
