import MarketFeed.Packet.Filter
import MarketFeed.Proofs.Words
import Mathlib.Data.List.Induction
import Mathlib.Logic.Basic

/-!
# Packets and Their Faults

Which packets have a datagram, and what the others are passed over for.

A packet is judged by its length and by two of its octets. The lower half of
the octet behind the link's header says how long the network's header is, and
another octet of that header names the transport. Six things can be wrong with
a packet. They are looked for in a fixed order, so a packet in which several
are wrong is reported for the first of them: a short packet of another
transport belongs to the other transport and is not damaged, because nothing
is asked of what follows the network's header before the transport is known.

The list of faults is stated on the packet as a whole, with positions counted
from its first octet. The layers of the parser count from their own first
octet, and the work is in carrying one into the other.

Whatever packets have come in, each of them was counted once as it came and
once by what became of it, and the handler has had the datagrams in order.

## Main definitions

* `Packet.headerWords`, `Packet.headerLength`, `Packet.protocolNumber`: What a
  packet says about itself.
* `Packet.faults`: What can be wrong with a packet, in order.
* `Packet.datagrams`: The datagrams in packets.
* `FilterStats.CountsOf`: Every packet is counted by what became of it.

## Theorems

* `network_eq`: The network's header by the octets of its input.
* `payload_eq`: A packet is passed over for its first fault.
* `exists_payload_iff`: A packet without a fault, by length and octets.
* `countsOf_pass`: One more packet is counted.
* `heard_passAll`: What the handler has had.
* `packets_stripped_and_counted`: All of it, for packets in any number.
-/

namespace MarketFeed

theorem Bytes.u8At_eq_getD {input : Bytes} {position : Nat} (h : position < input.length) :
    u8At input position = input.getD position 0 := by
  have hsingle : [u8At input position] = (input.drop position).take 1 := singleton_u8At h
  rw [List.drop_eq_getElem_cons h, List.take_succ_cons, List.take_zero, List.cons.injEq] at hsingle
  rw [hsingle.1, List.getD_eq_getElem?_getD, List.getElem?_eq_getElem h, Option.getD_some]

namespace Packet

variable {packet input datagram : Bytes}

/-! ## What a packet says about itself -/

/-- How many words of four octets the network's header is long: the lower half
    of its first octet. -/
def headerWords (packet : Bytes) : UInt8 := packet.getD 14 0 &&& 0x0f

/-- How long the network's header is. -/
def headerLength (packet : Bytes) : Nat := 4 * (headerWords packet).toNat

/-- The number of the transport. -/
def protocolNumber (packet : Bytes) : UInt8 := packet.getD 23 0

/-- What can be wrong with a packet, in the order in which it is looked for, each
    with whether it is. -/
def faults (packet : Bytes) : List (Bool × PacketSkip) :=
  [(packet.length < 14, .truncated .link 14 packet.length),
   (packet.length < 34, .truncated .network 20 (packet.length - 14)),
   (headerLength packet < 20, .badHeaderLength (headerWords packet)),
   (packet.length < 14 + headerLength packet,
     .truncated .network (headerLength packet) (packet.length - 14)),
   (protocolNumber packet ≠ 17, .unsupportedTransport (protocolNumber packet)),
   (packet.length < 14 + headerLength packet + 8,
     .truncated .transport 8 (packet.length - (14 + headerLength packet)))]

/-! ## The first fault -/

theorem link_ok (h : 14 ≤ packet.length) : ∃ header, link packet = .ok header := by
  cases hlink : link packet with
  | ok header => exact ⟨header, rfl⟩
  | error skip =>
      have hshort := (link_eq_error_iff.mp hlink).1
      rw [linkLength] at hshort
      omega

/-- The octets of the network's header that decide what becomes of a packet. -/
theorem network_eq (h : 20 ≤ input.length) :
    ∃ version totalLength timeToLive, network input =
      let words := input.getD 0 0 &&& 0x0f
      let length := words.toNat * 4
      if length < 20 then .error (.badHeaderLength words)
      else if input.length < length then .error (.truncated .network length input.length)
      else .ok { version, length, totalLength, timeToLive, protocol := input.getD 9 0 } := by
  have hwindow : input.window? 0 20 = some (input.take 20) :=
    Bytes.window?_eq_some_iff.mpr ⟨by omega, rfl⟩
  -- The window is the front of the input, so its octets are those of the input.
  have hoctet (position : Nat) (hposition : position < 20) :
      Bytes.u8At (input.take 20) position = input.getD position 0 := by
    rw [Bytes.u8At_eq_getD (by rw [List.length_take_of_le h]; exact hposition),
      List.getD_eq_getElem?_getD, List.getElem?_take_of_lt hposition,
      List.getD_eq_getElem?_getD]
  refine ⟨input.getD 0 0 >>> 4, ByteOrder.big.u16At (input.take 20) 2,
    Bytes.u8At (input.take 20) 8, ?_⟩
  unfold network
  simp only [networkLength, hwindow, hoctet 0 (by decide), hoctet 9 (by decide)]

/-- Behind the first two headers it is only the length that can be wrong. -/
theorem transport_drop (packet : Bytes) (offset : Nat) :
    transport (packet.drop offset) =
      if packet.length < offset + 8 then
        .error (.truncated .transport 8 (packet.length - offset))
      else .ok (packet.drop (offset + 8)) := by
  have hshort : packet.length - offset < 8 ↔ packet.length < offset + 8 := by omega
  simp only [transport, transportLength, List.length_drop, List.drop_drop, hshort]

/-- A packet is passed over for the first thing that is wrong with it, and
    otherwise has a datagram behind its headers. -/
theorem payload_eq (packet : Bytes) :
    payload packet = match (faults packet).find? (·.1) with
      | some fault => .error fault.2
      | none => .ok (packet.drop (14 + headerLength packet + 8)) := by
  -- One case for each fault, in the order in which they are looked for.
  by_cases hlink : packet.length < 14
  · have herror : link packet = .error (.truncated .link 14 packet.length) :=
      link_eq_error_iff.mpr ⟨hlink, rfl⟩
    simp only [payload, herror, faults, hlink, decide_true, List.find?_cons_of_pos]
  · obtain ⟨header, hheader⟩ := link_ok (Nat.not_lt.mp hlink)
    have hrest : (packet.drop 14).length = packet.length - 14 := List.length_drop
    by_cases hnetwork : packet.length < 34
    · have hnone : Bytes.window? (packet.drop 14) 0 20 = none :=
        Bytes.window?_eq_none_iff.mpr (by omega)
      simp [payload, hheader, linkLength, network, hnone, networkLength, faults, hlink, hnetwork,
        hrest]
    · -- Behind the link's header, the octets lie 14 places further to the front.
      have hwords : (packet.drop 14).getD 0 0 &&& 0x0f = headerWords packet := by
        simp only [List.getD_eq_getElem?_getD, List.getElem?_drop, headerWords]
      have hninth : (packet.drop 14).getD 9 0 = protocolNumber packet := by
        simp only [List.getD_eq_getElem?_getD, List.getElem?_drop, protocolNumber]
      have hlength : (headerWords packet).toNat * 4 = headerLength packet := Nat.mul_comm _ _
      have hinput : 20 ≤ (packet.drop 14).length := by omega
      rcases network_eq hinput with
        ⟨version, totalLength, timeToLive, hparsed⟩
      simp only [hwords, hninth, hrest, hlength] at hparsed
      have hroom : packet.length - 14 < headerLength packet
          ↔ packet.length < 14 + headerLength packet := by omega
      simp only [payload, hheader, linkLength, hparsed, hroom]
      by_cases hshort : headerLength packet < 20
      · simp [hshort, faults, hlink, hnetwork]
      · by_cases hoptions : packet.length < 14 + headerLength packet
        · simp [hshort, hoptions, faults, hlink, hnetwork]
        · by_cases hprotocol : protocolNumber packet = 17
          · by_cases htransport : packet.length < 14 + headerLength packet + 8
            · simp [hshort, hoptions, hprotocol, htransport, datagramProtocol, transport_drop,
                faults, hlink, hnetwork]
            · simp [hshort, hoptions, hprotocol, htransport, datagramProtocol, transport_drop,
                faults, hlink, hnetwork]
          · simp [hshort, hoptions, hprotocol, datagramProtocol, faults, hlink, hnetwork]

/-- The packets that have a datagram. -/
theorem exists_payload_iff (packet : Bytes) :
    (∃ datagram, payload packet = .ok datagram) ↔
      34 ≤ packet.length ∧ 20 ≤ headerLength packet ∧ protocolNumber packet = 17 ∧
        14 + headerLength packet + 8 ≤ packet.length := by
  -- The first and the fourth fault are lengths that the others ask for already.
  have hnone : (faults packet).find? (·.1) = none ↔
      34 ≤ packet.length ∧ 20 ≤ headerLength packet ∧ protocolNumber packet = 17 ∧
        14 + headerLength packet + 8 ≤ packet.length := by
    rw [List.find?_eq_none]
    simp only [faults, List.forall_mem_cons, decide_eq_true_eq, Nat.not_lt, ne_eq, not_not]
    constructor
    · rintro ⟨-, hnetwork, hlength, -, hprotocol, htransport, -⟩
      exact ⟨hnetwork, hlength, hprotocol, htransport⟩
    · rintro ⟨hnetwork, hlength, hprotocol, htransport⟩
      exact ⟨by omega, hnetwork, hlength, by omega, hprotocol, htransport, List.forall_mem_nil _⟩
  rw [← hnone, payload_eq]
  cases (faults packet).find? (·.1) with
  | none => simp only [Except.ok.injEq, exists_eq']
  | some fault => simp only [reduceCtorEq, exists_false]

/-- The datagrams in packets, in order. -/
def datagrams (packets : List Bytes) : List Bytes :=
  packets.filterMap fun packet => (payload packet).toOption

/-- The packet is passed over because it belongs to another transport. -/
def isOfOtherTransport (packet : Bytes) : Bool :=
  match payload packet with
  | .error (.unsupportedTransport _) => true
  | _ => false

theorem datagrams_concat (packets : List Bytes) (packet : Bytes) :
    datagrams (packets ++ [packet]) = datagrams packets ++ (payload packet).toOption.toList := by
  rw [datagrams, List.filterMap_append, ← datagrams, List.filterMap_cons]
  cases payload packet with
  | ok datagram => rfl
  | error skip => rfl

end Packet

/-! ## What becomes of packets -/

/-- Of the packets that have come in, these are the counts: each packet once, and
    once more by what became of it. -/
structure FilterStats.CountsOf (stats : FilterStats) (packets : List Bytes) : Prop where
  processed : stats.processed = packets.length
  forwarded : stats.forwarded = (Packet.datagrams packets).length
  skippedTransport : stats.skippedTransport = packets.countP Packet.isOfOtherTransport
  balanced : stats.Balanced

namespace Filter

open Packet

variable {σ : Type} {handle : Bytes → σ → σ} {packets : List Bytes}

/-- One more packet is counted. -/
theorem countsOf_pass {state : FilterStats × σ} (h : state.1.CountsOf packets) (packet : Bytes) :
    (pass handle packet state).1.CountsOf (packets ++ [packet]) := by
  refine ⟨?_, ?_, ?_, pass_counts handle packet state h.balanced⟩
  · rw [List.length_append, List.length_singleton, ← h.processed]
    unfold pass tally
    simp only
    split <;> rfl
  · rw [datagrams_concat, List.length_append, ← h.forwarded]
    unfold pass tally
    cases payload packet with
    | ok datagram => rfl
    | error skip => cases skip <;> rfl
  · rw [List.countP_append, ← h.skippedTransport, List.countP_singleton]
    unfold pass tally isOfOtherTransport
    cases payload packet with
    | ok datagram => rfl
    | error skip => cases skip <;> rfl

theorem passAll_concat (packets : List Bytes) (packet : Bytes) (state : FilterStats × σ) :
    passAll handle (packets ++ [packet]) state
      = pass handle packet (passAll handle packets state) :=
  List.foldl_append

/-- The counts are those of the packets that came in. -/
theorem countsOf_passAll (packets : List Bytes) (first : σ) :
    (passAll handle packets ({}, first)).1.CountsOf packets := by
  induction packets using List.reverseRecOn with
  | nil => exact ⟨rfl, rfl, rfl, rfl⟩
  | append_singleton packets packet ih =>
      rw [passAll_concat]
      exact countsOf_pass ih packet

/-- The handler has had the datagrams in order, and nothing else. -/
theorem heard_passAll (packets : List Bytes) (first : σ) :
    (passAll handle packets ({}, first)).2
      = (datagrams packets).foldl (fun s datagram => handle datagram s) first := by
  induction packets using List.reverseRecOn with
  | nil => rfl
  | append_singleton packets packet ih =>
      rw [passAll_concat, datagrams_concat, List.foldl_append, ← ih, pass]
      cases payload packet with
      | ok datagram => rfl
      | error skip => rfl

/-- A packet is passed over for the first thing that is wrong with it, and has
    its datagram behind its headers if nothing is. Whatever packets have come in
    before the next one, the handler has then had their datagrams in order, the
    next is told to have one exactly if it has, and the counts are those of all
    of them. -/
theorem packets_stripped_and_counted :
    (∀ packet : Bytes, payload packet = match (faults packet).find? (·.1) with
      | some fault => .error fault.2
      | none => .ok (packet.drop (14 + headerLength packet + 8))) ∧
    (∀ packet : Bytes, (∃ datagram, payload packet = .ok datagram) ↔
      34 ≤ packet.length ∧ 20 ≤ headerLength packet ∧ protocolNumber packet = 17 ∧
        14 + headerLength packet + 8 ≤ packet.length) ∧
    ∀ {σ : Type} (handle : Bytes → σ → σ) (earlier : List Bytes) (packet : Bytes) (first : σ),
      let after := process handle packet (passAll handle earlier ({}, first))
      (after.1 = true ↔ ∃ datagram, payload packet = .ok datagram) ∧
        after.2.2 = (datagrams (earlier ++ [packet])).foldl (fun s datagram => handle datagram s)
          first ∧
        after.2.1.CountsOf (earlier ++ [packet]) := by
  refine ⟨payload_eq, exists_payload_iff, ?_⟩
  intro σ handle earlier packet first
  simp only [process]
  refine ⟨?_, ?_, countsOf_pass (countsOf_passAll earlier first) packet⟩
  · cases payload packet with
    | ok datagram => exact ⟨fun _ => ⟨datagram, rfl⟩, fun _ => rfl⟩
    | error skip => simp only [reduceCtorEq, exists_false]
  · rw [← heard_passAll, passAll_concat]

end Filter

end MarketFeed
