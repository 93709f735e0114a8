import MarketFeed.Log.Stream
import MarketFeed.Proofs.Message.Layouts
import MarketFeed.Proofs.Text.Utf8

/-!
# Frames Survive their Octets

Reading the octets that a frame was written as gives the frame back.

Reading takes each part off the front of the input, so what has to be shown
of a part is that it is taken off whatever follows. That property is passed
on by one step of reading after another, and the octets of a structure are
those of its parts in the same order. Each structure is then the chain of its
fields.

A text or a list is written behind its length, and a length has a word of
eight octets. What has more elements than that word can count would not come
back, but it would not fit into a frame either.

## Main definitions

* `Parse.Takes`: Reading takes these octets off the front and makes this of
  them.

## Theorems

* `Parse.Takes.bind`: One step of reading after another.
* `takes_encode` of each structure: What was written is read.
* `LogFrame.takes_encode`: So is a frame, unless it is too long for any log.
-/

namespace MarketFeed

/-- Reading takes these octets off the front of any input and makes this value
    of them. -/
def Parse.Takes {α : Type} (parse : Parse α) (octets : Bytes) (a : α) : Prop :=
  ∀ rest, parse (octets ++ rest) = .ok (a, rest)

namespace Parse.Takes

variable {α β : Type} {first : Parse α} {next : α → Parse β} {front back : Bytes} {a : α} {b : β}

theorem pure (a : α) : Takes (Pure.pure a) [] a := fun _ => rfl

/-- Two steps in a row take what the first takes and then what the second
    takes. -/
theorem bind (hfirst : first.Takes front a) (hnext : (next a).Takes back b) :
    (first >>= next).Takes (front ++ back) b := by
  intro rest
  have hback := hnext rest
  rw [List.append_assoc]
  show (first (front ++ (back ++ rest))).bind (fun p => next p.1 p.2) = _
  rw [hfirst, Except.bind, hback]

/-- The last step of a chain, which adds nothing to what was read. -/
theorem last (hfirst : first.Takes front a) (hnext : next a = Pure.pure b) :
    (first >>= next).Takes front b := by
  have hpure : (next a).Takes [] b := by
    rw [hnext]
    exact pure b
  have hchain := hfirst.bind hpure
  rw [List.append_nil] at hchain
  exact hchain

end Parse.Takes

namespace Log

open Parse

/-! ## Numbers, texts and lists -/

theorem takes_octets (octets : Bytes) (fault : PayloadFault) :
    Takes (parseOctets octets.length fault) octets octets := by
  intro rest
  unfold parseOctets
  rw [List.take_left' rfl, List.drop_left' rfl]
  exact if_neg (Nat.lt_irrefl _)

/-- A number is taken if its width has room for it. -/
theorem takes_number {width n : Nat} (h : n < Bytes.capacity width) :
    Takes (parseNumber width) (Bytes.ofLE width n) n := by
  have hoctets := takes_octets (Bytes.ofLE width n) .cutNumber
  rw [Bytes.length_ofLE] at hoctets
  refine hoctets.last ?_
  rw [Bytes.leNat_ofLE_of_lt h]

theorem takes_u8 (word : UInt8) : Takes parseU8 [word] word := by
  have hnumber := takes_number (show word.toNat < Bytes.capacity 1 from word.toNat_lt)
  have hword : Bytes.ofLE 1 word.toNat = [word] := by
    rw [Bytes.ofLE, Bytes.ofLE, Nat.mod_eq_of_lt word.toNat_lt, UInt8.ofNat_toNat]
  rw [hword] at hnumber
  exact hnumber.last (by rw [UInt8.ofNat_toNat])

theorem takes_u16 (word : UInt16) : Takes parseU16 (Bytes.ofU16 word) word :=
  (takes_number (show word.toNat < Bytes.capacity 2 from word.toNat_lt)).last
    (by rw [UInt16.ofNat_toNat])

theorem takes_u32 (word : UInt32) : Takes parseU32 (Bytes.ofU32 word) word :=
  (takes_number (show word.toNat < Bytes.capacity 4 from word.toNat_lt)).last
    (by rw [UInt32.ofNat_toNat])

theorem takes_u64 (word : UInt64) : Takes parseU64 (Bytes.ofU64 word) word :=
  (takes_number (show word.toNat < Bytes.capacity 8 from word.toNat_lt)).last
    (by rw [UInt64.ofNat_toNat])

theorem takes_i32 (word : Int32) : Takes parseI32 (Bytes.ofI32 word) word :=
  (takes_u32 word.toUInt32).last (by rw [Int32.toInt32_toUInt32])

theorem takes_i64 (word : Int64) : Takes parseI64 (Bytes.ofI64 word) word :=
  (takes_u64 word.toUInt64).last (by rw [Int64.toInt64_toUInt64])

theorem takes_choice {n : Nat} (h : n < Bytes.capacity 4) :
    Takes (parseNumber 4) (choice n) n :=
  takes_number h

/-- A text is taken if its length can be counted. -/
theorem takes_text {s : String} (h : (Utf8.encode s.toList).length < Bytes.capacity 8) :
    Takes parseText (text s) s := by
  refine (takes_number h).bind ?_
  intro rest
  show (parseOctets _ _ _).bind _ = _
  rw [takes_octets]
  simp only [Except.bind, Utf8.decode_encode, String.ofList_toList]

variable {α : Type} {parse : Parse α} {write : α → Bytes}

/-- Values are taken one after the other, behind those that were found. -/
theorem takes_many {xs : List α} (h : ∀ x ∈ xs, parse.Takes (write x) x) (found : Array α) :
    Takes (parseMany parse xs.length found) (xs.flatMap write) (found ++ xs.toArray) := by
  induction xs generalizing found with
  | nil =>
      rw [Array.append_empty]
      exact .pure found
  | cons x xs ih =>
      have hrest := ih (fun y hy => h y (List.mem_cons_of_mem x hy)) (found.push x)
      rw [List.push_append_toArray] at hrest
      exact (h x List.mem_cons_self).bind hrest

/-- A list is taken if its number of entries can be counted. -/
theorem takes_list {xs : List α} (h : ∀ x ∈ xs, parse.Takes (write x) x)
    (hcount : xs.length < Bytes.capacity 8) : Takes (parseList parse) (list write xs) xs :=
  (takes_number hcount).bind ((takes_many h #[]).last (by simp only [Array.empty_append]))

end Log

open Log Parse.Takes

/-! ## Structures -/

/-- An action comes back, also one that is not known. -/
theorem Action.takes_encode (a : Action) : Action.parse.Takes a.encode a := by
  cases a with
  | new => exact (takes_choice (by decide)).last rfl
  | update => exact (takes_choice (by decide)).last rfl
  | delete => exact (takes_choice (by decide)).last rfl
  | unknown code => exact (takes_choice (by decide)).bind ((takes_u8 code).last rfl)

theorem Side.takes_encode (s : Side) : Side.parse.Takes s.encode s := by
  cases s with
  | bid => exact (takes_choice (by decide)).last rfl
  | offer => exact (takes_choice (by decide)).last rfl
  | emptyBook => exact (takes_choice (by decide)).last rfl
  | unknown code => exact (takes_choice (by decide)).bind ((takes_u8 code).last rfl)

theorem OrderUpdate.takes_encode (u : OrderUpdate) : OrderUpdate.parse.Takes u.encode u := by
  simp only [encode, List.append_assoc]
  refine (takes_i64 u.orderId).bind ?_
  refine (takes_i64 u.orderPrice).bind ?_
  refine (takes_i64 u.orderVolume).bind ?_
  refine (takes_u64 u.flags).bind ?_
  refine (takes_u64 u.flags2).bind ?_
  refine (takes_i32 u.securityId).bind ?_
  refine (takes_u32 u.rptSeq).bind ?_
  refine u.action.takes_encode.bind ?_
  exact u.side.takes_encode.last rfl

theorem OrderExecution.takes_encode (x : OrderExecution) :
    OrderExecution.parse.Takes x.encode x := by
  simp only [encode, List.append_assoc]
  refine (takes_i64 x.orderId).bind ?_
  refine (takes_i64 x.orderPrice).bind ?_
  refine (takes_i64 x.remainingQuantity).bind ?_
  refine (takes_i64 x.tradePrice).bind ?_
  refine (takes_i64 x.tradeVolume).bind ?_
  refine (takes_i64 x.traderId).bind ?_
  refine (takes_u64 x.flags).bind ?_
  refine (takes_u64 x.flags2).bind ?_
  refine (takes_i32 x.securityId).bind ?_
  refine (takes_u32 x.rptSeq).bind ?_
  refine x.action.takes_encode.bind ?_
  exact x.side.takes_encode.last rfl

theorem BookEntry.takes_encode (e : BookEntry) : BookEntry.parse.Takes e.encode e := by
  simp only [encode, List.append_assoc]
  refine (takes_i64 e.orderId).bind ?_
  refine (takes_u64 e.transactTime).bind ?_
  refine (takes_i64 e.orderPrice).bind ?_
  refine (takes_i64 e.orderVolume).bind ?_
  refine (takes_i64 e.tradeId).bind ?_
  refine (takes_u64 e.flags).bind ?_
  refine (takes_u64 e.flags2).bind ?_
  exact e.side.takes_encode.last rfl

/-- A structure of numbers alone is taken as a whole, as it stands on the
    wire. -/
theorem Layout.Coded.takes_toBlock {α : Type} {layout : Layout} {ofBlock : Bytes → α}
    {toBlock : α → Bytes} {Readable : α → Prop} (c : layout.Coded ofBlock toBlock Readable) {x : α}
    (hreadable : Readable x) : (layout.parse ofBlock).Takes (toBlock x) x := by
  have hoctets := takes_octets (toBlock x) .cutNumber
  rw [c.length] at hoctets
  refine hoctets.last ?_
  have hback := c.ofBlock_append x hreadable []
  rw [List.append_nil] at hback
  rw [hback]

theorem SnapshotHeader.takes_toBlock (h : SnapshotHeader) :
    SnapshotHeader.parse.Takes h.toBlock h :=
  coded.takes_toBlock trivial

theorem Envelope.takes_toBlock (e : Envelope) : Envelope.parse.Takes e.toBlock e :=
  coded.takes_toBlock trivial

/-! ## Messages -/

theorem BookEntry.length_encode (e : BookEntry) : 60 ≤ e.encode.length := by
  have hside : 4 ≤ e.side.encode.length := by
    cases e.side <;> simp [Side.encode, Log.choice]
  simp only [encode, Bytes.ofI64, List.length_append, Bytes.length_ofU64]
  omega

/-- Entries are not free, so few octets hold few of them. -/
theorem BookEntry.length_le_length_list (xs : List BookEntry) :
    xs.length ≤ (Log.list encode xs).length := by
  have hentries : xs.length ≤ (xs.flatMap encode).length := by
    induction xs with
    | nil => exact Nat.le_refl 0
    | cons x xs ih =>
        have hx := x.length_encode
        rw [List.flatMap_cons, List.length_append, List.length_cons]
        omega
  rw [Log.list, List.length_append]
  omega

/-- An event comes back if its octets can be counted. -/
theorem LogEvent.takes_encode {e : LogEvent} (h : e.encode.length < Bytes.capacity 8) :
    LogEvent.parse.Takes e.encode e := by
  cases e with
  | update u => exact (takes_choice (by decide)).bind (u.takes_encode.last rfl)
  | execution x => exact (takes_choice (by decide)).bind (x.takes_encode.last rfl)
  | snapshot header bids asks =>
      have hbids := BookEntry.length_le_length_list bids
      have hasks := BookEntry.length_le_length_list asks
      simp only [encode, List.append_assoc, List.length_append] at h ⊢
      refine (takes_choice (by decide)).bind ?_
      refine header.takes_toBlock.bind ?_
      refine (takes_list (fun e _ => e.takes_encode) (by omega)).bind ?_
      exact (takes_list (fun e _ => e.takes_encode) (by omega)).last rfl

theorem LogRecord.takes_encode {r : LogRecord} (h : r.encode.length < Bytes.capacity 8) :
    LogRecord.parse.Takes r.encode r := by
  simp only [encode, List.append_assoc, List.length_append] at h ⊢
  refine (takes_u64 r.seq).bind ?_
  refine r.envelope.takes_toBlock.bind ?_
  exact (LogEvent.takes_encode (by omega)).last rfl

theorem LogHeader.takes_encode {h : LogHeader} (hlength : h.encode.length < Bytes.capacity 8) :
    LogHeader.parse.Takes h.encode h := by
  have hcreated : h.created.toNat < Bytes.capacity 16 := h.created.isLt
  simp only [encode, List.append_assoc, List.length_append] at hlength ⊢
  refine (takes_u16 h.version).bind ?_
  refine (takes_number hcreated).bind ?_
  refine (takes_text ?_).bind ?_
  · rw [Log.text, List.length_append] at hlength
    omega
  · refine (takes_u32 h.linkType).last ?_
    rw [BitVec.ofNat_toNat, BitVec.setWidth_eq]

/-- A frame comes back as what it holds. -/
theorem LogFrame.takes_encode {f : LogFrame} (h : f.encode.length < Bytes.capacity 8) :
    LogFrame.parse.Takes f.encode f := by
  cases f with
  | header header =>
      rw [encode, List.length_append] at h
      exact (takes_choice (by decide)).bind ((LogHeader.takes_encode (by omega)).last rfl)
  | record record =>
      rw [encode, List.length_append] at h
      exact (takes_choice (by decide)).bind ((LogRecord.takes_encode (by omega)).last rfl)

end MarketFeed
