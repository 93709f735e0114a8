import MarketFeed.Books
import MarketFeed.Proofs.Book.Exchange

/-!
# Securities Apart

The books of all securities as so many books by themselves.

The books share one map, and messages for all of them come in one sequence,
in which the fragments of one security's snapshot may stand between those of
another's. None of this matters to any of them. A message writes at the key of
the security it names, and what it writes and what it is answered depend on
what stands there. So the book of a security is the book that its own share of
the messages leaves, taken out of the sequence in order, and it is there as
soon as the share is not empty, even if no message in it has changed anything.

Everything else follows from the shares. The map is sorted, so it is
determined by the books in it. Two sequences with the same shares leave the
same books, report numbers and pending snapshots included, and exchanging
neighbours that name different securities leaves all shares as they are.

## Main definitions

* `Books.after`: The books that a history leaves.
* `Books.share`: The part of a history that is about one security.
* `Books.replies`, `Book.replies`: What is reported along a history.
* `Books.Apart`: What there is to see of each security is that of its share.

## Theorems

* `getOrEmpty_foldl`, `repliesTo_foldl`: The share decides, from any books on.
* `after_eq_of_share_eq`: Books are determined by the shares.
* `securities_stay_apart`: All of this for every history.
-/

namespace MarketFeed

theorem strict_securityOrder : Keyed.Strict securityOrder where
  irrefl a := by
    simp only [securityOrder, decide_eq_false_iff_not, Int32.lt_irrefl, not_false_eq_true]
  trans a b c := by
    simp only [securityOrder, decide_eq_true_eq]
    exact Int32.lt_trans
  total a b := by
    simp only [securityOrder, decide_eq_true_eq, decide_eq_false_iff_not]
    grind

/-- The security that a message names. -/
def Message.security : Message → Int32
  | .update u => u.securityId
  | .execution x => x.securityId
  | .snapshot s => s.header.securityId

/-- What a message does to the book of its security. -/
def Message.operation (e : Envelope) : Message → Book.Operation
  | .update u => .update u
  | .execution x => .execution x
  | .snapshot s => .snapshot e s

/-- What is reported of the operations on a book, one after the other. -/
def Book.replies (b : Book) : List Book.Operation → List (Option Bool)
  | [] => []
  | operation :: rest => b.reply operation :: (b.perform operation).replies rest

namespace Books

/-- The books that a history leaves, beginning with none. -/
def after (history : List (Envelope × Message)) : Books :=
  history.foldl (fun bs one => bs.apply one.1 one.2) empty

/-- What is reported of a message. -/
def reply (bs : Books) : Message → Option Bool
  | .update u => some (bs.applyUpdate u).2
  | .execution x => some (bs.applyExecution x).2
  | .snapshot _ => none

/-- What is reported along a history, with the securities it is about. -/
def replies (bs : Books) : List (Envelope × Message) → List (Int32 × Option Bool)
  | [] => []
  | one :: rest => (one.2.security, bs.reply one.2) :: (bs.apply one.1 one.2).replies rest

/-- The replies about one security. -/
def repliesTo (bs : Books) (security : Int32) (history : List (Envelope × Message)) :
    List (Option Bool) :=
  ((bs.replies history).filter (·.1 = security)).map Prod.snd

/-- Some message of the history names the security. -/
def Named (security : Int32) (history : List (Envelope × Message)) : Prop :=
  ∃ one ∈ history, one.2.security = security

instance (security : Int32) (history : List (Envelope × Message)) :
    Decidable (Named security history) :=
  inferInstanceAs (Decidable (∃ one ∈ history, one.2.security = security))

/-- What the messages that name a security do to its book, in their order. -/
def share (security : Int32) (history : List (Envelope × Message)) : List Book.Operation :=
  (history.filter (·.2.security = security)).map fun one => one.2.operation one.1

/-- What there is to see of each security is what its share of the history
    leaves of a book by itself. -/
structure Apart (history : List (Envelope × Message)) : Prop where
  /-- A security has a book once it has been named. -/
  book : ∀ security, (after history).get? security
    = if Named security history then some (Book.after (share security history)) else none
  /-- The replies are those of the book by itself. -/
  replies : ∀ security,
    empty.repliesTo security history = Book.empty.replies (share security history)
  /-- The named securities are listed. -/
  listed : ∀ security, security ∈ (after history).entries.map Prod.fst ↔ Named security history
  /-- They are listed in ascending order, so each of them once. -/
  ascending : ((after history).entries.map Prod.fst).Pairwise (· < ·)
  /-- Each is listed with its book. -/
  books : ∀ entry ∈ (after history).entries, (after history).get? entry.1 = some entry.2

variable {bs bs' : Books} {security other : Int32} {one : Envelope × Message}
  {history history' front back : List (Envelope × Message)}

/-! ## One message -/

/-- A message is performed on the book of its security, and nothing else is. -/
theorem apply_eq_put (bs : Books) (e : Envelope) (m : Message) :
    bs.apply e m = bs.put m.security ((bs.getOrEmpty m.security).perform (m.operation e)) := by
  cases m <;> rfl

/-- The reply to a message is that of the book of its security. -/
theorem reply_eq (bs : Books) (e : Envelope) (m : Message) :
    bs.reply m = (bs.getOrEmpty m.security).reply (m.operation e) := by
  cases m <;> rfl

/-- The book of the message is there afterwards, also if it was not before. -/
theorem get?_apply_self (bs : Books) (one : Envelope × Message) :
    (bs.apply one.1 one.2).get? one.2.security
      = some ((bs.getOrEmpty one.2.security).perform (one.2.operation one.1)) := by
  rw [apply_eq_put, get?_put_self]

/-- The books of other securities are as they were. -/
theorem get?_apply_of_ne (bs : Books) (hne : one.2.security ≠ security) :
    (bs.apply one.1 one.2).get? security = bs.get? security := by
  rw [apply_eq_put, get?_put_of_ne _ _ hne]

theorem share_cons_self (one : Envelope × Message) (history : List (Envelope × Message)) :
    share one.2.security (one :: history)
      = one.2.operation one.1 :: share one.2.security history := by
  simp only [share, List.filter_cons, decide_true, if_true, List.map_cons]

theorem share_cons_of_ne (hne : one.2.security ≠ security) :
    share security (one :: history) = share security history := by
  simp only [share, List.filter_cons, hne, decide_false, Bool.false_eq_true, if_false]

theorem repliesTo_cons_self (bs : Books) (one : Envelope × Message)
    (history : List (Envelope × Message)) :
    bs.repliesTo one.2.security (one :: history)
      = bs.reply one.2 :: (bs.apply one.1 one.2).repliesTo one.2.security history := by
  simp only [repliesTo, replies, List.filter_cons, decide_true, if_true, List.map_cons]

theorem repliesTo_cons_of_ne (bs : Books) (hne : one.2.security ≠ security) :
    bs.repliesTo security (one :: history)
      = (bs.apply one.1 one.2).repliesTo security history := by
  simp only [repliesTo, replies, List.filter_cons, hne, decide_false, Bool.false_eq_true, if_false]

theorem share_append (front back : List (Envelope × Message)) :
    share security (front ++ back) = share security front ++ share security back := by
  rw [share, List.filter_append, List.map_append, share, share]

/-- A security has no share exactly if no message has named it. -/
theorem share_eq_nil_iff : share security history = [] ↔ ¬ Named security history := by
  simp only [share, List.map_eq_nil_iff, List.filter_eq_nil_iff, decide_eq_true_eq, Named,
    not_exists, not_and]

theorem named_cons_iff :
    Named security (one :: history) ↔ one.2.security = security ∨ Named security history := by
  simp only [Named, List.mem_cons, exists_eq_or_imp]

/-! ## A history -/

/-- A message for the security takes its book one operation further, and any
    other leaves the book and the share as they are. This is by induction on the
    history, from whatever books it begins with. -/
theorem getOrEmpty_foldl (bs : Books) (security : Int32) (history : List (Envelope × Message)) :
    (history.foldl (fun bs one => bs.apply one.1 one.2) bs).getOrEmpty security
      = (share security history).foldl Book.perform (bs.getOrEmpty security) := by
  induction history generalizing bs with
  | nil => rfl
  | cons one rest ih =>
      rw [List.foldl_cons, ih]
      by_cases hone : one.2.security = security
      · rw [← hone, share_cons_self, List.foldl_cons, getOrEmpty, get?_apply_self,
          Option.getD_some]
      · rw [share_cons_of_ne hone, getOrEmpty, get?_apply_of_ne _ hone, getOrEmpty]

/-- The replies to the messages of a security are those of its book. -/
theorem repliesTo_foldl (bs : Books) (security : Int32) (history : List (Envelope × Message)) :
    bs.repliesTo security history = (bs.getOrEmpty security).replies (share security history) := by
  induction history generalizing bs with
  | nil => rfl
  | cons one rest ih =>
      by_cases hone : one.2.security = security
      · rw [← hone] at ih ⊢
        rw [repliesTo_cons_self, ih, share_cons_self, Book.replies, ← reply_eq, getOrEmpty,
          get?_apply_self, Option.getD_some]
      · rw [repliesTo_cons_of_ne _ hone, ih, share_cons_of_ne hone, getOrEmpty,
          get?_apply_of_ne _ hone, getOrEmpty]

/-- A security has no book exactly if it had none and was not named. -/
theorem get?_foldl_eq_none_iff (bs : Books) (security : Int32)
    (history : List (Envelope × Message)) :
    (history.foldl (fun bs one => bs.apply one.1 one.2) bs).get? security = none
      ↔ bs.get? security = none ∧ ¬ Named security history := by
  induction history generalizing bs with
  | nil => simp only [List.foldl_nil, Named, List.not_mem_nil, false_and, exists_false,
      not_false_eq_true, and_true]
  | cons one rest ih =>
      rw [List.foldl_cons, ih, named_cons_iff, not_or]
      by_cases hone : one.2.security = security
      · have hself := get?_apply_self bs one
        rw [hone] at hself
        simp only [hself, hone, reduceCtorEq, not_true_eq_false, false_and, and_false]
      · simp only [get?_apply_of_ne bs hone, hone, not_false_eq_true, true_and]

/-- A security that was named has the book of its share. -/
theorem get?_after (security : Int32) (history : List (Envelope × Message)) :
    (after history).get? security
      = if Named security history then some (Book.after (share security history)) else none := by
  have hnone := get?_foldl_eq_none_iff empty security history
  have hbook := getOrEmpty_foldl empty security history
  rw [← after] at hnone hbook
  by_cases hnamed : Named security history
  · rw [if_pos hnamed]
    cases hget : (after history).get? security with
    | none => exact absurd hnamed (hnone.mp hget).2
    | some book =>
        rw [getOrEmpty, hget, Option.getD_some] at hbook
        exact congrArg some hbook
  · rw [if_neg hnamed]
    exact hnone.mpr ⟨rfl, hnamed⟩

theorem sorted_after (history : List (Envelope × Message)) :
    Keyed.Sorted securityOrder (after history).entries := by
  have hrun : ∀ bs : Books, Keyed.Sorted securityOrder bs.entries →
      Keyed.Sorted securityOrder
        (history.foldl (fun bs one => bs.apply one.1 one.2) bs).entries := by
    induction history with
    | nil => exact fun bs h => h
    | cons one rest ih =>
        intro bs h
        rw [List.foldl_cons, apply_eq_put]
        exact ih _ (strict_securityOrder.sorted_insert _ _ h)
  exact hrun empty List.Pairwise.nil

/-- The securities that are listed are those with a book. -/
theorem mem_securities_iff (security : Int32) (history : List (Envelope × Message)) :
    security ∈ (after history).entries.map Prod.fst
      ↔ ((after history).get? security).isSome = true := by
  have hmem : ∀ book, (security, book) ∈ (after history).entries
      ↔ (after history).get? security = some book :=
    fun book => Keyed.mem_iff_find? strict_securityOrder (sorted_after history)
  simp only [List.mem_map, Prod.exists, exists_and_right, exists_eq_right, hmem,
    Option.isSome_iff_exists]

/-- Books are determined by the shares of the securities. -/
theorem after_eq_of_share_eq (h : ∀ security, share security history = share security history') :
    after history = after history' := by
  have hnamed : ∀ security, Named security history ↔ Named security history' := by
    intro security
    rw [← not_iff_not, ← share_eq_nil_iff, ← share_eq_nil_iff, h]
  have hentries : (after history).entries = (after history').entries := by
    refine Keyed.eq_of_find?_eq strict_securityOrder (sorted_after _) (sorted_after _) ?_
    intro security
    have hget := get?_after security history
    rw [h security] at hget
    simp only [hnamed security] at hget
    exact hget.trans (get?_after security history').symm
  cases hafter : after history
  cases hafter' : after history'
  rw [hafter, hafter'] at hentries
  exact congrArg Books.mk hentries

/-- Two neighbours of different securities can change places in the history, and
    no share shows it. -/
theorem share_swap {a b : Envelope × Message} (hne : a.2.security ≠ b.2.security)
    (security : Int32) :
    share security (front ++ a :: b :: back) = share security (front ++ b :: a :: back) := by
  rw [share_append, share_append]
  -- At most one of the two is for the security.
  by_cases ha : a.2.security = security
  · have hb : b.2.security ≠ security := fun hb => hne (ha.trans hb.symm)
    rw [← ha] at hb ⊢
    rw [share_cons_self, share_cons_of_ne hb, share_cons_of_ne hb, share_cons_self]
  · rw [share_cons_of_ne ha]
    by_cases hb : b.2.security = security
    · rw [← hb] at ha ⊢
      rw [share_cons_self, share_cons_self, share_cons_of_ne ha]
    · rw [share_cons_of_ne hb, share_cons_of_ne hb, share_cons_of_ne ha]

/-- Every history keeps the securities apart. -/
theorem apart (history : List (Envelope × Message)) : Apart history where
  book security := get?_after security history
  replies security := repliesTo_foldl empty security history
  listed security := by
    rw [mem_securities_iff, get?_after]
    by_cases hnamed : Named security history
    · simp only [hnamed, if_true, Option.isSome_some]
    · simp only [hnamed, if_false, Option.isSome_none, Bool.false_eq_true]
  ascending := List.pairwise_map.mpr ((sorted_after history).imp of_decide_eq_true)
  books entry hentry :=
    Keyed.find?_eq_some_of_mem strict_securityOrder (sorted_after history) hentry

/-- After every history each security has the book and has had the replies of
    its own share. Two messages for different securities that follow one
    another may change places, whatever comes before and after them: the books
    are the same, and so are the replies about every security. -/
theorem securities_stay_apart :
    (∀ history, Apart history) ∧
    ∀ (front back : List (Envelope × Message)) (a b : Envelope × Message),
      a.2.security ≠ b.2.security →
        after (front ++ a :: b :: back) = after (front ++ b :: a :: back) ∧
        ∀ security, empty.repliesTo security (front ++ a :: b :: back)
          = empty.repliesTo security (front ++ b :: a :: back) := by
  refine ⟨apart, ?_⟩
  intro front back a b hne
  refine ⟨after_eq_of_share_eq (share_swap hne), ?_⟩
  intro security
  rw [(apart _).replies, (apart _).replies, share_swap hne]

/-- The first fragment of a snapshot of a security, and the last. -/
def firstHalf (security : Int32) : Envelope × Message :=
  ({}, .snapshot (.ofEntries { securityId := security } [⟨1, 0, 100, 5, 0, 0, 0, .bid⟩]))

@[inherit_doc firstHalf]
def lastHalf (security : Int32) : Envelope × Message :=
  ({ messageFlags := 1 },
    .snapshot (.ofEntries { securityId := security } [⟨2, 0, 101, 3, 0, 0, 0, .offer⟩]))

/-- Two snapshots in fragments, one inside the other. -/
theorem securities_stay_apart_halves :
    (firstHalf 7).2.security ≠ (firstHalf (-2)).2.security ∧
      after [firstHalf 7, firstHalf (-2), lastHalf 7, lastHalf (-2)]
        = after [firstHalf (-2), firstHalf 7, lastHalf 7, lastHalf (-2)] ∧
      (after [firstHalf 7, firstHalf (-2), lastHalf 7]).entries.map
          (fun entry => (entry.1, entry.2.orderCount, entry.2.inSnapshot))
        = [(-2, 1, true), (7, 2, false)] := by
  have hne : (firstHalf 7).2.security ≠ (firstHalf (-2)).2.security := by decide
  exact ⟨hne, (securities_stay_apart.2 [] [lastHalf 7, lastHalf (-2)] _ _ hne).1, by decide⟩

end Books

end MarketFeed
