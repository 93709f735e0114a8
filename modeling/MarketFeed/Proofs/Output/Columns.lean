import Mathlib.Data.List.Basic
import MarketFeed.Command.Arguments
import MarketFeed.Output.Csv

/-!
# Columns of a Table

What a reader of the tables can rely on in a single column.

No column holds a character that ends a column or a line. There is no quoting
in the tables, so this has to hold of every text that a column can be: of
numbers, of prices with their point, of times, and of codes, those without a
name included. Each of these texts is digits and a few fixed characters.

A number, an action and a side can be read back from their columns. A code
without a name is written as a number between fixed texts, an action's in
decimal and a side's in base sixteen, and so every octet has a text of its own.

## Main definitions

* `Csv.Unbroken`: A text without characters that end a column or a line.
* `Csv.integer?`, `Csv.word?`: The readers of a column that is a number.
* `Action.ofText?`, `Side.ofText?`: The readers of columns with a code.

## Theorems

* `unbroken_decimal`, `unbroken_price`, `unbroken_instant`, `unbroken_action`,
  `unbroken_side`: Every column is unbroken.
* `word?_eq_some`: A number of the word comes back from its digits.
* `Action.ofText?_text`, `Side.ofText?_text`: Every code comes back from its
  text.
-/

namespace MarketFeed

/-! ## Columns in one piece -/

namespace Csv

/-- The characters that end a column or a line. -/
def breaks : List Char := [',', '\n', '\r']

/-- A text that stays one column of one line. -/
def Unbroken (text : String) : Prop := ∀ c ∈ text.toList, c ∉ breaks

instance (text : String) : Decidable (Unbroken text) :=
  List.decidableBAll (· ∉ breaks) text.toList

variable {s t : String} {cs : List Char}

theorem unbroken_ofList : Unbroken (String.ofList cs) ↔ ∀ c ∈ cs, c ∉ breaks := by
  rw [Unbroken, String.toList_ofList]

/-- Texts without breaks make one without breaks. -/
theorem Unbroken.append (hs : Unbroken s) (ht : Unbroken t) : Unbroken (s ++ t) := by
  intro c hc
  rw [String.toList_append] at hc
  rcases List.mem_append.mp hc with hfirst | hsecond
  · exact hs c hfirst
  · exact ht c hsecond

theorem not_mem_breaks_of_isDigit {c : Char} (h : c.isDigit = true) : c ∉ breaks := by
  intro hbreak
  simp only [breaks, List.mem_cons, List.not_mem_nil, or_false] at hbreak
  rcases hbreak with rfl | rfl | rfl <;> exact absurd h (by decide)

theorem not_mem_breaks_of_mem_toDigits {n : Nat} {c : Char} (h : c ∈ Nat.toDigits 10 n) :
    c ∉ breaks :=
  not_mem_breaks_of_isDigit (Nat.isDigit_of_mem_toDigits (by decide) (by decide) h)

theorem unbroken_natural (n : Nat) : Unbroken (toString n) := by
  rw [Nat.toString_eq_ofList_toDigits, unbroken_ofList]
  exact fun c => not_mem_breaks_of_mem_toDigits

/-- A number is written without breaks, also below zero. -/
theorem unbroken_decimal (n : Int) : Unbroken (toString n) := by
  cases n with
  | ofNat n => exact unbroken_natural n
  | negSucc n => exact .append (s := "-") (by decide) (unbroken_natural (n + 1))

theorem Unbroken.padZeros (h : Unbroken s) (width : Nat) : Unbroken (Text.padZeros width s) := by
  refine .append (unbroken_ofList.mpr fun c hc => ?_) h
  rw [List.eq_of_mem_replicate hc]
  decide

/-! ## Prices -/

theorem mem_withPoint {digits : List Char} {places : Nat} {c : Char}
    (h : c ∈ Decimal.Numeral.withPoint digits places) : c = '.' ∨ c = '0' ∨ c ∈ digits := by
  have hpadded : ∀ n, c ∈ List.replicate n '0' ++ digits → c = '0' ∨ c ∈ digits := fun n hc =>
    (List.mem_append.mp hc).imp_left List.eq_of_mem_replicate
  rcases List.mem_append.mp h with hwhole | hrest
  · exact .inr (hpadded _ (List.mem_of_mem_take hwhole))
  · rcases List.mem_cons.mp hrest with hpoint | hplaces
    · exact .inl hpoint
    · exact .inr (hpadded _ (List.mem_of_mem_drop hplaces))

theorem unbroken_numeral (n : Decimal.Numeral) : Unbroken n.text := by
  unfold Decimal.Numeral.text
  split
  · refine unbroken_ofList.mpr fun c hc => ?_
    rcases mem_withPoint hc with rfl | rfl | hdigit
    · decide
    · decide
    · exact not_mem_breaks_of_mem_toDigits hdigit
  · split
    · decide
    · refine unbroken_ofList.mpr fun c hc => ?_
      rcases List.mem_append.mp hc with hdigit | hzero
      · exact not_mem_breaks_of_mem_toDigits hdigit
      · rw [List.eq_of_mem_replicate hzero]
        decide

/-- A price is written without breaks, whether it is there or not. -/
@[simp] theorem unbroken_price (raw : Int64) : Unbroken (Price.text raw) := by
  unfold Price.text
  split
  · decide
  · refine .append ?_ (unbroken_numeral _)
    unfold Price.sign
    split <;> decide

/-! ## Times -/

theorem unbroken_date (d : Date) : Unbroken d.text := by
  have hpart : ∀ width n : Nat, Unbroken (Text.padZeros width (toString n)) := fun width n =>
    (unbroken_natural n).padZeros width
  have hhyphen : Unbroken "-" := by decide
  exact ((((hpart 4 _).append hhyphen).append (hpart 2 _)).append hhyphen).append (hpart 2 _)

theorem unbroken_clockText (secondOfDay : Nat) : Unbroken (Instant.clockText secondOfDay) := by
  have hpart : ∀ n : Nat, Unbroken (Text.padZeros 2 (toString n)) := fun n =>
    (unbroken_natural n).padZeros 2
  have hcolon : Unbroken ":" := by decide
  exact ((((hpart _).append hcolon).append (hpart _)).append hcolon).append (hpart _)

theorem unbroken_fraction (nanos : Nat) : Unbroken (Instant.fraction nanos) := by
  unfold Instant.fraction
  split
  · decide
  · refine .append (by decide) (unbroken_ofList.mpr fun c hc => ?_)
    -- What is left when zeros are taken off the end was among the digits.
    have hdigit := (List.dropWhile_suffix _).subset (List.mem_reverse.mp hc)
    exact (unbroken_natural nanos).padZeros 9 c (List.mem_reverse.mp hdigit)

@[simp] theorem unbroken_instant (unixNanos : UInt64) : Unbroken (Instant.text unixNanos) := by
  refine .append (.append (.append (.append (unbroken_date _) ?_) (unbroken_clockText _))
    (unbroken_fraction _)) ?_ <;> decide

/-! ## Machine words -/

/-- The number that a column writes in decimal. -/
def integer? (column : String) : Option Int :=
  match column.toList with
  | '-' :: digits => (Arguments.digits? digits).map fun (n : Nat) => -(n : Int)
  | digits => (Arguments.digits? digits).map fun (n : Nat) => (n : Int)

/-- The machine word that a column writes in decimal. A number that the word
    cannot hold is none. -/
def word? {α : Type} (ofInt : Int → α) (toInt : α → Int) (column : String) : Option α :=
  (integer? column).bind fun n => if toInt (ofInt n) = n then some (ofInt n) else none

/-- The reader of an unsigned number of 8 bits. -/
def u8? : String → Option UInt8 := word? (fun n => .ofNat n.toNat) fun word => word.toNat

/-- The reader of an unsigned number of 32 bits. -/
def u32? : String → Option UInt32 := word? (fun n => .ofNat n.toNat) fun word => word.toNat

/-- The reader of an unsigned number of 64 bits. -/
def u64? : String → Option UInt64 := word? (fun n => .ofNat n.toNat) fun word => word.toNat

/-- The reader of a signed number of 32 bits. -/
def i32? : String → Option Int32 := word? .ofInt Int32.toInt

/-- The reader of a signed number of 64 bits. -/
def i64? : String → Option Int64 := word? .ofInt Int64.toInt

/-- Digits are read from the highest on. -/
theorem foldl_digits (h : ∀ c ∈ cs, c.isDigit = true) (n : Nat) :
    cs.foldl (fun n c => if c.isDigit then n.map (10 * · + (c.toNat - '0'.toNat)) else none)
      (some n) = some (Nat.ofDigitChars 10 cs n) := by
  induction cs generalizing n with
  | nil => rfl
  | cons c rest ih =>
      obtain ⟨hc, hrest⟩ := List.forall_mem_cons.mp h
      rw [List.foldl_cons, if_pos hc, Option.map_some, ih hrest, Nat.ofDigitChars_cons]

/-- The digits of a number are read as the number. -/
theorem digits?_toDigits (n : Nat) : Arguments.digits? (Nat.toDigits 10 n) = some n := by
  have hdigits : ∀ c ∈ Nat.toDigits 10 n, c.isDigit = true := fun _ =>
    Nat.isDigit_of_mem_toDigits (by decide) (by decide)
  rw [Arguments.digits?.eq_2 _ Nat.toDigits_ne_nil, foldl_digits hdigits,
    Nat.ofDigitChars_toDigits (by decide) (by decide)]

theorem integer?_natural (n : Nat) : integer? (toString n) = some (n : Int) := by
  rw [integer?, Nat.toString_eq_ofList_toDigits, String.toList_ofList]
  split
  · next digits hdigits =>
    -- A sign is no digit.
    have hsign : '-' ∈ Nat.toDigits 10 n := hdigits ▸ List.mem_cons_self
    exact absurd (Nat.isDigit_of_mem_toDigits (by decide) (by decide) hsign) (by decide)
  · rw [digits?_toDigits, Option.map_some]

/-- A number is read back, also below zero. -/
theorem integer?_decimal (n : Int) : integer? (toString n) = some n := by
  cases n with
  | ofNat n => exact integer?_natural n
  | negSucc n =>
      have hlist : (toString (Int.negSucc n)).toList = '-' :: Nat.toDigits 10 (n + 1) := by
        rw [show toString (Int.negSucc n) = "-" ++ toString (n + 1) from rfl, String.toList_append,
          Nat.toString_eq_ofList_toDigits, String.toList_ofList, String.toList_ofList]
        rfl
      rw [integer?, hlist]
      simp only [digits?_toDigits, Option.map_some]
      rfl

/-- A word is read if its column is a number that has room in it. -/
theorem word?_eq_some {α : Type} {ofInt : Int → α} {toInt : α → Int} {column : String} {word : α}
    (hcolumn : integer? column = some (toInt word)) (hword : ofInt (toInt word) = word) :
    word? ofInt toInt column = some word := by
  rw [word?, hcolumn, Option.bind_some, hword, if_pos rfl]

theorem u8?_natural (word : UInt8) : u8? (toString word.toNat) = some word :=
  word?_eq_some (integer?_natural _) UInt8.ofNat_toNat

@[simp] theorem u32?_u32 (word : UInt32) : u32? (u32 word) = some word :=
  word?_eq_some (integer?_natural _) UInt32.ofNat_toNat

@[simp] theorem u64?_u64 (word : UInt64) : u64? (u64 word) = some word :=
  word?_eq_some (integer?_natural _) UInt64.ofNat_toNat

@[simp] theorem i32?_i32 (word : Int32) : i32? (i32 word) = some word :=
  word?_eq_some (integer?_decimal _) (Int32.ofInt_toInt word)

@[simp] theorem i64?_i64 (word : Int64) : i64? (i64 word) = some word :=
  word?_eq_some (integer?_decimal _) (Int64.ofInt_toInt word)

/-! ## Texts around a code -/

/-- What stands between an opening and a closing text. -/
def between? (opening closing text : String) : Option String :=
  ((text.toList.dropPrefix? opening.toList).bind (·.dropSuffix? closing.toList)).map String.ofList

/-- What stands between two marks is found between them. -/
theorem between?_append (opening middle closing : String) :
    between? opening closing (opening ++ middle ++ closing) = some middle := by
  have hopening : ((opening ++ middle ++ closing).toList).dropPrefix? opening.toList
      = some (middle.toList ++ closing.toList) := by
    rw [String.toList_append, String.toList_append, List.append_assoc]
    exact List.dropPrefix?_append_of_beq _ (beq_self_eq_true _)
  have hclosing : (middle.toList ++ closing.toList).dropSuffix? closing.toList
      = some middle.toList :=
    List.dropSuffix?_eq_some_iff.mpr ⟨_, rfl, beq_self_eq_true _⟩
  rw [between?, hopening, Option.bind_some, hclosing, Option.map_some, String.ofList_toList]

/-- A digit in base sixteen. -/
def hexDigit? (c : Char) : Option Nat :=
  if c.isDigit then some (c.toNat - '0'.toNat)
  else if 'a' ≤ c ∧ c ≤ 'f' then some (c.toNat - 'a'.toNat + 10)
  else none

/-- The octet that two digits in base sixteen write. -/
def octet? (text : String) : Option UInt8 :=
  match text.toList with
  | [high, low] =>
    (hexDigit? high).bind fun high => (hexDigit? low).map fun low => .ofNat (16 * high + low)
  | _ => none

theorem hexDigit?_digitChar : ∀ n < 16, hexDigit? (Nat.digitChar n) = some n := by decide

theorem digitChar_not_mem_breaks : ∀ n < 16, Nat.digitChar n ∉ breaks := by decide

/-- An octet is written as two digits, the higher in front. -/
theorem toList_octet (b : UInt8) :
    (Text.octet b).toList = [Nat.digitChar (b.toNat / 16), Nat.digitChar (b.toNat % 16)] := by
  have hb := b.toNat_lt
  rw [Text.octet, Text.hexPadded, Text.padZeros, Text.fillLeft, Text.hex, String.toList_append,
    String.toList_ofList, String.toList_ofList, String.length_ofList]
  by_cases hsmall : b.toNat < 16
  · rw [Nat.toDigits_of_lt_base hsmall, Nat.div_eq_of_lt hsmall, Nat.mod_eq_of_lt hsmall]
    rfl
  · rw [Nat.toDigits_eq_if (by decide), if_neg hsmall, Nat.toDigits_of_lt_base (by omega)]
    rfl

/-- An octet is read back from its two digits. -/
theorem octet?_octet (b : UInt8) : octet? (Text.octet b) = some b := by
  have hb := b.toNat_lt
  rw [octet?, toList_octet]
  simp only [hexDigit?_digitChar _ (show b.toNat / 16 < 16 by omega),
    hexDigit?_digitChar _ (show b.toNat % 16 < 16 by omega), Option.bind_some, Option.map_some,
    Nat.div_add_mod, UInt8.ofNat_toNat]

theorem unbroken_octet (b : UInt8) : Unbroken (Text.octet b) := by
  have hb := b.toNat_lt
  rw [Unbroken, toList_octet]
  simp only [List.forall_mem_cons]
  exact ⟨digitChar_not_mem_breaks _ (by omega), digitChar_not_mem_breaks _ (by omega),
    fun _ h => (List.not_mem_nil h).elim⟩

/-- The name of an action has no breaks, also if it is not known. -/
@[simp] theorem unbroken_action (a : Action) : Unbroken a.text := by
  cases a with
  | unknown code => exact .append (.append (by decide) (unbroken_natural _)) (by decide)
  | new | update | delete => decide

@[simp] theorem unbroken_side (s : Side) : Unbroken s.text := by
  cases s with
  | unknown code => exact .append (.append (by decide) (unbroken_octet code)) (by decide)
  | bid | offer | emptyBook => decide

end Csv

/-- The action that a text names. -/
def Action.ofText? (text : String) : Option Action :=
  match Csv.between? "unknown(" ")" text with
  | some code => (Csv.u8? code).map .unknown
  | none => [("new", .new), ("update", .update), ("delete", .delete)].lookup text

/-- The side that a text names. -/
def Side.ofText? (text : String) : Option Side :=
  match Csv.between? "unknown(0x" ")" text with
  | some code => (Csv.octet? code).map .unknown
  | none => [("bid", .bid), ("offer", .offer), ("empty", .emptyBook)].lookup text

/-- An action is told by its name, also if it is not known. -/
@[simp] theorem Action.ofText?_text (a : Action) : ofText? a.text = some a := by
  cases a with
  | unknown code => simp only [text, ofText?, Csv.between?_append, Csv.u8?_natural, Option.map_some]
  | new | update | delete => decide

@[simp] theorem Side.ofText?_text (s : Side) : ofText? s.text = some s := by
  cases s with
  | unknown code =>
      simp only [text, ofText?, Csv.between?_append, Csv.octet?_octet, Option.map_some]
  | bid | offer | emptyBook => decide

end MarketFeed
