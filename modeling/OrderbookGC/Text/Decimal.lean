/-
Decimal numbers in text: naturals and integers, numbers printed with two decimals, and how a stream
reads them back. A stream skips white space, takes a sign and digits, and stops at the first symbol
that does not continue the number; a number out of range saturates, and no digits at all give 0.
-/
import OrderbookGC.Text.Line
import Mathlib.Data.Rat.Floor
import Mathlib.Data.Nat.Digits.Defs
import Mathlib.Data.UInt
import Mathlib.Algebra.Order.Field.Basic
import Mathlib.Tactic.FieldSimp
import Mathlib.Tactic.Linarith
import Mathlib.Tactic.NormNum
import Mathlib.Tactic.Ring

namespace Text

open Alphabet (code ofChar)

variable {α : Type} [Alphabet α]

/-! ## Printing -/

def showNat (n : Nat) : List α := (Nat.toDigits 10 n).map ofChar

def showInt (i : Int) : List α := if i < 0 then ofChar '-' :: showNat i.natAbs else showNat i.natAbs

/-- Round half to even of a non-negative number. -/
def roundHalfEven (r : ℚ) : Nat :=
  let f := ⌊r⌋₊
  if r - f < 1 / 2 then f
  else if 1 / 2 < r - f then f + 1
  else if f % 2 = 0 then f else f + 1

/-- A number with two decimals. -/
def showFixed2 (x : ℚ) : List α :=
  let n := roundHalfEven (|x| * 100)
  (if x < 0 then [ofChar '-'] else []) ++ showNat (n / 100) ++ [ofChar '.', ofChar (n / 10 % 10).digitChar, ofChar (n % 10).digitChar]

/-! ## Reading -/

def isDigit (a : α) : Bool := 48 ≤ code a && code a ≤ 57

/-- White space of the C locale. -/
def isSpace (a : α) : Bool := code a = 32 || 9 ≤ code a && code a ≤ 13

/-- The value of digits that follow `n`. -/
def digitsValue (n : Nat) (l : List α) : Nat := l.foldl (fun n a => 10 * n + (code a - 48)) n

/-- An optional sign: whether it is a minus, and the rest. -/
def readSign (l : List α) : Bool × List α :=
  match l with
  | [] => (false, [])
  | a :: rest => if code a = 45 then (true, rest) else if code a = 43 then (false, rest) else (false, a :: rest)

/-- The sign and the digits of an integer. -/
def readDigits (l : List α) : Bool × List α :=
  let (neg, l) := readSign (l.dropWhile isSpace)
  (neg, l.takeWhile isDigit)

/-- A 32-bit unsigned number: a negative one wraps, one out of range saturates. -/
def readUInt32 (l : List α) : UInt32 :=
  let (neg, ds) := readDigits l
  let n := digitsValue 0 ds
  if 2 ^ 32 ≤ n then 2 ^ 32 - 1 else if neg then -UInt32.ofNat n else UInt32.ofNat n

/-- A 32-bit signed number. -/
def readInt32 (l : List α) : Int :=
  let (neg, ds) := readDigits l
  let n := digitsValue 0 ds
  if neg then max (-n) (-2 ^ 31) else min n (2 ^ 31 - 1)

/-- The decimal exponent after a mantissa; an `e` without digits spoils the number. -/
def readExponent (l : List α) : Option Int :=
  match l with
  | [] => some 0
  | a :: rest =>
    if code a = 101 || code a = 69 then
      let (neg, rest) := readSign rest
      let ds := rest.takeWhile isDigit
      if ds.isEmpty then none else some (if neg then -digitsValue 0 ds else digitsValue 0 ds)
    else some 0

/-- The digits after a decimal point, and the rest. -/
def readFraction (l : List α) : List α × List α :=
  match l with
  | [] => ([], [])
  | a :: rest => if code a = 46 then (rest.takeWhile isDigit, rest.dropWhile isDigit) else ([], a :: rest)

/-- A decimal number. -/
def readDecimal (l : List α) : ℚ :=
  let (neg, l) := readSign (l.dropWhile isSpace)
  let int := l.takeWhile isDigit
  let (frac, rest) := readFraction (l.dropWhile isDigit)
  if int.isEmpty && frac.isEmpty then 0
  else
    match readExponent rest with
    | none => 0
    | some e =>
      let x : ℚ := digitsValue 0 (int ++ frac) / 10 ^ frac.length * 10 ^ e
      if neg then -x else x

/-! ## Digits -/

theorem code_digit {c : Char} (h : c.isDigit = true) : code (ofChar c : α) = c.toNat ∧ 48 ≤ c.toNat ∧ c.toNat ≤ 57 := by
  have hc : 48 ≤ c.toNat ∧ c.toNat ≤ 57 := Char.isDigit_iff_toNat.1 h
  exact ⟨Alphabet.code_ofChar (by omega), hc⟩

theorem isDigit_showNat {n : Nat} {a : α} (h : a ∈ (showNat n : List α)) : isDigit a = true := by
  obtain ⟨c, hc, rfl⟩ := List.mem_map.1 h
  obtain ⟨h1, h2, h3⟩ := code_digit (α := α) (Nat.isDigit_of_mem_toDigits (by decide) (by decide) hc)
  unfold isDigit
  rw [h1]
  simp [h2, h3]

theorem digitsValue_map (l : List Char) (hl : ∀ c ∈ l, c.isDigit = true) (n : Nat) :
    digitsValue n (l.map (ofChar : Char → α)) = Nat.ofDigitChars 10 l n := by
  unfold digitsValue
  induction l generalizing n with
  | nil => rw [Nat.ofDigitChars_nil]; rfl
  | cons c l ih =>
    rw [List.map_cons, List.foldl_cons, Nat.ofDigitChars_cons, (code_digit (α := α) (hl c (List.mem_cons_self ..))).1]
    exact ih (fun c hc => hl c (List.mem_cons_of_mem _ hc)) _

theorem digitsValue_showNat (n : Nat) : digitsValue 0 (showNat n : List α) = n := by
  unfold showNat
  rw [digitsValue_map _ fun c hc => Nat.isDigit_of_mem_toDigits (by decide) (by decide) hc]
  exact Nat.ofDigitChars_ten_toDigits

theorem showNat_ne_nil (n : Nat) : (showNat n : List α) ≠ [] := by
  unfold showNat
  rw [Ne, List.map_eq_nil_iff]
  exact Nat.toDigits_ne_nil

theorem isSpace_of_isDigit {a : α} (h : isDigit a = true) : isSpace a = false := by
  unfold isDigit at h
  unfold isSpace
  simp only [Bool.and_eq_true, decide_eq_true_eq] at h
  simp only [Bool.or_eq_false_iff, Bool.and_eq_false_iff, decide_eq_false_iff_not]
  omega

theorem code_minus : code (ofChar '-' : α) = 45 := Alphabet.code_ofChar (by decide)

theorem code_point : code (ofChar '.' : α) = 46 := Alphabet.code_ofChar (by decide)

/-- White space and signs are not digits, so nothing is taken off a text that begins with one. -/
theorem readSign_digits {l : List α} {a : α} (h : isDigit a = true) : readSign ((a :: l).dropWhile isSpace) = (false, a :: l) := by
  rw [List.dropWhile_cons_of_neg (by rw [isSpace_of_isDigit h]; exact Bool.false_ne_true)]
  unfold isDigit at h
  simp only [Bool.and_eq_true, decide_eq_true_eq] at h
  unfold readSign
  dsimp only
  rw [if_neg (by omega), if_neg (by omega)]

theorem readSign_minus (l : List α) : readSign ((ofChar '-' :: l).dropWhile isSpace) = (true, l) := by
  have hs : isSpace (ofChar '-' : α) = false := by
    unfold isSpace
    rw [code_minus]; rfl
  rw [List.dropWhile_cons_of_neg (by rw [hs]; exact Bool.false_ne_true)]
  unfold readSign
  dsimp only
  rw [if_pos code_minus]

theorem readSign_showNat (n : Nat) (l : List α) :
    readSign ((showNat n ++ l).dropWhile isSpace) = (false, showNat n ++ l) := by
  obtain ⟨a, ds, hd⟩ := List.exists_cons_of_ne_nil (showNat_ne_nil (α := α) n)
  have ha : isDigit a = true := isDigit_showNat (n := n) (by rw [hd]; exact List.mem_cons_self ..)
  rw [hd]
  exact readSign_digits ha

theorem takeWhile_showNat (n : Nat) : (showNat n : List α).takeWhile isDigit = showNat n :=
  List.takeWhile_eq_self_iff.2 fun _ ha => isDigit_showNat ha

theorem readDigits_showNat (n : Nat) : readDigits (showNat n : List α) = (false, showNat n) := by
  unfold readDigits
  have h := readSign_showNat (α := α) n []
  rw [List.append_nil] at h
  rw [h]
  dsimp only
  rw [takeWhile_showNat]

theorem readDigits_minus (n : Nat) : readDigits (ofChar '-' :: showNat n : List α) = (true, showNat n) := by
  unfold readDigits
  rw [readSign_minus]
  dsimp only
  rw [takeWhile_showNat]

/-! ## Round trips -/

/-- What an unsigned 32-bit extraction makes of a printed integer. -/
theorem readUInt32_showInt (i : Int) : readUInt32 (showInt i : List α) =
    if 2 ^ 32 ≤ i.natAbs then 2 ^ 32 - 1 else if i < 0 then -UInt32.ofNat i.natAbs else UInt32.ofNat i.natAbs := by
  unfold readUInt32 showInt
  by_cases hi : i < 0
  · rw [if_pos hi, readDigits_minus]
    dsimp only
    rw [digitsValue_showNat, if_pos rfl, if_pos hi]
  · rw [if_neg hi, readDigits_showNat]
    dsimp only
    rw [digitsValue_showNat, if_neg Bool.false_ne_true, if_neg hi]

@[simp] theorem readUInt32_showNat (q : UInt32) : readUInt32 (showNat q.toNat : List α) = q := by
  have h := readUInt32_showInt (α := α) q.toNat
  unfold showInt at h
  rw [if_neg (by omega), Int.natAbs_natCast] at h
  rw [h, if_neg (by have := q.toNat_lt; omega), if_neg (by omega), UInt32.ofNat_toNat]

theorem readInt32_showInt {i : Int} (hl : -2 ^ 31 ≤ i) (hu : i < 2 ^ 31) : readInt32 (showInt i : List α) = i := by
  unfold readInt32 showInt
  by_cases hi : i < 0
  · rw [if_pos hi, readDigits_minus]
    dsimp only
    rw [digitsValue_showNat, if_pos rfl]
    omega
  · rw [if_neg hi, readDigits_showNat]
    dsimp only
    rw [digitsValue_showNat, if_neg Bool.false_ne_true]
    omega

/-- A whole number of hundredths. -/
def Cents (x : ℚ) : Prop := ∃ c : Int, x = c / 100

theorem roundHalfEven_natCast (n : Nat) : roundHalfEven n = n := by
  unfold roundHalfEven
  simp only [Nat.floor_natCast, sub_self]
  rw [if_pos (by norm_num)]

/-- The sign and the two parts of a number printed with two decimals. -/
theorem showFixed2_cents (c : Int) : (showFixed2 (c / 100 : ℚ) : List α) =
    (if c < 0 then [ofChar '-'] else []) ++ (showNat (c.natAbs / 100) ++
      [ofChar '.', ofChar (c.natAbs / 10 % 10).digitChar, ofChar (c.natAbs % 10).digitChar]) := by
  have habs : |(c / 100 : ℚ)| * 100 = (c.natAbs : ℚ) := by
    rw [abs_div, abs_of_pos (show (0 : ℚ) < 100 by norm_num), div_mul_cancel₀ _ (by norm_num), Nat.cast_natAbs, Int.cast_abs]
  have hneg : (c / 100 : ℚ) < 0 ↔ c < 0 := by
    rw [div_lt_iff₀ (by norm_num), zero_mul]; exact_mod_cast Iff.rfl
  unfold showFixed2
  simp only [habs, roundHalfEven_natCast, hneg, List.append_assoc]

theorem digitsValue_append (n : Nat) (l l' : List α) : digitsValue n (l ++ l') = digitsValue (digitsValue n l) l' :=
  List.foldl_append ..

theorem digitChar_isDigit : ∀ d : Fin 10, (d : Nat).digitChar.isDigit = true := by decide

/-- Two decimals, read as digits. -/
theorem twoDigits (n : Nat) : ∀ m : Nat,
    digitsValue m [(ofChar (n / 10 % 10).digitChar : α), ofChar (n % 10).digitChar] = 100 * m + n % 100 ∧
    ∀ a ∈ [(ofChar (n / 10 % 10).digitChar : α), ofChar (n % 10).digitChar], isDigit a = true := by
  have h1 := digitChar_isDigit ⟨n / 10 % 10, by omega⟩
  have h2 := digitChar_isDigit ⟨n % 10, by omega⟩
  have hl : ∀ c ∈ [(n / 10 % 10).digitChar, (n % 10).digitChar], c.isDigit = true := by
    intro c hc
    rcases List.mem_cons.1 hc with rfl | hc
    · exact h1
    · rw [List.mem_singleton.1 hc]; exact h2
  intro m
  refine ⟨?_, fun a ha => ?_⟩
  · have := digitsValue_map (α := α) _ hl m
    rw [List.map_cons, List.map_cons, List.map_nil] at this
    rw [this, Nat.ofDigitChars_cons_digitChar_of_lt_ten (by omega), Nat.ofDigitChars_cons_digitChar_of_lt_ten (by omega),
      Nat.ofDigitChars_nil]
    omega
  · obtain ⟨c, hc, rfl⟩ : ∃ c ∈ [(n / 10 % 10).digitChar, (n % 10).digitChar], ofChar c = a := by
      simpa [eq_comm] using ha
    obtain ⟨e1, e2, e3⟩ := code_digit (α := α) (hl c hc)
    unfold isDigit
    rw [e1]
    simp [e2, e3]

/-- A decimal whose sign has been read. -/
theorem readDecimal_parts (neg : Bool) (l : List α) (n : Nat)
    (hl : readSign (l.dropWhile isSpace) =
      (neg, showNat (n / 100) ++ [ofChar '.', ofChar (n / 10 % 10).digitChar, ofChar (n % 10).digitChar])) :
    readDecimal l = if neg then -(n / 100 : ℚ) else (n / 100 : ℚ) := by
  obtain ⟨hval, hdig⟩ := twoDigits (α := α) n (n / 100)
  have hpoint : isDigit (ofChar '.' : α) = false := by
    unfold isDigit
    rw [code_point]; rfl
  have htake : (showNat (n / 100) ++ [(ofChar '.' : α), ofChar (n / 10 % 10).digitChar, ofChar (n % 10).digitChar]).takeWhile
      isDigit = showNat (n / 100) := by
    rw [List.takeWhile_append_of_pos fun a ha => isDigit_showNat ha, List.takeWhile_cons_of_neg (by rw [hpoint]; simp),
      List.append_nil]
  have hdrop : (showNat (n / 100) ++ [(ofChar '.' : α), ofChar (n / 10 % 10).digitChar, ofChar (n % 10).digitChar]).dropWhile
      isDigit = [(ofChar '.' : α), ofChar (n / 10 % 10).digitChar, ofChar (n % 10).digitChar] := by
    rw [List.dropWhile_append_of_pos fun a ha => isDigit_showNat ha, List.dropWhile_cons_of_neg (by rw [hpoint]; simp)]
  have hfrac : readFraction [(ofChar '.' : α), ofChar (n / 10 % 10).digitChar, ofChar (n % 10).digitChar] =
      ([ofChar (n / 10 % 10).digitChar, ofChar (n % 10).digitChar], []) := by
    unfold readFraction
    dsimp only
    rw [if_pos code_point, List.takeWhile_eq_self_iff.2 hdig, List.dropWhile_eq_nil_iff.2 hdig]
  have hx : ((digitsValue 0 (showNat (n / 100) ++ [(ofChar (n / 10 % 10).digitChar : α), ofChar (n % 10).digitChar]) : Nat) : ℚ) = n := by
    rw [digitsValue_append, digitsValue_showNat, hval]
    exact_mod_cast (by omega : 100 * (n / 100) + n % 100 = n)
  unfold readDecimal
  simp only [hl, htake, hdrop, hfrac, hx, readExponent, List.isEmpty_cons, Bool.and_false, Bool.false_eq_true, if_false,
    List.length_cons, List.length_nil, zpow_zero, mul_one]
  norm_num

theorem readDecimal_showFixed2 {x : ℚ} (hx : Cents x) : readDecimal (showFixed2 x : List α) = x := by
  obtain ⟨c, rfl⟩ := hx
  rw [showFixed2_cents]
  by_cases hc : c < 0
  · rw [if_pos hc, List.singleton_append, readDecimal_parts true _ c.natAbs (readSign_minus _), if_pos rfl]
    have : (c.natAbs : ℚ) = -c := by rw [Nat.cast_natAbs, abs_of_neg hc, Int.cast_neg]
    rw [this]; ring
  · rw [if_neg hc, List.nil_append, readDecimal_parts false _ c.natAbs (readSign_showNat ..), if_neg Bool.false_ne_true]
    have : (c.natAbs : ℚ) = c := by rw [Nat.cast_natAbs, abs_of_nonneg (by omega)]
    rw [this]

/-! ## Numbers stand on one line -/

theorem newline_not_mem_showNat (n : Nat) : newline ∉ (showNat n : List α) := by
  intro h
  have := isDigit_showNat h
  unfold isDigit newline at this
  rw [Alphabet.code_ofChar (by decide)] at this
  exact absurd this (by decide)

theorem newline_not_mem_showInt (i : Int) : newline ∉ (showInt i : List α) := by
  have hm : (newline : α) ≠ ofChar '-' := fun h => absurd ((ofChar_inj (by decide) (by decide)).1 h) (by decide)
  unfold showInt
  split_ifs
  · exact fun h => (List.mem_cons.1 h).elim hm (newline_not_mem_showNat _)
  · exact newline_not_mem_showNat _

theorem newline_not_mem_showFixed2 (x : ℚ) : newline ∉ (showFixed2 x : List α) := by
  have hne : ∀ c : Char, c.toNat < 128 → c ≠ '\n' → (newline : α) ≠ ofChar c := fun c hc hn h =>
    hn ((ofChar_inj (by decide) hc).1 h).symm
  have hdig : ∀ d, d < 10 → (newline : α) ≠ ofChar d.digitChar := fun d hd => by
    obtain ⟨-, h1, h2⟩ := code_digit (α := α) (digitChar_isDigit ⟨d, hd⟩)
    refine hne _ (by simp only at h2; omega) fun he => ?_
    simp only [he] at h1
    exact absurd h1 (by decide)
  unfold showFixed2
  simp only [List.mem_append, List.mem_cons, List.not_mem_nil, or_false, not_or]
  refine ⟨⟨?_, newline_not_mem_showNat _⟩, hne _ (by decide) (by decide), hdig _ (by omega), hdig _ (by omega)⟩
  split_ifs
  · exact fun h => hne _ (by decide) (by decide) (List.mem_singleton.1 h)
  · simp

end Text
