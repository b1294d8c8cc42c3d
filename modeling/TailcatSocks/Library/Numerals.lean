import TailcatSocks.Library.Wire
import Mathlib.Data.Nat.Init
import Mathlib.Algebra.Group.Nat.Defs
import Mathlib.Data.List.Basic

/-!
# Numerals in a positional base

Printing and reading of natural numbers in bases 2 to 36, with the digits
`0-9a-z` (letters of either case are read, lower case is printed).  A numeral
is read by taking the longest run of digits, so that reading is exact on any
continuation that does not start with a digit.
-/

namespace TailcatSocks.Library

/-! ## Printing -/

def digitByte (digit : Nat) : UInt8 :=
  UInt8.ofNat (if digit < 10 then 48 + digit else 87 + digit)

/-- The digits of `n`, most significant first; `fuel` bounds their number. -/
def digitsWithin (base : Nat) : Nat → Nat → List Nat
  | 0, _ => []
  | fuel + 1, n => (if n < base then [] else digitsWithin base fuel (n / base)) ++ [n % base]

def digitsOf (base n : Nat) : List Nat := digitsWithin base (n + 1) n

def numeral (base n : Nat) : Bytes := (digitsOf base n).map digitByte

/-- More fuel than the number itself changes nothing. -/
theorem digitsWithin_eq {base : Nat} (large : 2 ≤ base) (n : Nat) :
    ∀ fuel, n < fuel → digitsWithin base fuel n = digitsOf base n := by
  induction n using Nat.strong_induction_on with
  | _ n ih =>
      intro fuel enough
      obtain ⟨fuel, rfl⟩ : ∃ k, fuel = k + 1 := ⟨fuel - 1, by omega⟩
      unfold digitsOf digitsWithin
      by_cases small : n < base
      · rw [if_pos small, if_pos small]
      · have shrinks : n / base < n := Nat.div_lt_self (by omega) large
        rw [if_neg small, if_neg small, ih _ shrinks fuel (by omega), ih _ shrinks n shrinks]

theorem digitsOf_eq {base : Nat} (large : 2 ≤ base) (n : Nat) :
    digitsOf base n = (if n < base then [] else digitsOf base (n / base)) ++ [n % base] := by
  by_cases small : n < base
  · simp only [digitsOf, digitsWithin, if_pos small]
  · have shrinks : n / base < n := Nat.div_lt_self (by omega) large
    rw [if_neg small, ← digitsWithin_eq large (n / base) n shrinks]
    simp only [digitsOf, digitsWithin, if_neg small]

theorem digitsOf_ne_nil {base : Nat} (large : 2 ≤ base) (n : Nat) : digitsOf base n ≠ [] := by
  rw [digitsOf_eq large]
  exact List.append_ne_nil_of_right_ne_nil _ (List.cons_ne_nil _ _)

theorem lt_of_mem_digitsOf {base : Nat} (large : 2 ≤ base) (n : Nat) :
    ∀ digit ∈ digitsOf base n, digit < base := by
  induction n using Nat.strong_induction_on with
  | _ n ih =>
      intro digit member
      rw [digitsOf_eq large, List.mem_append, List.mem_singleton] at member
      rcases member with member | rfl
      · by_cases small : n < base
        · simp [small] at member
        · rw [if_neg small] at member
          exact ih _ (Nat.div_lt_self (by omega) large) digit member
      · exact Nat.mod_lt _ (by omega)

theorem length_digitsOf_le {base : Nat} (large : 2 ≤ base) (count : Nat) :
    ∀ n, n < base ^ (count + 1) → (digitsOf base n).length ≤ count + 1 := by
  induction count with
  | zero =>
      intro n bound
      rw [digitsOf_eq large, if_pos (by simpa using bound)]
      simp
  | succ count ih =>
      intro n bound
      rw [digitsOf_eq large, List.length_append, List.length_singleton]
      split
      · simp
      · have quotient : n / base < base ^ (count + 1) :=
          Nat.div_lt_of_lt_mul (by rwa [← Nat.pow_succ'])
        have := ih _ quotient
        omega

/-- Only the number zero is printed with a leading zero digit. -/
theorem head_digitsOf_ne_zero {base : Nat} (large : 2 ≤ base) (n : Nat) (positive : 0 < n) :
    (digitsOf base n).head? ≠ some 0 := by
  induction n using Nat.strong_induction_on with
  | _ n ih =>
      rw [digitsOf_eq large]
      by_cases small : n < base
      · rw [if_pos small, Nat.mod_eq_of_lt small]
        simpa using Nat.pos_iff_ne_zero.mp positive
      · rw [if_neg small, List.head?_append_of_ne_nil _ (digitsOf_ne_nil large _)]
        exact ih _ (Nat.div_lt_self (by omega) large) (Nat.div_pos (by omega) (by omega))

/-! ## Reading -/

def digitValue (base : Nat) (byte : UInt8) : Option Nat :=
  let code := byte.toNat
  let value :=
    if 48 ≤ code ∧ code ≤ 57 then some (code - 48)
    else if 97 ≤ code ∧ code ≤ 122 then some (code - 87)
    else if 65 ≤ code ∧ code ≤ 90 then some (code - 55)
    else none
  value.filter (· < base)

theorem digitValue_digitByte {base digit : Nat} (small : base ≤ 36) (isDigit : digit < base) :
    digitValue base (digitByte digit) = some digit := by
  have code : (digitByte digit).toNat = if digit < 10 then 48 + digit else 87 + digit := by
    unfold digitByte
    rw [UInt8.toNat_ofNat']
    split <;> omega
  unfold digitValue
  rw [code]
  by_cases decimal : digit < 10
  · simp only [if_pos decimal]
    rw [if_pos (by omega)]
    simpa using isDigit
  · simp only [if_neg decimal]
    rw [if_neg (by omega), if_pos (by omega)]
    simpa using isDigit

/-- The longest run of digits at the front, and what follows it. -/
def readDigits (base : Nat) : Bytes → List Nat × Bytes
  | [] => ([], [])
  | byte :: rest =>
      match digitValue base byte with
      | some digit => (digit :: (readDigits base rest).1, (readDigits base rest).2)
      | none => ([], byte :: rest)

def valueOf (base : Nat) (digits : List Nat) : Nat :=
  digits.foldl (fun value digit => value * base + digit) 0

/-- No digit of the base stands at the front. -/
def NoDigit (base : Nat) (text : Bytes) : Prop :=
  ∀ byte, text.head? = some byte → digitValue base byte = none

theorem noDigit_nil (base : Nat) : NoDigit base [] := by
  intro byte impossible
  cases impossible

theorem noDigit_cons {base : Nat} {byte : UInt8} {rest : Bytes}
    (none : digitValue base byte = none) : NoDigit base (byte :: rest) := by
  intro first same
  rw [List.head?_cons, Option.some.injEq] at same
  exact same ▸ none

theorem readDigits_of_noDigit {base : Nat} {text : Bytes} (stop : NoDigit base text) :
    readDigits base text = ([], text) := by
  cases text with
  | nil => rfl
  | cons byte rest => simp only [readDigits, stop byte rfl]

theorem readDigits_map_append {base : Nat} (small : base ≤ 36) {digits : List Nat} {rest : Bytes}
    (areDigits : ∀ digit ∈ digits, digit < base) (stop : NoDigit base rest) :
    readDigits base (digits.map digitByte ++ rest) = (digits, rest) := by
  induction digits with
  | nil => exact readDigits_of_noDigit stop
  | cons digit digits ih =>
      have first := digitValue_digitByte small (areDigits digit List.mem_cons_self)
      have others := ih fun d member => areDigits d (List.mem_cons_of_mem _ member)
      simp only [List.map_cons, List.cons_append, readDigits, first, others]

theorem readDigits_numeral {base : Nat} (large : 2 ≤ base) (small : base ≤ 36) (n : Nat)
    {rest : Bytes} (stop : NoDigit base rest) :
    readDigits base (numeral base n ++ rest) = (digitsOf base n, rest) :=
  readDigits_map_append small (lt_of_mem_digitsOf large n) stop

theorem valueOf_concat (base : Nat) (digits : List Nat) (digit : Nat) :
    valueOf base (digits ++ [digit]) = valueOf base digits * base + digit := by
  simp only [valueOf, List.foldl_append, List.foldl_cons, List.foldl_nil]

/-- The digits of a number have its value. -/
theorem valueOf_digitsOf {base : Nat} (large : 2 ≤ base) (n : Nat) :
    valueOf base (digitsOf base n) = n := by
  induction n using Nat.strong_induction_on with
  | _ n ih =>
      rw [digitsOf_eq large, valueOf_concat]
      by_cases small : n < base
      · rw [if_pos small, Nat.mod_eq_of_lt small]
        simp [valueOf]
      · rw [if_neg small, ih _ (Nat.div_lt_self (by omega) large)]
        exact Nat.div_add_mod' n base

/-! ## Bounded numbers in a text -/

/-- Read a number below `bound` of one to `maxDigits` digits; a leading zero
before other digits is refused unless `zeros` allows it. -/
def readNumber (base maxDigits : Nat) (zeros : Bool) (bound : Nat) (text : Bytes) :
    Option (Nat × Bytes) :=
  let digits := (readDigits base text).1
  if maxDigits < digits.length then none
  else if digits = [] then none
  else if !zeros ∧ digits.head? = some 0 ∧ 1 < digits.length then none
  else if valueOf base digits < bound then some (valueOf base digits, (readDigits base text).2)
  else none

theorem readNumber_of_noDigit {base maxDigits bound : Nat} {zeros : Bool} {text : Bytes}
    (stop : NoDigit base text) : readNumber base maxDigits zeros bound text = none := by
  simp [readNumber, readDigits_of_noDigit stop]

/-- What `readNumber` leaves starts where the run of digits ends. -/
theorem readNumber_rest {base maxDigits bound n : Nat} {zeros : Bool} {text rest : Bytes}
    (done : readNumber base maxDigits zeros bound text = some (n, rest)) :
    rest = (readDigits base text).2 := by
  unfold readNumber at done
  simp only at done
  split at done
  · cases done
  split at done
  · cases done
  split at done
  · cases done
  split at done
  · cases done
    rfl
  · cases done

/-- A printed number is read back, whatever non-digit follows it. -/
theorem readNumber_numeral {base count bound n : Nat} {zeros : Bool} {rest : Bytes}
    (large : 2 ≤ base) (small : base ≤ 36) (fits : n < base ^ (count + 1)) (bounded : n < bound)
    (stop : NoDigit base rest) :
    readNumber base (count + 1) zeros bound (numeral base n ++ rest) = some (n, rest) := by
  have short := length_digitsOf_le large count n fits
  have plain : ¬ ((!zeros) = true ∧ (digitsOf base n).head? = some 0 ∧
      1 < (digitsOf base n).length) := by
    rintro ⟨-, zeroFirst, long⟩
    rcases Nat.eq_zero_or_pos n with rfl | positive
    · rw [digitsOf_eq large, if_pos (by omega)] at long
      simp at long
    · exact head_digitsOf_ne_zero large n positive zeroFirst
  simp only [readNumber, readDigits_numeral large small n stop]
  rw [if_neg (by omega), if_neg (digitsOf_ne_nil large n), if_neg plain,
    valueOf_digitsOf large, if_pos bounded]

end TailcatSocks.Library
