import TailcatSocks.Library.Numerals
import TailcatSocks.Python.Proxy

/-!
# Addresses on the Python command line

`parse_addr` splits a text at its last colon and reads the port with `int`,
which takes more than digits: blanks around the number, a sign, underscores
between digits, and the decimal digits of every script.
-/

namespace TailcatSocks.Python

open Library

def plus : Nat := 43
def minus : Nat := 45
def underscore : Nat := 95

/-! ## `int` -/

/-- What `int` knows of characters beyond ASCII, and how many digits it takes;
0 stands for any number. -/
structure Integers where
  decimal : Nat → Option Nat
  maxDigits : Nat

/-- The blanks of `int`, which among the ASCII characters are not those of `str.strip`. -/
def isIntBlank (code : Nat) : Bool :=
  if code < 128 then (9 ≤ code && code ≤ 13) || code == 32 else isSpace code

def Integers.digit (ints : Integers) (code : Nat) : Option Nat :=
  if code < 128 then if 48 ≤ code ∧ code ≤ 57 then some (code - 48) else none
  else if isSpace code then none else ints.decimal code

/-- The value after that of the digits so far; `afterDigit` says that the last
character was a digit, so that an underscore may follow. -/
def Integers.readDigits (ints : Integers) : Nat → Bool → Str → Option Nat
  | value, afterDigit, [] => if afterDigit then some value else none
  | value, afterDigit, code :: rest =>
      if code = underscore then if afterDigit then ints.readDigits value false rest else none
      else
        match ints.digit code with
        | none => none
        | some digit => ints.readDigits (value * 10 + digit) true rest

def Integers.readNumber (ints : Integers) (digits : Str) : Option Nat :=
  let count := (digits.filter fun code => code ≠ underscore).length
  if ints.maxDigits ≠ 0 ∧ ints.maxDigits < count then none else ints.readDigits 0 false digits

/-- `int(s)`; none stands for a `ValueError`. -/
def Integers.int (ints : Integers) (s : Str) : Option Int :=
  match (s.dropWhile isIntBlank).rdropWhile isIntBlank with
  | [] => none
  | first :: rest =>
      if first = plus then (ints.readNumber rest).map fun n => (n : Int)
      else if first = minus then (ints.readNumber rest).map fun n => -(n : Int)
      else (ints.readNumber (first :: rest)).map fun n => (n : Int)

/-! ## `parse_addr` -/

/-- `127.0.0.1` -/
def loopback : Str := [49, 50, 55, 46, 48, 46, 48, 46, 49]

/-- The outer parts of `s.rpartition(sep)`. -/
def rpartition (s : Str) (sep : Nat) : Str × Str :=
  ((s.rdropWhile fun code => code ≠ sep).dropLast, s.rtakeWhile fun code => code ≠ sep)

/-- `int(port) if port else default_port` -/
def Integers.portOr (ints : Integers) (port : Str) (defaultPort : Option Int) :
    Option (Option Int) :=
  if port = [] then some defaultPort else (ints.int port).map some

/-- `parse_addr`; none stands for a `ValueError`. -/
def parseAddr (ints : Integers) (s : Str) (defaultPort : Option Int) :
    Option (Str × Option Int) := do
  let (host, port) := rpartition s colon
  let host := if host = [] then loopback else host
  let port ← ints.portOr port defaultPort
  some (host, port)

/-! ## What `main` makes of `--upstream` -/

/-- `socks` -/
def socksCommand : Str := [115, 111, 99, 107, 115]

/-- `--listen=` -/
def listenFlag : Str := [45, 45, 108, 105, 115, 116, 101, 110, 61]

/-- `free_high_port`: the first of twenty drawn ports that can be bound, or what
the system assigns. -/
def freeHighPort (draws : Nat → Int) (binds : Str → Int → Bool) (assigned : Str → Int)
    (host : Str) : Int :=
  (((List.range 20).map draws).find? (binds host)).getD (assigned host)

/-- `upstream`, as `main` dials it and has the child listen on it. -/
def resolveUpstream (ints : Integers) (freePort : Str → Int) (s : Str) : Option (Str × Int) := do
  let (upHost, upPort) ← parseAddr ints s none
  let upPort := if upPort.getD 0 = 0 then freePort upHost else upPort.getD 0
  some (upHost, upPort)

/-! ## Where the text is split -/

/-- Decimal digits as characters. -/
def digitText (digits : List Nat) : Str := digits.map fun digit => 48 + digit

/-- Digits, or a plus and digits, with nothing around them. -/
def PlainNumber (text : Str) (digits : List Nat) : Prop :=
  (∀ digit ∈ digits, digit < 10) ∧ digits ≠ [] ∧
    (text = digitText digits ∨ text = plus :: digitText digits)

theorem PlainNumber.solid {text : Str} {digits : List Nat} (plain : PlainNumber text digits) :
    ∀ code ∈ text, isIntBlank code = false := by
  obtain ⟨small, -, written⟩ := plain
  intro code member
  have visible : code = plus ∨ 48 ≤ code ∧ code < 58 := by
    have digit (inDigits : code ∈ digitText digits) : 48 ≤ code ∧ code < 58 := by
      obtain ⟨digit, drawn, rfl⟩ := List.mem_map.mp inDigits
      have below := small digit drawn
      omega
    rcases written with rfl | rfl
    · exact .inr (digit member)
    · exact (List.mem_cons.mp member).imp_right digit
  have ascii : code < 128 := by
    rcases visible with rfl | bounds
    · decide
    · omega
  rw [isIntBlank, if_pos ascii]
  rcases visible with rfl | bounds
  · decide
  · simp only [Bool.or_eq_false_iff, Bool.and_eq_false_iff, decide_eq_false_iff_not,
      beq_eq_false_iff_ne]
    omega

end TailcatSocks.Python
