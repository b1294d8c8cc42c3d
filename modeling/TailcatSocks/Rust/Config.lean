import TailcatSocks.Rust.DnsMap
import TailcatSocks.Library.AddressText

/-!
# Addresses on the command line

`parse_addr` splits a text at its last colon; `join_host_port` puts a host and
a port together again, in brackets when the host has a colon of its own.
-/

namespace TailcatSocks.Rust

open Library

/-- `std::num::IntErrorKind`, as far as an unsigned number can fail. -/
inductive IntErrorKind where
  | empty
  | invalidDigit
  | posOverflow
  deriving DecidableEq, Repr

structure ConfigError where
  addr : Bytes
  source : IntErrorKind
  deriving DecidableEq, Repr

def plus : UInt8 := 43
def openBracket : UInt8 := 91
def closeBracket : UInt8 := 93

/-- The loop of `u16::from_str`, with the value so far. -/
def parseDigits : Nat → Bytes → Except IntErrorKind Nat
  | value, [] => .ok value
  | value, byte :: rest =>
      match digitValue 10 byte with
      | none => .error .invalidDigit
      | some digit =>
          if 65535 < value * 10 + digit then .error .posOverflow
          else parseDigits (value * 10 + digit) rest

/-- `u16::from_str`: a sign may stand before the digits. -/
def parseU16 (text : Bytes) : Except IntErrorKind UInt16 :=
  match text with
  | [] => .error .empty
  | first :: digits =>
      if first = plus then
        if digits = [] then .error .invalidDigit else UInt16.ofNat <$> parseDigits 0 digits
      else UInt16.ofNat <$> parseDigits 0 text

/-- `127.0.0.1` -/
def loopback : Bytes := [49, 50, 55, 46, 48, 46, 48, 46, 49]

/-- Host and port text around `s.rfind(':')`. -/
def splitAddr (s : Bytes) : Bytes × Bytes :=
  match rposition (fun c => c == colon) s with
  | some i => (s.take i, s.drop (i + 1))
  | none => ([], s)

def parsePort (s portStr : Bytes) : Except ConfigError UInt16 :=
  if portStr.isEmpty then .ok 0
  else
    match parseU16 portStr with
    | .ok port => .ok port
    | .error source => .error ⟨s, source⟩

def parseAddr (s : Bytes) : Except ConfigError (Bytes × UInt16) := do
  let (host, portStr) := splitAddr s
  let port ← parsePort s portStr
  let host := if host.isEmpty then loopback else host
  pure (host, port)

/-- The brackets at the two ends are dropped, however many there are. -/
def trimBrackets (host : Bytes) : Bytes :=
  (host.dropWhile fun c => c == openBracket).rdropWhile fun c => c == closeBracket

def joinHostPort (host : Bytes) (port : UInt16) : Bytes :=
  let h := trimBrackets host
  if h.contains colon then openBracket :: h ++ closeBracket :: colon :: numeral 10 port.toNat
  else h ++ colon :: numeral 10 port.toNat

/-! ## Where the text is split -/

/-- `s` is `host` and `portStr` around its last colon. -/
def SplitsAt (s host portStr : Bytes) : Prop := s = host ++ colon :: portStr ∧ colon ∉ portStr

theorem SplitsAt.host_eq {s host host' portStr portStr' : Bytes} (first : SplitsAt s host portStr)
    (second : SplitsAt s host' portStr') : host' = host := by
  obtain ⟨whole, clean⟩ := first
  obtain ⟨whole', clean'⟩ := second
  rcases List.append_eq_append_iff.mp (whole.symm.trans whole') with
    ⟨more, front, back⟩ | ⟨more, front, back⟩
  · cases more with
    | nil => rw [front, List.append_nil]
    | cons c more =>
        rw [List.cons_append, List.cons.injEq] at back
        rw [back.2] at clean
        exact absurd (List.mem_append_right more List.mem_cons_self) clean
  · cases more with
    | nil => rw [front, List.append_nil]
    | cons c more =>
        rw [List.cons_append, List.cons.injEq] at back
        rw [back.2] at clean'
        exact absurd (List.mem_append_right more List.mem_cons_self) clean'

theorem splitAddr_cases (s : Bytes) :
    (colon ∉ s ∧ splitAddr s = ([], s)) ∨ SplitsAt s (splitAddr s).1 (splitAddr s).2 := by
  unfold splitAddr
  split
  · next i here =>
    obtain ⟨before, a, after, rfl, rfl, clean, isColon⟩ := rposition_split here
    obtain rfl : a = colon := eq_of_beq isColon
    refine .inr ⟨?_, ?_⟩
    · simp
    · intro member
      rw [List.drop_length_add_append] at member
      have solid := clean colon member
      simp at solid
  · next absent =>
    refine .inl ⟨fun member => ?_, rfl⟩
    rw [rposition, Option.map_eq_none_iff, List.findIdx?_eq_none_iff] at absent
    simpa using absent colon (List.mem_reverse.mpr member)

theorem parseAddr_host {s host : Bytes} {port : UInt16} (accepts : parseAddr s = .ok (host, port)) :
    host = if (splitAddr s).1.isEmpty then loopback else (splitAddr s).1 := by
  unfold parseAddr at accepts
  cases parses : parsePort s (splitAddr s).2 with
  | error e =>
      simp only [parses] at accepts
      cases accepts
  | ok port' =>
      simp only [parses] at accepts
      cases accepts
      rfl

/-! ## Brackets -/

/-- A host that needs no brackets and has none. -/
structure PlainHost (host : Bytes) : Prop where
  noColon : colon ∉ host
  noOpen : host.head? ≠ some openBracket
  noClose : host.getLast? ≠ some closeBracket

/-- A host with a colon in exactly one pair of brackets. -/
def BracketedHost (host : Bytes) : Prop :=
  ∃ inner, host = openBracket :: inner ++ [closeBracket] ∧ colon ∈ inner ∧
    inner.head? ≠ some openBracket ∧ inner.getLast? ≠ some closeBracket

theorem head_trimBrackets (host : Bytes) : (trimBrackets host).head? ≠ some openBracket := by
  intro starts
  have solid := solid_of_head_dropWhile (head_rdropWhile starts)
  simp at solid

theorem getLast_trimBrackets (host : Bytes) : (trimBrackets host).getLast? ≠ some closeBracket := by
  intro ends
  have solid := solid_of_getLast_rdropWhile ends
  simp at solid

theorem trimBrackets_of_ends {host : Bytes} (noOpen : host.head? ≠ some openBracket)
    (noClose : host.getLast? ≠ some closeBracket) : trimBrackets host = host := by
  have front : host.dropWhile (fun c => c == openBracket) = host := by
    refine dropWhile_of_head fun a starts => ?_
    rw [beq_eq_false_iff_ne]
    rintro rfl
    exact noOpen starts
  rw [trimBrackets, front]
  refine rdropWhile_of_getLast fun a ends => ?_
  rw [beq_eq_false_iff_ne]
  rintro rfl
  exact noClose ends

theorem trimBrackets_bracketed {inner : Bytes} (noOpen : inner.head? ≠ some openBracket)
    (noClose : inner.getLast? ≠ some closeBracket) :
    trimBrackets (openBracket :: inner ++ [closeBracket]) = inner := by
  have whole := trimBrackets_of_ends noOpen noClose
  cases inner with
  | nil => rfl
  | cons first rest =>
      have solid : (first == openBracket) = false := by
        rw [beq_eq_false_iff_ne]
        rintro rfl
        exact noOpen rfl
      have front : ∀ tail : Bytes,
          (first :: tail).dropWhile (fun c => c == openBracket) = first :: tail := fun tail =>
        dropWhile_of_head fun a starts => by cases starts; exact solid
      have dropped : (openBracket :: first :: rest ++ [closeBracket]).dropWhile
          (fun c => c == openBracket) = first :: rest ++ [closeBracket] :=
        front (rest ++ [closeBracket])
      rw [trimBrackets, front] at whole
      rw [trimBrackets, dropped, rdropWhile_append_of_forall (by simp), whole]

/-- Host and port put together as they are give what `join_host_port` gives
exactly for plain and for bracketed hosts. -/
theorem eq_joinHostPort_iff (host : Bytes) (port : UInt16) :
    host ++ colon :: numeral 10 port.toNat = joinHostPort host port ↔
      PlainHost host ∨ BracketedHost host := by
  have noOpen := head_trimBrackets host
  have noClose := getLast_trimBrackets host
  have bracketed :
      openBracket :: trimBrackets host ++ closeBracket :: colon :: numeral 10 port.toNat =
      (openBracket :: trimBrackets host ++ [closeBracket]) ++ colon :: numeral 10 port.toNat := by
    rw [List.append_assoc]
    rfl
  constructor
  · intro same
    unfold joinHostPort at same
    dsimp only at same
    split at same
    · next hasColon =>
      rw [bracketed] at same
      exact .inr ⟨trimBrackets host, List.append_cancel_right same,
        List.contains_iff_mem.mp hasColon, noOpen, noClose⟩
    · next noColon =>
      have whole := List.append_cancel_right same
      rw [← whole] at noOpen noClose noColon
      exact .inl ⟨fun member => noColon (List.contains_iff_mem.mpr member), noOpen, noClose⟩
  · rintro (⟨noColon, noOpen, noClose⟩ | ⟨inner, rfl, hasColon, noOpen, noClose⟩)
    · have absent : ¬ host.contains colon = true := fun present =>
        noColon (List.contains_iff_mem.mp present)
      rw [joinHostPort, trimBrackets_of_ends noOpen noClose, if_neg absent]
    · rw [joinHostPort, trimBrackets_bracketed noOpen noClose,
        if_pos (List.contains_iff_mem.mpr hasColon), List.append_assoc]
      rfl

end TailcatSocks.Rust
