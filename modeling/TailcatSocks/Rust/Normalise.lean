import TailcatSocks.Rust.Config

/-!
# Normalised addresses

An address is split by `parse_addr` and put together by `join_host_port`.  What
comes out has the shape that both leave alone, unless nothing is left of the
host: brackets are dropped only after the empty host has become loopback.
-/

namespace TailcatSocks.Rust

open Library

/-! ## Ports -/

theorem le_foldl_digits (digits : List Nat) (value : Nat) :
    value ≤ digits.foldl (fun value digit => value * 10 + digit) value := by
  induction digits generalizing value with
  | nil => exact Nat.le_refl value
  | cons digit digits ih =>
      have first : value ≤ value * 10 + digit := by omega
      exact Nat.le_trans first (ih (value * 10 + digit))

/-- A value that fits is never refused on the way to it. -/
theorem parseDigits_map {digits : List Nat} (areDigits : ∀ digit ∈ digits, digit < 10)
    {value : Nat} (fits : digits.foldl (fun value digit => value * 10 + digit) value ≤ 65535) :
    parseDigits value (digits.map digitByte) =
      .ok (digits.foldl (fun value digit => value * 10 + digit) value) := by
  induction digits generalizing value with
  | nil => rfl
  | cons digit digits ih =>
      have isDigit := digitValue_digitByte (by decide) (areDigits digit List.mem_cons_self)
      have small := Nat.le_trans (le_foldl_digits digits (value * 10 + digit)) fits
      rw [List.map_cons, parseDigits, isDigit]
      dsimp only
      rw [if_neg (Nat.not_lt.mpr small)]
      exact ih (fun d member => areDigits d (List.mem_cons_of_mem _ member)) fits

theorem ne_of_mem_numeral {byte other : UInt8} {n : Nat} (noDigit : digitValue 10 other = none)
    (member : byte ∈ numeral 10 n) : byte ≠ other := by
  obtain ⟨digit, inDigits, rfl⟩ := List.mem_map.mp member
  intro same
  have isDigit := digitValue_digitByte (by decide) (lt_of_mem_digitsOf (by decide) n digit inDigits)
  rw [same, noDigit] at isDigit
  cases isDigit

theorem parseDigits_numeral (port : UInt16) :
    parseDigits 0 (numeral 10 port.toNat) = .ok port.toNat := by
  have value : (digitsOf 10 port.toNat).foldl (fun value digit => value * 10 + digit) 0 =
      port.toNat := valueOf_digitsOf (by decide) port.toNat
  have fits : port.toNat ≤ 65535 := Nat.le_of_lt_succ port.toNat_lt
  have parses := parseDigits_map (lt_of_mem_digitsOf (by decide) port.toNat) (value.symm ▸ fits)
  rw [value] at parses
  exact parses

/-- A printed port is read back. -/
theorem parsePort_numeral (s : Bytes) (port : UInt16) :
    parsePort s (numeral 10 port.toNat) = .ok port := by
  have parses := parseDigits_numeral port
  have noSign : ∀ byte ∈ numeral 10 port.toNat, byte ≠ plus :=
    fun byte member => ne_of_mem_numeral (by decide) member
  unfold parsePort parseU16
  cases digits : numeral 10 port.toNat with
  | nil => exact absurd (List.map_eq_nil_iff.mp digits) (digitsOf_ne_nil (by decide) _)
  | cons first rest =>
      rw [digits] at parses noSign
      have read : (UInt16.ofNat <$> parseDigits 0 (first :: rest) : Except IntErrorKind UInt16) =
          .ok port := by
        rw [parses]
        exact congrArg Except.ok UInt16.ofNat_toNat
      simp only [List.isEmpty_cons, Bool.false_eq_true, if_false,
        if_neg (noSign first List.mem_cons_self), read]

/-! ## Splitting -/

theorem SplitsAt.splitAddr {s host portStr : Bytes} (splits : SplitsAt s host portStr) :
    splitAddr s = (host, portStr) := by
  rcases splitAddr_cases s with ⟨absent, -⟩ | splits'
  · rw [splits.1] at absent
    exact absurd (List.mem_append_right host List.mem_cons_self) absent
  · have sameHost := splits.host_eq splits'
    have whole := splits.1.symm.trans splits'.1
    rw [sameHost, List.append_cancel_left_eq, List.cons.injEq] at whole
    rw [whole.2, ← sameHost]

theorem parseAddr_of_splitsAt {s host : Bytes} {port : UInt16}
    (splits : SplitsAt s host (numeral 10 port.toNat)) :
    parseAddr s = .ok (if host.isEmpty then loopback else host, port) := by
  unfold parseAddr
  rw [splits.splitAddr]
  dsimp only
  rw [parsePort_numeral]
  rfl

/-! ## Joining -/

/-- The host of `join_host_port`'s result. -/
def joinedHost (host : Bytes) : Bytes :=
  let h := trimBrackets host
  if h.contains colon then openBracket :: h ++ [closeBracket] else h

theorem splitsAt_joinHostPort (host : Bytes) (port : UInt16) :
    SplitsAt (joinHostPort host port) (joinedHost host) (numeral 10 port.toNat) := by
  refine ⟨?_, fun member => ne_of_mem_numeral (digitValue_colon 10) member rfl⟩
  unfold joinHostPort joinedHost
  dsimp only
  split
  · rw [List.append_assoc]
    rfl
  · rfl

/-- A host that was joined once is joined as it is. -/
theorem joinHostPort_joinedHost (host : Bytes) (port : UInt16) :
    joinHostPort (joinedHost host) port = joinHostPort host port := by
  have noOpen := head_trimBrackets host
  have noClose := getLast_trimBrackets host
  have shape : PlainHost (joinedHost host) ∨ BracketedHost (joinedHost host) := by
    unfold joinedHost
    dsimp only
    split
    · next hasColon =>
      exact .inr ⟨trimBrackets host, rfl, List.contains_iff_mem.mp hasColon, noOpen, noClose⟩
    · next noColon =>
      exact .inl ⟨fun member => noColon (List.contains_iff_mem.mpr member), noOpen, noClose⟩
  rw [← (eq_joinHostPort_iff (joinedHost host) port).mpr shape]
  exact (splitsAt_joinHostPort host port).1.symm

theorem joinedHost_eq_nil_iff (host : Bytes) : joinedHost host = [] ↔ trimBrackets host = [] := by
  unfold joinedHost
  dsimp only
  split
  · next hasColon =>
    refine iff_of_false (List.cons_ne_nil _ _) fun nothing => ?_
    rw [nothing] at hasColon
    cases hasColon
  · exact Iff.rfl

/-- Nothing is left of a run of opening brackets before a run of closing ones,
and of no other host. -/
theorem trimBrackets_eq_nil_iff (host : Bytes) :
    trimBrackets host = [] ↔ ∃ opening closing,
      host = List.replicate opening openBracket ++ List.replicate closing closeBracket := by
  constructor
  · intro nothing
    rw [trimBrackets, List.rdropWhile_eq_nil_iff] at nothing
    have opens : ∀ c ∈ host.takeWhile (fun c => c == openBracket), c = openBracket := by
      intro c member
      have isOpen := List.mem_takeWhile_imp member
      exact eq_of_beq isOpen
    have closes : ∀ c ∈ host.dropWhile (fun c => c == openBracket), c = closeBracket :=
      fun c member => eq_of_beq (nothing c member)
    refine ⟨(host.takeWhile fun c => c == openBracket).length,
      (host.dropWhile fun c => c == openBracket).length, ?_⟩
    rw [← List.eq_replicate_of_mem opens, ← List.eq_replicate_of_mem closes,
      List.takeWhile_append_dropWhile]
  · rintro ⟨opening, closing, rfl⟩
    have front : ∀ c ∈ List.replicate opening openBracket, (c == openBracket) = true := by
      intro c member
      rw [List.eq_of_mem_replicate member]
      rfl
    have solid : (List.replicate closing closeBracket).dropWhile (fun c => c == openBracket) =
        List.replicate closing closeBracket := by
      refine dropWhile_of_head fun c starts => ?_
      rw [List.eq_of_mem_replicate (List.mem_of_head? starts)]
      rfl
    rw [trimBrackets, List.dropWhile_append_of_pos front, solid, List.rdropWhile_eq_nil_iff]
    intro c member
    rw [List.eq_of_mem_replicate member]
    rfl

/-! ## Normalising twice -/

/-- The address that is made of host and port has a host, and is split and made
again with the same port. -/
def Normalises (host : Bytes) (port : UInt16) : Prop :=
  let t := joinHostPort host port
  (∃ host' portStr, SplitsAt t host' portStr ∧ host' ≠ []) ∧
    ∃ host', parseAddr t = .ok (host', port) ∧ joinHostPort host' port = t

theorem normalises_iff_trimBrackets (host : Bytes) (port : UInt16) :
    Normalises host port ↔ trimBrackets host ≠ [] := by
  have splits := splitsAt_joinHostPort host port
  rw [Ne, ← joinedHost_eq_nil_iff]
  constructor
  · rintro ⟨⟨host', portStr, splits', hasHost⟩, -⟩ nothing
    rw [splits.host_eq splits', nothing] at hasHost
    exact hasHost rfl
  · intro hasHost
    have parses := parseAddr_of_splitsAt splits
    rw [if_neg (mt List.isEmpty_iff.mp hasHost)] at parses
    exact ⟨⟨_, _, splits, hasHost⟩, joinedHost host, parses, joinHostPort_joinedHost host port⟩

/-- Before its last colon the text has brackets and nothing else, opening ones first. -/
def BracketsAlone (s : Bytes) : Prop :=
  ∃ opening closing portStr, 0 < opening + closing ∧
    SplitsAt s (List.replicate opening openBracket ++ List.replicate closing closeBracket) portStr

/-- For every accepted text: the address made of it has a host, and is split and
made again unchanged, exactly when the host of the text is not brackets alone. -/
theorem normalises_iff {s host : Bytes} {port : UInt16}
    (accepts : parseAddr s = .ok (host, port)) :
    Normalises host port ↔ ¬ BracketsAlone s := by
  rw [normalises_iff_trimBrackets, parseAddr_host accepts, not_iff_not]
  split
  · next empty =>
    refine iff_of_false (by decide) ?_
    rintro ⟨opening, closing, portStr, some, splits⟩
    rw [splits.splitAddr, List.isEmpty_iff, List.append_eq_nil_iff, List.replicate_eq_nil_iff,
      List.replicate_eq_nil_iff] at empty
    omega
  · next hasHost =>
    rw [trimBrackets_eq_nil_iff]
    rcases splitAddr_cases s with ⟨-, split⟩ | splits
    · rw [split] at hasHost
      exact absurd rfl hasHost
    · constructor
      · rintro ⟨opening, closing, brackets⟩
        rw [brackets] at splits hasHost
        refine ⟨opening, closing, _, Nat.pos_of_ne_zero fun none => hasHost ?_, splits⟩
        rw [Nat.eq_zero_of_add_eq_zero_right none, Nat.eq_zero_of_add_eq_zero_left none]
        rfl
      · rintro ⟨opening, closing, portStr, -, splits'⟩
        exact ⟨opening, closing, by rw [splits'.splitAddr]⟩

/-- `[::1]:1081` -/
theorem normalises_bracketed : Normalises [91, 58, 58, 49, 93] 1081 := by
  have accepts : parseAddr [91, 58, 58, 49, 93, 58, 49, 48, 56, 49] =
      .ok ([91, 58, 58, 49, 93], 1081) := by decide +kernel
  refine (normalises_iff accepts).mpr ?_
  rintro ⟨opening, closing, portStr, -, splits⟩
  have host : SplitsAt [91, 58, 58, 49, 93, 58, 49, 48, 56, 49] [91, 58, 58, 49, 93]
      [49, 48, 56, 49] := ⟨rfl, by decide⟩
  have inside : colon ∈ [91, 58, 58, 49, 93] := by decide
  rw [← host.host_eq splits, List.mem_append] at inside
  rcases inside with opens | closes
  · exact absurd (List.eq_of_mem_replicate opens) (by decide)
  · exact absurd (List.eq_of_mem_replicate closes) (by decide)

/-- `[]:8080` becomes `:8080`, and that `127.0.0.1:8080`. -/
theorem host_lost_of_empty_brackets :
    parseAddr [91, 93, 58, 56, 48, 56, 48] = .ok ([91, 93], 8080) ∧
      joinHostPort [91, 93] 8080 = [58, 56, 48, 56, 48] ∧
      ¬ Normalises [91, 93] 8080 := by
  refine ⟨by decide +kernel, by decide +kernel, ?_⟩
  rw [normalises_iff_trimBrackets]
  exact not_not.mpr rfl

end TailcatSocks.Rust
