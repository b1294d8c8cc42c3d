import TailcatSocks.Go.HostPort
import TailcatSocks.Rust.Normalise
import TailcatSocks.Rust.Startup

/-!
# Upstream addresses

What the Go program makes of an address it accepts again and leaves alone.  On
an address that it accepts with a port, the Rust program dials the same address,
unless the host is left out.  The Rust program has its flags as `String`, and
never sees a value that is not valid UTF-8.
-/

namespace TailcatSocks

open Library

/-! ## Ports -/

/-- The larger bound of `strconv` refuses nothing that fits a port. -/
theorem parseUint_of_parseDigits {text : Bytes} {value port : Nat}
    (reads : Rust.parseDigits value text = .ok port) : Go.parseUint value text = .ok port := by
  induction text generalizing value with
  | nil => exact congrArg Except.ok (Except.ok.inj reads)
  | cons byte rest ih =>
      cases isDigit : digitValue 10 byte with
      | none =>
          rw [Rust.parseDigits, isDigit] at reads
          cases reads
      | some digit =>
          rw [Rust.parseDigits, isDigit] at reads
          rw [Go.parseUint, isDigit]
          dsimp only at reads ⊢
          split at reads
          · cases reads
          · rw [if_neg (by omega), ih reads]

theorem le_of_parseUint {text : Bytes} {value port : Nat}
    (reads : Go.parseUint value text = .ok port) : value ≤ port := by
  induction text generalizing value with
  | nil => exact (Except.ok.inj reads).le
  | cons byte rest ih =>
      cases isDigit : digitValue 10 byte with
      | none =>
          rw [Go.parseUint, isDigit] at reads
          cases reads
      | some digit =>
          rw [Go.parseUint, isDigit] at reads
          dsimp only at reads
          split at reads
          · cases reads
          · exact le_trans (by omega) (ih reads)

/-- A number that fits a port is read alike. -/
theorem parseDigits_of_parseUint {text : Bytes} {value port : Nat}
    (reads : Go.parseUint value text = .ok port) (fits : port ≤ 65535) :
    Rust.parseDigits value text = .ok port := by
  induction text generalizing value with
  | nil => exact congrArg Except.ok (Except.ok.inj reads)
  | cons byte rest ih =>
      cases isDigit : digitValue 10 byte with
      | none =>
          rw [Go.parseUint, isDigit] at reads
          cases reads
      | some digit =>
          rw [Go.parseUint, isDigit] at reads
          rw [Rust.parseDigits, isDigit]
          dsimp only at reads ⊢
          split at reads
          · cases reads
          · rw [if_neg (Nat.not_lt.mpr ((le_of_parseUint reads).trans fits)), ih reads]

theorem atoi_numeral {port : Nat} (fits : port ≤ 65535) :
    Go.atoi (numeral 10 port) = .ok (port : Int) := by
  have word : (UInt16.ofNat port).toNat = port := by
    rw [UInt16.toNat_ofNat', Nat.mod_eq_of_lt (by omega)]
  have reads := parseUint_of_parseDigits (Rust.parseDigits_numeral (UInt16.ofNat port))
  rw [word] at reads
  have digit (sign : UInt8) (noDigit : digitValue 10 sign = none) :
      ∀ byte ∈ numeral 10 port, byte ≠ sign := fun byte member =>
    Rust.ne_of_mem_numeral noDigit member
  cases text : numeral 10 port with
  | nil => exact absurd (List.map_eq_nil_iff.mp text) (digitsOf_ne_nil (by decide) _)
  | cons first rest =>
      have noMinus := digit Go.minus (by decide) first (text ▸ List.mem_cons_self)
      have noPlus := digit Go.plus (by decide) first (text ▸ List.mem_cons_self)
      rw [text] at reads
      simp only [Go.atoi, if_neg noMinus, if_neg noPlus, Go.parseMagnitude, reduceCtorEq, if_false,
        reads]
      exact if_neg (by omega)

theorem except_bind_eq_ok {ε α β : Type} {first : Except ε α} {next : α → Except ε β} {b : β} :
    (first >>= next) = .ok b ↔ ∃ a, first = .ok a ∧ next a = .ok b := by
  cases first with
  | error e => exact iff_of_false (fun done => by cases done) (fun ⟨_, done, _⟩ => by cases done)
  | ok a =>
      refine ⟨fun done => ⟨a, rfl, done⟩, ?_⟩
      rintro ⟨a', same, done⟩
      cases same
      exact done

theorem atoi_cons (first : UInt8) (rest : Bytes) :
    Go.atoi (first :: rest) =
      if first = Go.minus then
        Go.parseMagnitude rest >>= fun n =>
          if 9223372036854775808 < n then .error .range else .ok (-(n : Int))
      else
        Go.parseMagnitude (if first = Go.plus then rest else first :: rest) >>= fun n =>
          if 9223372036854775807 < n then .error .range else .ok (n : Int) := rfl

theorem parseUint_of_magnitude {digits : Bytes} {n : Nat}
    (reads : Go.parseMagnitude digits = .ok n) : digits ≠ [] ∧ Go.parseUint 0 digits = .ok n := by
  unfold Go.parseMagnitude at reads
  split at reads
  · cases reads
  · exact ⟨‹_›, reads⟩

/-- A port other than 0 that `Atoi` reads is read by `u16::from_str`. -/
theorem parsePort_of_atoi {s portStr : Bytes} {port : Nat}
    (reads : Go.atoi portStr = .ok (port : Int)) (fits : port ≤ 65535) (given : port ≠ 0) :
    Rust.parsePort s portStr = .ok (UInt16.ofNat port) := by
  cases portStr with
  | nil => cases reads
  | cons first rest =>
      rw [atoi_cons] at reads
      split at reads
      · obtain ⟨n, -, range⟩ := except_bind_eq_ok.mp reads
        split at range
        · cases range
        · have negative := Except.ok.inj range
          omega
      · obtain ⟨n, magnitude, range⟩ := except_bind_eq_ok.mp reads
        split at range
        · cases range
        · obtain rfl : n = port := Int.ofNat_inj.mp (Except.ok.inj range)
          have parses : Rust.parseU16 (first :: rest) = .ok (UInt16.ofNat n) := by
            unfold Rust.parseU16
            dsimp only
            by_cases isPlus : first = Go.plus
            · rw [if_pos isPlus] at magnitude
              obtain ⟨some_digits, reads⟩ := parseUint_of_magnitude magnitude
              have signed : first = Rust.plus := isPlus
              rw [if_pos signed, if_neg some_digits, parseDigits_of_parseUint reads fits]
              rfl
            · rw [if_neg isPlus] at magnitude
              have unsigned : ¬ first = Rust.plus := isPlus
              rw [if_neg unsigned,
                parseDigits_of_parseUint (parseUint_of_magnitude magnitude).2 fits]
              rfl
          unfold Rust.parsePort
          rw [parses]
          rfl

/-! ## Addresses -/

theorem bare_numeral (port : Nat) : Go.Bare (numeral 10 port) := by
  have absent (byte : UInt8) (noDigit : digitValue 10 byte = none) : byte ∉ numeral 10 port :=
    fun member => Rust.ne_of_mem_numeral noDigit member rfl
  exact ⟨absent _ (by decide), absent _ (by decide), absent _ (by decide)⟩

/-- An upstream address is that of a listener on port 0 of the given host, or it
is the host and the port as a numeral; and then `upstreamAddr` accepts it again
and leaves it alone. -/
theorem upstreamAddr_settles (probe : Bytes → Option Bytes) {upstream addr : Bytes}
    (accepts : Go.upstreamAddr probe upstream = .ok addr) :
    ∃ (host portStr : Bytes) (port : Nat), Go.splitHostPort upstream = .ok (host, portStr) ∧
      Go.atoi portStr = .ok (port : Int) ∧ port ≤ 65535 ∧
      (port = 0 ∧ probe (Go.joinHostPort host [48]) = some addr ∨
        port ≠ 0 ∧ Go.splitHostPort addr = .ok (host, numeral 10 port) ∧
          Go.upstreamAddr probe addr = .ok addr) := by
  unfold Go.upstreamAddr at accepts
  obtain ⟨⟨host, portStr, port⟩, checks, rest⟩ := except_bind_eq_ok.mp accepts
  obtain ⟨splits, reads, fits⟩ := Go.checkFlag_eq_ok.mp checks
  refine ⟨host, portStr, port, splits, reads, fits, ?_⟩
  dsimp only at rest
  split at rest
  · next given =>
    cases rest
    have again := Go.checkFlag_joinHostPort checks (bare_numeral port) (atoi_numeral fits)
    refine .inr ⟨given, (Go.checkFlag_eq_ok.mp again).1, ?_⟩
    unfold Go.upstreamAddr
    rw [again]
    exact if_pos given
  · next zero =>
    split at rest
    · cases rest
      exact .inl ⟨not_not.mp zero, ‹_›⟩
    · cases rest

/-- `[::1]:+01081` is settled as `[::1]:1081`. -/
theorem upstreamAddr_settles_signed :
    ∃ (host portStr : Bytes) (port : Nat),
      Go.splitHostPort [91, 58, 58, 49, 93, 58, 43, 48, 49, 48, 56, 49] = .ok (host, portStr) ∧
      Go.atoi portStr = .ok (port : Int) ∧ port ≤ 65535 ∧
      (port = 0 ∧ (none : Option Bytes) = some Rust.bracketedUpstream ∨
        port ≠ 0 ∧ Go.splitHostPort Rust.bracketedUpstream = .ok (host, numeral 10 port) ∧
          Go.upstreamAddr (fun _ => none) Rust.bracketedUpstream = .ok Rust.bracketedUpstream) :=
  upstreamAddr_settles (fun _ => none) (by decide +kernel)

/-- What the Rust program makes of a port that the Go program accepts. -/
theorem resolveUpstream_of_atoi (freeHighPort : Bytes → UInt16)
    {upstream typed portStr : Bytes} {port : Nat} (splits : Rust.SplitsAt upstream typed portStr)
    (reads : Go.atoi portStr = .ok (port : Int)) (fits : port ≤ 65535) (given : port ≠ 0) :
    Rust.resolveUpstream freeHighPort upstream =
      .ok ⟨Rust.spawnSocks (if typed.isEmpty then Rust.loopback else typed) (UInt16.ofNat port),
        Rust.joinHostPort (if typed.isEmpty then Rust.loopback else typed)
          (UInt16.ofNat port)⟩ := by
  have word : (UInt16.ofNat port).toNat = port := by
    rw [UInt16.toNat_ofNat', Nat.mod_eq_of_lt (by omega)]
  have notZero : UInt16.ofNat port ≠ 0 := fun zero => given (word.symm.trans (by rw [zero]; rfl))
  unfold Rust.resolveUpstream Rust.parseAddr
  rw [splits.splitAddr]
  dsimp only
  rw [parsePort_of_atoi reads fits given]
  change Except.ok _ = _
  rw [if_neg notZero]

/-- On an address that the Go program accepts with a port, the Rust program
dials what the Go program dials exactly when the address does not start with
its colon.  Of an address that is not valid UTF-8, which the Go program may
accept, `clap` makes an error before any of this. -/
theorem upstream_addresses_agree_iff (probe : Bytes → Option Bytes) (freeHighPort : Bytes → UInt16)
    {upstream host portStr : Bytes} {port : Nat}
    (accepts : Go.checkFlag upstream = .ok (host, portStr, port)) (given : port ≠ 0) :
    ∃ addr launch, Go.upstreamAddr probe upstream = .ok addr ∧
      Rust.resolveUpstream freeHighPort upstream = .ok launch ∧
      (launch.upAddr = addr ↔ upstream.head? ≠ some colon) := by
  obtain ⟨splits, reads, fits⟩ := Go.checkFlag_eq_ok.mp accepts
  have word : (UInt16.ofNat port).toNat = port := by
    rw [UInt16.toNat_ofNat', Nat.mod_eq_of_lt (by omega)]
  have goes : Go.upstreamAddr probe upstream = .ok (Go.joinHostPort host (numeral 10 port)) := by
    unfold Go.upstreamAddr
    rw [accepts]
    exact if_pos given
  rcases (Go.splitHostPort_eq_ok.mp splits) with
    ⟨barePort, ⟨rfl, bareHost⟩ | ⟨rfl, noOpen, noClose⟩⟩
  · have typed : Rust.SplitsAt (host ++ colon :: portStr) host portStr := ⟨rfl, barePort.noColon⟩
    have resolves := resolveUpstream_of_atoi freeHighPort typed reads fits given
    refine ⟨_, _, goes, resolves, ?_⟩
    dsimp only
    rw [Go.joinHostPort, if_neg bareHost.noColon]
    cases host with
    | nil =>
        refine iff_of_false (fun same => ?_) fun notColon => notColon rfl
        have first := congrArg List.head? same
        cases first
    | cons first rest =>
        have plain : Rust.PlainHost (first :: rest) :=
          ⟨bareHost.noColon, fun opens => bareHost.noOpen (List.mem_of_head? opens),
            fun closes => bareHost.noClose (List.mem_of_getLast? closes)⟩
        have joined := (Rust.eq_joinHostPort_iff _ (UInt16.ofNat port)).mpr (.inl plain)
        rw [word] at joined
        refine iff_of_true joined.symm fun starts => bareHost.noColon ?_
        exact List.mem_of_head? starts
  · have typed : Rust.SplitsAt (Go.openBracket :: host ++ Go.closeBracket :: colon :: portStr)
        (Go.openBracket :: host ++ [Go.closeBracket]) portStr := by
      refine ⟨?_, barePort.noColon⟩
      rw [List.append_assoc]
      rfl
    have resolves := resolveUpstream_of_atoi freeHighPort typed reads fits given
    refine ⟨_, _, goes, resolves, iff_of_true ?_ ?_⟩
    · have trimmed : Rust.trimBrackets (Go.openBracket :: host ++ [Go.closeBracket]) = host :=
        Rust.trimBrackets_bracketed (fun opens => noOpen (List.mem_of_head? opens))
          (fun closes => noClose (List.mem_of_getLast? closes))
      dsimp only
      rw [if_neg (by simp), Rust.joinHostPort, trimmed, word, Go.joinHostPort]
      simp only [List.contains_iff_mem]
      rfl
    · exact fun starts => Go.open_ne_colon (Option.some.inj starts)

theorem upstream_addresses_agree_bracketed :
    ∃ addr launch, Go.upstreamAddr (fun _ => none) Rust.bracketedUpstream = .ok addr ∧
      Rust.resolveUpstream (fun _ => 20000) Rust.bracketedUpstream = .ok launch ∧
      (launch.upAddr = addr ↔ Rust.bracketedUpstream.head? ≠ some colon) := by
  have accepts : Go.checkFlag Rust.bracketedUpstream =
      .ok ([58, 58, 49], [49, 48, 56, 49], 1081) := by
    decide +kernel
  exact upstream_addresses_agree_iff (fun _ => none) (fun _ => 20000) accepts (by decide)

end TailcatSocks
