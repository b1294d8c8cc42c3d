import TailcatSocks.Library.AddressText
import TailcatSocks.Library.Numerals

/-!
# Addresses on the Go command line

`run` checks `--listen`, and `upstreamAddr` resolves `--upstream`, with the
functions of package `net` that split and join a host and a port, and `Atoi` of
package `strconv`.  What is accepted is known exactly, and what comes out is
accepted again and left alone.
-/

namespace TailcatSocks.Go

open Library

def openBracket : UInt8 := 91
def closeBracket : UInt8 := 93
def plus : UInt8 := 43
def minus : UInt8 := 45

/-! ## Package `net` -/

/-- `bytealg.IndexByteString` -/
def indexByte (s : Bytes) (c : UInt8) : Option Nat := s.findIdx? fun b => b == c

/-- `bytealg.LastIndexByteString` -/
def lastIndexByte (s : Bytes) (c : UInt8) : Option Nat :=
  (indexByte s.reverse c).map fun i => s.length - 1 - i

inductive AddrError where
  | missingPort
  | tooManyColons
  | missingBracket
  | unexpectedOpen
  | unexpectedClose
  deriving DecidableEq, Repr

/-- The checks of `net.SplitHostPort` on what is left of the text from `j` and from `k`. -/
def checkBrackets (hostport host port : Bytes) (j k : Nat) : Except AddrError (Bytes × Bytes) :=
  if openBracket ∈ hostport.drop j then .error .unexpectedOpen
  else if closeBracket ∈ hostport.drop k then .error .unexpectedClose
  else .ok (host, port)

/-- `net.SplitHostPort` -/
def splitHostPort (hostport : Bytes) : Except AddrError (Bytes × Bytes) :=
  match lastIndexByte hostport colon with
  | none => .error .missingPort
  | some i =>
      if hostport.head? = some openBracket then
        match indexByte hostport closeBracket with
        | none => .error .missingBracket
        | some last =>
            if last + 1 = hostport.length then .error .missingPort
            else if last + 1 = i then
              checkBrackets hostport ((hostport.take last).drop 1) (hostport.drop (i + 1)) 1
                (last + 1)
            else if hostport[last + 1]? = some colon then .error .tooManyColons
            else .error .missingPort
      else if colon ∈ hostport.take i then .error .tooManyColons
      else checkBrackets hostport (hostport.take i) (hostport.drop (i + 1)) 0 0

/-- `net.JoinHostPort` -/
def joinHostPort (host port : Bytes) : Bytes :=
  if colon ∈ host then openBracket :: host ++ closeBracket :: colon :: port
  else host ++ colon :: port

/-! ## Where the text is split -/

theorem indexByte_append {front back : Bytes} {c : UInt8} (clean : c ∉ front) :
    indexByte (front ++ c :: back) c = some front.length := by
  rw [indexByte, List.findIdx?_append, List.findIdx?_eq_none_iff.mpr, List.findIdx?_cons]
  · simp
  · intro b member
    rw [beq_eq_false_iff_ne]
    rintro rfl
    exact clean member

theorem lastIndexByte_append {front back : Bytes} {c : UInt8} (clean : c ∉ back) :
    lastIndexByte (front ++ c :: back) c = some front.length := by
  have mirrored : (front ++ c :: back).reverse = back.reverse ++ c :: front.reverse := by
    rw [List.reverse_append, List.reverse_cons, List.append_assoc, List.singleton_append]
  rw [lastIndexByte, mirrored, indexByte_append (fun member => clean (List.mem_reverse.mp member)),
    Option.map_some, List.length_append, List.length_cons, List.length_reverse]
  congr 1
  omega

theorem lastIndexByte_cases (s : Bytes) (c : UInt8) :
    (c ∉ s ∧ lastIndexByte s c = none) ∨
      ∃ front back, s = front ++ c :: back ∧ c ∉ back ∧ lastIndexByte s c = some front.length := by
  by_cases member : c ∈ s
  · obtain ⟨back, front, mirrored, clean⟩ :=
      List.eq_append_cons_of_mem (List.mem_reverse.mpr member)
    have whole : s = front.reverse ++ c :: back.reverse := by
      rw [← List.reverse_reverse s, mirrored, List.reverse_append, List.reverse_cons,
        List.append_assoc, List.singleton_append]
    have clean' : c ∉ back.reverse := fun member => clean (List.mem_reverse.mp member)
    exact .inr ⟨front.reverse, back.reverse, whole, clean', whole ▸ lastIndexByte_append clean'⟩
  · refine .inl ⟨member, ?_⟩
    rw [lastIndexByte, indexByte, Option.map_eq_none_iff, List.findIdx?_eq_none_iff]
    intro b inside
    rw [beq_eq_false_iff_ne]
    rintro rfl
    exact member (List.mem_reverse.mp inside)

theorem indexByte_cases (s : Bytes) (c : UInt8) :
    (c ∉ s ∧ indexByte s c = none) ∨
      ∃ front back, s = front ++ c :: back ∧ c ∉ front ∧ indexByte s c = some front.length := by
  by_cases member : c ∈ s
  · obtain ⟨front, back, rfl, clean⟩ := List.eq_append_cons_of_mem member
    exact .inr ⟨front, back, rfl, clean, indexByte_append clean⟩
  · refine .inl ⟨member, ?_⟩
    rw [indexByte, List.findIdx?_eq_none_iff]
    intro b inside
    rw [beq_eq_false_iff_ne]
    rintro rfl
    exact member inside

theorem open_ne_colon : openBracket ≠ colon := by decide

theorem close_ne_colon : closeBracket ≠ colon := by decide

theorem close_ne_open : closeBracket ≠ openBracket := by decide

/-- Neither a colon nor a bracket. -/
structure Bare (text : Bytes) : Prop where
  noColon : colon ∉ text
  noOpen : openBracket ∉ text
  noClose : closeBracket ∉ text

theorem checkBrackets_eq_ok {hostport host port host' port' : Bytes} {j k : Nat} :
    checkBrackets hostport host port j k = .ok (host', port') ↔
      openBracket ∉ hostport.drop j ∧ closeBracket ∉ hostport.drop k ∧
        host = host' ∧ port = port' := by
  unfold checkBrackets
  split
  · next opens => exact iff_of_false (by simp) fun all => all.1 opens
  · next noOpen =>
    split
    · next closes => exact iff_of_false (by simp) fun all => all.2.1 closes
    · next noClose => simp [noOpen, noClose]

/-- A text with neither is split at its only colon. -/
theorem splitHostPort_plain {host port : Bytes} (bareHost : Bare host) (barePort : Bare port) :
    splitHostPort (host ++ colon :: port) = .ok (host, port) := by
  have noOpen : openBracket ∉ host ++ colon :: port := by
    simp only [List.mem_append, List.mem_cons, bareHost.noOpen, open_ne_colon, barePort.noOpen,
      or_self, not_false_eq_true]
  have noClose : closeBracket ∉ host ++ colon :: port := by
    simp only [List.mem_append, List.mem_cons, bareHost.noClose, close_ne_colon, barePort.noClose,
      or_self, not_false_eq_true]
  have notOpen : (host ++ colon :: port).head? ≠ some openBracket := fun starts =>
    noOpen (List.mem_of_head? starts)
  unfold splitHostPort
  rw [lastIndexByte_append barePort.noColon]
  dsimp only
  rw [if_neg notOpen, List.take_left, if_neg bareHost.noColon, checkBrackets_eq_ok]
  exact ⟨noOpen, noClose, rfl, by simp⟩

/-- A host in brackets may have colons. -/
theorem splitHostPort_bracketed {host port : Bytes} (noOpen : openBracket ∉ host)
    (noClose : closeBracket ∉ host) (barePort : Bare port) :
    splitHostPort (openBracket :: host ++ closeBracket :: colon :: port) = .ok (host, port) := by
  have asColon : openBracket :: host ++ closeBracket :: colon :: port =
      (openBracket :: host ++ [closeBracket]) ++ colon :: port := by
    rw [List.append_assoc]
    rfl
  have last : lastIndexByte (openBracket :: host ++ closeBracket :: colon :: port) colon =
      some (host.length + 2) := by
    rw [asColon, lastIndexByte_append barePort.noColon]
    simp
  have first : indexByte (openBracket :: host ++ closeBracket :: colon :: port) closeBracket =
      some (host.length + 1) := by
    refine (indexByte_append ?_).trans rfl
    simp only [List.mem_cons, close_ne_open, noClose, or_self, not_false_eq_true]
  have tail : (openBracket :: host ++ closeBracket :: colon :: port).drop (host.length + 2) =
      colon :: port := by
    rw [asColon]
    exact List.drop_left' (by simp)
  have behind : openBracket ∉ host ++ closeBracket :: colon :: port := by
    simp only [List.mem_append, List.mem_cons, noOpen, close_ne_open.symm, open_ne_colon,
      barePort.noOpen, or_self, not_false_eq_true]
  have beyond : closeBracket ∉ colon :: port := by
    simp only [List.mem_cons, close_ne_colon, barePort.noClose, or_self, not_false_eq_true]
  have opens : (openBracket :: host ++ closeBracket :: colon :: port).head? = some openBracket :=
    rfl
  unfold splitHostPort
  rw [last]
  dsimp only
  rw [if_pos opens, first]
  dsimp only
  rw [if_neg (by simp), if_pos rfl, checkBrackets_eq_ok]
  refine ⟨behind, ?_, ?_, ?_⟩
  · rw [tail]
    exact beyond
  · rw [List.take_left' (by simp)]
    rfl
  · rw [← List.drop_drop, tail]
    rfl

/-- What the checks leave of a text with a bracket before its last colon. -/
theorem bracketed_of_check {before back host port : Bytes} (clean : colon ∉ back)
    (unclosed : closeBracket ∉ before)
    (opens : ((before ++ [closeBracket]) ++ colon :: back).head? = some openBracket)
    (checked : checkBrackets ((before ++ [closeBracket]) ++ colon :: back)
      ((((before ++ [closeBracket]) ++ colon :: back).take before.length).drop 1)
      (((before ++ [closeBracket]) ++ colon :: back).drop ((before ++ [closeBracket]).length + 1))
      1 (before.length + 1) = .ok (host, port)) :
    Bare port ∧ ((before ++ [closeBracket]) ++ colon :: back = host ++ colon :: port ∧ Bare host ∨
      (before ++ [closeBracket]) ++ colon :: back =
        openBracket :: host ++ closeBracket :: colon :: port ∧
        openBracket ∉ host ∧ closeBracket ∉ host) := by
  cases before with
  | nil => exact absurd (Option.some.inj opens) close_ne_open
  | cons first inner =>
      obtain rfl : first = openBracket := Option.some.inj opens
      have size : (openBracket :: inner ++ [closeBracket]).length = inner.length + 2 := by simp
      have portEq : ((openBracket :: inner ++ [closeBracket]) ++ colon :: back).drop
          ((openBracket :: inner ++ [closeBracket]).length + 1) = back := by
        rw [List.drop_length_add_append]
        rfl
      have hostEq : (((openBracket :: inner ++ [closeBracket]) ++ colon :: back).take
          (openBracket :: inner).length).drop 1 = inner := by
        rw [List.append_assoc, List.take_left]
        rfl
      have tail : ((openBracket :: inner ++ [closeBracket]) ++ colon :: back).drop
          ((openBracket :: inner).length + 1) = colon :: back := List.drop_left' (by simp)
      rw [portEq, hostEq] at checked
      obtain ⟨noOpen, noClose, rfl, rfl⟩ := checkBrackets_eq_ok.mp checked
      rw [tail] at noClose
      have noOpen' : openBracket ∉ inner ++ ([closeBracket] ++ colon :: back) := by
        rw [List.cons_append, List.cons_append, List.drop_one, List.tail_cons,
          List.append_assoc] at noOpen
        exact noOpen
      refine ⟨⟨clean, ?_, ?_⟩, .inr ⟨by rw [List.append_assoc]; rfl, ?_, ?_⟩⟩
      · exact fun member => noOpen' (List.mem_append_right _ (List.mem_append_right _
          (List.mem_cons_of_mem _ member)))
      · exact fun member => noClose (List.mem_cons_of_mem _ member)
      · exact fun member => noOpen' (List.mem_append_left _ member)
      · exact fun member => unclosed (List.mem_cons_of_mem _ member)

/-- What is accepted, and as what: the last colon separates a host and a port
with neither colons nor brackets, except that a host which stands in brackets
may have colons. -/
theorem splitHostPort_eq_ok {s host port : Bytes} :
    splitHostPort s = .ok (host, port) ↔
      Bare port ∧ ((s = host ++ colon :: port ∧ Bare host) ∨
        (s = openBracket :: host ++ closeBracket :: colon :: port ∧
          openBracket ∉ host ∧ closeBracket ∉ host)) := by
  constructor
  · intro splits
    unfold splitHostPort at splits
    rcases lastIndexByte_cases s colon with ⟨-, absent⟩ | ⟨front, back, rfl, clean, found⟩
    · rw [absent] at splits
      cases splits
    · rw [found] at splits
      dsimp only at splits
      have portEq : (front ++ colon :: back).drop (front.length + 1) = back := by
        rw [List.drop_length_add_append]
        rfl
      split at splits
      · next opens =>
        rcases indexByte_cases (front ++ colon :: back) closeBracket with
          ⟨-, absent⟩ | ⟨before, behind, whole, noClose, found'⟩
        · rw [absent] at splits
          cases splits
        · rw [found'] at splits
          dsimp only at splits
          split at splits
          · cases splits
          · split at splits
            · next here =>
              have parts : (before ++ [closeBracket]) ++ behind = front ++ colon :: back := by
                rw [whole, List.append_assoc]
                rfl
              have size : (before ++ [closeBracket]).length = front.length := by
                rw [List.length_append]
                exact here
              obtain ⟨rfl, -⟩ := List.append_inj parts size
              exact bracketed_of_check clean noClose opens splits
            · split at splits <;> cases splits
      · next notOpen =>
        rw [List.take_left] at splits
        split at splits
        · cases splits
        · next noColon =>
          obtain ⟨noOpen, noClose, rfl, rfl⟩ := checkBrackets_eq_ok.mp splits
          rw [List.drop_zero] at noOpen noClose
          rw [portEq]
          refine ⟨⟨clean, ?_, ?_⟩, .inl ⟨rfl, noColon, ?_, ?_⟩⟩
          · exact fun member => noOpen (List.mem_append_right _ (List.mem_cons_of_mem _ member))
          · exact fun member => noClose (List.mem_append_right _ (List.mem_cons_of_mem _ member))
          · exact fun member => noOpen (List.mem_append_left _ member)
          · exact fun member => noClose (List.mem_append_left _ member)
  · rintro ⟨barePort, ⟨rfl, bareHost⟩ | ⟨rfl, noOpen, noClose⟩⟩
    · exact splitHostPort_plain bareHost barePort
    · exact splitHostPort_bracketed noOpen noClose barePort

/-- Host and port that are joined are told apart again exactly when the port has
neither colons nor brackets and the host has no brackets. -/
theorem splitHostPort_joinHostPort_iff {host port : Bytes} :
    splitHostPort (joinHostPort host port) = .ok (host, port) ↔
      Bare port ∧ openBracket ∉ host ∧ closeBracket ∉ host := by
  rw [splitHostPort_eq_ok]
  refine and_congr_right fun barePort => ?_
  constructor
  · rintro (⟨-, bareHost⟩ | ⟨-, noBrackets⟩)
    · exact ⟨bareHost.noOpen, bareHost.noClose⟩
    · exact noBrackets
  · rintro ⟨noOpen, noClose⟩
    unfold joinHostPort
    split
    · exact .inr ⟨rfl, noOpen, noClose⟩
    · exact .inl ⟨rfl, ‹_›, noOpen, noClose⟩

theorem brackets_of_split {s host port : Bytes} (splits : splitHostPort s = .ok (host, port)) :
    openBracket ∉ host ∧ closeBracket ∉ host := by
  rcases (splitHostPort_eq_ok.mp splits).2 with ⟨-, bareHost⟩ | ⟨-, noBrackets⟩
  · exact ⟨bareHost.noOpen, bareHost.noClose⟩
  · exact noBrackets

/-! ## Package `strconv` -/

inductive NumError where
  | badSyntax
  | range
  deriving DecidableEq, Repr

/-- The loop of `strconv.ParseUint` for base 10 and 64 bits, with the value so far. -/
def parseUint : Nat → Bytes → Except NumError Nat
  | value, [] => .ok value
  | value, byte :: rest =>
      match digitValue 10 byte with
      | none => .error .badSyntax
      | some digit =>
          if 18446744073709551615 < value * 10 + digit then .error .range
          else parseUint (value * 10 + digit) rest

/-- `strconv.ParseUint`, which refuses the empty text. -/
def parseMagnitude (digits : Bytes) : Except NumError Nat :=
  if digits = [] then .error .badSyntax else parseUint 0 digits

/-- `strconv.Atoi` -/
def atoi (s : Bytes) : Except NumError Int := do
  match s with
  | [] => .error .badSyntax
  | first :: rest =>
      if first = minus then
        let n ← parseMagnitude rest
        if 9223372036854775808 < n then .error .range else .ok (-(n : Int))
      else
        let n ← parseMagnitude (if first = plus then rest else s)
        if 9223372036854775807 < n then .error .range else .ok (n : Int)

/-! ## The flags -/

inductive FlagError where
  /-- `(want host:port)` -/
  | shape (value : Bytes) (err : AddrError)
  | port (value : Bytes) (err : NumError)
  | outOfRange (value : Bytes) (port : Int)
  /-- No port can be picked for the host. -/
  | pick (host : Bytes)
  deriving DecidableEq, Repr

/-- The checks that both flags share: host, text of the port, port. -/
def checkFlag (s : Bytes) : Except FlagError (Bytes × Bytes × Nat) :=
  match splitHostPort s with
  | .error err => .error (.shape s err)
  | .ok (host, portStr) =>
      match atoi portStr with
      | .error err => .error (.port s err)
      | .ok port =>
          if port < 0 ∨ 65535 < port then .error (.outOfRange s port)
          else .ok (host, portStr, port.toNat)

/-- What `run` makes of `--listen`. -/
def listenAddr (listen : Bytes) : Except FlagError Bytes := do
  let (lHost, lPort, _) ← checkFlag listen
  .ok (joinHostPort lHost lPort)

/-- `upstreamAddr`; `probe` is the address of a listener on port 0 of a host. -/
def upstreamAddr (probe : Bytes → Option Bytes) (s : Bytes) : Except FlagError Bytes := do
  let (host, _, port) ← checkFlag s
  if port ≠ 0 then .ok (joinHostPort host (numeral 10 port))
  else
    match probe (joinHostPort host [48]) with
    | some addr => .ok addr
    | none => .error (.pick host)

theorem checkFlag_eq_ok {s host portStr : Bytes} {port : Nat} :
    checkFlag s = .ok (host, portStr, port) ↔
      splitHostPort s = .ok (host, portStr) ∧ atoi portStr = .ok (port : Int) ∧ port ≤ 65535 := by
  unfold checkFlag
  cases splits : splitHostPort s with
  | error err => simp
  | ok parts =>
      obtain ⟨host', portStr'⟩ := parts
      dsimp only
      cases reads : atoi portStr' with
      | error err =>
          refine iff_of_false (by simp) ?_
          rintro ⟨same, reads', -⟩
          cases same
          rw [reads] at reads'
          cases reads'
      | ok n =>
          dsimp only
          split
          · next outside =>
            refine iff_of_false (by simp) ?_
            rintro ⟨same, reads', fits⟩
            cases same
            rw [reads] at reads'
            have value := Except.ok.inj reads'
            omega
          · next inside =>
            constructor
            · intro same
              simp only [Except.ok.injEq, Prod.mk.injEq] at same
              obtain ⟨rfl, rfl, rfl⟩ := same
              refine ⟨rfl, ?_, by omega⟩
              rw [reads, Int.toNat_of_nonneg (by omega)]
            · rintro ⟨same, reads', fits⟩
              cases same
              rw [reads] at reads'
              have value := Except.ok.inj reads'
              rw [value, Int.toNat_natCast]

/-- A flag that is accepted, put together again, is split as it was. -/
theorem checkFlag_joinHostPort {s host portStr portStr' : Bytes} {port : Nat}
    (accepts : checkFlag s = .ok (host, portStr, port)) (bare : Bare portStr')
    (reads : atoi portStr' = .ok (port : Int)) :
    checkFlag (joinHostPort host portStr') = .ok (host, portStr', port) := by
  obtain ⟨splits, -, fits⟩ := checkFlag_eq_ok.mp accepts
  exact checkFlag_eq_ok.mpr
    ⟨splitHostPort_joinHostPort_iff.mpr ⟨bare, brackets_of_split splits⟩, reads, fits⟩

theorem listenAddr_eq_ok {listen addr : Bytes} :
    listenAddr listen = .ok addr ↔ ∃ host portStr port,
      checkFlag listen = .ok (host, portStr, port) ∧ joinHostPort host portStr = addr := by
  unfold listenAddr
  cases checkFlag listen with
  | error err =>
      refine iff_of_false (fun done => by cases done) ?_
      rintro ⟨_, _, _, done, -⟩
      cases done
  | ok parts =>
      obtain ⟨host, portStr, port⟩ := parts
      constructor
      · intro done
        exact ⟨host, portStr, port, rfl, Except.ok.inj done⟩
      · rintro ⟨host', portStr', port', same, rfl⟩
        cases same
        rfl

/-- `run` accepts `--listen` exactly when the last colon separates a host from a
number that fits a port, where the host has neither colons nor brackets or
stands in brackets; these it puts back only around a host that has colons. -/
theorem listenAddr_accepts_iff {listen addr : Bytes} :
    listenAddr listen = .ok addr ↔ ∃ (host portStr : Bytes) (port : Nat),
      (listen = host ++ colon :: portStr ∧ Bare host ∨
        listen = openBracket :: host ++ closeBracket :: colon :: portStr ∧
          openBracket ∉ host ∧ closeBracket ∉ host) ∧
      Bare portStr ∧ atoi portStr = .ok (port : Int) ∧ port ≤ 65535 ∧
      addr = if colon ∈ host then openBracket :: host ++ closeBracket :: colon :: portStr
        else host ++ colon :: portStr := by
  rw [listenAddr_eq_ok]
  constructor
  · rintro ⟨host, portStr, port, checks, rfl⟩
    obtain ⟨splits, reads, fits⟩ := checkFlag_eq_ok.mp checks
    obtain ⟨bare, written⟩ := splitHostPort_eq_ok.mp splits
    exact ⟨host, portStr, port, written, bare, reads, fits, rfl⟩
  · rintro ⟨host, portStr, port, written, bare, reads, fits, rfl⟩
    have splits := splitHostPort_eq_ok.mpr ⟨bare, written⟩
    exact ⟨host, portStr, port, checkFlag_eq_ok.mpr ⟨splits, reads, fits⟩, rfl⟩

/-- What `run` makes of `--listen` it accepts again and leaves alone. -/
theorem listenAddr_idempotent {listen addr : Bytes} (accepts : listenAddr listen = .ok addr) :
    listenAddr addr = .ok addr := by
  obtain ⟨host, portStr, port, checks, rfl⟩ := listenAddr_eq_ok.mp accepts
  obtain ⟨splits, reads, -⟩ := checkFlag_eq_ok.mp checks
  exact listenAddr_eq_ok.mpr ⟨host, portStr, port,
    checkFlag_joinHostPort checks (splitHostPort_eq_ok.mp splits).1 reads, rfl⟩

/-- `[localhost]:0080` loses its brackets and nothing else. -/
example : listenAddr [91, 108, 111, 99, 97, 108, 104, 111, 115, 116, 93, 58, 48, 48, 56, 48] =
    .ok [108, 111, 99, 97, 108, 104, 111, 115, 116, 58, 48, 48, 56, 48] := by
  decide +kernel

end TailcatSocks.Go
