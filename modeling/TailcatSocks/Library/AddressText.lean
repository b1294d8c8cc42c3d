import TailcatSocks.Library.Numerals

/-!
# Textual IP addresses

The textual forms of IPv4 and IPv6 addresses: dotted quads, and colon-separated
hexadecimal groups with at most one `::`.  The printer compresses the first
longest run of at least two zero groups and prints IPv4-mapped addresses with a
dotted tail.  The reader accepts every form of the same grammar: groups of one
to four hexadecimal digits of either case, one `::` standing for at least one
zero group, and a dotted quad in the place of the last two groups.

The main result is that the reader inverts the printer, for both families, and
that neither reader accepts the other family's printed form.
-/

namespace TailcatSocks.Library

structure Ipv4Addr where
  octets : Block 4
  deriving DecidableEq

structure Ipv6Addr where
  octets : Block 16
  deriving DecidableEq

def dot : UInt8 := 46
def colon : UInt8 := 58

/-! ## Groups and octets -/

/-- The big-endian 16-bit groups of a byte string. -/
def segmentsOf : Bytes → List Nat
  | high :: low :: rest => (high.toNat * 256 + low.toNat) :: segmentsOf rest
  | _ => []

def octetsOf (segments : List Nat) : Bytes :=
  segments.flatMap fun segment => [UInt8.ofNat (segment / 256), UInt8.ofNat (segment % 256)]

theorem octetsOf_segmentsOf :
    ∀ octets : Bytes, octets.length % 2 = 0 → octetsOf (segmentsOf octets) = octets
  | [], _ => rfl
  | [_], odd => by simp at odd
  | high :: low :: rest, even => by
      have others := octetsOf_segmentsOf rest (by
        simp only [List.length_cons] at even
        omega)
      have highBound := high.toNat_lt
      have lowBound := low.toNat_lt
      have quotient : (high.toNat * 256 + low.toNat) / 256 = high.toNat := by omega
      have remainder : (high.toNat * 256 + low.toNat) % 256 = low.toNat := by omega
      unfold octetsOf at others
      simp only [segmentsOf, octetsOf, List.flatMap_cons, others, quotient, remainder,
        UInt8.ofNat_toNat, List.cons_append, List.nil_append]

theorem length_segmentsOf : ∀ octets : Bytes, (segmentsOf octets).length = octets.length / 2
  | [] => rfl
  | [_] => by simp [segmentsOf]
  | _ :: _ :: rest => by
      rw [segmentsOf, List.length_cons, length_segmentsOf rest, List.length_cons,
        List.length_cons]
      omega

theorem segmentsOf_lt : ∀ octets : Bytes, ∀ segment ∈ segmentsOf octets, segment < 65536
  | [], _, member => by cases member
  | [_], _, member => by cases member
  | high :: low :: rest, segment, member => by
      have highBound := high.toNat_lt
      have lowBound := low.toNat_lt
      rw [segmentsOf, List.mem_cons] at member
      rcases member with rfl | member
      · omega
      · exact segmentsOf_lt rest segment member

/-! ## Printing -/

namespace Ipv4Addr

def text (ip : Ipv4Addr) : Bytes :=
  [dot].intercalate (ip.octets.1.map fun octet => numeral 10 octet.toNat)

end Ipv4Addr

/-- Each group preceded by a colon. -/
def groupsAfter (groups : List Nat) : Bytes :=
  groups.flatMap fun group => colon :: numeral 16 group

/-- Groups with a colon between neighbours. -/
def groupsText : List Nat → Bytes
  | [] => []
  | group :: groups => numeral 16 group ++ groupsAfter groups

/-- Scan for the first longest run of zeros: `index` is the position reached,
`current` the run that ends there, `longest` the best so far (start, length). -/
def zeroSpanFrom : List Nat → Nat → Nat × Nat → Nat × Nat → Nat × Nat
  | [], _, _, longest => longest
  | segment :: segments, index, current, longest =>
      if segment = 0 then
        let extended := (if current.2 = 0 then index else current.1, current.2 + 1)
        zeroSpanFrom segments (index + 1) extended
          (if longest.2 < extended.2 then extended else longest)
      else
        zeroSpanFrom segments (index + 1) (0, 0) longest

def zeroSpan (segments : List Nat) : Nat × Nat := zeroSpanFrom segments 0 (0, 0) (0, 0)

namespace Ipv6Addr

def segments (ip : Ipv6Addr) : List Nat := segmentsOf ip.octets.1

/-- The twelve octets that start every IPv4-mapped address. -/
def mappedHead : Bytes := [0, 0, 0, 0, 0, 0, 0, 0, 0, 0, 255, 255]

/-- The IPv4 address inside an IPv4-mapped one. -/
def toIpv4Mapped (ip : Ipv6Addr) : Option Ipv4Addr :=
  if ip.octets.1.take 12 = mappedHead then
    some ⟨ip.octets.1.drop 12, by rw [List.length_drop, ip.octets.2]⟩
  else none

def text (ip : Ipv6Addr) : Bytes :=
  match ip.toIpv4Mapped with
  | some ip4 => colon :: colon :: (numeral 16 0xffff ++ colon :: ip4.text)
  | none =>
      let span := zeroSpan ip.segments
      if 1 < span.2 then
        groupsText (ip.segments.take span.1) ++ colon :: colon ::
          groupsText (ip.segments.drop (span.1 + span.2))
      else groupsText ip.segments

end Ipv6Addr

/-! ## Reading -/

/-- Read a separator, except before the first item, and then the item. -/
def readSeparated {α : Type} (separator : UInt8) (first : Bool)
    (item : Bytes → Option (α × Bytes)) (text : Bytes) : Option (α × Bytes) :=
  if first then item text
  else
    match text with
    | [] => none
    | byte :: rest => if byte = separator then item rest else none

def readOctets : Nat → Bool → Bytes → Option (List Nat × Bytes)
  | 0, _, text => some ([], text)
  | count + 1, first, text =>
      match readSeparated dot first (readNumber 10 3 false 256) text with
      | none => none
      | some (octet, rest) =>
          match readOctets count false rest with
          | none => none
          | some (octets, rest) => some (octet :: octets, rest)

def readIpv4Addr (text : Bytes) : Option (Ipv4Addr × Bytes) :=
  match readOctets 4 true text with
  | none => none
  | some (octets, rest) =>
      if exact : (octets.map UInt8.ofNat).length = 4 then some (⟨_, exact⟩, rest) else none

/-- Read up to `room` groups: the groups, whether they end in a dotted quad
(which fills two), and what is left. -/
def readGroups : Nat → Bool → Bytes → List Nat × Bool × Bytes
  | 0, _, text => ([], false, text)
  | room + 1, first, text =>
      match if 1 ≤ room then readSeparated colon first readIpv4Addr text else none with
      | some (ip4, rest) => (segmentsOf ip4.octets.1, true, rest)
      | none =>
          match readSeparated colon first (readNumber 16 4 true 65536) text with
          | some (group, rest) =>
              (group :: (readGroups room false rest).1, (readGroups room false rest).2)
          | none => ([], false, text)

/-- The groups of an address: eight of them, or two parts around a `::`. -/
def readIpv6Groups (text : Bytes) : Option (List Nat × Bytes) :=
  match readGroups 8 true text with
  | (front, dotted, rest) =>
      if front.length = 8 then some (front, rest)
      else if dotted then none
      else
        match rest with
        | first :: second :: rest =>
            if first = colon ∧ second = colon then
              match readGroups (8 - (front.length + 1)) true rest with
              | (back, _, rest) =>
                  some (front ++ List.replicate (8 - front.length - back.length) 0 ++ back, rest)
            else none
        | _ => none

/-- Parse a whole text as an IPv4 address. -/
def parseIpv4 (text : Bytes) : Option Ipv4Addr :=
  if 15 < text.length then none
  else
    match readIpv4Addr text with
    | some (ip, []) => some ip
    | _ => none

/-- Parse a whole text as an IPv6 address. -/
def parseIpv6 (text : Bytes) : Option Ipv6Addr :=
  match readIpv6Groups text with
  | some (groups, []) =>
      if exact : (octetsOf groups).length = 16 then some ⟨⟨_, exact⟩⟩ else none
  | _ => none

/-! ## Dotted quads read back -/

theorem digitValue_dot (base : Nat) : digitValue base dot = none := by
  simp [digitValue, dot]

theorem digitValue_colon (base : Nat) : digitValue base colon = none := by
  simp [digitValue, colon]

theorem readSeparated_separator {α : Type} (separator : UInt8)
    (item : Bytes → Option (α × Bytes)) (rest : Bytes) :
    readSeparated separator false item (separator :: rest) = item rest := by
  simp [readSeparated]

theorem readSeparated_first {α : Type} (separator : UInt8)
    (item : Bytes → Option (α × Bytes)) (text : Bytes) :
    readSeparated separator true item text = item text := rfl

theorem readOctet_numeral (octet : UInt8) {rest : Bytes} (stop : NoDigit 10 rest) :
    readNumber 10 3 false 256 (numeral 10 octet.toNat ++ rest) = some (octet.toNat, rest) :=
  readNumber_numeral (by decide) (by decide)
    (Nat.lt_of_lt_of_le octet.toNat_lt (by decide)) octet.toNat_lt stop

theorem Ipv4Addr.text_cons (a b c d : UInt8) (size : [a, b, c, d].length = 4) :
    Ipv4Addr.text ⟨⟨[a, b, c, d], size⟩⟩ =
      numeral 10 a.toNat ++ dot :: (numeral 10 b.toNat ++ dot :: (numeral 10 c.toNat ++
        dot :: numeral 10 d.toNat)) := by
  simp [Ipv4Addr.text, List.intercalate]

theorem readIpv4Addr_text (ip : Ipv4Addr) {rest : Bytes} (stop : NoDigit 10 rest) :
    readIpv4Addr (ip.text ++ rest) = some (ip, rest) := by
  obtain ⟨⟨octets, size⟩⟩ := ip
  match octets, size with
  | [a, b, c, d], size =>
      have dotStops (tail : Bytes) : NoDigit 10 (dot :: tail) := noDigit_cons (digitValue_dot 10)
      have octetsRead :
          readOctets 4 true (Ipv4Addr.text ⟨⟨[a, b, c, d], size⟩⟩ ++ rest) =
            some ([a.toNat, b.toNat, c.toNat, d.toNat], rest) := by
        rw [Ipv4Addr.text_cons]
        simp only [List.append_assoc, List.cons_append]
        rw [readOctets, readSeparated_first, readOctet_numeral a (dotStops _)]
        simp only [readOctets, readSeparated_separator, readOctet_numeral b (dotStops _),
          readOctet_numeral c (dotStops _), readOctet_numeral d stop]
      simp only [readIpv4Addr, octetsRead, List.map_cons, List.map_nil, UInt8.ofNat_toNat]
      rfl

theorem length_numeral_octet (octet : UInt8) : (numeral 10 octet.toNat).length ≤ 3 := by
  rw [numeral, List.length_map]
  exact length_digitsOf_le (by decide) 2 _ (Nat.lt_of_lt_of_le octet.toNat_lt (by decide))

theorem Ipv4Addr.length_text_le (ip : Ipv4Addr) : ip.text.length ≤ 15 := by
  obtain ⟨⟨octets, size⟩⟩ := ip
  match octets, size with
  | [a, b, c, d], size =>
      rw [Ipv4Addr.text_cons]
      have boundA := length_numeral_octet a
      have boundB := length_numeral_octet b
      have boundC := length_numeral_octet c
      have boundD := length_numeral_octet d
      simp only [List.length_append, List.length_cons]
      omega

/-- The reader of dotted quads inverts the printer. -/
theorem parseIpv4_text (ip : Ipv4Addr) : parseIpv4 ip.text = some ip := by
  have done := readIpv4Addr_text ip (noDigit_nil 10)
  rw [List.append_nil] at done
  rw [parseIpv4, if_neg (Nat.not_lt.mpr ip.length_text_le), done]

/-! ## Hexadecimal groups read back -/

/-- Neither a hexadecimal digit nor a dot stands at the front. -/
def GroupEnds (rest : Bytes) : Prop := NoDigit 16 rest ∧ rest.head? ≠ some dot

theorem groupEnds_nil : GroupEnds [] := ⟨noDigit_nil 16, by simp⟩

theorem groupEnds_colon (rest : Bytes) : GroupEnds (colon :: rest) :=
  ⟨noDigit_cons (digitValue_colon 16), by simp [colon, dot]⟩

theorem digitValue_ten_of_sixteen {byte : UInt8} (none16 : digitValue 16 byte = none) :
    digitValue 10 byte = none := by
  simp only [digitValue, Option.filter_eq_none_iff] at none16 ⊢
  intro value isValue
  have := none16 value isValue
  simp only [decide_eq_true_eq] at this ⊢
  omega

/-- The letters are neither decimal digits nor the dot. -/
theorem digitByte_letter :
    ∀ digit, digit < 16 → ¬ digit < 10 →
      digitValue 10 (digitByte digit) = none ∧ digitByte digit ≠ dot := by
  decide

/-- After the decimal digits at the front of a group comes no dot. -/
theorem readDigits_ten_group {digits : List Nat} (areDigits : ∀ digit ∈ digits, digit < 16)
    {rest : Bytes} (ends : GroupEnds rest) :
    (readDigits 10 (digits.map digitByte ++ rest)).2.head? ≠ some dot := by
  induction digits with
  | nil =>
      have stop : NoDigit 10 rest := fun byte first =>
        digitValue_ten_of_sixteen (ends.1 byte first)
      rw [List.map_nil, List.nil_append, readDigits_of_noDigit stop]
      exact ends.2
  | cons digit digits ih =>
      have bound := areDigits digit List.mem_cons_self
      have others := ih fun d member => areDigits d (List.mem_cons_of_mem _ member)
      rw [List.map_cons, List.cons_append]
      by_cases decimal : digit < 10
      · rw [readDigits, digitValue_digitByte (by decide) decimal]
        exact others
      · obtain ⟨letter, notDot⟩ := digitByte_letter digit bound decimal
        rw [readDigits, letter]
        simpa using notDot

theorem readIpv4Addr_of_group (group : Nat) {rest : Bytes} (ends : GroupEnds rest) :
    readIpv4Addr (numeral 16 group ++ rest) = none := by
  have noDot := readDigits_ten_group (lt_of_mem_digitsOf (by decide) group) ends
  have failed : readOctets 4 true (numeral 16 group ++ rest) = none := by
    unfold readOctets
    cases first : readSeparated dot true (readNumber 10 3 false 256) (numeral 16 group ++ rest) with
    | none => rfl
    | some result =>
        obtain ⟨octet, left⟩ := result
        have leftIs := readNumber_rest first
        unfold readOctets
        have second : readSeparated dot false (readNumber 10 3 false 256) left = none := by
          cases left with
          | nil => rfl
          | cons byte left =>
              have different : byte ≠ dot := by
                intro same
                apply noDot
                rw [show (digitsOf 16 group).map digitByte = numeral 16 group from rfl, ← leftIs,
                  same, List.head?_cons]
              simp [readSeparated, different]
        simp only [second]
  simp only [readIpv4Addr, failed]

theorem readIpv4Addr_colon (rest : Bytes) : readIpv4Addr (colon :: rest) = none := by
  have stop : NoDigit 10 (colon :: rest) := noDigit_cons (digitValue_colon 10)
  simp [readIpv4Addr, readOctets, readSeparated, readNumber_of_noDigit stop]

theorem readIpv4Addr_nil : readIpv4Addr [] = none := by
  simp [readIpv4Addr, readOctets, readSeparated, readNumber_of_noDigit (noDigit_nil 10)]

theorem readGroup_numeral {group : Nat} (bounded : group < 65536) {rest : Bytes}
    (ends : GroupEnds rest) :
    readNumber 16 4 true 65536 (numeral 16 group ++ rest) = some (group, rest) :=
  readNumber_numeral (by decide) (by decide) bounded bounded ends.1

/-- One printed group is taken, with its colon when it is not the first. -/
theorem readGroups_group {group : Nat} (bounded : group < 65536) (room : Nat) {rest : Bytes}
    (ends : GroupEnds rest) :
    readGroups (room + 1) true (numeral 16 group ++ rest) =
        (group :: (readGroups room false rest).1, (readGroups room false rest).2) ∧
      readGroups (room + 1) false (colon :: (numeral 16 group ++ rest)) =
        (group :: (readGroups room false rest).1, (readGroups room false rest).2) := by
  constructor
  · simp [readGroups, readSeparated, readIpv4Addr_of_group group ends,
      readGroup_numeral bounded ends]
  · simp [readGroups, readSeparated_separator, readIpv4Addr_of_group group ends,
      readGroup_numeral bounded ends]

/-- The two continuations at which a list of groups stops. -/
def GroupsEnd (rest : Bytes) : Prop := rest = [] ∨ ∃ tail, rest = colon :: colon :: tail

theorem GroupsEnd.groupEnds {rest : Bytes} (ends : GroupsEnd rest) : GroupEnds rest := by
  rcases ends with rfl | ⟨tail, rfl⟩
  · exact groupEnds_nil
  · exact groupEnds_colon _

theorem readGroups_end (room : Nat) (first : Bool) {rest : Bytes} (ends : GroupsEnd rest) :
    readGroups room first rest = ([], false, rest) := by
  have emptyGroup : readNumber 16 4 true 65536 [] = none := readNumber_of_noDigit (noDigit_nil 16)
  have colonGroup (tail : Bytes) : readNumber 16 4 true 65536 (colon :: tail) = none :=
    readNumber_of_noDigit (noDigit_cons (digitValue_colon 16))
  cases room with
  | zero => rfl
  | succ room =>
      rcases ends with rfl | ⟨tail, rfl⟩
      · cases first <;> simp [readGroups, readSeparated, readIpv4Addr_nil, emptyGroup]
      · cases first <;>
          simp [readGroups, readSeparated, readIpv4Addr_colon, colonGroup]

theorem groupEnds_groupsAfter (groups : List Nat) {rest : Bytes} (ends : GroupEnds rest) :
    GroupEnds (groupsAfter groups ++ rest) := by
  cases groups with
  | nil => exact ends
  | cons group groups =>
      rw [groupsAfter, List.flatMap_cons, List.cons_append, List.cons_append]
      exact groupEnds_colon _

theorem readGroups_groupsAfter {groups : List Nat} (bounded : ∀ group ∈ groups, group < 65536)
    (room : Nat) (fits : groups.length ≤ room) {rest : Bytes} (ends : GroupsEnd rest) :
    readGroups room false (groupsAfter groups ++ rest) = (groups, false, rest) := by
  induction groups generalizing room with
  | nil => exact readGroups_end room false ends
  | cons group groups ih =>
      obtain ⟨room, rfl⟩ : ∃ k, room = k + 1 :=
        ⟨room - 1, by rw [List.length_cons] at fits; omega⟩
      have others := ih (fun g member => bounded g (List.mem_cons_of_mem _ member)) room
        (by rw [List.length_cons] at fits; omega)
      have taken := (readGroups_group (bounded group List.mem_cons_self) room
        (groupEnds_groupsAfter groups ends.groupEnds)).2
      rw [others] at taken
      simpa only [groupsAfter, List.flatMap_cons, List.cons_append, List.append_assoc] using taken

/-- Printed groups are read back, up to the end of the text or a `::`. -/
theorem readGroups_groupsText {groups : List Nat} (bounded : ∀ group ∈ groups, group < 65536)
    (room : Nat) (fits : groups.length ≤ room) {rest : Bytes} (ends : GroupsEnd rest) :
    readGroups room true (groupsText groups ++ rest) = (groups, false, rest) := by
  cases groups with
  | nil => exact readGroups_end room true ends
  | cons group groups =>
      obtain ⟨room, rfl⟩ : ∃ k, room = k + 1 :=
        ⟨room - 1, by rw [List.length_cons] at fits; omega⟩
      have others := readGroups_groupsAfter
        (fun g member => bounded g (List.mem_cons_of_mem _ member)) room
        (by rw [List.length_cons] at fits; omega) ends
      have taken := (readGroups_group (bounded group List.mem_cons_self) room
        (groupEnds_groupsAfter groups ends.groupEnds)).1
      rw [others] at taken
      simpa only [groupsText, List.append_assoc] using taken

/-! ## The compressed run of zeros -/

/-- Every group inside the span is zero. -/
def IsZeroSpan (groups : List Nat) (span : Nat × Nat) : Prop :=
  ∀ offset < span.2, groups[span.1 + offset]? = some 0

theorem isZeroSpan_empty (groups : List Nat) (start : Nat) : IsZeroSpan groups (start, 0) := by
  intro offset impossible
  cases impossible

/-- The scan returns a run of zeros: so is the best run so far, and so is the
run that ends at the position reached. -/
theorem zeroSpanFrom_isZeroSpan {groups : List Nat} (rest front : List Nat)
    {current longest : Nat × Nat} (whole : groups = front ++ rest)
    (currentZero : IsZeroSpan groups current)
    (currentEnds : current.2 ≠ 0 → current.1 + current.2 = front.length)
    (longestZero : IsZeroSpan groups longest) :
    IsZeroSpan groups (zeroSpanFrom rest front.length current longest) := by
  induction rest generalizing front current longest with
  | nil => exact longestZero
  | cons group rest ih =>
      have wholeNext : groups = (front ++ [group]) ++ rest := by
        rw [whole, List.append_assoc, List.singleton_append]
      have position : (front ++ [group]).length = front.length + 1 := by
        rw [List.length_append, List.length_singleton]
      have here : groups[front.length]? = some group := by
        rw [whole, List.getElem?_append_right (Nat.le_refl _), Nat.sub_self, List.getElem?_cons_zero]
      unfold zeroSpanFrom
      by_cases zero : group = 0
      · rw [if_pos zero, ← position]
        have starts : (if current.2 = 0 then front.length else current.1) + current.2 =
            front.length := by
          split
          · omega
          · next nonempty => exact currentEnds nonempty
        have extendedZero : IsZeroSpan groups
            (if current.2 = 0 then front.length else current.1, current.2 + 1) := by
          intro offset inside
          rcases Nat.lt_succ_iff_lt_or_eq.mp inside with earlier | last
          · have old := currentZero offset earlier
            rwa [if_neg (by omega)]
          · simp only [last, starts]
            rw [here, zero]
        refine ih (front ++ [group]) wholeNext extendedZero ?_ ?_
        · intro _
          rw [position]
          simp only
          omega
        · by_cases longer : longest.2 < current.2 + 1
          · rwa [if_pos longer]
          · rwa [if_neg longer]
      · rw [if_neg zero, ← position]
        exact ih (front ++ [group]) wholeNext (isZeroSpan_empty groups 0)
          (fun nonempty => absurd rfl nonempty) longestZero

theorem zeroSpan_isZeroSpan (groups : List Nat) : IsZeroSpan groups (zeroSpan groups) :=
  zeroSpanFrom_isZeroSpan groups [] (List.nil_append groups).symm (isZeroSpan_empty groups 0)
    (fun nonempty => absurd rfl nonempty) (isZeroSpan_empty groups 0)

/-- A nonempty run of zeros lies inside the list. -/
theorem IsZeroSpan.le_length {groups : List Nat} {span : Nat × Nat}
    (zeros : IsZeroSpan groups span) (nonempty : 0 < span.2) :
    span.1 + span.2 ≤ groups.length := by
  have last := zeros (span.2 - 1) (by omega)
  have inside := (List.getElem?_eq_some_iff.mp last).1
  omega

/-- Filling the gap with zeros gives the list back. -/
theorem IsZeroSpan.split {groups : List Nat} {span : Nat × Nat}
    (zeros : IsZeroSpan groups span) :
    groups.take span.1 ++ List.replicate span.2 0 ++ groups.drop (span.1 + span.2) = groups := by
  have middle : (groups.drop span.1).take span.2 = List.replicate span.2 0 := by
    apply List.ext_getElem?
    intro offset
    by_cases inside : offset < span.2
    · rw [List.getElem?_take_of_lt inside, List.getElem?_drop, zeros offset inside,
        List.getElem?_replicate_of_lt inside]
    · rw [List.getElem?_take_eq_none (by omega),
        List.getElem?_eq_none (by rw [List.length_replicate]; omega)]
  rw [← middle, ← List.drop_drop, List.append_assoc, List.take_append_drop,
    List.take_append_drop]

/-! ## The main results -/

namespace Ipv6Addr

theorem length_segments (ip : Ipv6Addr) : ip.segments.length = 8 := by
  rw [segments, length_segmentsOf, ip.octets.2]

theorem octetsOf_segments (ip : Ipv6Addr) : octetsOf ip.segments = ip.octets.1 :=
  octetsOf_segmentsOf _ (by rw [ip.octets.2])

theorem segments_lt (ip : Ipv6Addr) : ∀ segment ∈ ip.segments, segment < 65536 :=
  segmentsOf_lt _

/-- The groups of an IPv4-mapped address. -/
theorem segments_of_mapped {ip : Ipv6Addr} {ip4 : Ipv4Addr} (mapped : ip.toIpv4Mapped = some ip4) :
    ip.segments = List.replicate 5 0 ++ 0xffff :: segmentsOf ip4.octets.1 := by
  unfold toIpv4Mapped at mapped
  split at mapped
  · next starts =>
    cases mapped
    have whole : ip.octets.1 = mappedHead ++ ip.octets.1.drop 12 := by
      rw [← starts, List.take_append_drop]
    change segmentsOf ip.octets.1 =
      List.replicate 5 0 ++ 0xffff :: segmentsOf (ip.octets.1.drop 12)
    generalize ip.octets.1.drop 12 = tail at whole
    rw [whole]
    rfl
  · cases mapped

/-- Where no dotted quad is printed, the groups read back are the groups of the address. -/
theorem readIpv6Groups_text (ip : Ipv6Addr) : readIpv6Groups ip.text = some (ip.segments, []) := by
  have size := ip.length_segments
  have bounded := ip.segments_lt
  unfold text
  cases mapped : ip.toIpv4Mapped with
  | some ip4 =>
      have quad := readIpv4Addr_text ip4 (noDigit_nil 10)
      rw [List.append_nil] at quad
      have front := readGroups_end 8 true
        (.inr ⟨numeral 16 0xffff ++ colon :: ip4.text, rfl⟩)
      have group := (readGroups_group (by decide : 0xffff < 65536) 6 (groupEnds_colon ip4.text)).1
      have tail : readGroups 6 false (colon :: ip4.text) =
          (segmentsOf ip4.octets.1, true, []) := by
        simp [readGroups, readSeparated_separator, quad]
      have room : 8 - (([] : List Nat).length + 1) = 6 + 1 := rfl
      have groups : (segmentsOf ip4.octets.1).length = 2 := by
        rw [length_segmentsOf, ip4.octets.2]
      simp only [readIpv6Groups, front, room, group, tail]
      rw [segments_of_mapped mapped]
      simp [groups]
  | none =>
      simp only
      have zeros := zeroSpan_isZeroSpan ip.segments
      split
      · next long =>
        have inside := zeros.le_length (by omega)
        rw [size] at inside
        have frontSize : (ip.segments.take (zeroSpan ip.segments).1).length =
            (zeroSpan ip.segments).1 := by
          rw [List.length_take, size]
          omega
        have backSize : (ip.segments.drop
            ((zeroSpan ip.segments).1 + (zeroSpan ip.segments).2)).length =
              8 - ((zeroSpan ip.segments).1 + (zeroSpan ip.segments).2) := by
          rw [List.length_drop, size]
        have front := readGroups_groupsText
          (fun g member => bounded g (List.mem_of_mem_take member)) 8
          (by rw [frontSize]; omega)
          (.inr ⟨groupsText (ip.segments.drop
            ((zeroSpan ip.segments).1 + (zeroSpan ip.segments).2)), rfl⟩)
        have back := readGroups_groupsText
          (fun g member => bounded g (List.mem_of_mem_drop member))
          (8 - ((zeroSpan ip.segments).1 + 1)) (by rw [backSize]; omega) (.inl rfl)
        rw [List.append_nil] at back
        have gap : 8 - (zeroSpan ip.segments).1 -
            (8 - ((zeroSpan ip.segments).1 + (zeroSpan ip.segments).2)) =
              (zeroSpan ip.segments).2 := by
          omega
        simp only [readIpv6Groups, front, frontSize, back, backSize, gap, zeros.split]
        rw [if_neg (by omega)]
        simp
      · have whole := readGroups_groupsText bounded 8 (Nat.le_of_eq size) (.inl rfl)
        rw [List.append_nil] at whole
        simp only [readIpv6Groups, whole, if_pos size]

/-- Every printed address starts with a colon, or with a group and a colon. -/
theorem text_shape (ip : Ipv6Addr) :
    (∃ rest, ip.text = colon :: rest) ∨
      ∃ group rest, ip.text = numeral 16 group ++ colon :: rest := by
  have size := ip.length_segments
  unfold text
  cases ip.toIpv4Mapped with
  | some ip4 => exact .inl ⟨_, rfl⟩
  | none =>
      simp only
      split
      · cases front : ip.segments.take (zeroSpan ip.segments).1 with
        | nil => exact .inl ⟨_, rfl⟩
        | cons group groups =>
            right
            cases groups with
            | nil | cons _ _ => exact ⟨group, _, by simp [groupsText, groupsAfter]; rfl⟩
      · match groups : ip.segments, size with
        | first :: second :: rest, _ =>
            exact .inr ⟨first, _, by simp [groupsText, groupsAfter]; rfl⟩

end Ipv6Addr

/-- The IPv6 reader inverts the printer. -/
theorem parseIpv6_text (ip : Ipv6Addr) : parseIpv6 ip.text = some ip := by
  have exact : (octetsOf ip.segments).length = 16 := by
    rw [ip.octetsOf_segments, ip.octets.2]
  simp only [parseIpv6, ip.readIpv6Groups_text, dif_pos exact, Option.some.injEq]
  exact congrArg Ipv6Addr.mk (Subtype.ext ip.octetsOf_segments)

/-- No printed IPv6 address is read as an IPv4 address. -/
theorem parseIpv4_ipv6_text (ip : Ipv6Addr) : parseIpv4 ip.text = none := by
  have unread : readIpv4Addr ip.text = none := by
    rcases ip.text_shape with ⟨rest, shape⟩ | ⟨group, rest, shape⟩
    · rw [shape, readIpv4Addr_colon]
    · rw [shape, readIpv4Addr_of_group group (groupEnds_colon rest)]
  unfold parseIpv4
  split
  · rfl
  · rw [unread]

/-! ## Printed addresses are ASCII -/

def IsAscii (text : Bytes) : Prop := ∀ byte ∈ text, byte < 128

instance (text : Bytes) : Decidable (IsAscii text) :=
  List.decidableBAll (fun byte => byte < 128) text

theorem isAscii_append {first second : Bytes} (one : IsAscii first) (two : IsAscii second) :
    IsAscii (first ++ second) := by
  intro byte member
  rcases List.mem_append.mp member with member | member
  · exact one byte member
  · exact two byte member

theorem isAscii_cons {byte : UInt8} {text : Bytes} (one : byte < 128) (rest : IsAscii text) :
    IsAscii (byte :: text) := by
  intro other member
  rcases List.mem_cons.mp member with rfl | member
  · exact one
  · exact rest other member

theorem digitByte_lt : ∀ digit < 36, digitByte digit < 128 := by decide

theorem isAscii_numeral {base : Nat} (large : 2 ≤ base) (small : base ≤ 36) (n : Nat) :
    IsAscii (numeral base n) := by
  intro byte member
  obtain ⟨digit, isDigit, rfl⟩ := List.mem_map.mp member
  have bound := lt_of_mem_digitsOf large n digit isDigit
  exact digitByte_lt digit (by omega)

theorem isAscii_groupsAfter (groups : List Nat) : IsAscii (groupsAfter groups) := by
  induction groups with
  | nil => intro byte impossible; cases impossible
  | cons group groups ih =>
      rw [groupsAfter, List.flatMap_cons]
      exact isAscii_append (isAscii_cons (by decide) (isAscii_numeral (by decide) (by decide) _)) ih

theorem isAscii_groupsText (groups : List Nat) : IsAscii (groupsText groups) := by
  cases groups with
  | nil => intro byte impossible; cases impossible
  | cons group groups =>
      exact isAscii_append (isAscii_numeral (by decide) (by decide) _) (isAscii_groupsAfter _)

theorem Ipv4Addr.isAscii_text (ip : Ipv4Addr) : IsAscii ip.text := by
  have octet (n : Nat) : IsAscii (numeral 10 n) := isAscii_numeral (by decide) (by decide) n
  have dotAscii : dot < 128 := by decide
  obtain ⟨⟨octets, size⟩⟩ := ip
  match octets, size with
  | [a, b, c, d], size =>
      rw [Ipv4Addr.text_cons]
      exact isAscii_append (octet _) (isAscii_cons dotAscii (isAscii_append (octet _)
        (isAscii_cons dotAscii (isAscii_append (octet _) (isAscii_cons dotAscii (octet _))))))

theorem Ipv6Addr.isAscii_text (ip : Ipv6Addr) : IsAscii ip.text := by
  have colonAscii : colon < 128 := by decide
  unfold text
  split
  · next ip4 mapped =>
    exact isAscii_cons colonAscii (isAscii_cons colonAscii (isAscii_append
      (isAscii_numeral (by decide) (by decide) _) (isAscii_cons colonAscii ip4.isAscii_text)))
  · simp only
    split
    · exact isAscii_append (isAscii_groupsText _)
        (isAscii_cons colonAscii (isAscii_cons colonAscii (isAscii_groupsText _)))
    · exact isAscii_groupsText _

/-! ## Texts that are read as addresses are ASCII -/

theorem isAscii_nil : IsAscii [] := fun _ impossible => absurd impossible List.not_mem_nil

/-- A text is ASCII up to what is left of it. -/
def AsciiUpTo (text rest : Bytes) : Prop := ∃ front, text = front ++ rest ∧ IsAscii front

theorem AsciiUpTo.refl (text : Bytes) : AsciiUpTo text text := ⟨[], rfl, isAscii_nil⟩

theorem AsciiUpTo.trans {text middle rest : Bytes} (first : AsciiUpTo text middle)
    (second : AsciiUpTo middle rest) : AsciiUpTo text rest := by
  obtain ⟨front, rfl, one⟩ := first
  obtain ⟨back, rfl, two⟩ := second
  exact ⟨front ++ back, (List.append_assoc ..).symm, isAscii_append one two⟩

theorem AsciiUpTo.cons {byte : UInt8} {text rest : Bytes} (low : byte < 128)
    (others : AsciiUpTo text rest) : AsciiUpTo (byte :: text) rest := by
  obtain ⟨front, rfl, ascii⟩ := others
  exact ⟨byte :: front, rfl, isAscii_cons low ascii⟩

theorem AsciiUpTo.isAscii {text : Bytes} (whole : AsciiUpTo text []) : IsAscii text := by
  obtain ⟨front, rfl, ascii⟩ := whole
  rwa [List.append_nil]

theorem digit_ascii {base digit : Nat} {byte : UInt8} (isDigit : digitValue base byte = some digit) :
    byte < 128 := by
  by_contra high
  rw [UInt8.not_lt, UInt8.le_iff_toNat_le] at high
  change 128 ≤ byte.toNat at high
  rw [digitValue, if_neg (by omega), if_neg (by omega), if_neg (by omega)] at isDigit
  cases isDigit

theorem readDigits_ascii (base : Nat) (text : Bytes) : AsciiUpTo text (readDigits base text).2 := by
  induction text with
  | nil => exact .refl []
  | cons byte text ih =>
      unfold readDigits
      split
      · next digit isDigit => exact ih.cons (digit_ascii isDigit)
      · exact .refl _

theorem readNumber_ascii {base maxDigits bound n : Nat} {zeros : Bool} {text rest : Bytes}
    (done : readNumber base maxDigits zeros bound text = some (n, rest)) : AsciiUpTo text rest := by
  rw [readNumber_rest done]
  exact readDigits_ascii base text

theorem readSeparated_ascii {α : Type} {separator : UInt8} {first : Bool}
    {item : Bytes → Option (α × Bytes)} {text rest : Bytes} {a : α} (low : separator < 128)
    (items : ∀ {text a rest}, item text = some (a, rest) → AsciiUpTo text rest)
    (done : readSeparated separator first item text = some (a, rest)) : AsciiUpTo text rest := by
  unfold readSeparated at done
  split at done
  · exact items done
  · split at done
    · cases done
    · split at done
      · next byte others same => exact (items done).cons (same ▸ low)
      · cases done

theorem readOctets_ascii {count : Nat} {first : Bool} {text rest : Bytes} {octets : List Nat}
    (done : readOctets count first text = some (octets, rest)) : AsciiUpTo text rest := by
  induction count generalizing first text octets with
  | zero =>
      cases done
      exact .refl _
  | succ count ih =>
      unfold readOctets at done
      split at done
      · cases done
      · next octet middle head =>
        split at done
        · cases done
        · next others rest' tail =>
          cases done
          exact (readSeparated_ascii (by decide) readNumber_ascii head).trans (ih tail)

theorem readIpv4Addr_ascii {text rest : Bytes} {ip : Ipv4Addr}
    (done : readIpv4Addr text = some (ip, rest)) : AsciiUpTo text rest := by
  unfold readIpv4Addr at done
  split at done
  · cases done
  · next octets rest' read =>
    split at done <;> cases done
    exact readOctets_ascii read

theorem readGroups_ascii (room : Nat) (first : Bool) (text : Bytes) :
    AsciiUpTo text (readGroups room first text).2.2 := by
  induction room generalizing first text with
  | zero => exact .refl _
  | succ room ih =>
      unfold readGroups
      split
      · next ip4 rest dotted =>
        split at dotted
        · exact readSeparated_ascii (by decide) readIpv4Addr_ascii dotted
        · cases dotted
      · split
        · next group rest read =>
          exact (readSeparated_ascii (by decide) readNumber_ascii read).trans (ih false rest)
        · exact .refl _

theorem readIpv6Groups_ascii {text rest : Bytes} {groups : List Nat}
    (done : readIpv6Groups text = some (groups, rest)) : AsciiUpTo text rest := by
  have front := readGroups_ascii 8 true text
  unfold readIpv6Groups at done
  split at done
  next groups' dotted middle read =>
  rw [read] at front
  split at done
  · cases done
    exact front
  split at done
  · cases done
  split at done
  · next one two others =>
    split at done
    · next colons =>
      split at done
      next back dotted' rest' read' =>
      have others := readGroups_ascii (8 - (groups'.length + 1)) true others
      rw [read'] at others
      cases done
      have low : colon < 128 := by decide
      exact front.trans ((others.cons (colons.2 ▸ low)).cons (colons.1 ▸ low))
    · cases done
  · cases done

theorem isAscii_of_parseIpv4 {text : Bytes} {ip : Ipv4Addr} (parses : parseIpv4 text = some ip) :
    IsAscii text := by
  unfold parseIpv4 at parses
  split at parses
  · cases parses
  · split at parses
    · next ip' read => exact (readIpv4Addr_ascii read).isAscii
    · cases parses

theorem isAscii_of_parseIpv6 {text : Bytes} {ip : Ipv6Addr} (parses : parseIpv6 text = some ip) :
    IsAscii text := by
  unfold parseIpv6 at parses
  split at parses
  · next groups read => exact (readIpv6Groups_ascii read).isAscii
  · cases parses

end TailcatSocks.Library
