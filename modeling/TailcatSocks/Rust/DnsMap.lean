import TailcatSocks.Library.TextFields
import TailcatSocks.Library.LastAssignment

/-!
# The Rust `dns.txt` mapping

`parse_dns` inserts into a hash map line by line and field by field;
`rewrite_host` looks the lowered host up.  The file format is stated without
either of them: a mapped domain has an occurrence in the file, and the last
occurrence decides.
-/

namespace TailcatSocks.Rust

open Library

/-- Domain, lowered, to token; both raw bytes. -/
abbrev Mapping := FinMap Bytes Bytes

/-- `u8::is_ascii_whitespace`: space, tab, line feed, form feed, carriage return. -/
def isAsciiWhitespace (byte : UInt8) : Bool :=
  byte == 32 || byte == 9 || byte == 10 || byte == 12 || byte == 13

/-- `Iterator::rposition`, the index counted from the front. -/
def rposition (found : UInt8 → Bool) (b : Bytes) : Option Nat :=
  (b.reverse.findIdx? found).map fun index => b.length - 1 - index

def trimWs (b : Bytes) : Bytes :=
  match b.findIdx? (fun c => !isAsciiWhitespace c) with
  | none => []
  | some start =>
      match rposition (fun c => !isAsciiWhitespace c) b with
      -- the source unwraps here; `trimWs_unwraps` shows that it may
      | none => []
      | some last => (b.take (last + 1)).drop start

/-- What separates the fields of a line: a space or a tab. -/
def isFieldSeparator (byte : UInt8) : Bool := byte == 32 || byte == 9

def hash : UInt8 := 35

def newline : UInt8 := 10

/-- The body of the loop of `parse_dns`. -/
def parseLine (mapping : Mapping) (raw : Bytes) : Mapping :=
  let line := trimWs raw
  if line.isEmpty || line.head? == some hash then mapping
  else
    match (line.splitOnP isFieldSeparator).filter (fun f => !f.isEmpty) with
    | [] => mapping
    | token :: fields =>
        fields.foldl (fun mapping d => mapping.insert (toAsciiLowercase d) token) mapping

def parseDns (data : Bytes) : Mapping := (data.splitOn newline).foldl parseLine ∅

def rewriteHost (host : Bytes) (m : Mapping) : Bytes :=
  (m.lookup (toAsciiLowercase host)).getD host

/-! ## Trimming -/

theorem findIdx?_split {found : UInt8 → Bool} {b : Bytes} {index : Nat}
    (here : b.findIdx? found = some index) :
    ∃ before a after, b = before ++ a :: after ∧ before.length = index ∧
      (∀ c ∈ before, found c = false) ∧ found a = true := by
  obtain ⟨inside, holds, earlier⟩ := List.findIdx?_eq_some_iff_getElem.mp here
  refine ⟨b.take index, b[index], b.drop (index + 1), ?_, List.length_take_of_le inside.le, ?_,
    holds⟩
  · rw [← List.drop_eq_getElem_cons inside, List.take_append_drop]
  · intro c member
    obtain ⟨position, bound, rfl⟩ := List.getElem_of_mem member
    rw [List.length_take_of_le inside.le] at bound
    rw [List.getElem_take]
    simpa using earlier position bound

theorem rposition_split {found : UInt8 → Bool} {b : Bytes} {index : Nat}
    (here : rposition found b = some index) :
    ∃ before a after, b = before ++ a :: after ∧ before.length = index ∧
      (∀ c ∈ after, found c = false) ∧ found a = true := by
  obtain ⟨fromEnd, reversed, rfl⟩ := Option.map_eq_some_iff.mp here
  obtain ⟨before, a, after, split, rfl, none, holds⟩ := findIdx?_split reversed
  have whole : b = after.reverse ++ a :: before.reverse := by
    rw [← List.reverse_reverse b, split]
    simp
  refine ⟨after.reverse, a, before.reverse, whole, ?_, ?_, holds⟩
  · rw [whole]
    simp
  · exact fun c member => none c (List.mem_reverse.mp member)

/-- The `unwrap` of `trim_ws` never panics. -/
theorem trimWs_unwraps {found : UInt8 → Bool} {b : Bytes} {start : Nat}
    (here : b.findIdx? found = some start) : (rposition found b).isSome = true := by
  obtain ⟨before, a, after, rfl, -, -, holds⟩ := findIdx?_split here
  rw [rposition, Option.isSome_map, List.findIdx?_isSome, List.any_reverse]
  simp [holds]

theorem trimWs_trimmed (b : Bytes) : Trimmed isAsciiWhitespace b (trimWs b) := by
  unfold trimWs
  split
  · next absent =>
      refine ⟨b, [], by simp, ?_, by simp, by simp, by simp⟩
      intro a member
      simpa using List.findIdx?_eq_none_iff.mp absent a member
  · next start here =>
      obtain ⟨last, there⟩ := Option.isSome_iff_exists.mp (trimWs_unwraps here)
      simp only [there]
      obtain ⟨before, a, rest, split, rfl, blanksBefore, solidA⟩ := findIdx?_split here
      obtain ⟨front, z, after, split', rfl, blanksAfter, solidZ⟩ := rposition_split there
      have both : before ++ a :: rest = (front ++ [z]) ++ after := by
        rw [← split, split', List.append_assoc, List.singleton_append]
      have taken : b.take (front.length + 1) = front ++ [z] := by
        rw [split, both, List.take_left' (by simp)]
      rcases List.append_eq_append_iff.mp both with ⟨line, cut, tail⟩ | ⟨extra, cut, -⟩
      · have trimmed : (b.take (front.length + 1)).drop before.length = line := by
          rw [taken, cut, List.drop_left]
        rw [trimmed]
        refine ⟨before, after, ?_, ?_, ?_, ?_, ?_⟩
        · rw [split, both, cut]
        · exact fun c member => by simpa using blanksBefore c member
        · exact fun c member => by simpa using blanksAfter c member
        · intro c first
          cases line with
          | nil => cases first
          | cons c' line =>
              rw [List.cons_append, List.cons.injEq] at tail
              rw [List.head?_cons, Option.some.injEq] at first
              rw [← first, ← tail.1]
              simpa using solidA
        · intro c ends
          have sameEnd : (front ++ [z]).getLast? = some c := by
            rw [cut, List.getLast?_append, ends, Option.some_or]
          rw [List.getLast?_concat, Option.some.injEq] at sameEnd
          rw [← sameEnd]
          simpa using solidZ
      · have member : z ∈ before := by
          rw [cut]
          simp
        rw [blanksBefore z member] at solidZ
        cases solidZ

/-! ## Rows -/

/-- The insertions that one line makes, in order. -/
def rowOf (raw : Bytes) : List (Bytes × Bytes) :=
  let line := trimWs raw
  if line.isEmpty || line.head? == some hash then []
  else
    match fieldsOf isFieldSeparator line with
    | [] => []
    | token :: fields => fields.map fun d => (toAsciiLowercase d, token)

theorem parseLine_eq (mapping : Mapping) (raw : Bytes) :
    parseLine mapping raw = assignRow mapping (rowOf raw) := by
  unfold parseLine rowOf fieldsOf
  dsimp only
  split
  · rfl
  · split
    · rfl
    · exact (assignRow_map ..).symm

theorem parseDns_eq (data : Bytes) :
    parseDns data = assignRows ∅ ((data.splitOn newline).map rowOf) :=
  foldl_eq_assignRows parseLine_eq ∅ (data.splitOn newline)

/-! ## The file format -/

/-- The line with this number is neither blank nor a comment, its first field
is `token`, and `domain` is the field with this number among the others. -/
def Occurs (content : Bytes) (line field : Nat) (domain token : Bytes) : Prop :=
  ∃ lines raw text fields, IsLines newline content lines ∧ lines[line]? = some raw ∧
    Trimmed isAsciiWhitespace raw text ∧ text ≠ [] ∧ text.head? ≠ some hash ∧
    MaximalRuns isFieldSeparator text (token :: fields) ∧ fields[field]? = some domain

/-- The occurrences of a file are the cells of its rows. -/
theorem cell_iff_occurs {content : Bytes} {line field : Nat} {key token : Bytes} :
    (∃ row, ((content.splitOn newline).map rowOf)[line]? = some row ∧
        row[field]? = some (key, token)) ↔
      ∃ domain, Occurs content line field domain token ∧ toAsciiLowercase domain = key := by
  constructor
  · rintro ⟨row, rowHere, cellHere⟩
    rw [List.getElem?_map, Option.map_eq_some_iff] at rowHere
    obtain ⟨raw, lineHere, rfl⟩ := rowHere
    unfold rowOf at cellHere
    dsimp only at cellHere
    split at cellHere
    · cases cellHere
    · next kept =>
      split at cellHere
      · cases cellHere
      · next first fields split =>
        rw [List.getElem?_map, Option.map_eq_some_iff] at cellHere
        obtain ⟨domain, fieldHere, same⟩ := cellHere
        rw [Prod.mk.injEq] at same
        obtain ⟨lowered, rfl⟩ := same
        simp only [Bool.or_eq_true, List.isEmpty_iff, beq_iff_eq, not_or] at kept
        exact ⟨domain, ⟨_, raw, trimWs raw, fields, isLines_iff.mpr rfl, lineHere,
          trimWs_trimmed raw, kept.1, kept.2, maximalRuns_iff.mpr split.symm, fieldHere⟩, lowered⟩
  · rintro ⟨domain, ⟨lines, raw, text, fields, areLines, lineHere, trimmed, nonempty, noComment,
      runs, fieldHere⟩, lowered⟩
    rw [isLines_iff.mp areLines] at lineHere
    have isText : text = trimWs raw := by
      rw [trimmed_iff.mp trimmed, ← trimmed_iff.mp (trimWs_trimmed raw)]
    rw [isText] at nonempty noComment runs
    refine ⟨rowOf raw, by rw [List.getElem?_map, lineHere, Option.map_some], ?_⟩
    have kept : ((trimWs raw).isEmpty || (trimWs raw).head? == some hash) = false := by
      simp [nonempty, noComment]
    simp only [rowOf, kept, Bool.false_eq_true, if_false, ← maximalRuns_iff.mp runs,
      List.getElem?_map, fieldHere, Option.map_some, lowered]

/-- Appending a line feed and more text appends rows. -/
theorem splitOn_append_newline (a b : Bytes) :
    (a ++ newline :: b).splitOn newline = a.splitOn newline ++ b.splitOn newline :=
  List.splitOn_append_cons_self a b

theorem lookup_parseDns_append (a b key : Bytes) :
    (parseDns (a ++ newline :: b)).lookup key =
      ((parseDns b).lookup key).or ((parseDns a).lookup key) := by
  rw [parseDns_eq, parseDns_eq, parseDns_eq, splitOn_append_newline, List.map_append, assignRows,
    List.foldl_append]
  exact lookup_assignRows_or _ _ key

/-- `rewrite_host` after `parse_dns` yields the token of the last occurrence of
the host in the file, or the host itself when there is none; and a file
appended after another overrides it domain by domain. -/
theorem rewriteHost_last_occurrence :
    (∀ content host : Bytes,
      (∃ line field domain token, Occurs content line field domain token ∧
          toAsciiLowercase domain = toAsciiLowercase host ∧
          (∀ line' field' domain' token', Occurs content line' field' domain' token' →
            toAsciiLowercase domain' = toAsciiLowercase host →
              line' < line ∨ (line' = line ∧ field' ≤ field)) ∧
          rewriteHost host (parseDns content) = token) ∨
        ((∀ line field domain token, Occurs content line field domain token →
            toAsciiLowercase domain ≠ toAsciiLowercase host) ∧
          rewriteHost host (parseDns content) = host)) ∧
      ∀ a b key : Bytes, (parseDns (a ++ newline :: b)).lookup key =
        ((parseDns b).lookup key).or ((parseDns a).lookup key) := by
  refine ⟨fun content host => ?_, lookup_parseDns_append⟩
  rw [rewriteHost, parseDns_eq]
  rcases lookup_assignRows ∅ ((content.splitOn newline).map rowOf) (toAsciiLowercase host) with
    ⟨line, row, field, token, rowHere, cellHere, isLast, found⟩ | ⟨absent, found⟩
  · obtain ⟨domain, occurs, lowered⟩ := cell_iff_occurs.mp ⟨row, rowHere, cellHere⟩
    refine .inl ⟨line, field, domain, token, occurs, lowered, ?_, by rw [found, Option.getD_some]⟩
    intro line' field' domain' token' occurs' lowered'
    obtain ⟨row', rowHere', cellHere'⟩ := cell_iff_occurs.mpr ⟨domain', occurs', lowered'⟩
    exact isLast line' row' field' token' rowHere' cellHere'
  · refine .inr ⟨?_, by rw [found, AList.lookup_empty, Option.getD_none]⟩
    intro line field domain token occurs lowered
    obtain ⟨row, rowHere, cellHere⟩ := cell_iff_occurs.mpr ⟨domain, occurs, lowered⟩
    exact absent line row field token rowHere cellHere

end TailcatSocks.Rust
