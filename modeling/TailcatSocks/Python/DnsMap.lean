import TailcatSocks.Library.LastAssignment
import TailcatSocks.Python.Text

/-!
# The Python `dns.txt` mapping

The file is opened as UTF-8 text and decoded while it is parsed; a byte that
does not decode ends the whole load with an exception.
-/

namespace TailcatSocks.Python

open Library

/-- Domain, lowered, to token. -/
abbrev Mapping := FinMap Str Str

def hash : Nat := 35

/-- The body of the loop of `load_dns_map`. -/
def loadLine (table : Str → Str) (mapping : Mapping) (raw : Str) : Mapping :=
  let line := strip raw
  if line.isEmpty || line.head? == some hash then mapping
  else
    match split line with
    -- the source indexes the first part here; a stripped line has one
    | [] => mapping
    | token :: domains =>
        domains.foldl (fun mapping d => mapping.insert (lower table d) token) mapping

/-- `load_dns_map`, once the file is read; none stands for a `UnicodeDecodeError`. -/
def loadDnsMap (table : Str → Str) (data : Bytes) : Option Mapping :=
  (decodeUtf8 data).map fun text => (lines text).foldl (loadLine table) ∅

def rewriteHost (table : Str → Str) (host : Str) (dnsMap : Mapping) : Str :=
  (dnsMap.lookup (lower table host)).getD host

/-- The insertions that one line makes, in order. -/
def rowOf (table : Str → Str) (raw : Str) : List (Str × Str) :=
  let line := strip raw
  if line.isEmpty || line.head? == some hash then []
  else
    match split line with
    | [] => []
    | token :: domains => domains.map fun d => (lower table d, token)

theorem loadLine_eq (table : Str → Str) (mapping : Mapping) (raw : Str) :
    loadLine table mapping raw = assignRow mapping (rowOf table raw) := by
  unfold loadLine rowOf
  dsimp only
  split
  · rfl
  · split
    · rfl
    · exact (assignRow_map ..).symm

/-- The piece after a final line end assigns nothing. -/
theorem foldl_lines (table : Str → Str) (text : Str) :
    (lines text).foldl (loadLine table) ∅ =
      assignRows ∅ (((translateNewlines false text).splitOn newline).map (rowOf table)) := by
  rw [foldl_eq_assignRows (loadLine_eq table), lines]
  split
  · next final =>
    obtain ⟨front, whole⟩ := List.getLast?_eq_some_iff.mp final
    rw [whole, List.dropLast_concat, List.map_append, assignRows, assignRows, List.foldl_append]
    rfl
  · rfl

/-- A load fails exactly on what is not UTF-8. -/
theorem loadDnsMap_eq_none_iff (table : Str → Str) (data : Bytes) :
    loadDnsMap table data = none ↔ validUtf8 data = false := by
  rw [loadDnsMap, Option.map_eq_none_iff, decodeUtf8_eq_none_iff]

end TailcatSocks.Python
