import TailcatSocks.Library.LastAssignment
import TailcatSocks.Library.TextFields
import TailcatSocks.Library.Utf8

/-!
# The Go `dns.txt` mapping

Go cuts its text into runes, so blanks and capitals are those of Unicode.  The
case table is a parameter: `lower` is `unicode.ToLower` beyond ASCII.
-/

namespace TailcatSocks.Go

open Library

/-- Domain, lowered, to token. -/
abbrev Mapping := FinMap Bytes Bytes

/-- `unicode.IsSpace`. -/
def isSpace (code : Nat) : Bool :=
  (9 ≤ code && code ≤ 13) || code == 32 || code == 0x85 || code == 0xA0 || code == 0x1680 ||
    (0x2000 ≤ code && code ≤ 0x200a) || code == 0x2028 || code == 0x2029 || code == 0x202f ||
    code == 0x205f || code == 0x3000

/-- What is not UTF-8 decodes to U+FFFD, which is no space. -/
def isSpaceRune (rune : Rune) : Bool := rune.code.any isSpace

def ofRunes (text : List Rune) : Bytes := text.flatMap Rune.bytes

/-- `strings.TrimSpace`. -/
def trimSpace (s : Bytes) : Bytes :=
  ofRunes (((runes s).dropWhile isSpaceRune).rdropWhile isSpaceRune)

/-- `strings.Fields`. -/
def fields (s : Bytes) : List Bytes := (fieldsOf isSpaceRune (runes s)).map ofRunes

/-- `unicode.ToLower`. -/
def toLowerRune (lower : Nat → Nat) (code : Nat) : Nat :=
  if code < 128 then if 65 ≤ code ∧ code ≤ 90 then code + 32 else code else lower code

/-- `strings.ToLower`. -/
def toLower (lower : Nat → Nat) (s : Bytes) : Bytes :=
  (runes s).flatMap fun rune =>
    match rune.code with
    | some code => encodeRune (toLowerRune lower code)
    | none => replacement

def hash : UInt8 := 35

def newline : UInt8 := 10

/-- The body of the loop of `LoadDNSFile`. -/
def loadLine (lower : Nat → Nat) (mapping : Mapping) (raw : Bytes) : Mapping :=
  let line := trimSpace raw
  if line.isEmpty || line.head? == some hash then mapping
  else
    match fields line with
    -- the source indexes the first field here; a line with no blank at its ends has one
    | [] => mapping
    | token :: domains =>
        domains.foldl (fun mapping d => mapping.insert (toLower lower d) token) mapping

/-- `LoadDNSFile`, once the file is read. -/
def loadDNSFile (lower : Nat → Nat) (data : Bytes) : Mapping :=
  (data.splitOn newline).foldl (loadLine lower) ∅

def rewriteHost (lower : Nat → Nat) (host : Bytes) (m : Mapping) : Bytes :=
  (m.lookup (toLower lower host)).getD host

/-! ## Rows -/

/-- The insertions that one line makes, in order. -/
def rowOf (lower : Nat → Nat) (raw : Bytes) : List (Bytes × Bytes) :=
  let line := trimSpace raw
  if line.isEmpty || line.head? == some hash then []
  else
    match fields line with
    | [] => []
    | token :: domains => domains.map fun d => (toLower lower d, token)

theorem loadLine_eq (lower : Nat → Nat) (mapping : Mapping) (raw : Bytes) :
    loadLine lower mapping raw = assignRow mapping (rowOf lower raw) := by
  unfold loadLine rowOf
  dsimp only
  split
  · rfl
  · split
    · rfl
    · exact (assignRow_map ..).symm

theorem loadDNSFile_eq (lower : Nat → Nat) (data : Bytes) :
    loadDNSFile lower data = assignRows ∅ ((data.splitOn newline).map (rowOf lower)) :=
  foldl_eq_assignRows (loadLine_eq lower) ∅ (data.splitOn newline)

/-! ## ASCII text -/

theorem toLowerRune_ascii (lower : Nat → Nat) {byte : UInt8} (low : byte < 128) :
    toLowerRune lower byte.toNat = (asciiLower byte).toNat := by
  have bound : byte.toNat < 128 := UInt8.lt_iff_toNat_lt.mp low
  rw [toLowerRune, if_pos bound, toNat_asciiLower]

theorem asciiLower_lt {byte : UInt8} (low : byte < 128) : asciiLower byte < 128 := by
  have bound : byte.toNat < 128 := UInt8.lt_iff_toNat_lt.mp low
  rw [UInt8.lt_iff_toNat_lt, toNat_asciiLower]
  change (if 65 ≤ byte.toNat ∧ byte.toNat ≤ 90 then byte.toNat + 32 else byte.toNat) < 128
  split <;> omega

/-- On ASCII text the case table does not matter. -/
theorem toLower_ascii (lower : Nat → Nat) {s : Bytes} (ascii : IsAscii s) :
    toLower lower s = toAsciiLowercase s := by
  rw [toLower, runes_ascii ascii, List.flatMap_map, toAsciiLowercase, List.map_eq_flatMap]
  refine List.flatMap_congr fun byte member => ?_
  have low := ascii byte member
  change encodeRune (toLowerRune lower byte.toNat) = [asciiLower byte]
  rw [toLowerRune_ascii lower low, encodeRune_ascii (asciiLower_lt low)]

end TailcatSocks.Go
