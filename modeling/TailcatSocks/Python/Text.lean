import TailcatSocks.Library.TextFields
import TailcatSocks.Library.Utf8

/-!
# Python strings

A `str` is a list of code points.  Decoding is strict, text files are read with
universal newlines, and blanks are those of Unicode and four control characters
more.
-/

namespace TailcatSocks.Python

open Library

/-- A `str`, as its code points. -/
abbrev Str := List Nat

def newline : Nat := 10
def carriageReturn : Nat := 13

/-- `data.decode("utf-8")`; none stands for a `UnicodeDecodeError`. -/
def decodeUtf8 (data : Bytes) : Option Str :=
  if validUtf8 data then some ((runes data).filterMap Rune.code) else none

/-- `data.decode("ascii")`, likewise. -/
def decodeAscii (data : Bytes) : Option Str :=
  if data.all (fun byte => byte < 128) then some (data.map UInt8.toNat) else none

/-- `s.encode("ascii")`; none stands for a `UnicodeEncodeError`. -/
def encodeAscii (s : Str) : Option Bytes :=
  if s.all (fun code => code < 128) then some (s.map UInt8.ofNat) else none

/-- Line ends become line feeds; `afterReturn` says that the last character was
a carriage return, so that a line feed belongs to it. -/
def translateNewlines (afterReturn : Bool) : Str → Str
  | [] => []
  | code :: rest =>
      if code = carriageReturn then newline :: translateNewlines true rest
      else if code = newline ∧ afterReturn = true then translateNewlines false rest
      else code :: translateNewlines false rest

/-- `for raw in f`, without the line ends: no line follows a final one. -/
def lines (text : Str) : List Str :=
  let pieces := (translateNewlines false text).splitOn newline
  if pieces.getLast? = some [] then pieces.dropLast else pieces

/-- `str.isspace`, of one character. -/
def isSpace (code : Nat) : Bool :=
  (9 ≤ code && code ≤ 13) || (28 ≤ code && code ≤ 32) || code == 0x85 || code == 0xA0 ||
    code == 0x1680 || (0x2000 ≤ code && code ≤ 0x200a) || code == 0x2028 || code == 0x2029 ||
    code == 0x202f || code == 0x205f || code == 0x3000

def strip (s : Str) : Str := (s.dropWhile isSpace).rdropWhile isSpace

/-- `s.split()` -/
def split (s : Str) : List Str := fieldsOf isSpace s

def lowerAscii (code : Nat) : Nat := if 65 ≤ code ∧ code ≤ 90 then code + 32 else code

/-- `str.lower`, with a table for what is not ASCII. -/
def lower (table : Str → Str) (s : Str) : Str :=
  if s.all (fun code => code < 128) then s.map lowerAscii else table s

theorem decodeUtf8_eq_none_iff (data : Bytes) :
    decodeUtf8 data = none ↔ validUtf8 data = false := by
  simp [decodeUtf8]

/-! ## ASCII text -/

/-- The string with these bytes as its characters. -/
def ofAscii (text : Bytes) : Str := text.map UInt8.toNat

theorem ofAscii_injective : Function.Injective ofAscii :=
  List.map_injective_iff.mpr fun _ _ same => UInt8.toNat_inj.mp same

theorem map_ofNat_ofAscii (text : Bytes) : (ofAscii text).map UInt8.ofNat = text := by
  rw [ofAscii, List.map_map]
  exact (List.map_congr_left fun byte _ => UInt8.ofNat_toNat).trans (List.map_id text)

theorem encodeAscii_eq_none_iff {s : Str} :
    encodeAscii s = none ↔ ¬ ∀ code ∈ s, code < 128 := by
  unfold encodeAscii
  simp

theorem exists_encodeAscii {s : Str} (ascii : ∀ code ∈ s, code < 128) :
    ∃ name, encodeAscii s = some name := by
  refine Option.ne_none_iff_exists'.mp fun fails => ?_
  exact encodeAscii_eq_none_iff.mp fails ascii

theorem length_of_encodeAscii {s : Str} {name : Bytes} (encodes : encodeAscii s = some name) :
    name.length = s.length := by
  unfold encodeAscii at encodes
  split at encodes <;> cases encodes
  exact List.length_map _

/-- What a string is encoded as is decoded to it. -/
theorem decodeAscii_of_encodeAscii {s : Str} {name : Bytes} (encodes : encodeAscii s = some name) :
    decodeAscii name = some s := by
  unfold encodeAscii at encodes
  split at encodes
  · next ascii =>
    cases encodes
    rw [List.all_eq_true] at ascii
    have back : ∀ code ∈ s, (UInt8.ofNat code).toNat = code := by
      intro code member
      have low := of_decide_eq_true (ascii code member)
      rw [UInt8.toNat_ofNat', Nat.mod_eq_of_lt (by omega)]
    have whole : (s.map UInt8.ofNat).map UInt8.toNat = s := by
      rw [List.map_map]
      exact (List.map_congr_left back).trans (List.map_id s)
    have low : (s.map UInt8.ofNat).all (fun byte => byte < 128) = true := by
      rw [List.all_map, List.all_eq_true]
      intro code member
      rw [Function.comp_apply, decide_eq_true_iff, UInt8.lt_iff_toNat_lt, back code member]
      exact of_decide_eq_true (ascii code member)
    rw [decodeAscii, if_pos low, whole]
  · cases encodes

theorem decodeUtf8_ascii {data : Bytes} (ascii : IsAscii data) :
    decodeUtf8 data = some (ofAscii data) := by
  rw [decodeUtf8, if_pos (validUtf8_ascii ascii), runes_ascii ascii, List.filterMap_map]
  exact congrArg some (congrFun List.filterMap_eq_map data)

theorem all_ascii {text : Bytes} (ascii : IsAscii text) :
    (ofAscii text).all (fun code => code < 128) = true := by
  rw [List.all_eq_true]
  intro code member
  obtain ⟨byte, inText, rfl⟩ := List.mem_map.mp member
  exact decide_eq_true (UInt8.lt_iff_toNat_lt.mp (ascii byte inText))

/-- On ASCII text the table does not matter. -/
theorem lower_ascii (table : Str → Str) {text : Bytes} (ascii : IsAscii text) :
    lower table (ofAscii text) = ofAscii (toAsciiLowercase text) := by
  rw [lower, if_pos (all_ascii ascii), ofAscii, ofAscii, toAsciiLowercase, List.map_map,
    List.map_map]
  exact List.map_congr_left fun byte _ => (toNat_asciiLower byte).symm

end TailcatSocks.Python
