import TailcatSocks.Rust.DnsMap
import TailcatSocks.Go.DnsMap
import TailcatSocks.Python.DnsMap

/-!
# The three `dns.txt` parsers

The documented format knows printable ASCII characters, blanks and line ends.
On such a file the three parsers make the same assignments line by line: their
blanks, comment signs and capitals differ only elsewhere.
-/

namespace TailcatSocks

open Library

/-- A printable character of ASCII, a space or a tab. -/
def InLine (byte : UInt8) : Prop := byte = 9 ∨ 32 ≤ byte ∧ byte ≤ 126

/-- A content in the documented format; a line ends with LF or CRLF. -/
inductive PlainText : Bytes → Prop where
  | nil : PlainText []
  | inLine {byte : UInt8} {rest : Bytes} :
      InLine byte → PlainText rest → PlainText (byte :: rest)
  | lf {rest : Bytes} : PlainText rest → PlainText (10 :: rest)
  | crlf {rest : Bytes} : PlainText rest → PlainText (13 :: 10 :: rest)

/-- A printable host: no blanks. -/
def Printable (host : Bytes) : Prop := ∀ byte ∈ host, 33 ≤ byte ∧ byte ≤ 126

/-! ## Single characters -/

theorem InLine.toNat {byte : UInt8} (inLine : InLine byte) :
    byte.toNat = 9 ∨ 32 ≤ byte.toNat ∧ byte.toNat ≤ 126 := by
  rcases inLine with rfl | ⟨lower, upper⟩
  · exact .inl rfl
  · exact .inr ⟨UInt8.le_iff_toNat_le.mp lower, UInt8.le_iff_toNat_le.mp upper⟩

theorem InLine.ascii {byte : UInt8} (inLine : InLine byte) : byte < 128 := by
  have bounds := inLine.toNat
  rw [UInt8.lt_iff_toNat_lt]
  change byte.toNat < 128
  omega

theorem toNat_beq (byte byte' : UInt8) : (byte == byte') = (byte.toNat == byte'.toNat) := by
  rw [Bool.eq_iff_iff, beq_iff_eq, beq_iff_eq, UInt8.toNat_inj]

theorem rust_blank {byte : UInt8} (inLine : InLine byte) :
    Rust.isAsciiWhitespace byte = Rust.isFieldSeparator byte := by
  have bounds := inLine.toNat
  rw [Bool.eq_iff_iff]
  simp [Rust.isAsciiWhitespace, Rust.isFieldSeparator, toNat_beq]
  omega

theorem go_blank {byte : UInt8} (inLine : InLine byte) :
    Go.isSpace byte.toNat = Rust.isFieldSeparator byte := by
  have bounds := inLine.toNat
  rw [Bool.eq_iff_iff]
  simp [Go.isSpace, Rust.isFieldSeparator, toNat_beq]
  omega

theorem python_blank {byte : UInt8} (inLine : InLine byte) :
    Python.isSpace byte.toNat = Rust.isFieldSeparator byte := by
  have bounds := inLine.toNat
  rw [Bool.eq_iff_iff]
  simp [Python.isSpace, Rust.isFieldSeparator, toNat_beq]
  omega

theorem PlainText.ascii {content : Bytes} (plain : PlainText content) : IsAscii content := by
  induction plain with
  | nil => exact List.forall_mem_nil _
  | inLine inLine _ ih => exact List.forall_mem_cons.mpr ⟨inLine.ascii, ih⟩
  | lf _ ih => exact List.forall_mem_cons.mpr ⟨by decide, ih⟩
  | crlf _ ih =>
      exact List.forall_mem_cons.mpr ⟨by decide, List.forall_mem_cons.mpr ⟨by decide, ih⟩⟩

/-! ## Lines -/

/-- The line without the carriage return before its end. -/
def LineOf (raw body : Bytes) : Prop :=
  (∀ byte ∈ body, InLine byte) ∧ (raw = body ∨ raw = body ++ [13])

theorem LineOf.empty : LineOf [] [] := ⟨List.forall_mem_nil _, .inl rfl⟩

theorem LineOf.cons {byte : UInt8} (inLine : InLine byte) {raw body : Bytes}
    (lineOf : LineOf raw body) : LineOf (byte :: raw) (byte :: body) := by
  obtain ⟨inBody, same⟩ := lineOf
  refine ⟨List.forall_mem_cons.mpr ⟨inLine, inBody⟩, ?_⟩
  rcases same with rfl | rfl
  · exact .inl rfl
  · exact .inr rfl

theorem translateNewlines_cons {code : Nat} (solid : code ≠ 13) (rest : Python.Str) :
    Python.translateNewlines false (code :: rest) =
      code :: Python.translateNewlines false rest := by
  simp [Python.translateNewlines, Python.carriageReturn, solid]

theorem translateNewlines_crlf (rest : Python.Str) :
    Python.translateNewlines false (13 :: Python.newline :: rest) =
      Python.newline :: Python.translateNewlines false rest := by
  simp [Python.translateNewlines, Python.carriageReturn, Python.newline]

theorem splitOn_newline_cons {α : Type} [BEq α] [LawfulBEq α] (newline : α) (rest : List α) :
    (newline :: rest).splitOn newline = [] :: rest.splitOn newline := by
  rw [List.splitOn_cons_eq_if_modifyHead, if_pos (BEq.rfl)]

theorem splitOn_cons {α : Type} [BEq α] [LawfulBEq α] {a newline : α} (solid : a ≠ newline)
    {rest line : List α} {lines : List (List α)} (cut : rest.splitOn newline = line :: lines) :
    (a :: rest).splitOn newline = (a :: line) :: lines := by
  rw [List.splitOn_cons_eq_if_modifyHead, if_neg (by simpa using solid), cut, List.modifyHead_cons]

/-- The lines of a content, as the three languages cut it. -/
theorem lines_of_plainText {content : Bytes} (plain : PlainText content) :
    ∃ bodies, List.Forall₂ LineOf (content.splitOn 10) bodies ∧
      (Python.translateNewlines false (Python.ofAscii content)).splitOn Python.newline =
        bodies.map Python.ofAscii := by
  induction plain with
  | nil => exact ⟨[[]], .cons .empty .nil, rfl⟩
  | @inLine byte rest inLine plain ih =>
      obtain ⟨bodies, lineOf, translated⟩ := ih
      have bounds := inLine.toNat
      have solid : byte ≠ 10 := by
        rintro rfl
        exact absurd bounds (by decide)
      have solid' : byte.toNat ≠ Python.newline := by
        rw [Python.newline]
        omega
      obtain ⟨line, lines, cut⟩ :=
        List.exists_cons_of_ne_nil (List.splitOn_ne_nil (10 : UInt8) rest)
      rw [cut] at lineOf
      cases lineOf with
      | @cons _ body _ bodies first others =>
          refine ⟨(byte :: body) :: bodies, ?_, ?_⟩
          · rw [splitOn_cons solid cut]
            exact .cons (first.cons inLine) others
          · change (Python.translateNewlines false (byte.toNat :: Python.ofAscii rest)).splitOn
              Python.newline = _
            rw [translateNewlines_cons (by omega), splitOn_cons solid' translated]
            rfl
  | @lf rest plain ih =>
      obtain ⟨bodies, lineOf, translated⟩ := ih
      refine ⟨[] :: bodies, ?_, ?_⟩
      · rw [splitOn_newline_cons]
        exact .cons .empty lineOf
      · change (Python.translateNewlines false (Python.newline :: Python.ofAscii rest)).splitOn
          Python.newline = _
        rw [translateNewlines_cons (by decide), splitOn_newline_cons, translated]
        rfl
  | @crlf rest plain ih =>
      obtain ⟨bodies, lineOf, translated⟩ := ih
      refine ⟨[] :: bodies, ?_, ?_⟩
      · rw [splitOn_cons (by decide) (splitOn_newline_cons 10 rest)]
        exact .cons ⟨List.forall_mem_nil _, .inr rfl⟩ lineOf
      · change
          (Python.translateNewlines false
            (13 :: Python.newline :: Python.ofAscii rest)).splitOn Python.newline = _
        rw [translateNewlines_crlf, splitOn_newline_cons, translated]
        rfl

/-! ## Rows -/

variable (lower : Nat → Nat) (table : Python.Str → Python.Str)

section Lines

variable {raw body : Bytes}

/-- What a line is trimmed to does not depend on its end. -/
theorem trimmed_of_lineOf (lineOf : LineOf raw body) :
    Trimmed Rust.isAsciiWhitespace raw (Rust.trimWs body) := by
  rcases lineOf.2 with same | same
  · rw [same]
    exact Rust.trimWs_trimmed body
  · rw [same]
    exact (Rust.trimWs_trimmed body).append_blanks (List.forall_mem_singleton.mpr rfl)

theorem trimWs_of_lineOf (lineOf : LineOf raw body) : Rust.trimWs raw = Rust.trimWs body :=
  (Rust.trimWs_trimmed raw).unique (trimmed_of_lineOf lineOf)

theorem inLine_of_mem_trimWs (inLine : ∀ byte ∈ body, InLine byte) :
    ∀ byte ∈ Rust.trimWs body, InLine byte :=
  fun byte member => inLine byte ((Rust.trimWs_trimmed body).mem member)

theorem isAscii_of_inLine (inLine : ∀ byte ∈ body, InLine byte) : IsAscii body :=
  fun byte member => (inLine byte member).ascii

theorem LineOf.inLine_or_return (lineOf : LineOf raw body) :
    ∀ byte ∈ raw, InLine byte ∨ byte = 13 := by
  obtain ⟨inLine, same⟩ := lineOf
  intro byte member
  rcases same with rfl | rfl
  · exact .inl (inLine byte member)
  · rcases List.mem_append.mp member with before | final
    · exact .inl (inLine byte before)
    · exact .inr (List.mem_singleton.mp final)

/-- The rune that an ASCII byte is. -/
def asciiRune (byte : UInt8) : Rune := ⟨[byte], some byte.toNat⟩

theorem ofRunes_map_asciiRune (text : Bytes) : Go.ofRunes (text.map asciiRune) = text := by
  rw [Go.ofRunes, List.flatMap_map]
  exact List.flatMap_singleton' text

theorem trimSpace_of_lineOf (lineOf : LineOf raw body) :
    Go.trimSpace raw = Rust.trimWs body := by
  have ascii : IsAscii raw := by
    intro byte member
    rcases lineOf.inLine_or_return byte member with inLine | rfl
    · exact inLine.ascii
    · decide
  have same : ∀ byte ∈ raw,
      Rust.isAsciiWhitespace byte = Go.isSpaceRune (asciiRune byte) := by
    intro byte member
    rcases lineOf.inLine_or_return byte member with inLine | rfl
    · rw [rust_blank inLine, ← go_blank inLine]
      rfl
    · rfl
  have trimmed := ((trimmed_of_lineOf lineOf).congr same).map
  rw [Go.trimSpace, runes_ascii ascii]
  exact (congrArg Go.ofRunes (trimmed_iff.mp trimmed)).symm.trans (ofRunes_map_asciiRune _)

theorem strip_of_inLine (inLine : ∀ byte ∈ body, InLine byte) :
    Python.strip (Python.ofAscii body) = Python.ofAscii (Rust.trimWs body) := by
  have same : ∀ byte ∈ body, Rust.isAsciiWhitespace byte = Python.isSpace byte.toNat := by
    intro byte member
    rw [rust_blank (inLine byte member), python_blank (inLine byte member)]
  exact (trimmed_iff.mp ((Rust.trimWs_trimmed body).congr same).map).symm

theorem fields_of_inLine (inLine : ∀ byte ∈ body, InLine byte) :
    Go.fields body = fieldsOf Rust.isFieldSeparator body := by
  have same : ∀ byte ∈ body,
      Rust.isFieldSeparator byte = Go.isSpaceRune (asciiRune byte) :=
    fun byte member => (go_blank (inLine byte member)).symm
  rw [Go.fields, runes_ascii (isAscii_of_inLine inLine)]
  change (fieldsOf Go.isSpaceRune (body.map asciiRune)).map Go.ofRunes = _
  rw [fieldsOf_map same, List.map_map]
  exact (List.map_congr_left fun field _ => ofRunes_map_asciiRune field).trans (List.map_id _)

theorem split_of_inLine (inLine : ∀ byte ∈ body, InLine byte) :
    Python.split (Python.ofAscii body) =
      (fieldsOf Rust.isFieldSeparator body).map Python.ofAscii :=
  fieldsOf_map fun byte member => (python_blank (inLine byte member)).symm

theorem isAscii_of_mem_fieldsOf (inLine : ∀ byte ∈ body, InLine byte) {field : Bytes}
    (member : field ∈ fieldsOf Rust.isFieldSeparator body) : IsAscii field :=
  fun byte inField => (inLine byte (mem_of_mem_fieldsOf member inField)).ascii

theorem rust_rowOf (lineOf : LineOf raw body) : Rust.rowOf raw = Rust.rowOf body := by
  rw [Rust.rowOf, Rust.rowOf, trimWs_of_lineOf lineOf]

theorem go_rowOf (lineOf : LineOf raw body) : Go.rowOf lower raw = Rust.rowOf body := by
  have inLine := inLine_of_mem_trimWs lineOf.1
  rw [Go.rowOf, Rust.rowOf, trimSpace_of_lineOf lineOf]
  rw [fields_of_inLine inLine]
  split
  · next comment => exact (if_pos comment).symm
  · next noComment =>
    refine Eq.trans ?_ (if_neg noComment).symm
    cases cut : fieldsOf Rust.isFieldSeparator (Rust.trimWs body) with
    | nil => rfl
    | cons token domains =>
        refine List.map_congr_left fun d member => ?_
        have ascii : IsAscii d := isAscii_of_mem_fieldsOf inLine
          (by rw [cut]; exact List.mem_cons_of_mem _ member)
        rw [Go.toLower_ascii lower ascii]

theorem head?_ofAscii (text : Bytes) :
    ((Python.ofAscii text).head? == some Python.hash) = (text.head? == some Rust.hash) := by
  cases text with
  | nil => rfl
  | cons first rest =>
      rw [Bool.eq_iff_iff, beq_iff_eq, beq_iff_eq, List.head?_cons, Option.some.injEq]
      change some first.toNat = some Rust.hash.toNat ↔ _
      rw [Option.some.injEq, UInt8.toNat_inj]

theorem python_rowOf (inLine : ∀ byte ∈ body, InLine byte) :
    Python.rowOf table (Python.ofAscii body) =
      (Rust.rowOf body).map (Prod.map Python.ofAscii Python.ofAscii) := by
  have inText := inLine_of_mem_trimWs inLine
  rw [Python.rowOf, Rust.rowOf, strip_of_inLine inLine]
  rw [head?_ofAscii, split_of_inLine inText]
  have empty : (Python.ofAscii (Rust.trimWs body)).isEmpty = (Rust.trimWs body).isEmpty :=
    List.isEmpty_map
  rw [empty]
  split
  · rfl
  · cases cut : fieldsOf Rust.isFieldSeparator (Rust.trimWs body) with
    | nil => rfl
    | cons token domains =>
        rw [List.map_cons]
        dsimp only
        rw [List.map_map, List.map_map]
        refine List.map_congr_left fun d member => ?_
        have ascii : IsAscii d := isAscii_of_mem_fieldsOf inText
          (by rw [cut]; exact List.mem_cons_of_mem _ member)
        exact congrArg (·, Python.ofAscii token) (Python.lower_ascii table ascii)

end Lines

/-! ## Whole files -/

section Files

variable {content host : Bytes}

theorem map_eq_map_of_forall₂ {α β γ : Type} {related : α → β → Prop} {f : α → γ} {g : β → γ}
    {first : List α} {second : List β} (areRelated : List.Forall₂ related first second)
    (same : ∀ a b, related a b → f a = g b) : first.map f = second.map g := by
  rw [← List.forall₂_eq_eq_eq, List.forall₂_map_left_iff, List.forall₂_map_right_iff]
  exact areRelated.imp same

/-- Rust and Go fill the same map. -/
theorem go_eq_rust (plain : PlainText content) :
    Go.loadDNSFile lower content = Rust.parseDns content := by
  obtain ⟨bodies, lineOf, -⟩ := lines_of_plainText plain
  have goRows := map_eq_map_of_forall₂ lineOf fun _ _ lineOf => go_rowOf lower lineOf
  have rustRows := map_eq_map_of_forall₂ lineOf fun _ _ lineOf => rust_rowOf lineOf
  rw [Go.loadDNSFile_eq, Rust.parseDns_eq]
  exact congrArg (assignRows ∅) (goRows.trans rustRows.symm)

/-- Python fills the same map, of strings. -/
theorem python_renames_rust (plain : PlainText content) :
    ∃ map, Python.loadDnsMap table content = some map ∧
      Renamed Python.ofAscii Python.ofAscii (Rust.parseDns content) map := by
  obtain ⟨bodies, lineOf, translated⟩ := lines_of_plainText plain
  have rows : (content.splitOn 10).map
        (fun raw => (Rust.rowOf raw).map (Prod.map Python.ofAscii Python.ofAscii)) =
      bodies.map fun body => Python.rowOf table (Python.ofAscii body) :=
    map_eq_map_of_forall₂ lineOf fun raw body lineOf => by
      rw [rust_rowOf lineOf, python_rowOf table lineOf.1]
  have filled : Python.loadDnsMap table content =
      some (assignRows ∅ (bodies.map fun body => Python.rowOf table (Python.ofAscii body))) := by
    rw [Python.loadDnsMap, Python.decodeUtf8_ascii plain.ascii, Option.map_some,
      Python.foldl_lines, translated, List.map_map]
    rfl
  have renamed := (Renamed.empty Python.ofAscii Python.ofAscii).assignRows
    Python.ofAscii_injective ((content.splitOn 10).map Rust.rowOf)
  rw [List.map_map] at renamed
  refine ⟨_, filled, ?_⟩
  rw [← rows, Rust.parseDns_eq]
  exact renamed

theorem Printable.ascii (printable : Printable host) : IsAscii host :=
  fun byte member =>
    UInt8.lt_of_le_of_lt (printable byte member).2 (by decide)

/-- On a file in the documented format the three parsers yield the same map,
and on a printable host the three rewrite functions the same token or host;
Python holds its texts as strings. -/
theorem parsers_agree (plain : PlainText content) :
    Go.loadDNSFile lower content = Rust.parseDns content ∧
      ∃ map, Python.loadDnsMap table content = some map ∧
        Renamed Python.ofAscii Python.ofAscii (Rust.parseDns content) map ∧
        ∀ host, Printable host →
          Go.rewriteHost lower host (Go.loadDNSFile lower content) =
              Rust.rewriteHost host (Rust.parseDns content) ∧
            Python.rewriteHost table (Python.ofAscii host) map =
              Python.ofAscii (Rust.rewriteHost host (Rust.parseDns content)) := by
  obtain ⟨map, loads, renamed⟩ := python_renames_rust table plain
  refine ⟨go_eq_rust lower plain, map, loads, renamed, fun host printable => ⟨?_, ?_⟩⟩
  · rw [Go.rewriteHost, Rust.rewriteHost, go_eq_rust lower plain,
      Go.toLower_ascii lower printable.ascii]
  · rw [Python.rewriteHost, Rust.rewriteHost, Python.lower_ascii table printable.ascii,
      renamed.1]
    exact Option.getD_map _ _ _

end Files

/-- A comment, a mapped name in capitals, and a later token for it. -/
def plainFile : Bytes :=
  [35, 99, 13, 10, 9, 116, 32, 65, 32, 98, 10, 10, 117, 9, 97, 32]

theorem plainFile_plain : PlainText plainFile := by
  repeat first
    | exact .nil
    | apply PlainText.crlf
    | apply PlainText.lf
    | refine .inLine (by unfold InLine; decide) ?_

theorem parsers_agree_plainFile :
    Go.rewriteHost id [65] (Go.loadDNSFile id plainFile) =
        Rust.rewriteHost [65] (Rust.parseDns plainFile) ∧
      ∃ map, Python.loadDnsMap id plainFile = some map ∧
        Python.rewriteHost id (Python.ofAscii [65]) map =
          Python.ofAscii (Rust.rewriteHost [65] (Rust.parseDns plainFile)) := by
  obtain ⟨-, map, loads, -, rewrites⟩ := parsers_agree id id plainFile_plain
  have both := rewrites [65] (List.forall_mem_singleton.mpr (by decide))
  exact ⟨both.1, map, loads, both.2⟩

end TailcatSocks
