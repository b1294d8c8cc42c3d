import TailcatSocks.Library.Wire
import Mathlib.Data.List.Basic
import Mathlib.Data.List.DropRight

/-!
# Lines, trimmed text and fields

Three relations that say how a text is cut, each with the function that
computes it: the lines between separators, the text without the blanks at
both ends, and the maximal runs of non-separators.  Each relation determines
its result, so a statement that uses it does not depend on how a program cuts.
-/

namespace TailcatSocks.Library

variable {α : Type}

/-! ## Lines -/

/-- The pieces of `text` between its separators. -/
def IsLines [DecidableEq α] (separator : α) (text : List α) (lines : List (List α)) : Prop :=
  lines ≠ [] ∧ (∀ line ∈ lines, separator ∉ line) ∧ [separator].intercalate lines = text

theorem separator_notMem_splitOn [DecidableEq α] (separator : α) (text : List α) :
    ∀ line ∈ text.splitOn separator, separator ∉ line := by
  induction text with
  | nil => simp
  | cons first rest ih =>
      rw [List.splitOn_cons_eq_if_modifyHead]
      by_cases same : first = separator
      · simpa [same] using ih
      · obtain ⟨line, lines, split⟩ := List.exists_cons_of_ne_nil (List.splitOn_ne_nil separator rest)
        rw [split] at ih ⊢
        simp only [beq_iff_eq, same, if_false, List.modifyHead_cons, List.forall_mem_cons] at ih ⊢
        refine ⟨?_, ih.2⟩
        rw [List.mem_cons, not_or]
        exact ⟨fun eq => same eq.symm, ih.1⟩

theorem isLines_iff [DecidableEq α] {separator : α} {text : List α} {lines : List (List α)} :
    IsLines separator text lines ↔ lines = text.splitOn separator := by
  constructor
  · rintro ⟨nonempty, clean, rfl⟩
    exact (List.splitOn_intercalate separator clean nonempty).symm
  · rintro rfl
    exact ⟨List.splitOn_ne_nil separator text, separator_notMem_splitOn separator text,
      List.intercalate_splitOn separator⟩

/-! ## Trimming -/

/-- `line` is `raw` without the blanks at its two ends. -/
def Trimmed (blank : α → Bool) (raw line : List α) : Prop :=
  ∃ before after, raw = before ++ line ++ after ∧
    (∀ a ∈ before, blank a = true) ∧ (∀ a ∈ after, blank a = true) ∧
    (∀ a, line.head? = some a → blank a = false) ∧
    (∀ a, line.getLast? = some a → blank a = false)

theorem rdropWhile_append_of_forall {blank : α → Bool} {line after : List α}
    (blanks : ∀ a ∈ after, blank a = true) :
    (line ++ after).rdropWhile blank = line.rdropWhile blank := by
  have reversed : ∀ a ∈ after.reverse, blank a = true := fun a member =>
    blanks a (List.mem_reverse.mp member)
  rw [List.rdropWhile, List.rdropWhile, List.reverse_append,
    List.dropWhile_append_of_pos reversed]

theorem rdropWhile_of_getLast {blank : α → Bool} {line : List α}
    (ends : ∀ a, line.getLast? = some a → blank a = false) : line.rdropWhile blank = line := by
  rw [List.rdropWhile_eq_self_iff]
  intro nonempty isBlank
  have solid := ends _ (List.getLast?_eq_some_getLast nonempty)
  rw [solid] at isBlank
  cases isBlank

theorem dropWhile_of_head {blank : α → Bool} {line : List α}
    (starts : ∀ a, line.head? = some a → blank a = false) : line.dropWhile blank = line := by
  cases line with
  | nil => rfl
  | cons first rest => exact List.dropWhile_cons_of_neg (by simp [starts first rfl])

theorem solid_of_head_dropWhile {blank : α → Bool} {raw : List α} {a : α}
    (starts : (raw.dropWhile blank).head? = some a) : blank a = false := by
  have solid := List.head?_dropWhile_not blank raw
  rw [starts] at solid
  simpa using solid

theorem head_rdropWhile {blank : α → Bool} {raw : List α} {a : α}
    (starts : (raw.rdropWhile blank).head? = some a) : raw.head? = some a := by
  obtain ⟨tail, whole⟩ := List.rdropWhile_prefix blank (l := raw)
  rw [← whole, List.head?_append, starts, Option.some_or]

theorem solid_of_getLast_rdropWhile {blank : α → Bool} {raw : List α} {a : α}
    (ends : (raw.rdropWhile blank).getLast? = some a) : blank a = false := by
  have nonempty : raw.rdropWhile blank ≠ [] := by
    intro empty
    rw [empty] at ends
    cases ends
  have solid := List.rdropWhile_last_not blank _ nonempty
  rw [List.getLast?_eq_some_getLast nonempty, Option.some.injEq] at ends
  simpa [ends] using solid

theorem trimmed_iff {blank : α → Bool} {raw line : List α} :
    Trimmed blank raw line ↔ line = (raw.dropWhile blank).rdropWhile blank := by
  constructor
  · rintro ⟨before, after, rfl, blanksBefore, blanksAfter, starts, ends⟩
    rw [List.append_assoc, List.dropWhile_append_of_pos blanksBefore]
    cases line with
    | nil =>
        have nothing : (after ++ []).dropWhile blank = [].dropWhile blank :=
          List.dropWhile_append_of_pos blanksAfter
        rw [List.append_nil] at nothing
        rw [List.nil_append, nothing]
        rfl
    | cons first rest =>
        rw [List.cons_append, List.dropWhile_cons_of_neg (by simp [starts first rfl]),
          ← List.cons_append, rdropWhile_append_of_forall blanksAfter, rdropWhile_of_getLast ends]
  · rintro rfl
    refine ⟨raw.takeWhile blank, (raw.dropWhile blank).rtakeWhile blank, ?_, ?_, ?_, ?_, ?_⟩
    · rw [List.append_assoc, List.rdropWhile_append_rtakeWhile, List.takeWhile_append_dropWhile]
    · exact fun a member => List.mem_takeWhile_imp member
    · exact fun a member => List.mem_rtakeWhile_imp member
    · exact fun a starts => solid_of_head_dropWhile (head_rdropWhile starts)
    · exact fun a ends => solid_of_getLast_rdropWhile ends

theorem Trimmed.unique {blank : α → Bool} {raw line line' : List α}
    (trimmed : Trimmed blank raw line) (trimmed' : Trimmed blank raw line') : line = line' := by
  rw [trimmed_iff.mp trimmed, trimmed_iff.mp trimmed']

theorem Trimmed.mem {blank : α → Bool} {raw line : List α} (trimmed : Trimmed blank raw line)
    {a : α} (member : a ∈ line) : a ∈ raw := by
  obtain ⟨before, after, rfl, -⟩ := trimmed
  exact List.mem_append_left _ (List.mem_append_right _ member)

/-- Only the blanks of the text itself matter. -/
theorem Trimmed.congr {blank blank' : α → Bool} {raw line : List α}
    (trimmed : Trimmed blank raw line) (same : ∀ a ∈ raw, blank a = blank' a) :
    Trimmed blank' raw line := by
  have inLine : ∀ a ∈ line, a ∈ raw := fun a member => trimmed.mem member
  obtain ⟨before, after, rfl, blanksBefore, blanksAfter, starts, ends⟩ := trimmed
  refine ⟨before, after, rfl, fun a member => ?_, fun a member => ?_, fun a first => ?_,
    fun a last => ?_⟩
  · rw [← same a (by simp [member])]
    exact blanksBefore a member
  · rw [← same a (by simp [member])]
    exact blanksAfter a member
  · rw [← same a (inLine a (List.mem_of_head? first))]
    exact starts a first
  · rw [← same a (inLine a (List.mem_of_getLast? last))]
    exact ends a last

theorem Trimmed.append_blanks {blank : α → Bool} {raw line more : List α}
    (trimmed : Trimmed blank raw line) (blanks : ∀ a ∈ more, blank a = true) :
    Trimmed blank (raw ++ more) line := by
  obtain ⟨before, after, rfl, blanksBefore, blanksAfter, starts, ends⟩ := trimmed
  exact ⟨before, after ++ more, List.append_assoc _ _ _, blanksBefore,
    List.forall_mem_append.mpr ⟨blanksAfter, blanks⟩, starts, ends⟩

theorem Trimmed.map {β : Type} {f : α → β} {blank : β → Bool} {raw line : List α}
    (trimmed : Trimmed (fun a => blank (f a)) raw line) :
    Trimmed blank (raw.map f) (line.map f) := by
  obtain ⟨before, after, rfl, blanksBefore, blanksAfter, starts, ends⟩ := trimmed
  refine ⟨before.map f, after.map f, by rw [List.map_append, List.map_append],
    List.forall_mem_map.mpr blanksBefore, List.forall_mem_map.mpr blanksAfter, ?_, ?_⟩
  · intro b first
    rw [List.head?_map, Option.map_eq_some_iff] at first
    obtain ⟨a, first, rfl⟩ := first
    exact starts a first
  · intro b last
    rw [List.getLast?_map, Option.map_eq_some_iff] at last
    obtain ⟨a, last, rfl⟩ := last
    exact ends a last

/-! ## Fields -/

/-- The maximal runs of elements that are not separators, in order. -/
inductive MaximalRuns (separator : α → Bool) : List α → List (List α) → Prop where
  | done : MaximalRuns separator [] []
  | skip {a : α} {rest : List α} {runs : List (List α)} :
      separator a = true → MaximalRuns separator rest runs →
      MaximalRuns separator (a :: rest) runs
  | run {run rest : List α} {runs : List (List α)} :
      run ≠ [] → (∀ a ∈ run, separator a = false) →
      (∀ a, rest.head? = some a → separator a = true) →
      MaximalRuns separator rest runs → MaximalRuns separator (run ++ rest) (run :: runs)

def fieldsOf (separator : α → Bool) (line : List α) : List (List α) :=
  (line.splitOnP separator).filter (fun field => !field.isEmpty)

theorem fieldsOf_cons_separator {separator : α → Bool} {a : α} (rest : List α)
    (isSeparator : separator a = true) :
    fieldsOf separator (a :: rest) = fieldsOf separator rest := by
  have split := List.splitOnP_append_cons [] rest isSeparator
  rw [List.nil_append, List.splitOnP_nil] at split
  rw [fieldsOf, split, List.singleton_append, List.filter_cons_of_neg (by simp)]
  rfl

theorem fieldsOf_run {separator : α → Bool} {run rest : List α} (nonempty : run ≠ [])
    (solid : ∀ a ∈ run, separator a = false)
    (ends : ∀ a, rest.head? = some a → separator a = true) :
    fieldsOf separator (run ++ rest) = run :: fieldsOf separator rest := by
  have kept : (!run.isEmpty) = true := by simpa using nonempty
  cases rest with
  | nil =>
      rw [List.append_nil, fieldsOf, List.splitOnP_eq_singleton solid,
        List.filter_cons_of_pos (p := fun field : List α => !field.isEmpty) kept]
      rfl
  | cons a rest =>
      have isSeparator := ends a rfl
      rw [fieldsOf_cons_separator rest isSeparator, fieldsOf,
        List.splitOnP_append_cons_of_forall_mem solid a isSeparator,
        List.filter_cons_of_pos (p := fun field : List α => !field.isEmpty) kept]
      rfl

theorem maximalRuns_eq_fieldsOf {separator : α → Bool} {line : List α} {runs : List (List α)}
    (areRuns : MaximalRuns separator line runs) : runs = fieldsOf separator line := by
  induction areRuns with
  | done => rfl
  | skip isSeparator _ ih => rw [fieldsOf_cons_separator _ isSeparator, ih]
  | run nonempty solid ends _ ih => rw [fieldsOf_run nonempty solid ends, ih]

theorem maximalRuns_fieldsOf (separator : α → Bool) :
    ∀ (size : Nat) (line : List α), line.length ≤ size →
      MaximalRuns separator line (fieldsOf separator line) := by
  intro size
  induction size with
  | zero =>
      intro line short
      rw [List.length_eq_zero_iff.mp (Nat.le_zero.mp short)]
      exact .done
  | succ size ih =>
      intro line short
      cases line with
      | nil => exact .done
      | cons a rest =>
          rw [List.length_cons] at short
          by_cases isSeparator : separator a = true
          · rw [fieldsOf_cons_separator rest isSeparator]
            exact .skip isSeparator (ih rest (by omega))
          · have solidA : separator a = false := by simpa using isSeparator
            have split : a :: rest =
                (a :: rest.takeWhile fun b => !separator b) ++
                  rest.dropWhile fun b => !separator b := by
              rw [List.cons_append, List.takeWhile_append_dropWhile]
            have solid : ∀ b ∈ a :: rest.takeWhile (fun b => !separator b),
                separator b = false := by
              intro b member
              rcases List.mem_cons.mp member with rfl | member
              · exact solidA
              · simpa using List.mem_takeWhile_imp member
            have ends : ∀ b, (rest.dropWhile fun b => !separator b).head? = some b →
                separator b = true := by
              intro b first
              have stops := List.head?_dropWhile_not (fun b => !separator b) rest
              rw [first] at stops
              simpa using stops
            have shorter : (rest.dropWhile fun b => !separator b).length ≤ size :=
              Nat.le_trans (List.dropWhile_suffix _).length_le (by omega)
            rw [split, fieldsOf_run (List.cons_ne_nil _ _) solid ends]
            exact .run (List.cons_ne_nil _ _) solid ends (ih _ shorter)

theorem maximalRuns_iff {separator : α → Bool} {line : List α} {runs : List (List α)} :
    MaximalRuns separator line runs ↔ runs = fieldsOf separator line := by
  constructor
  · exact maximalRuns_eq_fieldsOf
  · rintro rfl
    exact maximalRuns_fieldsOf separator line.length line (Nat.le_refl _)

theorem MaximalRuns.mem {separator : α → Bool} {line : List α} {runs : List (List α)}
    (areRuns : MaximalRuns separator line runs) {run : List α} (member : run ∈ runs) {a : α}
    (inRun : a ∈ run) : a ∈ line := by
  induction areRuns with
  | done => cases member
  | skip _ _ ih => exact List.mem_cons_of_mem _ (ih member)
  | run _ _ _ _ ih =>
      rcases List.mem_cons.mp member with rfl | later
      · exact List.mem_append_left _ inRun
      · exact List.mem_append_right _ (ih later)

/-- Only the separators of the text itself matter. -/
theorem MaximalRuns.congr {separator separator' : α → Bool} {line : List α} {runs : List (List α)}
    (areRuns : MaximalRuns separator line runs) (same : ∀ a ∈ line, separator a = separator' a) :
    MaximalRuns separator' line runs := by
  induction areRuns with
  | done => exact .done
  | skip isSeparator _ ih =>
      rw [List.forall_mem_cons] at same
      exact .skip (same.1.symm.trans isSeparator) (ih same.2)
  | run nonempty solid ends _ ih =>
      rw [List.forall_mem_append] at same
      exact .run nonempty (fun a member => (same.1 a member).symm.trans (solid a member))
        (fun a first => (same.2 a (List.mem_of_head? first)).symm.trans (ends a first)) (ih same.2)

theorem MaximalRuns.map {β : Type} {f : α → β} {separator : β → Bool} {line : List α}
    {runs : List (List α)} (areRuns : MaximalRuns (fun a => separator (f a)) line runs) :
    MaximalRuns separator (line.map f) (runs.map (List.map f)) := by
  induction areRuns with
  | done => exact .done
  | skip isSeparator _ ih => exact .skip isSeparator ih
  | run nonempty solid ends _ ih =>
      rw [List.map_append, List.map_cons]
      refine .run (mt List.map_eq_nil_iff.mp nonempty) (List.forall_mem_map.mpr solid) ?_ ih
      intro b first
      rw [List.head?_map, Option.map_eq_some_iff] at first
      obtain ⟨a, first, rfl⟩ := first
      exact ends a first

theorem mem_of_mem_fieldsOf {separator : α → Bool} {line field : List α}
    (member : field ∈ fieldsOf separator line) {a : α} (inField : a ∈ field) : a ∈ line :=
  (maximalRuns_iff.mpr rfl).mem member inField

/-- Cutting a text that is another one letter by letter. -/
theorem fieldsOf_map {β : Type} {f : α → β} {separator : α → Bool} {separator' : β → Bool}
    {line : List α} (same : ∀ a ∈ line, separator a = separator' (f a)) :
    fieldsOf separator' (line.map f) = (fieldsOf separator line).map (List.map f) :=
  (maximalRuns_eq_fieldsOf ((maximalRuns_iff.mpr rfl).congr same).map).symm

/-! ## ASCII letters -/

def asciiLower (byte : UInt8) : UInt8 := if 65 ≤ byte ∧ byte ≤ 90 then byte + 32 else byte

/-- A byte string with its ASCII capitals lowered, every other byte unchanged. -/
def toAsciiLowercase (text : Bytes) : Bytes := text.map asciiLower

theorem toNat_asciiLower (byte : UInt8) :
    (asciiLower byte).toNat =
      if 65 ≤ byte.toNat ∧ byte.toNat ≤ 90 then byte.toNat + 32 else byte.toNat := by
  have same : (65 ≤ byte ∧ byte ≤ 90) ↔ (65 ≤ byte.toNat ∧ byte.toNat ≤ 90) :=
    and_congr UInt8.le_iff_toNat_le UInt8.le_iff_toNat_le
  by_cases capital : 65 ≤ byte ∧ byte ≤ 90
  · have bounds := same.mp capital
    rw [asciiLower, if_pos capital, if_pos bounds, UInt8.toNat_add]
    change (byte.toNat + 32) % 256 = byte.toNat + 32
    omega
  · rw [asciiLower, if_neg capital, if_neg fun bounds => capital (same.mpr bounds)]

theorem asciiLower_idempotent (byte : UInt8) : asciiLower (asciiLower byte) = asciiLower byte := by
  apply UInt8.toNat_inj.mp
  rw [toNat_asciiLower, if_neg]
  rw [toNat_asciiLower]
  split <;> omega

theorem toAsciiLowercase_idempotent (text : Bytes) :
    toAsciiLowercase (toAsciiLowercase text) = toAsciiLowercase text := by
  rw [toAsciiLowercase, toAsciiLowercase, List.map_map]
  exact List.map_congr_left fun byte _ => asciiLower_idempotent byte

end TailcatSocks.Library
