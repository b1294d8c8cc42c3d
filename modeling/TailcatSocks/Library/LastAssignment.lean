import Mathlib.Data.List.AList
import Mathlib.Data.List.Induction

/-!
# Maps filled row by row

A finite map is filled from a table of key and value pairs, row by row and left
to right, each assignment replacing an earlier one of the same key.  What it
holds for a key is the value at the last position of the table with that key.
-/

namespace TailcatSocks.Library

variable {κ β : Type} [DecidableEq κ]

abbrev FinMap (κ β : Type) [DecidableEq κ] := AList fun _ : κ => β

def assignRow (map : FinMap κ β) (row : List (κ × β)) : FinMap κ β :=
  row.foldl (fun map cell => map.insert cell.1 cell.2) map

def assignRows (map : FinMap κ β) (rows : List (List (κ × β))) : FinMap κ β :=
  rows.foldl assignRow map

/-- Cells of one value, as the keys come. -/
theorem assignRow_map {γ : Type} (map : FinMap κ β) (key : γ → κ) (value : β) (fields : List γ) :
    assignRow map (fields.map fun field => (key field, value)) =
      fields.foldl (fun map field => map.insert (key field) value) map :=
  List.foldl_map

/-- Lines that fill a row each fill a table. -/
theorem foldl_eq_assignRows {ρ : Type} {line : FinMap κ β → ρ → FinMap κ β}
    {rowOf : ρ → List (κ × β)} (fills : ∀ map raw, line map raw = assignRow map (rowOf raw))
    (map : FinMap κ β) (raws : List ρ) :
    raws.foldl line map = assignRows map (raws.map rowOf) := by
  rw [assignRows, List.foldl_map]
  congr 1
  funext map raw
  exact fills map raw

theorem assignRow_concat (map : FinMap κ β) (row : List (κ × β)) (cell : κ × β) :
    assignRow map (row ++ [cell]) = (assignRow map row).insert cell.1 cell.2 := by
  rw [assignRow, List.foldl_append]
  rfl

theorem assignRows_concat (map : FinMap κ β) (rows : List (List (κ × β))) (row : List (κ × β)) :
    assignRows map (rows ++ [row]) = assignRow (assignRows map rows) row := by
  rw [assignRows, List.foldl_append]
  rfl

/-- What stands at a position of a list with one more element. -/
theorem getElem?_concat_eq_some {γ : Type} {front : List γ} {last found : γ} {position : Nat} :
    (front ++ [last])[position]? = some found ↔
      front[position]? = some found ∨ position = front.length ∧ last = found := by
  rcases Nat.lt_trichotomy position front.length with before | rfl | behind
  · rw [List.getElem?_append_left before]
    simp [Nat.ne_of_lt before]
  · simp
  · have outside : (front ++ [last]).length ≤ position := by
      rw [List.length_append, List.length_singleton]
      exact behind
    rw [List.getElem?_eq_none outside, List.getElem?_eq_none (Nat.le_of_lt behind)]
    simp [Nat.ne_of_gt behind]

/-- The lookup after filling a row is the last assignment of the key in the
row, or else the old one. -/
theorem lookup_assignRow (map : FinMap κ β) (row : List (κ × β)) (key : κ) :
    (∃ (column : Nat) (value : β), row[column]? = some (key, value) ∧
        (∀ (column' : Nat) (value' : β), row[column']? = some (key, value') → column' ≤ column) ∧
        (assignRow map row).lookup key = some value) ∨
      ((∀ (column : Nat) (value : β), row[column]? ≠ some (key, value)) ∧
        (assignRow map row).lookup key = map.lookup key) := by
  induction row using List.reverseRecOn with
  | nil => exact .inr ⟨by simp, rfl⟩
  | append_singleton row cell ih =>
      obtain ⟨key', value'⟩ := cell
      rw [assignRow_concat]
      by_cases same : key = key'
      · subst same
        refine .inl ⟨row.length, value', by simp, ?_, AList.lookup_insert _⟩
        intro column value here
        rcases getElem?_concat_eq_some.mp here with inside | ⟨rfl, -⟩
        · exact Nat.le_of_lt (List.getElem?_eq_some_iff.mp inside).1
        · exact Nat.le_refl _
      · have unchanged : ∀ (column : Nat) (value : β),
            (row ++ [(key', value')])[column]? = some (key, value) ↔
              row[column]? = some (key, value) := by
          intro column value
          rw [getElem?_concat_eq_some, or_iff_left]
          rintro ⟨-, assigned⟩
          exact same (congrArg Prod.fst assigned).symm
        simp only [unchanged, ne_eq, AList.lookup_insert_ne same]
        exact ih

/-- The lookup after filling a table is the value at the last position of the
table with that key, in row order and then left to right, or else the old one. -/
theorem lookup_assignRows (map : FinMap κ β) (rows : List (List (κ × β))) (key : κ) :
    (∃ (number : Nat) (row : List (κ × β)) (column : Nat) (value : β),
        rows[number]? = some row ∧ row[column]? = some (key, value) ∧
        (∀ (number' : Nat) (row' : List (κ × β)) (column' : Nat) (value' : β),
          rows[number']? = some row' →
          row'[column']? = some (key, value') →
            number' < number ∨ (number' = number ∧ column' ≤ column)) ∧
        (assignRows map rows).lookup key = some value) ∨
      ((∀ (number : Nat) (row : List (κ × β)) (column : Nat) (value : β), rows[number]? = some row →
          row[column]? ≠ some (key, value)) ∧
        (assignRows map rows).lookup key = map.lookup key) := by
  induction rows using List.reverseRecOn with
  | nil => exact .inr ⟨by simp, rfl⟩
  | append_singleton rows row ih =>
      rw [assignRows_concat]
      rcases lookup_assignRow (assignRows map rows) row key with
        ⟨column, value, here, isLast, found⟩ | ⟨absent, found⟩
      · refine .inl ⟨rows.length, row, column, value, getElem?_concat_eq_some.mpr (.inr ⟨rfl, rfl⟩),
          here, ?_, found⟩
        intro number row' column' value' rowHere cellHere
        rcases getElem?_concat_eq_some.mp rowHere with before | ⟨rfl, rfl⟩
        · exact .inl (List.getElem?_eq_some_iff.mp before).1
        · exact .inr ⟨rfl, isLast column' value' cellHere⟩
      · rw [found]
        rcases ih with ⟨number, row', column, value, rowHere, here, isLast, value_eq⟩ |
          ⟨absentBefore, value_eq⟩
        · refine .inl ⟨number, row', column, value,
            getElem?_concat_eq_some.mpr (.inl rowHere), here, ?_, value_eq⟩
          intro number' other column' value' otherHere cellHere
          rcases getElem?_concat_eq_some.mp otherHere with old | ⟨rfl, rfl⟩
          · exact isLast number' other column' value' old cellHere
          · exact absurd cellHere (absent column' value')
        · refine .inr ⟨?_, value_eq⟩
          intro number other column value otherHere
          rcases getElem?_concat_eq_some.mp otherHere with old | ⟨rfl, rfl⟩
          · exact absentBefore number other column value old
          · exact absent column value

/-- A key is found in a filled map exactly when the table assigns it. -/
theorem exists_lookup_assignRows_iff {rows : List (List (κ × β))} {key : κ} :
    (∃ value, (assignRows ∅ rows).lookup key = some value) ↔
      ∃ row ∈ rows, ∃ value, (key, value) ∈ row := by
  rcases lookup_assignRows ∅ rows key with
    ⟨number, row, column, value, rowHere, here, -, found⟩ | ⟨absent, found⟩
  · exact iff_of_true ⟨value, found⟩
      ⟨row, List.mem_of_getElem? rowHere, value, List.mem_of_getElem? here⟩
  · refine iff_of_false ?_ ?_
    · rintro ⟨value, found'⟩
      rw [found] at found'
      cases found'
    · rintro ⟨row, inRows, value, inRow⟩
      obtain ⟨number, rowHere⟩ := List.mem_iff_getElem?.mp inRows
      obtain ⟨column, here⟩ := List.mem_iff_getElem?.mp inRow
      exact absent number row column value rowHere here

/-- Filling a map that is not empty falls back to what it held. -/
theorem lookup_assignRow_or (map : FinMap κ β) (row : List (κ × β)) (key : κ) :
    (assignRow map row).lookup key = ((assignRow ∅ row).lookup key).or (map.lookup key) := by
  induction row using List.reverseRecOn with
  | nil => simp [assignRow]
  | append_singleton row cell ih =>
      rw [assignRow_concat, assignRow_concat]
      by_cases same : key = cell.1
      · rw [same, AList.lookup_insert, AList.lookup_insert, Option.some_or]
      · rw [AList.lookup_insert_ne same, AList.lookup_insert_ne same, ih]

theorem lookup_assignRows_or (map : FinMap κ β) (rows : List (List (κ × β))) (key : κ) :
    (assignRows map rows).lookup key = ((assignRows ∅ rows).lookup key).or (map.lookup key) := by
  induction rows using List.reverseRecOn with
  | nil => simp [assignRows]
  | append_singleton rows row ih =>
      rw [assignRows_concat, assignRows_concat, lookup_assignRow_or, ih,
        lookup_assignRow_or (assignRows ∅ rows) row, Option.or_assoc]

/-! ## Renaming -/

section Renamed

variable {κ' β' : Type} [DecidableEq κ'] {f : κ → κ'} {g : β → β'}

/-- The second map is the first with its keys and values renamed. -/
def Renamed (f : κ → κ') (g : β → β') (map : FinMap κ β) (map' : FinMap κ' β') : Prop :=
  (∀ key, map'.lookup (f key) = (map.lookup key).map g) ∧
    ∀ key', (∀ key, f key ≠ key') → map'.lookup key' = none

theorem Renamed.empty (f : κ → κ') (g : β → β') : Renamed f g ∅ ∅ :=
  ⟨fun _ => rfl, fun _ _ => rfl⟩

theorem Renamed.insert (injective : Function.Injective f) {map : FinMap κ β}
    {map' : FinMap κ' β'} (renamed : Renamed f g map map') (key : κ) (value : β) :
    Renamed f g (map.insert key value) (map'.insert (f key) (g value)) := by
  refine ⟨fun other => ?_, fun other outside => ?_⟩
  · by_cases same : other = key
    · rw [same, AList.lookup_insert, AList.lookup_insert, Option.map_some]
    · rw [AList.lookup_insert_ne same, AList.lookup_insert_ne (injective.ne same)]
      exact renamed.1 other
  · rw [AList.lookup_insert_ne (outside key).symm]
    exact renamed.2 other outside

theorem Renamed.assignRow (injective : Function.Injective f) {map : FinMap κ β}
    {map' : FinMap κ' β'} (renamed : Renamed f g map map') (row : List (κ × β)) :
    Renamed f g (assignRow map row) (assignRow map' (row.map (Prod.map f g))) := by
  induction row generalizing map map' with
  | nil => exact renamed
  | cons cell row ih => exact ih (renamed.insert injective cell.1 cell.2)

/-- Tables that differ by a renaming fill maps that do. -/
theorem Renamed.assignRows (injective : Function.Injective f) {map : FinMap κ β}
    {map' : FinMap κ' β'} (renamed : Renamed f g map map') (rows : List (List (κ × β))) :
    Renamed f g (assignRows map rows)
      (assignRows map' (rows.map (List.map (Prod.map f g)))) := by
  induction rows generalizing map map' with
  | nil => exact renamed
  | cons row rows ih => exact ih (renamed.assignRow injective row)

end Renamed

end TailcatSocks.Library
