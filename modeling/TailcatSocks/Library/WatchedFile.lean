import Mathlib.Tactic.Common

/-!
# A file that others change

A file is watched through two operations: `stat` yields its modification time,
`read` its content.  Everything else about it is up to others, who write it,
set its time, make it unreadable, take it away and bring it back.

Every content that the file is given has an index.  A write gives the file a
time that it never had; a time that is set may be an old one only when it never
stood for another content.  So a time stands for one content for ever.
-/

namespace TailcatSocks.Library

/-- What others do to the file. -/
inductive Change (γ : Type) where
  /-- Give it a content, in place or by replacing it. -/
  | write (content : γ) (mtime : Nat)
  | setMtime (mtime : Nat)
  | setReadable (readable : Bool)
  | remove
  | restore
  deriving DecidableEq, Repr

structure WatchedFile (γ : Type) where
  /-- Every content so far, the current one last. -/
  contents : List γ
  /-- Every modification time so far with the index of the content it stood for. -/
  stamps : List (Nat × Nat)
  mtime : Nat
  present : Bool
  readable : Bool
  deriving DecidableEq, Repr

namespace WatchedFile

variable {γ : Type}

/-- A file that does not exist yet. -/
def absent : WatchedFile γ := ⟨[], [], 0, false, true⟩

/-- The index of the current content. -/
def index (f : WatchedFile γ) : Nat := f.contents.length - 1

def change (f : WatchedFile γ) : Change γ → Option (WatchedFile γ)
  | .write content mtime =>
      if ∀ stamp ∈ f.stamps, stamp.1 ≠ mtime then
        some ⟨f.contents ++ [content], (mtime, f.contents.length) :: f.stamps, mtime, true,
          f.readable⟩
      else none
  | .setMtime mtime =>
      if f.present = true ∧ ∀ stamp ∈ f.stamps, stamp.1 = mtime → stamp.2 = f.index then
        some { f with stamps := (mtime, f.index) :: f.stamps, mtime }
      else none
  | .setReadable readable => some { f with readable }
  | .remove => some { f with present := false }
  | .restore => if f.contents = [] then none else some { f with present := true }

/-- The modification time, if the file is there. -/
def stat (f : WatchedFile γ) : Option Nat := if f.present then some f.mtime else none

/-- The content with its index, if the file is there and can be read. -/
def read (f : WatchedFile γ) : Option (Nat × γ) :=
  if f.present ∧ f.readable then f.contents.getLast?.map fun content => (f.index, content)
  else none

/-- The file was given this content with this index. -/
def Held (f : WatchedFile γ) (index : Nat) (content : γ) : Prop :=
  f.contents[index]? = some content

/-- A time stood for the content with this index. -/
def Stamped (f : WatchedFile γ) (mtime index : Nat) : Prop := (mtime, index) ∈ f.stamps

/-- What every sequence of changes keeps. -/
structure WellFormed (f : WatchedFile γ) : Prop where
  functional : ∀ {mtime index index'}, f.Stamped mtime index → f.Stamped mtime index' →
    index = index'
  bounded : ∀ {mtime index}, f.Stamped mtime index → index ≤ f.index
  current : f.contents ≠ [] → f.Stamped f.mtime f.index
  exists_of_present : f.present = true → f.contents ≠ []

/-- A file goes on from another by changes: nothing that was is forgotten. -/
structure Extends (f next : WatchedFile γ) : Prop where
  contents : f.contents <+: next.contents
  stamps : ∀ {mtime index}, f.Stamped mtime index → next.Stamped mtime index

theorem Extends.index_le {f next : WatchedFile γ} (ext : Extends f next) :
    f.index ≤ next.index :=
  Nat.sub_le_sub_right ext.contents.length_le 1

theorem Extends.held {f next : WatchedFile γ} (ext : Extends f next) {index : Nat} {content : γ}
    (held : f.Held index content) : next.Held index content := by
  obtain ⟨more, whole⟩ := ext.contents
  obtain ⟨inside, -⟩ := List.getElem?_eq_some_iff.mp held
  rw [Held, ← whole, List.getElem?_append_left inside]
  exact held

/-- The content with the current index is the last one. -/
theorem held_index_iff {f : WatchedFile γ} {content : γ} :
    f.Held f.index content ↔ f.contents.getLast? = some content := by
  rw [Held, index, ← List.getLast?_eq_getElem?]

theorem absent_wellFormed : (absent : WatchedFile γ).WellFormed where
  functional stamped := absurd stamped List.not_mem_nil
  bounded stamped := absurd stamped List.not_mem_nil
  current exist := absurd rfl exist
  exists_of_present present := by cases present

theorem change_extends {f next : WatchedFile γ} {change : Change γ}
    (changed : f.change change = some next) : Extends f next := by
  cases change with
  | write content mtime =>
      simp only [WatchedFile.change] at changed
      split at changed <;> cases changed
      exact ⟨List.prefix_append _ _, List.mem_cons_of_mem _⟩
  | setMtime mtime =>
      simp only [WatchedFile.change] at changed
      split at changed <;> cases changed
      exact ⟨List.prefix_rfl, List.mem_cons_of_mem _⟩
  | setReadable _ | remove =>
      cases changed
      exact ⟨List.prefix_rfl, id⟩
  | restore =>
      simp only [WatchedFile.change] at changed
      split at changed <;> cases changed
      exact ⟨List.prefix_rfl, id⟩

theorem WellFormed.write {f : WatchedFile γ} (wellFormed : f.WellFormed) (content : γ)
    {mtime : Nat} (fresh : ∀ stamp ∈ f.stamps, stamp.1 ≠ mtime) :
    (⟨f.contents ++ [content], (mtime, f.contents.length) :: f.stamps, mtime, true,
      f.readable⟩ : WatchedFile γ).WellFormed := by
  have last : (⟨f.contents ++ [content], (mtime, f.contents.length) :: f.stamps, mtime, true,
      f.readable⟩ : WatchedFile γ).index = f.contents.length := by
    simp [index]
  refine ⟨?_, ?_, ?_, ?_⟩
  · intro mtime' first second one two
    rcases List.mem_cons.mp one with one | one <;> rcases List.mem_cons.mp two with two | two
    · cases one
      cases two
      rfl
    · cases one
      exact absurd rfl (fresh _ two)
    · cases two
      exact absurd rfl (fresh _ one)
    · exact wellFormed.functional one two
  · intro mtime' first one
    rw [last]
    rcases List.mem_cons.mp one with one | one
    · cases one
      exact Nat.le_refl _
    · exact Nat.le_trans (wellFormed.bounded one) (Nat.sub_le _ _)
  · intro _
    rw [last]
    exact List.mem_cons_self
  · intro _
    simp

theorem WellFormed.setMtime {f : WatchedFile γ} (wellFormed : f.WellFormed) {mtime : Nat}
    (own : ∀ stamp ∈ f.stamps, stamp.1 = mtime → stamp.2 = f.index) :
    ({ f with stamps := (mtime, f.index) :: f.stamps, mtime } : WatchedFile γ).WellFormed := by
  refine ⟨?_, ?_, fun _ => List.mem_cons_self, wellFormed.exists_of_present⟩
  · intro mtime' first second one two
    rcases List.mem_cons.mp one with one | one <;> rcases List.mem_cons.mp two with two | two
    · cases one
      cases two
      rfl
    · cases one
      exact (own _ two rfl).symm
    · cases two
      exact own _ one rfl
    · exact wellFormed.functional one two
  · intro mtime' first one
    rcases List.mem_cons.mp one with one | one
    · cases one
      exact Nat.le_refl _
    · exact wellFormed.bounded one

/-- Every change keeps the file well formed. -/
theorem change_wellFormed {f next : WatchedFile γ} {change : Change γ}
    (wellFormed : f.WellFormed) (changed : f.change change = some next) : next.WellFormed := by
  cases change with
  | write content mtime =>
      simp only [WatchedFile.change] at changed
      split at changed <;> cases changed
      exact wellFormed.write content ‹_›
  | setMtime mtime =>
      simp only [WatchedFile.change] at changed
      split at changed <;> cases changed
      next enabled => exact wellFormed.setMtime enabled.2
  | setReadable readable =>
      cases changed
      exact ⟨wellFormed.functional, wellFormed.bounded, wellFormed.current,
        wellFormed.exists_of_present⟩
  | remove =>
      cases changed
      exact ⟨wellFormed.functional, wellFormed.bounded, wellFormed.current,
        fun present => by cases present⟩
  | restore =>
      simp only [WatchedFile.change] at changed
      split at changed <;> cases changed
      next exist =>
      exact ⟨wellFormed.functional, wellFormed.bounded, wellFormed.current, fun _ => exist⟩

/-- What `stat` yields stands for the current content. -/
theorem stamped_of_stat {f : WatchedFile γ} (wellFormed : f.WellFormed) {mtime : Nat}
    (status : f.stat = some mtime) : f.Stamped mtime f.index := by
  unfold stat at status
  split at status <;> cases status
  next present => exact wellFormed.current (wellFormed.exists_of_present present)

/-- What `read` yields is the current content. -/
theorem held_of_read {f : WatchedFile γ} {index : Nat} {content : γ}
    (reads : f.read = some (index, content)) : index = f.index ∧ f.Held index content := by
  unfold read at reads
  split at reads
  · rw [Option.map_eq_some_iff] at reads
    obtain ⟨last, isLast, same⟩ := reads
    cases same
    exact ⟨rfl, held_index_iff.mpr isLast⟩
  · cases reads

/-- A content no older than one that the file's time stood for is the current one. -/
theorem getLast?_of_stamped {f : WatchedFile γ} (wellFormed : f.WellFormed)
    {mtime earlier index : Nat} {content : γ} (status : f.stat = some mtime)
    (stamped : f.Stamped mtime earlier) (le : earlier ≤ index) (bounded : index ≤ f.index)
    (held : f.Held index content) : f.contents.getLast? = some content := by
  have stands : earlier = f.index :=
    wellFormed.functional stamped (stamped_of_stat wellFormed status)
  obtain rfl : index = f.index := Nat.le_antisymm bounded (stands ▸ le)
  exact held_index_iff.mp held

end WatchedFile

end TailcatSocks.Library
