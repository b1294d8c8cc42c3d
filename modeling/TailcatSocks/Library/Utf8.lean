import TailcatSocks.Library.AddressText

/-!
# UTF-8

A byte string is cut into runes from the left: a well formed sequence is one
rune with its code point, any other byte is a rune of its own without one.
-/

namespace TailcatSocks.Library

structure Rune where
  bytes : Bytes
  code : Option Nat
  deriving DecidableEq, Repr

def isContinuation (low high : UInt8) (byte : UInt8) : Bool := low ≤ byte && byte ≤ high

/-- The code point that starts with `first`, and how many bytes follow it. -/
def decodeRune (first : UInt8) (rest : Bytes) : Option (Nat × Nat) :=
  if first < 128 then some (first.toNat, 0)
  else if 194 ≤ first ∧ first ≤ 223 then
    match rest with
    | b :: _ =>
        if isContinuation 128 191 b then
          some ((first.toNat - 192) * 64 + (b.toNat - 128), 1)
        else none
    | _ => none
  else if 224 ≤ first ∧ first ≤ 239 then
    match rest with
    | b :: c :: _ =>
        if isContinuation (if first = 224 then 160 else 128) (if first = 237 then 159 else 191) b
            && isContinuation 128 191 c then
          some (((first.toNat - 224) * 64 + (b.toNat - 128)) * 64 + (c.toNat - 128), 2)
        else none
    | _ => none
  else if 240 ≤ first ∧ first ≤ 244 then
    match rest with
    | b :: c :: d :: _ =>
        if isContinuation (if first = 240 then 144 else 128) (if first = 244 then 143 else 191) b
            && isContinuation 128 191 c && isContinuation 128 191 d then
          some ((((first.toNat - 240) * 64 + (b.toNat - 128)) * 64 + (c.toNat - 128)) * 64 +
            (d.toNat - 128), 3)
        else none
    | _ => none
  else none

def runesWithin : Nat → Bytes → List Rune
  | 0, _ => []
  | _ + 1, [] => []
  | room + 1, first :: rest =>
      match decodeRune first rest with
      | some (code, extra) =>
          ⟨first :: rest.take extra, some code⟩ :: runesWithin room (rest.drop extra)
      | none => ⟨[first], none⟩ :: runesWithin room rest

def runes (text : Bytes) : List Rune := runesWithin text.length text

def validUtf8 (text : Bytes) : Bool := (runes text).all fun rune => rune.code.isSome

/-- U+FFFD. -/
def replacement : Bytes := [239, 191, 189]

/-- The bytes of a code point; what is none is written as U+FFFD. -/
def encodeRune (code : Nat) : Bytes :=
  if code < 128 then [UInt8.ofNat code]
  else if code < 2048 then [UInt8.ofNat (192 + code / 64), UInt8.ofNat (128 + code % 64)]
  else if (55296 ≤ code ∧ code ≤ 57343) ∨ 1114111 < code then replacement
  else if code < 65536 then
    [UInt8.ofNat (224 + code / 4096), UInt8.ofNat (128 + code / 64 % 64),
      UInt8.ofNat (128 + code % 64)]
  else
    [UInt8.ofNat (240 + code / 262144), UInt8.ofNat (128 + code / 4096 % 64),
      UInt8.ofNat (128 + code / 64 % 64), UInt8.ofNat (128 + code % 64)]

theorem encodeRune_replacement : encodeRune 65533 = replacement := by decide

theorem toNat_ofNat_of_lt {n : Nat} (small : n < 256) : (UInt8.ofNat n).toNat = n := by
  rw [UInt8.toNat_ofNat', Nat.mod_eq_of_lt small]

/-- Beyond ASCII no byte of a code point is an ASCII character. -/
theorem eq_or_le_of_mem_encodeRune {code : Nat} {byte : UInt8} (member : byte ∈ encodeRune code) :
    byte.toNat = code ∨ 128 ≤ byte.toNat := by
  have large : ∀ n, 128 ≤ n → n < 256 → 128 ≤ (UInt8.ofNat n).toNat := by
    intro n least most
    rw [toNat_ofNat_of_lt most]
    exact least
  unfold encodeRune at member
  split at member
  · rw [List.mem_singleton.mp member]
    exact .inl (toNat_ofNat_of_lt (by omega))
  · refine .inr ?_
    split at member
    · simp only [List.mem_cons, List.not_mem_nil, or_false] at member
      rcases member with rfl | rfl <;> exact large _ (by omega) (by omega)
    · split at member
      · simp only [replacement, List.mem_cons, List.not_mem_nil, or_false] at member
        rcases member with rfl | rfl | rfl <;> decide
      · split at member
        · simp only [List.mem_cons, List.not_mem_nil, or_false] at member
          rcases member with rfl | rfl | rfl <;> exact large _ (by omega) (by omega)
        · simp only [List.mem_cons, List.not_mem_nil, or_false] at member
          rcases member with rfl | rfl | rfl | rfl <;> exact large _ (by omega) (by omega)

theorem encodeRune_ascii {byte : UInt8} (low : byte < 128) : encodeRune byte.toNat = [byte] := by
  have bound : byte.toNat < 128 := UInt8.lt_iff_toNat_lt.mp low
  rw [encodeRune, if_pos bound, UInt8.ofNat_toNat]

/-! ## Well formed sequences -/

/-- A byte that follows the first of a sequence. -/
def Continues (byte : UInt8) : Prop := 128 ≤ byte.toNat ∧ byte.toNat ≤ 191

/-- The well formed sequences: code point and number of bytes after the first. -/
inductive Decodes : UInt8 → Bytes → Nat → Nat → Prop where
  | one {first : UInt8} {rest : Bytes} : first.toNat < 128 → Decodes first rest first.toNat 0
  | two {first b : UInt8} {rest : Bytes} :
      194 ≤ first.toNat → first.toNat ≤ 223 → Continues b →
        Decodes first (b :: rest) ((first.toNat - 192) * 64 + (b.toNat - 128)) 1
  | three {first b c : UInt8} {rest : Bytes} :
      224 ≤ first.toNat → first.toNat ≤ 239 → Continues b → Continues c →
        (first.toNat = 224 → 160 ≤ b.toNat) → (first.toNat = 237 → b.toNat ≤ 159) →
        Decodes first (b :: c :: rest)
          (((first.toNat - 224) * 64 + (b.toNat - 128)) * 64 + (c.toNat - 128)) 2
  | four {first b c d : UInt8} {rest : Bytes} :
      240 ≤ first.toNat → first.toNat ≤ 244 → Continues b → Continues c → Continues d →
        (first.toNat = 240 → 144 ≤ b.toNat) → (first.toNat = 244 → b.toNat ≤ 143) →
        Decodes first (b :: c :: d :: rest)
          ((((first.toNat - 240) * 64 + (b.toNat - 128)) * 64 + (c.toNat - 128)) * 64 +
            (d.toNat - 128)) 3

theorem isContinuation_iff {low high byte : UInt8} :
    isContinuation low high byte = true ↔ low.toNat ≤ byte.toNat ∧ byte.toNat ≤ high.toNat := by
  rw [isContinuation, Bool.and_eq_true, decide_eq_true_iff, decide_eq_true_iff,
    UInt8.le_iff_toNat_le, UInt8.le_iff_toNat_le]

/-- Where the second byte may lie depends on the first. -/
theorem isContinuation_second {first low high byte : UInt8} {least most : UInt8}
    (wide : 128 ≤ least.toNat) (narrow : most.toNat ≤ 191) :
    isContinuation (if first = low then least else 128) (if first = high then most else 191) byte =
        true ↔
      Continues byte ∧ (first.toNat = low.toNat → least.toNat ≤ byte.toNat) ∧
        (first.toNat = high.toNat → byte.toNat ≤ most.toNat) := by
  have lowest : (128 : UInt8).toNat = 128 := rfl
  have highest : (191 : UInt8).toNat = 191 := rfl
  simp only [isContinuation_iff, Continues, ← UInt8.toNat_inj]
  split <;> split <;> omega

theorem continues_iff {byte : UInt8} : isContinuation 128 191 byte = true ↔ Continues byte :=
  isContinuation_iff

/-- What is decoded is well formed. -/
theorem decodes_of_decodeRune {first : UInt8} {rest : Bytes} {code extra : Nat}
    (decoded : decodeRune first rest = some (code, extra)) : Decodes first rest code extra := by
  unfold decodeRune at decoded
  simp only [UInt8.lt_iff_toNat_lt, UInt8.le_iff_toNat_le] at decoded
  split at decoded
  · next ascii =>
    cases decoded
    exact .one ascii
  split at decoded
  · next lead =>
    split at decoded
    · rw [Option.ite_none_right_eq_some, Option.some.injEq, Prod.mk.injEq] at decoded
      obtain ⟨follows, rfl, rfl⟩ := decoded
      exact .two lead.1 lead.2 (continues_iff.mp follows)
    · cases decoded
  split at decoded
  · next lead =>
    split at decoded
    · rw [Option.ite_none_right_eq_some, Bool.and_eq_true, Option.some.injEq, Prod.mk.injEq,
        isContinuation_second (by decide) (by decide)] at decoded
      obtain ⟨⟨⟨second, lower, upper⟩, third⟩, rfl, rfl⟩ := decoded
      exact .three lead.1 lead.2 second (continues_iff.mp third) lower upper
    · cases decoded
  split at decoded
  · next lead =>
    split at decoded
    · rw [Option.ite_none_right_eq_some, Bool.and_eq_true, Bool.and_eq_true, Option.some.injEq,
        Prod.mk.injEq, isContinuation_second (by decide) (by decide)] at decoded
      obtain ⟨⟨⟨⟨second, lower, upper⟩, third⟩, fourth⟩, rfl, rfl⟩ := decoded
      exact .four lead.1 lead.2 second (continues_iff.mp third) (continues_iff.mp fourth) lower
        upper
    · cases decoded
  · cases decoded

/-- What is well formed is decoded. -/
theorem decodeRune_of_decodes {first : UInt8} {rest : Bytes} {code extra : Nat}
    (decodes : Decodes first rest code extra) : decodeRune first rest = some (code, extra) := by
  have toNat128 : (128 : UInt8).toNat = 128 := rfl
  have toNat223 : (223 : UInt8).toNat = 223 := rfl
  have toNat239 : (239 : UInt8).toNat = 239 := rfl
  unfold decodeRune
  simp only [UInt8.lt_iff_toNat_lt, UInt8.le_iff_toNat_le]
  cases decodes with
  | one ascii => exact if_pos ascii
  | two least most second =>
      rw [if_neg (by omega), if_pos ⟨least, most⟩]
      exact if_pos (continues_iff.mpr second)
  | three least most second third lower upper =>
      rw [if_neg (by omega), if_neg (by omega), if_pos ⟨least, most⟩]
      refine if_pos ((Bool.and_eq_true _ _).mpr ⟨?_, continues_iff.mpr third⟩)
      exact (isContinuation_second (by decide) (by decide)).mpr ⟨second, lower, upper⟩
  | four least most second third fourth lower upper =>
      rw [if_neg (by omega), if_neg (by omega), if_neg (by omega), if_pos ⟨least, most⟩]
      refine if_pos ((Bool.and_eq_true _ _).mpr ⟨(Bool.and_eq_true _ _).mpr ⟨?_, ?_⟩, ?_⟩)
      · exact (isContinuation_second (by decide) (by decide)).mpr ⟨second, lower, upper⟩
      · exact continues_iff.mpr third
      · exact continues_iff.mpr fourth

/-- A code point that is not a surrogate. -/
def IsScalar (code : Nat) : Prop := code < 55296 ∨ 57344 ≤ code ∧ code ≤ 1114111

instance (code : Nat) : Decidable (IsScalar code) :=
  inferInstanceAs (Decidable (code < 55296 ∨ 57344 ≤ code ∧ code ≤ 1114111))

theorem Decodes.isScalar {first : UInt8} {rest : Bytes} {code extra : Nat}
    (decodes : Decodes first rest code extra) : IsScalar code := by
  unfold IsScalar
  cases decodes with
  | one ascii => omega
  | two least most second =>
      unfold Continues at second
      omega
  | three least most second third lower upper =>
      unfold Continues at second third
      omega
  | four least most second third fourth lower upper =>
      unfold Continues at second third fourth
      omega

/-- A byte that carries six bits of a code point. -/
theorem toNat_sixBits (n : Nat) : (UInt8.ofNat (128 + n % 64)).toNat = 128 + n % 64 :=
  toNat_ofNat_of_lt (by omega)

theorem continues_sixBits (n : Nat) : Continues (UInt8.ofNat (128 + n % 64)) := by
  rw [Continues, toNat_sixBits]
  omega

/-- A code point is encoded as a well formed sequence. -/
theorem decodes_encodeRune {code : Nat} (scalar : IsScalar code) :
    ∃ first tail, encodeRune code = first :: tail ∧
      ∀ rest, Decodes first (tail ++ rest) code tail.length := by
  have valid : ¬ ((55296 ≤ code ∧ code ≤ 57343) ∨ 1114111 < code) := by
    unfold IsScalar at scalar
    omega
  have last := toNat_sixBits code
  rw [encodeRune, if_neg valid]
  split
  · next ascii =>
    have first := toNat_ofNat_of_lt (by omega : code < 256)
    refine ⟨_, [], rfl, fun rest => ?_⟩
    have formed := @Decodes.one (UInt8.ofNat code) rest (by omega)
    rwa [first] at formed
  · split
    · have first := toNat_ofNat_of_lt (by omega : 192 + code / 64 < 256)
      refine ⟨_, _, rfl, fun rest => ?_⟩
      have formed := @Decodes.two (UInt8.ofNat (192 + code / 64)) _ rest (by omega) (by omega)
        (continues_sixBits code)
      have value : (192 + code / 64 - 192) * 64 + (128 + code % 64 - 128) = code := by omega
      rwa [first, last, value] at formed
    · have second := toNat_sixBits (code / 64)
      split
      · have first := toNat_ofNat_of_lt (by omega : 224 + code / 4096 < 256)
        refine ⟨_, _, rfl, fun rest => ?_⟩
        have formed := @Decodes.three (UInt8.ofNat (224 + code / 4096)) _ _ rest (by omega)
          (by omega) (continues_sixBits (code / 64)) (continues_sixBits code) (by omega) (by omega)
        have value : ((224 + code / 4096 - 224) * 64 + (128 + code / 64 % 64 - 128)) * 64 +
            (128 + code % 64 - 128) = code := by omega
        rwa [first, second, last, value] at formed
      · have first := toNat_ofNat_of_lt (by omega : 240 + code / 262144 < 256)
        have highest := toNat_sixBits (code / 4096)
        refine ⟨_, _, rfl, fun rest => ?_⟩
        have formed := @Decodes.four (UInt8.ofNat (240 + code / 262144)) _ _ _ rest (by omega)
          (by omega) (continues_sixBits (code / 4096)) (continues_sixBits (code / 64))
          (continues_sixBits code) (by omega) (by omega)
        have value : (((240 + code / 262144 - 240) * 64 + (128 + code / 4096 % 64 - 128)) * 64 +
            (128 + code / 64 % 64 - 128)) * 64 + (128 + code % 64 - 128) = code := by omega
        rwa [first, highest, second, last, value] at formed

/-! ## Cutting into runes -/

theorem runesWithin_eq {room room' : Nat} {text : Bytes} (enough : text.length ≤ room)
    (enough' : text.length ≤ room') : runesWithin room text = runesWithin room' text := by
  induction room generalizing room' text with
  | zero =>
      rw [List.length_eq_zero_iff.mp (Nat.le_zero.mp enough)]
      cases room' <;> rfl
  | succ room ih =>
      cases text with
      | nil => cases room' <;> rfl
      | cons first rest =>
          rw [List.length_cons] at enough enough'
          obtain ⟨room', rfl⟩ : ∃ k, room' = k + 1 := ⟨room' - 1, by omega⟩
          have later : ∀ extra,
              runesWithin room (rest.drop extra) = runesWithin room' (rest.drop extra) := by
            intro extra
            have shorter : (rest.drop extra).length ≤ rest.length := by
              rw [List.length_drop]
              omega
            exact ih (by omega) (by omega)
          simp only [runesWithin]
          split
          · next code extra _ => rw [later extra]
          · exact congrArg _ (later 0)

theorem runes_cons_of_decodes {first : UInt8} {rest : Bytes} {code extra : Nat}
    (decodes : Decodes first rest code extra) :
    runes (first :: rest) = ⟨first :: rest.take extra, some code⟩ :: runes (rest.drop extra) := by
  have decoded := decodeRune_of_decodes decodes
  have shorter : (rest.drop extra).length ≤ rest.length := by
    rw [List.length_drop]
    omega
  simp only [runes, List.length_cons, runesWithin, decoded]
  rw [runesWithin_eq shorter (Nat.le_refl _)]

theorem runes_cons_of_none {first : UInt8} {rest : Bytes}
    (malformed : decodeRune first rest = none) :
    runes (first :: rest) = ⟨[first], none⟩ :: runes rest := by
  simp only [runes, List.length_cons, runesWithin, malformed]

theorem isScalar_of_mem_runesWithin {room : Nat} {text : Bytes} {rune : Rune} {code : Nat}
    (member : rune ∈ runesWithin room text) (coded : rune.code = some code) : IsScalar code := by
  induction room generalizing text with
  | zero => cases member
  | succ room ih =>
      cases text with
      | nil => cases member
      | cons first rest =>
          simp only [runesWithin] at member
          split at member
          · next code' extra decoded =>
            rcases List.mem_cons.mp member with rfl | later
            · rw [Option.some.injEq] at coded
              exact coded ▸ (decodes_of_decodeRune decoded).isScalar
            · exact ih later
          · rcases List.mem_cons.mp member with rfl | later
            · cases coded
            · exact ih later

theorem isScalar_of_mem_runes {text : Bytes} {rune : Rune} {code : Nat} (member : rune ∈ runes text)
    (coded : rune.code = some code) : IsScalar code := isScalar_of_mem_runesWithin member coded

/-- A rune that is cut off wherever its bytes stand at the front. -/
def Rune.StandsAlone (rune : Rune) : Prop :=
  ∀ rest, runes (rune.bytes ++ rest) = rune :: runes rest

theorem standsAlone_encodeRune {code : Nat} (scalar : IsScalar code) :
    Rune.StandsAlone ⟨encodeRune code, some code⟩ := by
  obtain ⟨first, tail, split, decodes⟩ := decodes_encodeRune scalar
  intro rest
  rw [split, List.cons_append, runes_cons_of_decodes (decodes rest), List.take_left,
    List.drop_left]

theorem standsAlone_ascii {byte : UInt8} (low : byte < 128) :
    Rune.StandsAlone ⟨[byte], some byte.toNat⟩ := by
  have bound : byte.toNat < 128 := UInt8.lt_iff_toNat_lt.mp low
  rw [← encodeRune_ascii low]
  exact standsAlone_encodeRune (.inl (by omega))

/-- No sequence starts with this byte. -/
theorem standsAlone_maxByte : Rune.StandsAlone ⟨[255], none⟩ :=
  fun _ => runes_cons_of_none rfl

theorem runes_flatMap {cut : List Rune} (alone : ∀ rune ∈ cut, rune.StandsAlone) :
    runes (cut.flatMap Rune.bytes) = cut := by
  induction cut with
  | nil => rfl
  | cons rune cut ih =>
      rw [List.forall_mem_cons] at alone
      rw [List.flatMap_cons, alone.1, ih alone.2]

/-- In ASCII text every byte is a rune. -/
theorem runes_ascii {text : Bytes} (ascii : IsAscii text) :
    runes text = text.map fun byte => ⟨[byte], some byte.toNat⟩ := by
  have alone : ∀ rune ∈ text.map fun byte => (⟨[byte], some byte.toNat⟩ : Rune),
      rune.StandsAlone :=
    List.forall_mem_map.mpr fun byte member => standsAlone_ascii (ascii byte member)
  have cut := runes_flatMap alone
  rwa [List.flatMap_map, List.flatMap_singleton'] at cut

theorem validUtf8_ascii {text : Bytes} (ascii : IsAscii text) : validUtf8 text = true := by
  rw [validUtf8, runes_ascii ascii, List.all_map, List.all_eq_true]
  intro byte _
  rfl

theorem runes_flatMap_encodeRune {codes : List Nat} (scalars : ∀ code ∈ codes, IsScalar code) :
    runes (codes.flatMap encodeRune) = codes.map fun code => ⟨encodeRune code, some code⟩ := by
  have alone : ∀ rune ∈ codes.map fun code => (⟨encodeRune code, some code⟩ : Rune),
      rune.StandsAlone :=
    List.forall_mem_map.mpr fun code member => standsAlone_encodeRune (scalars code member)
  have cut := runes_flatMap alone
  rwa [List.flatMap_map] at cut

/-- Code points are known by the bytes that they are encoded as. -/
theorem flatMap_encodeRune_inj {codes codes' : List Nat} (scalars : ∀ code ∈ codes, IsScalar code)
    (scalars' : ∀ code ∈ codes', IsScalar code) :
    codes.flatMap encodeRune = codes'.flatMap encodeRune ↔ codes = codes' := by
  refine ⟨fun same => ?_, congrArg _⟩
  have cut := congrArg (fun text => (runes text).map Rune.code) same
  rw [runes_flatMap_encodeRune scalars, runes_flatMap_encodeRune scalars', List.map_map,
    List.map_map] at cut
  exact List.map_injective_iff.mpr (Option.some_injective Nat) cut

end TailcatSocks.Library
