import TailcatSocks.Go.DnsMap

/-!
# Whose token a host is given

Domains and hosts meet lowered, and each byte that is not UTF-8 lowers to
U+FFFD.  Two names that differ only there have one key.
-/

namespace TailcatSocks.Go

open Library

/-- What `unicode.ToLower` does beyond ASCII: characters become characters, and
U+FFFD is the lower case of itself alone. -/
structure CaseTable (lower : Nat → Nat) : Prop where
  isScalar : ∀ code, IsScalar code → IsScalar (lower code)
  replacement_iff : ∀ code, lower code = 65533 ↔ code = 65533

/-- A field after the first on a line that is no comment. -/
def DomainField (content domain : Bytes) : Prop :=
  ∃ raw ∈ content.splitOn newline, (trimSpace raw).head? ≠ some hash ∧
    ∃ token domains, fields (trimSpace raw) = token :: domains ∧ domain ∈ domains

/-- The same letter up to case, or the same byte that is not UTF-8. -/
inductive SameLetter (lower : Nat → Nat) (rune rune' : Rune) : Prop where
  | letter {code code' : Nat} : rune.code = some code → rune'.code = some code' →
      toLowerRune lower code = toLowerRune lower code' → SameLetter lower rune rune'
  | byte : rune.code = none → rune'.code = none → rune.bytes = rune'.bytes →
      SameLetter lower rune rune'

/-- The domain spells the host up to letter case. -/
def Spells (lower : Nat → Nat) (host domain : Bytes) : Prop :=
  List.Forall₂ (SameLetter lower) (runes host) (runes domain)

/-- A host that is mapped is spelt by some domain of the file. -/
def Rightful (lower : Nat → Nat) (content host : Bytes) : Prop :=
  ∀ token, (loadDNSFile lower content).lookup (toLower lower host) = some token →
    ∃ domain, DomainField content domain ∧ Spells lower host domain

/-! ## Keys -/

/-- A rune that lowers to U+FFFD. -/
def Blurred (rune : Rune) : Prop := rune.code = none ∨ rune.code = some 65533

instance (rune : Rune) : Decidable (Blurred rune) :=
  inferInstanceAs (Decidable (rune.code = none ∨ rune.code = some 65533))

/-- The domain spells the host but for runes that lower to U+FFFD. -/
def Confusable (lower : Nat → Nat) (host domain : Bytes) : Prop :=
  List.Forall₂ (fun rune rune' => SameLetter lower rune rune' ∨ Blurred rune ∧ Blurred rune')
    (runes host) (runes domain)

/-- The code point that `strings.ToLower` writes for a rune. -/
def letter (lower : Nat → Nat) (rune : Rune) : Nat :=
  match rune.code with
  | some code => toLowerRune lower code
  | none => 65533

theorem toLower_eq (lower : Nat → Nat) (s : Bytes) :
    toLower lower s = ((runes s).map (letter lower)).flatMap encodeRune := by
  rw [toLower, List.flatMap_map]
  refine List.flatMap_congr fun rune _ => ?_
  unfold letter
  cases rune.code with
  | some code => rfl
  | none => exact encodeRune_replacement.symm

variable {lower : Nat → Nat}

theorem toLowerRune_eq_iff (table : CaseTable lower) (code : Nat) :
    toLowerRune lower code = 65533 ↔ code = 65533 := by
  unfold toLowerRune
  split
  · split <;> omega
  · exact table.replacement_iff code

theorem isScalar_letter (table : CaseTable lower) {s : Bytes} :
    ∀ code ∈ (runes s).map (letter lower), IsScalar code := by
  refine List.forall_mem_map.mpr fun rune member => ?_
  unfold letter
  split
  · next code coded =>
    have scalar := isScalar_of_mem_runes member coded
    unfold toLowerRune
    split
    · unfold IsScalar
      split <;> omega
    · exact table.isScalar code scalar
  · decide

/-- Two runes lower to one letter when they are the same letter, and when both
are blurred. -/
theorem letter_eq_iff (table : CaseTable lower) (rune rune' : Rune) :
    letter lower rune = letter lower rune' ↔
      SameLetter lower rune rune' ∨ Blurred rune ∧ Blurred rune' := by
  unfold letter Blurred
  cases coded : rune.code with
  | none =>
      cases coded' : rune'.code with
      | none => exact iff_of_true rfl (.inr ⟨.inl rfl, .inl rfl⟩)
      | some code' =>
          have replaced := toLowerRune_eq_iff table code'
          simp only [true_or, true_and, reduceCtorEq, false_or, Option.some.injEq]
          refine eq_comm.trans (replaced.trans (or_iff_right ?_).symm)
          rintro (⟨first, -, -⟩ | ⟨-, second, -⟩)
          · exact absurd (coded.symm.trans first) (by simp)
          · exact absurd (coded'.symm.trans second) (by simp)
  | some code =>
      have replaced := toLowerRune_eq_iff table code
      cases coded' : rune'.code with
      | none =>
          simp only [true_or, and_true, reduceCtorEq, false_or, Option.some.injEq]
          refine replaced.trans (or_iff_right ?_).symm
          rintro (⟨-, second, -⟩ | ⟨first, -, -⟩)
          · exact absurd (coded'.symm.trans second) (by simp)
          · exact absurd (coded.symm.trans first) (by simp)
      | some code' =>
          simp only [reduceCtorEq, false_or, Option.some.injEq]
          constructor
          · exact fun same => .inl (.letter coded coded' same)
          · rintro ((⟨first, second, same⟩ | ⟨first, -, -⟩) | ⟨rfl, rfl⟩)
            · rw [coded, Option.some.injEq] at first
              rw [coded', Option.some.injEq] at second
              rwa [first, second]
            · exact absurd (coded.symm.trans first) (by simp)
            · rfl

theorem toLower_eq_iff (table : CaseTable lower) (host domain : Bytes) :
    toLower lower host = toLower lower domain ↔ Confusable lower host domain := by
  rw [toLower_eq, toLower_eq, flatMap_encodeRune_inj (isScalar_letter table)
    (isScalar_letter table), ← List.forall₂_eq_eq_eq, List.forall₂_map_left_iff,
    List.forall₂_map_right_iff]
  simp only [letter_eq_iff table, Confusable]

/-! ## Lookups -/

theorem mem_rowOf_iff {raw key token : Bytes} :
    (key, token) ∈ rowOf lower raw ↔ (trimSpace raw).head? ≠ some hash ∧
      ∃ domains, fields (trimSpace raw) = token :: domains ∧
        ∃ domain ∈ domains, toLower lower domain = key := by
  unfold rowOf
  dsimp only
  split
  · next skipped =>
    rw [Bool.or_eq_true, List.isEmpty_iff, beq_iff_eq] at skipped
    refine iff_of_false List.not_mem_nil ?_
    rintro ⟨noComment, domains, cut, -⟩
    rcases skipped with empty | comment
    · rw [empty] at cut
      cases cut
    · exact noComment comment
  · next kept =>
    rw [Bool.or_eq_true, List.isEmpty_iff, beq_iff_eq, not_or] at kept
    rw [and_iff_right kept.2]
    split
    · next nothing =>
      refine iff_of_false List.not_mem_nil ?_
      rintro ⟨domains, cut, -⟩
      cases nothing.symm.trans cut
    · next token' domains cut =>
      rw [List.mem_map]
      constructor
      · rintro ⟨domain, inDomains, same⟩
        cases same
        exact ⟨domains, cut, domain, inDomains, rfl⟩
      · rintro ⟨domains', cut', domain, inDomains, rfl⟩
        cases cut.symm.trans cut'
        exact ⟨domain, inDomains, rfl⟩

/-- A host is mapped when its key is that of a domain of the file. -/
theorem exists_lookup_iff {content host : Bytes} :
    (∃ token, (loadDNSFile lower content).lookup (toLower lower host) = some token) ↔
      ∃ domain, DomainField content domain ∧ toLower lower host = toLower lower domain := by
  rw [loadDNSFile_eq, exists_lookup_assignRows_iff]
  simp only [List.mem_map, exists_exists_and_eq_and]
  constructor
  · rintro ⟨raw, inContent, token, inRow⟩
    obtain ⟨noComment, domains, cut, domain, inDomains, same⟩ := mem_rowOf_iff.mp inRow
    exact ⟨domain, ⟨raw, inContent, noComment, token, domains, cut, inDomains⟩, same.symm⟩
  · rintro ⟨domain, ⟨raw, inContent, noComment, token, domains, cut, inDomains⟩, same⟩
    exact ⟨raw, inContent, token,
      mem_rowOf_iff.mpr ⟨noComment, domains, cut, domain, inDomains, same.symm⟩⟩

/-- A host is mapped rightfully when some domain spells it, or none is confusable
with it. -/
theorem rightful_iff (table : CaseTable lower) (content host : Bytes) :
    Rightful lower content host ↔
      ((∃ domain, DomainField content domain ∧ Confusable lower host domain) →
        ∃ domain, DomainField content domain ∧ Spells lower host domain) := by
  have mapped : (∃ token, (loadDNSFile lower content).lookup (toLower lower host) = some token) ↔
      ∃ domain, DomainField content domain ∧ Confusable lower host domain := by
    rw [exists_lookup_iff]
    simp only [toLower_eq_iff table]
  exact forall_exists_index.symm.trans (imp_congr_left mapped)

/-- A host without blurred runes is confusable with no domain but those that spell it. -/
theorem Confusable.spells {host domain : Bytes} (confusable : Confusable lower host domain)
    (kept : ∀ rune ∈ runes host, ¬ Blurred rune) : Spells lower host domain := by
  have both := (List.forall₂_and_left _ _).mpr ⟨kept, confusable⟩
  refine both.imp fun rune rune' ⟨notBlurred, same⟩ => ?_
  exact same.resolve_right fun blurred => notBlurred blurred.1

/-! ## Another name for a host with blurred runes -/

/-- A blurred rune is written as another one, any other rune as it is. -/
def disguiseRune (rune : Rune) : Rune :=
  match rune.code with
  | none => ⟨encodeRune 65533, some 65533⟩
  | some code => if code = 65533 then ⟨[255], none⟩ else ⟨encodeRune code, some code⟩

def disguise (host : Bytes) : Bytes := ofRunes ((runes host).map disguiseRune)

theorem standsAlone_disguiseRune {host : Bytes} {rune : Rune} (member : rune ∈ runes host) :
    (disguiseRune rune).StandsAlone := by
  unfold disguiseRune
  split
  · exact standsAlone_encodeRune (by decide)
  · next code coded =>
    split
    · exact standsAlone_maxByte
    · exact standsAlone_encodeRune (isScalar_of_mem_runes member coded)

theorem runes_disguise (host : Bytes) : runes (disguise host) = (runes host).map disguiseRune :=
  runes_flatMap (List.forall_mem_map.mpr fun _ member => standsAlone_disguiseRune member)

theorem isSpaceRune_disguiseRune (rune : Rune) :
    isSpaceRune (disguiseRune rune) = isSpaceRune rune := by
  unfold disguiseRune isSpaceRune
  cases rune.code with
  | none => decide
  | some code =>
      dsimp only
      split
      · next replaced =>
        rw [replaced]
        decide
      · rfl

theorem confusable_disguise (lower : Nat → Nat) (host : Bytes) :
    Confusable lower host (disguise host) := by
  rw [Confusable, runes_disguise, List.forall₂_map_right_iff, List.forall₂_same]
  intro rune _
  unfold disguiseRune
  split
  · next malformed => exact .inr ⟨.inl malformed, .inr rfl⟩
  · next code coded =>
    split
    · next replaced => exact .inr ⟨.inr (replaced ▸ coded), .inl rfl⟩
    · exact .inl (.letter coded rfl rfl)

theorem not_spells_disguise (lower : Nat → Nat) {host : Bytes} {rune : Rune}
    (member : rune ∈ runes host) (blurred : Blurred rune) :
    ¬ Spells lower host (disguise host) := by
  rw [Spells, runes_disguise, List.forall₂_map_right_iff, List.forall₂_same]
  intro spells
  have same := spells rune member
  unfold disguiseRune at same
  rcases blurred with malformed | replaced
  · rw [malformed] at same
    rcases same with ⟨coded, -, -⟩ | ⟨-, none, -⟩
    · cases malformed.symm.trans coded
    · cases none
  · rw [replaced] at same
    rcases same with ⟨-, coded, -⟩ | ⟨none, -, -⟩
    · cases coded
    · cases replaced.symm.trans none

/-- A token and a blank, and then a domain. -/
def lineRunes (cut : List Rune) : List Rune := ⟨[116], some 116⟩ :: ⟨[32], some 32⟩ :: cut

theorem trimSpace_line {cut : List Rune} (alone : ∀ rune ∈ cut, rune.StandsAlone)
    (solid : ∀ rune ∈ cut, isSpaceRune rune = false) (nonempty : cut ≠ []) :
    runes (ofRunes (lineRunes cut)) = lineRunes cut ∧
      trimSpace (ofRunes (lineRunes cut)) = ofRunes (lineRunes cut) := by
  have whole : runes (ofRunes (lineRunes cut)) = lineRunes cut :=
    runes_flatMap (List.forall_mem_cons.mpr ⟨standsAlone_ascii (by decide),
      List.forall_mem_cons.mpr ⟨standsAlone_ascii (by decide), alone⟩⟩)
  refine ⟨whole, ?_⟩
  rw [trimSpace, whole, dropWhile_of_head, rdropWhile_of_getLast]
  · intro last isLast
    rw [lineRunes, List.getLast?_cons_cons, List.getLast?_cons_of_ne_nil nonempty] at isLast
    exact solid last (List.mem_of_getLast? isLast)
  · rintro first ⟨⟩
    rfl

theorem fields_line {cut : List Rune} (alone : ∀ rune ∈ cut, rune.StandsAlone)
    (solid : ∀ rune ∈ cut, isSpaceRune rune = false) (nonempty : cut ≠ []) :
    fields (ofRunes (lineRunes cut)) = [[116], ofRunes cut] := by
  have areRuns : MaximalRuns isSpaceRune (lineRunes cut) [[⟨[116], some 116⟩], cut] := by
    have name : MaximalRuns isSpaceRune (cut ++ []) [cut] :=
      .run nonempty solid (fun _ none => by cases none) .done
    rw [List.append_nil] at name
    have token : ∀ rune ∈ [(⟨[116], some 116⟩ : Rune)], isSpaceRune rune = false := by decide
    refine .run (List.cons_ne_nil _ _) token ?_ (.skip rfl name)
    rintro first ⟨⟩
    rfl
  rw [fields, (trimSpace_line alone solid nonempty).1, ← maximalRuns_eq_fieldsOf areRuns]
  rfl

/-- The only domain of a file of one line. -/
theorem domainField_line_iff {cut : List Rune} (alone : ∀ rune ∈ cut, rune.StandsAlone)
    (solid : ∀ rune ∈ cut, isSpaceRune rune = false) (nonempty : cut ≠ [])
    (oneLine : newline ∉ ofRunes cut) {domain : Bytes} :
    DomainField (ofRunes (lineRunes cut)) domain ↔ domain = ofRunes cut := by
  have lines : (ofRunes (lineRunes cut)).splitOn newline = [ofRunes (lineRunes cut)] := by
    refine List.splitOnP_eq_singleton fun byte member => ?_
    rw [beq_eq_false_iff_ne]
    rintro rfl
    have parts : newline ∈ [116, 32] ++ ofRunes cut := member
    rcases List.mem_append.mp parts with front | back
    · exact absurd front (by decide)
    · exact oneLine back
  have trimmed := (trimSpace_line alone solid nonempty).2
  have cutUp := fields_line alone solid nonempty
  unfold DomainField
  rw [lines]
  simp only [List.mem_singleton, exists_eq_left, trimmed, cutUp]
  constructor
  · rintro ⟨-, token, domains, same, member⟩
    cases same
    exact List.mem_singleton.mp member
  · rintro rfl
    refine ⟨fun comment => ?_, [116], _, rfl, List.mem_singleton_self _⟩
    cases comment

theorem newline_notMem_disguise {host : Bytes}
    (solid : ∀ rune ∈ runes host, isSpaceRune rune = false) : newline ∉ disguise host := by
  intro inside
  obtain ⟨_, inCut, inside⟩ := List.mem_flatMap.mp inside
  obtain ⟨rune, member, rfl⟩ := List.mem_map.mp inCut
  unfold disguiseRune at inside
  split at inside
  · exact absurd inside (by decide)
  · next code coded =>
    split at inside
    · exact absurd inside (by decide)
    · rcases eq_or_le_of_mem_encodeRune inside with isNewline | large
      · have isBlank := solid rune member
        rw [isSpaceRune, coded, ← isNewline] at isBlank
        exact absurd isBlank (by decide)
      · exact absurd large (by decide)

/-- A host with a blurred rune that could be a domain is given a stranger's token by
some file. -/
theorem exists_not_rightful (table : CaseTable lower) {host : Bytes}
    (solid : ∀ rune ∈ runes host, isSpaceRune rune = false) {rune : Rune}
    (member : rune ∈ runes host) (blurred : Blurred rune) :
    ∃ content, ¬ Rightful lower content host := by
  have alone : ∀ rune ∈ (runes host).map disguiseRune, rune.StandsAlone :=
    List.forall_mem_map.mpr fun rune member => standsAlone_disguiseRune member
  have solid' : ∀ rune ∈ (runes host).map disguiseRune, isSpaceRune rune = false :=
    List.forall_mem_map.mpr fun rune member =>
      (isSpaceRune_disguiseRune rune).trans (solid rune member)
  have nonempty : (runes host).map disguiseRune ≠ [] :=
    List.ne_nil_of_mem (List.mem_map_of_mem member)
  have only : ∀ {domain}, DomainField (ofRunes (lineRunes ((runes host).map disguiseRune))) domain ↔
      domain = disguise host :=
    domainField_line_iff alone solid' nonempty (newline_notMem_disguise solid)
  refine ⟨ofRunes (lineRunes ((runes host).map disguiseRune)), fun rightful => ?_⟩
  obtain ⟨domain, isDomain, spells⟩ := (rightful_iff table _ host).mp rightful
    ⟨disguise host, only.mpr rfl, confusable_disguise lower host⟩
  rw [only.mp isDomain] at spells
  exact not_spells_disguise lower member blurred spells

/-- For every file and every host: the host is given a token only by a domain
that spells it, exactly when some domain does so or none is confusable with it.
A host without blurred runes is never given a stranger's token; any other, if it
could be a domain, is by some file. -/
theorem rightful_iff_confusable (table : CaseTable lower) (host : Bytes) :
    (∀ content, Rightful lower content host ↔
        ((∃ domain, DomainField content domain ∧ Confusable lower host domain) →
          ∃ domain, DomainField content domain ∧ Spells lower host domain)) ∧
      ((∀ rune ∈ runes host, ¬ Blurred rune) → ∀ content, Rightful lower content host) ∧
      ((∀ rune ∈ runes host, isSpaceRune rune = false) → (∃ rune ∈ runes host, Blurred rune) →
        ∃ content, ¬ Rightful lower content host) := by
  refine ⟨fun content => rightful_iff table content host, fun kept content => ?_, ?_⟩
  · refine (rightful_iff table content host).mpr ?_
    rintro ⟨domain, isDomain, confusable⟩
    exact ⟨domain, isDomain, confusable.spells kept⟩
  · rintro solid ⟨rune, member, blurred⟩
    exact exists_not_rightful table solid member blurred

theorem caseTable_id : CaseTable id := ⟨fun _ scalar => scalar, fun _ => Iff.rfl⟩

/-- In the file `t é` some domain spells the host `é`. -/
theorem rightful_accented :
    ∃ domain, DomainField [116, 32, 195, 169] domain ∧ Spells id [195, 169] domain :=
  (rightful_iff_confusable caseTable_id [195, 169]).2.1 (by decide) [116, 32, 195, 169] [116]
    (by decide)

/-- The file `t \xFE` gives its token to the host `\xFF`. -/
theorem stranger_redirected :
    (loadDNSFile id [116, 32, 254]).lookup (toLower id [255]) = some [116] ∧
      rewriteHost id [255] (loadDNSFile id [116, 32, 254]) = [116] ∧
      ¬ ∃ domain, DomainField [116, 32, 254] domain ∧ Spells id [255] domain := by
  refine ⟨by decide, by decide, ?_⟩
  rintro ⟨domain, isDomain, spells⟩
  have alone : ∀ rune ∈ [(⟨[254], none⟩ : Rune)], rune.StandsAlone :=
    List.forall_mem_singleton.mpr fun _ => runes_cons_of_none rfl
  have only : domain = [254] :=
    (domainField_line_iff alone (by decide) (List.cons_ne_nil _ _) (by decide)).mp isDomain
  rw [only] at spells
  have same : SameLetter id ⟨[255], none⟩ ⟨[254], none⟩ := (List.forall₂_cons.mp spells).1
  rcases same with ⟨coded, -, -⟩ | ⟨-, -, bytes⟩
  · cases coded
  · exact absurd bytes (by decide)

end TailcatSocks.Go
