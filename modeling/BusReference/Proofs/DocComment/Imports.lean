import BusReference.DocComment
import BusReference.Proofs.Php.Lexeme.Measures

/-!
# Imports in the raw text of a file

The text of a file is searched for a statement that imports a name with a given
last segment.  Such a statement is known by its characters alone: the keyword,
blanks, a word that ends with the segment, and a semicolon, which blanks may
come before.  Among all places of the text the first one counts where such a
statement stands, and among the words there the longest one.
-/

namespace BusReference.DocComment

open BusReference.Text.Blank (isBlank)
open BusReference.Php (Lexeme)
open BusReference.Php.Lexeme.Reading (runLength)

/-! ## Parts of a statement -/

theorem after?_eq_some_iff {keyword cs rest : List Char} :
    after? keyword cs = some rest ↔ cs = keyword ++ rest := by
  induction keyword generalizing cs with
  | nil =>
      rw [after?, Option.some.injEq]
      exact Iff.rfl
  | cons k keyword ih =>
      cases cs with
      | nil => simp [after?]
      | cons c cs =>
          rw [after?, List.cons_append, List.cons.injEq]
          split
          · rename_i same
            rw [ih]
            exact ⟨fun text => ⟨same, text⟩, And.right⟩
          · rename_i other
            exact ⟨nofun, fun both => absurd both.1 other⟩

/-- The blanks of a text are those before its first other character. -/
theorem dropWhile_isBlank_eq_iff {cs rest : List Char} :
    cs.dropWhile isBlank = rest ↔
      ∃ blanks, cs = blanks ++ rest ∧ (∀ c ∈ blanks, isBlank c = true) ∧
        ∀ c ∈ rest.head?, isBlank c = false := by
  constructor
  · rintro rfl
    refine ⟨cs.takeWhile isBlank, List.takeWhile_append_dropWhile.symm,
      fun c => List.mem_takeWhile_imp, fun c first => ?_⟩
    have stops := List.head?_dropWhile_not isBlank cs
    rw [Option.mem_def.mp first] at stops
    simpa using stops
  · rintro ⟨blanks, rfl, blank, stops⟩
    rw [List.dropWhile_append_of_pos blank]
    cases rest with
    | nil => rfl
    | cons c rest =>
        exact List.dropWhile_cons_of_neg (by simp [stops c rfl])

theorem afterBlanks?_eq_some_iff {cs rest : List Char} :
    afterBlanks? cs = some rest ↔
      ∃ blanks, blanks ≠ [] ∧ cs = blanks ++ rest ∧
        (∀ c ∈ blanks, isBlank c = true) ∧
        ∀ c ∈ rest.head?, isBlank c = false := by
  cases cs with
  | nil =>
      refine ⟨fun absent => (by cases absent), ?_⟩
      rintro ⟨blanks, apart, text, -⟩
      exact absurd (List.append_eq_nil_iff.mp text.symm).1 apart
  | cons c cs =>
      rw [afterBlanks?]
      split
      · rename_i starts
        rw [Option.some.injEq, ← List.dropWhile_cons_of_pos starts,
          dropWhile_isBlank_eq_iff]
        constructor
        · rintro ⟨blanks, text, blank, stops⟩
          refine ⟨blanks, ?_, text, blank, stops⟩
          rintro rfl
          rw [List.nil_append] at text
          have other := stops c (by rw [← text]; rfl)
          rw [starts] at other
          cases other
        · rintro ⟨blanks, -, text, blank, stops⟩
          exact ⟨blanks, text, blank, stops⟩
      · rename_i solid
        refine ⟨fun absent => (by cases absent), ?_⟩
        rintro ⟨blanks, apart, text, blank, -⟩
        obtain ⟨d, others, rfl⟩ := List.exists_cons_of_ne_nil apart
        obtain ⟨rfl, -⟩ := List.cons.inj text
        exact absurd (blank c List.mem_cons_self) solid

theorem endsStatement_iff {cs : List Char} :
    endsStatement cs = true ↔
      ∃ gap rest, (∀ c ∈ gap, isBlank c = true) ∧ cs = gap ++ ';' :: rest := by
  rw [endsStatement, beq_iff_eq, List.head?_eq_some_iff]
  constructor
  · rintro ⟨rest, left⟩
    obtain ⟨gap, text, blank, -⟩ := dropWhile_isBlank_eq_iff.mp left
    exact ⟨gap, rest, blank, text⟩
  · rintro ⟨gap, rest, blank, text⟩
    refine ⟨rest, dropWhile_isBlank_eq_iff.mpr ⟨gap, text, blank, ?_⟩⟩
    rintro c ⟨⟩
    decide

/-! ## Statements -/

/-- The text starts with a qualifier, the given last segment and the end of a
statement. -/
def Qualifies (short qualifier cs : List Char) : Prop :=
  ∃ gap rest, (∀ c ∈ gap, isBlank c = true) ∧
    cs = qualifier ++ '\\' :: short ++ gap ++ ';' :: rest

/-- The text starts with a statement that imports the full name, whose last
segment is given.  The qualifier before it is not empty and has no blanks. -/
inductive ReadsImport (short : List Char) : (full cs : List Char) → Prop
  | intro {blanks qualifier rest : List Char}
      (apart : blanks ≠ []) (blank : ∀ c ∈ blanks, isBlank c = true)
      (qualified : qualifier ≠ [])
      (solid : ∀ c ∈ qualifier, isBlank c = false)
      (qualifies : Qualifies short qualifier rest) :
      ReadsImport short (qualifier ++ '\\' :: short)
        ("use".toList ++ blanks ++ rest)

theorem importAt?_eq (short cs : List Char) :
    importAt? short cs =
      ((after? "use".toList cs).bind afterBlanks?).bind fun rest =>
        (qualifier? short rest (runLength (!isBlank ·) rest)).map
          (· ++ '\\' :: short) := by
  rw [importAt?]
  cases after? "use".toList cs with
  | none => rfl
  | some rest =>
      dsimp only [Option.bind_some]
      cases afterBlanks? rest <;> rfl

theorem bind_afterBlanks?_eq_some_iff {cs rest : List Char} :
    (after? "use".toList cs).bind afterBlanks? = some rest ↔
      ∃ blanks, blanks ≠ [] ∧ (∀ c ∈ blanks, isBlank c = true) ∧
        (∀ c ∈ rest.head?, isBlank c = false) ∧
        cs = "use".toList ++ blanks ++ rest := by
  rw [Option.bind_eq_some_iff]
  constructor
  · rintro ⟨later, keyword, starts⟩
    obtain ⟨blanks, apart, rfl, blank, stops⟩ :=
      afterBlanks?_eq_some_iff.mp starts
    refine ⟨blanks, apart, blank, stops, ?_⟩
    rw [List.append_assoc]
    exact after?_eq_some_iff.mp keyword
  · rintro ⟨blanks, apart, blank, stops, text⟩
    rw [List.append_assoc] at text
    exact ⟨blanks ++ rest, after?_eq_some_iff.mpr text,
      afterBlanks?_eq_some_iff.mpr ⟨blanks, apart, rfl, blank, stops⟩⟩

/-- A statement stands at the start of a text if the keyword and blanks do, and
a solid qualifier follows them. -/
theorem readsImport_iff {short full cs : List Char} :
    ReadsImport short full cs ↔
      ∃ rest, (after? "use".toList cs).bind afterBlanks? = some rest ∧
        ∃ qualifier, qualifier ≠ [] ∧ (∀ c ∈ qualifier, isBlank c = false) ∧
          Qualifies short qualifier rest ∧ full = qualifier ++ '\\' :: short := by
  constructor
  · rintro ⟨apart, blank, qualified, solid, qualifies⟩
    rename_i blanks qualifier rest
    refine ⟨rest, bind_afterBlanks?_eq_some_iff.mpr
      ⟨blanks, apart, blank, ?_, rfl⟩, qualifier, qualified, solid, qualifies,
      rfl⟩
    obtain ⟨gap, later, -, rfl⟩ := qualifies
    obtain ⟨c, others, rfl⟩ := List.exists_cons_of_ne_nil qualified
    rintro d ⟨⟩
    exact solid c List.mem_cons_self
  · rintro ⟨rest, starts, qualifier, qualified, solid, qualifies, rfl⟩
    obtain ⟨blanks, apart, blank, -, rfl⟩ :=
      bind_afterBlanks?_eq_some_iff.mp starts
    exact .intro apart blank qualified solid qualifies

/-! ## The longest qualifier -/

/-- Whether a qualifier of the given length stands at the start of the text is
seen from what follows it. -/
theorem exists_qualifies_iff {short cs : List Char} {n : Nat} :
    (∃ rest, after? ('\\' :: short) (cs.drop n) = some rest ∧
        endsStatement rest = true) ↔
      Qualifies short (cs.take n) cs := by
  constructor
  · rintro ⟨rest, follows, ends⟩
    obtain ⟨gap, later, blank, rfl⟩ := endsStatement_iff.mp ends
    refine ⟨gap, later, blank, ?_⟩
    rw [List.append_assoc, List.append_assoc,
      ← after?_eq_some_iff.mp follows, List.take_append_drop]
  · rintro ⟨gap, later, blank, text⟩
    rw [List.append_assoc, List.append_assoc] at text
    have rest : cs.drop n = ('\\' :: short) ++ (gap ++ ';' :: later) :=
      List.append_cancel_left ((List.take_append_drop n cs).trans text)
    exact ⟨gap ++ ';' :: later, after?_eq_some_iff.mpr rest,
      endsStatement_iff.mpr ⟨gap, later, blank, rfl⟩⟩

theorem Qualifies.take_eq
    {short qualifier cs : List Char} (qualifies : Qualifies short qualifier cs) :
    cs.take qualifier.length = qualifier := by
  obtain ⟨gap, rest, -, rfl⟩ := qualifies
  rw [List.append_assoc, List.append_assoc, List.take_left]

theorem Qualifies.length_lt
    {short qualifier cs : List Char} (qualifies : Qualifies short qualifier cs) :
    qualifier.length < cs.length := by
  obtain ⟨gap, rest, -, rfl⟩ := qualifies
  simp only [List.length_append, List.length_cons]
  omega

theorem Qualifies.take_ne_nil
    {short cs : List Char} {n : Nat}
    (qualifies : Qualifies short (cs.take (n + 1)) cs) :
    cs.take (n + 1) ≠ [] := by
  have inside := qualifies.length_lt
  rw [List.ne_nil_iff_length_pos, List.length_take]
  omega

/-- A qualifier of the given length is excluded by the text of that length. -/
theorem Qualifies.length_le_iff
    {short word cs : List Char} {n : Nat} (here : Qualifies short word cs)
    (other : ¬Qualifies short (cs.take (n + 1)) cs) :
    word.length ≤ n + 1 ↔ word.length ≤ n := by
  refine ⟨fun bound => ?_, Nat.le_succ_of_le⟩
  rcases Nat.lt_or_eq_of_le bound with less | same
  · exact Nat.le_of_lt_succ less
  · rw [← same, here.take_eq] at other
    exact absurd here other

/-- The search tries the greatest length first. -/
theorem qualifier?_succ (short cs : List Char) (n : Nat) :
    Qualifies short (cs.take (n + 1)) cs ∧
        qualifier? short cs (n + 1) = some (cs.take (n + 1)) ∨
      ¬Qualifies short (cs.take (n + 1)) cs ∧
        qualifier? short cs (n + 1) = qualifier? short cs n := by
  rw [← exists_qualifies_iff, qualifier?]
  cases follows : after? ('\\' :: short) (cs.drop (n + 1)) with
  | none => exact Or.inr ⟨nofun, rfl⟩
  | some rest =>
      dsimp only
      cases ends : endsStatement rest with
      | true => exact Or.inl ⟨⟨rest, rfl, ends⟩, rfl⟩
      | false =>
          refine Or.inr ⟨?_, rfl⟩
          rintro ⟨_, ⟨⟩, other⟩
          rw [ends] at other
          cases other

theorem qualifier?_eq_some_iff
    {short qualifier cs : List Char} {n : Nat} :
    qualifier? short cs n = some qualifier ↔
      (qualifier ≠ [] ∧ qualifier.length ≤ n ∧ Qualifies short qualifier cs) ∧
        ∀ other, other ≠ [] → other.length ≤ n → Qualifies short other cs →
          other.length ≤ qualifier.length := by
  induction n with
  | zero =>
      refine ⟨nofun, ?_⟩
      rintro ⟨⟨qualified, bound, -⟩, -⟩
      exact absurd (List.length_eq_zero_iff.mp (Nat.le_zero.mp bound)) qualified
  | succ n ih =>
      rcases qualifier?_succ short cs n with ⟨qualifies, found⟩ | ⟨other, later⟩
      · have inside := qualifies.length_lt
        rw [List.length_take] at inside
        have length : (cs.take (n + 1)).length = n + 1 := by
          rw [List.length_take]
          omega
        rw [found, Option.some.injEq]
        constructor
        · rintro rfl
          exact ⟨⟨qualifies.take_ne_nil, Nat.le_of_eq length, qualifies⟩,
            fun other _ bound _ => bound.trans (Nat.le_of_eq length.symm)⟩
        · rintro ⟨⟨-, bound, here⟩, longest⟩
          have least := longest _ qualifies.take_ne_nil (Nat.le_of_eq length)
            qualifies
          have same : qualifier.length = n + 1 := by omega
          rw [← same, here.take_eq]
      · rw [later, ih]
        constructor
        · rintro ⟨⟨qualified, bound, here⟩, longest⟩
          exact ⟨⟨qualified, Nat.le_succ_of_le bound, here⟩,
            fun word filled bound there =>
              longest word filled ((there.length_le_iff other).mp bound)
                there⟩
        · rintro ⟨⟨qualified, bound, here⟩, longest⟩
          exact ⟨⟨qualified, (here.length_le_iff other).mp bound, here⟩,
            fun word filled bound there =>
              longest word filled (Nat.le_succ_of_le bound) there⟩

theorem qualifier?_eq_none_iff {short cs : List Char} {n : Nat} :
    qualifier? short cs n = none ↔
      ∀ word, word ≠ [] → word.length ≤ n → ¬Qualifies short word cs := by
  induction n with
  | zero =>
      refine ⟨fun _ word filled bound _ => ?_, fun _ => rfl⟩
      exact filled (List.length_eq_zero_iff.mp (Nat.le_zero.mp bound))
  | succ n ih =>
      rcases qualifier?_succ short cs n with ⟨qualifies, found⟩ | ⟨other, later⟩
      · refine ⟨fun missing => ?_, fun free => ?_⟩
        · rw [found] at missing
          cases missing
        · exact absurd qualifies (free _ (qualifies.take_ne_nil)
            (List.length_take_le _ _))
      · rw [later, ih]
        exact forall_congr' fun word => forall_congr' fun _ =>
          ⟨fun free bound here => free ((here.length_le_iff other).mp bound) here,
            fun free bound => free (Nat.le_succ_of_le bound)⟩

/-- The first characters of a text without blanks are no blanks, as far as it
reaches. -/
theorem length_le_runLength_iff {word cs : List Char} (starts : word <+: cs) :
    word.length ≤ runLength (!isBlank ·) cs ↔
      ∀ c ∈ word, isBlank c = false := by
  constructor
  · intro bound c inside
    have within : word <+: cs.takeWhile (!isBlank ·) :=
      List.prefix_of_prefix_length_le starts (List.takeWhile_prefix _) bound
    simpa using List.mem_takeWhile_imp (within.subset inside)
  · intro solid
    obtain ⟨rest, rfl⟩ := starts
    rw [runLength, List.takeWhile_append_of_pos (by simpa using solid),
      List.length_append]
    exact Nat.le_add_right _ _

theorem Qualifies.isPrefix
    {short qualifier cs : List Char} (qualifies : Qualifies short qualifier cs) :
    qualifier <+: cs :=
  List.prefix_iff_eq_take.mpr qualifies.take_eq.symm

theorem importAt?_eq_some_iff {short full cs : List Char} :
    importAt? short cs = some full ↔
      ReadsImport short full cs ∧
        ∀ other, ReadsImport short other cs → other.length ≤ full.length := by
  rw [importAt?_eq, Option.bind_eq_some_iff]
  constructor
  · rintro ⟨rest, starts, found⟩
    obtain ⟨qualifier, longest, rfl⟩ := Option.map_eq_some_iff.mp found
    obtain ⟨⟨qualified, bound, qualifies⟩, longest⟩ :=
      qualifier?_eq_some_iff.mp longest
    refine ⟨readsImport_iff.mpr ⟨rest, starts, qualifier, qualified,
      (length_le_runLength_iff qualifies.isPrefix).mp bound, qualifies, rfl⟩, ?_⟩
    intro other reads
    obtain ⟨_, same, word, filled, solid, here, rfl⟩ := readsImport_iff.mp reads
    cases starts.symm.trans same
    rw [List.length_append, List.length_append]
    exact Nat.add_le_add_right (longest word filled
      ((length_le_runLength_iff here.isPrefix).mpr solid) here) _
  · rintro ⟨reads, longest⟩
    obtain ⟨rest, starts, qualifier, qualified, solid, qualifies, rfl⟩ :=
      readsImport_iff.mp reads
    refine ⟨rest, starts, Option.map_eq_some_iff.mpr ⟨qualifier,
      qualifier?_eq_some_iff.mpr ⟨⟨qualified,
        (length_le_runLength_iff qualifies.isPrefix).mpr solid, qualifies⟩, ?_⟩,
      rfl⟩⟩
    intro word filled bound here
    have less := longest (word ++ '\\' :: short) (readsImport_iff.mpr
      ⟨rest, starts, word, filled,
        (length_le_runLength_iff here.isPrefix).mp bound, here, rfl⟩)
    rw [List.length_append, List.length_append] at less
    exact Nat.le_of_add_le_add_right less

theorem importAt?_eq_none_iff {short cs : List Char} :
    importAt? short cs = none ↔ ∀ full, ¬ReadsImport short full cs := by
  rw [importAt?_eq, Option.bind_eq_none_iff]
  constructor
  · intro missing full reads
    obtain ⟨rest, starts, qualifier, qualified, solid, qualifies, rfl⟩ :=
      readsImport_iff.mp reads
    have absent := qualifier?_eq_none_iff.mp
      (Option.map_eq_none_iff.mp (missing rest starts))
    exact absent qualifier qualified
      ((length_le_runLength_iff qualifies.isPrefix).mpr solid) qualifies
  · intro free rest starts
    refine Option.map_eq_none_iff.mpr (qualifier?_eq_none_iff.mpr ?_)
    intro word filled bound here
    exact free _ (readsImport_iff.mpr ⟨rest, starts, word, filled,
      (length_le_runLength_iff here.isPrefix).mp bound, here, rfl⟩)

/-! ## The first statement -/

theorem firstAt_eq_none_iff
    {α : Type} {read : List Char → Option α} {cs : List Char} :
    firstAt read cs = none ↔ ∀ n, read (cs.drop n) = none := by
  induction cs with
  | nil => simp [firstAt]
  | cons c cs ih =>
      rw [firstAt]
      cases here : read (c :: cs) with
      | some result =>
          refine ⟨nofun, fun missing => ?_⟩
          have absent := missing 0
          rw [List.drop_zero, here] at absent
          cases absent
      | none =>
          dsimp only
          rw [ih]
          refine ⟨fun missing n => ?_, fun missing n => missing (n + 1)⟩
          cases n with
          | zero => exact here
          | succ n => exact missing n

theorem firstAt_eq_some_iff
    {α : Type} {read : List Char → Option α} {cs : List Char} {result : α} :
    firstAt read cs = some result ↔
      ∃ n, read (cs.drop n) = some result ∧
        ∀ m < n, read (cs.drop m) = none := by
  induction cs with
  | nil =>
      simp only [firstAt, List.drop_nil]
      refine ⟨fun found => ⟨0, found, nofun⟩, ?_⟩
      rintro ⟨n, found, -⟩
      exact found
  | cons c cs ih =>
      rw [firstAt]
      cases here : read (c :: cs) with
      | some first =>
          dsimp only
          constructor
          · rintro ⟨⟩
            exact ⟨0, here, nofun⟩
          · rintro ⟨n, found, earlier⟩
            cases n with
            | zero => exact here.symm.trans found
            | succ n =>
                have missing := earlier 0 (Nat.succ_pos n)
                rw [List.drop_zero, here] at missing
                cases missing
      | none =>
          dsimp only
          rw [ih]
          constructor
          · rintro ⟨n, found, earlier⟩
            refine ⟨n + 1, found, fun m less => ?_⟩
            cases m with
            | zero => exact here
            | succ m => exact earlier m (Nat.lt_of_succ_lt_succ less)
          · rintro ⟨n, found, earlier⟩
            cases n with
            | zero =>
                rw [List.drop_zero, here] at found
                cases found
            | succ n =>
                exact ⟨n, found, fun m less =>
                  earlier (m + 1) (Nat.succ_lt_succ less)⟩

/-- The first place of the text where a statement imports a name with the given
last segment is one for the full name, and for no longer one. -/
def FirstImport (short full text : List Char) : Prop :=
  ∃ n, ReadsImport short full (text.drop n) ∧
    (∀ other, ReadsImport short other (text.drop n) →
      other.length ≤ full.length) ∧
    ∀ m < n, ∀ other, ¬ReadsImport short other (text.drop m)

theorem import?_eq_some_iff {source short full : String} :
    DocComment.import? source short = some full ↔
      FirstImport short.toList full.toList source.toList := by
  rw [import?, Option.map_eq_some_iff]
  constructor
  · rintro ⟨found, first, rfl⟩
    obtain ⟨n, here, earlier⟩ := firstAt_eq_some_iff.mp first
    obtain ⟨reads, longest⟩ := importAt?_eq_some_iff.mp here
    rw [String.toList_ofList]
    exact ⟨n, reads, longest,
      fun m less => importAt?_eq_none_iff.mp (earlier m less)⟩
  · rintro ⟨n, reads, longest, earlier⟩
    exact ⟨full.toList, firstAt_eq_some_iff.mpr ⟨n,
      importAt?_eq_some_iff.mpr ⟨reads, longest⟩,
      fun m less => importAt?_eq_none_iff.mpr (earlier m less)⟩,
      String.ofList_toList⟩

theorem import?_eq_none_iff {source short : String} :
    DocComment.import? source short = none ↔
      ∀ n full, ¬ReadsImport short.toList full (source.toList.drop n) := by
  rw [import?, Option.map_eq_none_iff, firstAt_eq_none_iff]
  exact forall_congr' fun n => importAt?_eq_none_iff

/-- A statement for a full name is found if none before it imports another name
and none at its place a longer one. -/
theorem import?_of_readsImport
    {source short full : String} {n : Nat}
    (reads : ReadsImport short.toList full.toList (source.toList.drop n))
    (longest : ∀ other, ReadsImport short.toList other (source.toList.drop n) →
      other.length ≤ full.toList.length)
    (alone : ∀ m < n, ∀ other,
      ReadsImport short.toList other (source.toList.drop m) →
        other = full.toList) :
    DocComment.import? source short = some full := by
  cases found : import? source short with
  | none => exact absurd reads (import?_eq_none_iff.mp found n full.toList)
  | some other =>
      obtain ⟨m, here, most, earlier⟩ := import?_eq_some_iff.mp found
      have before : m ≤ n := Nat.le_of_not_lt fun less =>
        earlier n less full.toList reads
      rcases Nat.lt_or_eq_of_le before with less | rfl
      · rw [String.toList_inj.mp (alone m less other.toList here)]
      · have same : some other.toList = some full.toList :=
          (importAt?_eq_some_iff.mpr ⟨here, most⟩).symm.trans
            (importAt?_eq_some_iff.mpr ⟨reads, longest⟩)
        rw [String.toList_inj.mp (Option.some.inj same)]

/-! ## Statements among the lexemes -/

/-- The lexemes of a text have a statement that imports the full name: the
keyword, blanks, the name and a semicolon, which blanks may come before.  The
keyword stands at the given place of the text. -/
inductive PlainImport (short full : List Char) : List Lexeme → Nat → Prop
  | intro {before blanks gap after : List Lexeme} {qualifier : List Char}
      (apart : blanks ≠ []) (blank : ∀ x ∈ blanks, x.shape = .blank)
      (qualified : qualifier ≠ [])
      (solid : ∀ c ∈ qualifier, isBlank c = false)
      (segment : full = qualifier ++ '\\' :: short)
      (spaced : ∀ x ∈ gap, x.shape = .blank) :
      PlainImport short full
        (before ++ ⟨.name, "use".toList⟩ :: (blanks ++
          ⟨.name, full⟩ :: (gap ++ ⟨.punct, [';']⟩ :: after)))
        (before.flatMap Lexeme.text).length

/-- Blanks are lexemes of a single character. -/
theorem text_of_blank
    {line : Nat} {cs : List Char} {lexemes : List Lexeme}
    (done : Lexeme.readFrom line cs = .ok lexemes) :
    ∀ x ∈ lexemes, x.shape = .blank →
      ∃ c, x.text = [c] ∧ isBlank c = true := by
  intro x member blank
  obtain ⟨c, rest, n, text, measured⟩ :=
    Lexeme.exists_measured_of_mem done x member
  rw [blank] at measured
  obtain ⟨rfl, isBlank⟩ := measured.of_blank
  exact ⟨c, text, isBlank⟩

theorem PlainImport.readsImport
    {short full cs : List Char} {lexemes : List Lexeme} {place : Nat}
    (plain : PlainImport short full lexemes place)
    (done : Lexeme.read cs = .ok lexemes) :
    ReadsImport short full (cs.drop place) := by
  have texts := text_of_blank done
  obtain ⟨apart, blank, qualified, solid, rfl, spaced⟩ := plain
  rename_i before blanks gap after qualifier
  have blankText : ∀ xs ⊆ blanks ++ gap, ∀ c ∈ xs.flatMap Lexeme.text,
      isBlank c = true := by
    intro xs inside c member
    obtain ⟨x, listed, letter⟩ := List.mem_flatMap.mp member
    have shape : x.shape = .blank :=
      (List.mem_append.mp (inside listed)).elim (blank x) (spaced x)
    obtain ⟨d, text, isBlank⟩ := texts x (by grind) shape
    rw [text, List.mem_singleton] at letter
    rwa [letter]
  have separated : blanks.flatMap Lexeme.text ≠ [] := by
    obtain ⟨x, others, rfl⟩ := List.exists_cons_of_ne_nil apart
    obtain ⟨d, text, -⟩ := texts x (by simp) (blank x List.mem_cons_self)
    rw [List.flatMap_cons, text]
    exact List.cons_ne_nil _ _
  have reads : ReadsImport short (qualifier ++ '\\' :: short) _ :=
    .intro separated (blankText blanks (List.subset_append_left _ _))
      qualified solid ⟨gap.flatMap Lexeme.text, after.flatMap Lexeme.text,
        blankText gap (List.subset_append_right _ _), rfl⟩
  rw [← Lexeme.flatMap_text_of_readFrom done, List.flatMap_append, List.drop_left]
  simpa [List.flatMap_append] using reads

end BusReference.DocComment
