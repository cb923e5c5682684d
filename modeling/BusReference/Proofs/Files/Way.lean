import BusReference.Files.FileSystem

/-!
# The way of a path

Following a path from the root, only the names in it count: the empty segments
and the dots stay where they are met.  The names of a path are its way.  For a
direct path, which is absolute and climbs nowhere, the way is the place to
which the path leads.  A name is put behind the stem of a path, which is the
path without a last segment that is empty; for this it need not be a text.

The main statements are about a name that is joined to a direct path: the way
grows by that name, the parent has the old way, and the file name is the name.
-/

namespace BusReference.Files.Path

open BusReference.Text (Pieces.splitOn Pieces.afterLast)

/-! ## Splitting texts -/

/-- The stretches of a text are those of the core library. -/
theorem splitOn_eq
    {α : Type} [DecidableEq α] (separator : α) (xs : List α) :
    Pieces.splitOn separator xs = xs.splitOn separator := by
  induction xs with
  | nil => simp [Pieces.splitOn]
  | cons x xs ih =>
      rw [Pieces.splitOn, List.splitOn_cons_eq_if_modifyHead, ih]
      by_cases here : x = separator
      · simp [here]
      · have nonempty := List.splitOn_ne_nil separator xs
        cases split : xs.splitOn separator with
        | nil => exact absurd split nonempty
        | cons first others => simp [here]

theorem not_mem_of_mem_splitOn
    {α : Type} [DecidableEq α] {separator : α} {xs piece : List α}
    (member : piece ∈ Pieces.splitOn separator xs) :
    separator ∉ piece := by
  induction xs generalizing piece with
  | nil =>
      simp only [Pieces.splitOn, List.mem_singleton] at member
      simp [member]
  | cons x xs ih =>
      rw [Pieces.splitOn] at member
      split at member
      · rcases List.mem_cons.mp member with rfl | later
        · simp
        · exact ih later
      · rename_i differs
        cases split : Pieces.splitOn separator xs with
        | nil =>
            rw [split] at member
            simp only [List.mem_singleton] at member
            simpa [member] using Ne.symm differs
        | cons first others =>
            rw [split] at member ih
            rcases List.mem_cons.mp member with rfl | later
            · have clean := ih List.mem_cons_self
              simp [clean, Ne.symm differs]
            · exact ih (List.mem_cons_of_mem _ later)

/-- What does not end in a separator ends inside the last stretch. -/
theorem exists_splitOn_concat
    {α : Type} [DecidableEq α] {separator last : α} (differs : last ≠ separator)
    (xs : List α) :
    ∃ above piece, Pieces.splitOn separator (xs ++ [last]) =
      above ++ [piece ++ [last]] := by
  induction xs with
  | nil => exact ⟨[], [], by simp [Pieces.splitOn, differs]⟩
  | cons x xs ih =>
      obtain ⟨above, piece, split⟩ := ih
      rw [List.cons_append, Pieces.splitOn, split]
      by_cases here : x = separator
      · exact ⟨[] :: above, piece, by simp [here]⟩
      · cases above with
        | nil => exact ⟨[], x :: piece, by simp [here]⟩
        | cons first above => exact ⟨(x :: first) :: above, piece, by simp [here]⟩

section AfterLast

variable {separator : Char} {name : List Char}

theorem takeWhile_clean
    (clean : separator ∉ name) (before : List Char) :
    (name.reverse ++ before).takeWhile (· != separator) =
      name.reverse ++ before.takeWhile (· != separator) := by
  refine List.takeWhile_append_of_pos fun c member => ?_
  have : c ≠ separator := by
    rintro rfl
    exact clean (List.mem_reverse.mp member)
  simpa using this

/-- After the last separator stands what follows it. -/
theorem afterLast_append_cons
    (clean : separator ∉ name) (before : List Char) :
    Pieces.afterLast separator (before ++ separator :: name) = name := by
  rw [Pieces.afterLast, List.reverse_append, List.reverse_cons,
    List.append_assoc, takeWhile_clean clean]
  simp

/-- Without a separator the whole text counts as what follows the last one. -/
theorem afterLast_of_clean (clean : separator ∉ name) :
    Pieces.afterLast separator name = name := by
  rw [Pieces.afterLast, ← List.append_nil name.reverse,
    takeWhile_clean clean]
  simp

end AfterLast

/-! ## Segments -/

/-- Every segment of a path is a text without a slash. -/
theorem exists_of_mem_segments
    {path : String} {segment : Name} (member : segment ∈ segments path) :
    ∃ piece : String, segment = piece ∧ '/' ∉ piece.toList := by
  obtain ⟨piece, split, rfl⟩ := List.mem_map.mp member
  exact ⟨_, rfl, by simpa using not_mem_of_mem_splitOn split⟩

/-- A path is read back into the segments it was made of. -/
theorem segments_ofSegments
    {names : List Name}
    (nonempty : names ≠ [])
    (clean : ∀ name ∈ names,
      ∃ piece : String, name = piece ∧ '/' ∉ piece.toList) :
    segments (ofSegments names) = names := by
  have pieces : ∀ piece ∈ (names.map Name.shown).map String.toList,
      '/' ∉ piece := by
    rw [List.map_map]
    intro piece member
    obtain ⟨name, named, rfl⟩ := List.mem_map.mp member
    obtain ⟨text, rfl, noSlash⟩ := clean name named
    exact noSlash
  have slash : "/".toList = ['/'] := rfl
  rw [segments, ofSegments, splitOn_eq, String.toList_intercalate, slash,
    List.splitOn_intercalate _ pieces (by simpa using nonempty),
    List.map_map, List.map_map]
  refine (List.map_congr_left fun name named => ?_).trans (List.map_id names)
  obtain ⟨text, rfl, -⟩ := clean name named
  simp [Name.shown]

/-- A path is made of its segments. -/
theorem ofSegments_segments (path : String) :
    ofSegments (segments path) = path := by
  have slash : "/".toList = ['/'] := rfl
  rw [← String.toList_inj, ofSegments, String.toList_intercalate, slash,
    segments, splitOn_eq, List.map_map, List.map_map]
  simp [Function.comp_def, Name.shown, List.intercalate_splitOn]

/-- The way of a list of segments: the names among them. -/
def wayOf (segments : List Name) : Location :=
  segments.filter fun segment => !isIdle segment

/-- The way of a path: the names in it. -/
def way (path : String) : Location := wayOf (segments path)

@[simp]
theorem wayOf_nil : wayOf [] = [] := rfl

@[simp]
theorem wayOf_append (left right : List Name) :
    wayOf (left ++ right) = wayOf left ++ wayOf right := by
  simp [wayOf]

theorem wayOf_cons (segment : Name) (others : List Name) :
    wayOf (segment :: others) =
      if isIdle segment then wayOf others else segment :: wayOf others := by
  by_cases idle : isIdle segment = true <;> simp [wayOf, idle]

/-- A way has two dots only where its segments have them. -/
theorem calm_wayOf
    {segments : List Name} (calm : ∀ segment ∈ segments, segment ≠ "..") :
    ∀ name ∈ wayOf segments, name ≠ ".." :=
  fun name member => calm name (List.mem_filter.mp member).1

theorem wayOf_reverse (names : List Name) :
    wayOf names.reverse = (wayOf names).reverse := by
  simp [wayOf, List.filter_reverse]

/-- Idle segments at the start add nothing to a way. -/
theorem wayOf_dropWhile_isIdle (names : List Name) :
    wayOf (names.dropWhile isIdle) = wayOf names := by
  induction names with
  | nil => rfl
  | cons name names ih =>
      by_cases idle : isIdle name = true
      · simp [wayOf_cons, idle, ih]
      · simp [idle]

/-! ## Names -/

/-- The name of one thing in a directory: no slash stands in it, and it is no
segment with a meaning of its own. -/
def IsName : Name → Prop
  | .text name => name ≠ "" ∧ name ≠ "." ∧ name ≠ ".." ∧ '/' ∉ name.toList
  | .raw bytes _ => 0x2F ∉ bytes

instance : (name : Name) → Decidable (IsName name)
  | .text _ => inferInstanceAs (Decidable (_ ∧ _ ∧ _ ∧ _))
  | .raw bytes _ => inferInstanceAs (Decidable (0x2F ∉ bytes))

section IsName

variable {name : Name}

theorem IsName.not_idle (named : IsName name) : isIdle name = false := by
  cases name with
  | text s => simp [isIdle, named.1, named.2.1]
  | raw bytes noText => simp [isIdle]

theorem IsName.ne_up (named : IsName name) : name ≠ ".." := by
  rintro rfl
  exact named.2.2.1 rfl

theorem IsName.ne_empty (named : IsName name) : name ≠ "" := by
  rintro rfl
  exact named.1 rfl

theorem IsName.ne_dot (named : IsName name) : name ≠ "." := by
  rintro rfl
  exact named.2.1 rfl

theorem IsName.wayOf_singleton
    (named : IsName name) : wayOf [name] = [name] := by
  simp [wayOf, named.not_idle]

end IsName

/-- A text without a slash is a name once an extension stands behind it. -/
theorem isName_append_extension
    {stem : String} (clean : '/' ∉ stem.toList) :
    IsName (stem ++ ".md" : String) := by
  have longer : ∀ short : String, short.length < 3 → stem ++ ".md" ≠ short := by
    rintro _ short rfl
    have : ".md".length = 3 := rfl
    rw [String.length_append] at short
    omega
  have extension : ".md".toList = ['.', 'm', 'd'] := rfl
  refine ⟨longer _ ?_, longer _ ?_, longer _ ?_, ?_⟩
  · decide
  · decide
  · decide
  · simp [clean, extension]

/-! ## Direct paths -/

/-- An absolute path without a dot or two dots in place of a name. -/
def IsDirect (path : String) : Prop :=
  isAbsolute path = true ∧
    ∀ segment ∈ segments path, segment ≠ "." ∧ segment ≠ ".."

instance (path : String) : Decidable (IsDirect path) :=
  inferInstanceAs (Decidable (_ ∧ ∀ segment ∈ segments path, _))

theorem ne_empty_of_isAbsolute
    {path : String} (absolute : isAbsolute path = true) : path ≠ "" := by
  rintro rfl
  exact absurd absolute (by decide)

theorem IsDirect.no_climb
    {path : String} (direct : IsDirect path) :
    ∀ segment ∈ segments path, segment ≠ ".." :=
  fun segment member => (direct.2 segment member).2

/-- Whether a path is absolute can be seen from its first segment. -/
theorem isAbsolute_of_segments
    {path : String} {first : Name} {others : List Name}
    (split : segments path = first :: others) :
    isAbsolute path = (first == "" && !others.isEmpty) := by
  rw [segments] at split
  rw [isAbsolute]
  cases text : path.toList with
  | nil =>
      rw [text] at split
      cases split
      rfl
  | cons c cs =>
      have nonempty := List.splitOn_ne_nil '/' cs
      rw [text, splitOn_eq, List.splitOn_cons_eq_if_modifyHead] at split
      by_cases slash : c = '/'
      · subst slash
        rw [if_pos (by simp)] at split
        cases split
        simp [nonempty]
      · rw [if_neg (by simpa using slash)] at split
        cases pieces : cs.splitOn '/' with
        | nil => exact absurd pieces nonempty
        | cons piece pieces' =>
            rw [pieces] at split
            cases split
            have other : (some c == some '/') = false := by simpa using slash
            rw [List.head?_cons, other]
            simp

end BusReference.Files.Path

/-! ## Putting a name behind a path -/

namespace BusReference.Files.FilePath

open BusReference.Files.Path (wayOf way isIdle IsName)

section Stem

variable {base : FilePath} {name first : Name} {rest : List Name}

/-- A path goes on behind its stem at most with an empty segment. -/
theorem stem_cases (base : FilePath) :
    (base.stem = base.segments ∧ base.segments.getLast? ≠ some (.text "")) ∨
      base.segments = base.stem ++ [.text ""] := by
  rw [stem]
  split
  · rename_i last
    obtain ⟨above, split⟩ := List.getLast?_eq_some_iff.mp last
    exact Or.inr (by rw [split, List.dropLast_concat])
  · rename_i last
    exact Or.inl ⟨rfl, last⟩

theorem wayOf_stem (base : FilePath) :
    wayOf base.stem = wayOf base.segments := by
  rcases base.stem_cases with ⟨whole, -⟩ | closed
  · rw [whole]
  · rw [closed, Path.wayOf_append]
    exact (List.append_nil _).symm

theorem mem_segments_of_mem_stem {segment : Name} (member : segment ∈ base.stem) :
    segment ∈ base.segments := by
  rcases base.stem_cases with ⟨whole, -⟩ | closed
  · exact whole ▸ member
  · rw [closed]
    exact List.mem_append_left _ member

theorem isAbsolute_of_stem_nil (stemmed : base.stem = []) :
    base.isAbsolute = false := by
  rcases base.stem_cases with ⟨whole, -⟩ | closed
  · exact absurd (whole.symm.trans stemmed) base.nonempty
  · rw [stemmed, List.nil_append] at closed
    simp [isAbsolute, isEmpty, closed]

theorem isAbsolute_of_stem (stemmed : base.stem = first :: rest) :
    base.isAbsolute = (first == "") := by
  rcases base.stem_cases with ⟨whole, last⟩ | closed
  · rw [← whole, stemmed] at last
    rw [isAbsolute, isEmpty, ← whole, stemmed]
    cases rest with
    | nil =>
        have filled : first ≠ .text "" := by simpa using last
        simp [filled]
    | cons other rest => simp
  · rw [isAbsolute, isEmpty, closed, stemmed]
    simp

theorem segments_join (base : FilePath) (name : Name) :
    (base.join name).segments = base.stem ++ [name] := rfl

/-- A path with a name behind it is followed from where the path is. -/
theorem isAbsolute_join (base : FilePath) (name : Name) :
    (base.join name).isAbsolute = base.isAbsolute := by
  rw [isAbsolute, isEmpty, segments_join]
  cases stemmed : base.stem with
  | nil => simp [isAbsolute_of_stem_nil stemmed]
  | cons first rest => simp [isAbsolute_of_stem stemmed]

end Stem

/-! ### Paths that are texts -/

section Text

theorem isEmpty_ofText (path : String) :
    (ofText path).isEmpty = path.isEmpty := by
  rw [Bool.eq_iff_iff, isEmpty, beq_iff_eq, String.isEmpty_iff]
  constructor
  · intro single
    have text := Path.ofSegments_segments path
    rw [show Path.segments path = [.text ""] from single] at text
    exact text.symm
  · rintro rfl
    rfl

theorem isAbsolute_ofText (path : String) :
    (ofText path).isAbsolute = Path.isAbsolute path := by
  rw [isAbsolute, isEmpty]
  cases split : Path.segments path with
  | nil => exact absurd split (Path.segments_ne_nil path)
  | cons first others =>
      rw [Path.isAbsolute_of_segments split, ofText]
      dsimp only
      rw [split]
      cases others <;> simp [Bool.and_comm]

end Text

end BusReference.Files.FilePath

namespace BusReference.Files.Path

open BusReference.Text (Pieces.splitOn Pieces.afterLast)

section Join

variable {base name : String}

/-- A text without a slash is followed from where one is. -/
theorem isAbsolute_of_clean (clean : '/' ∉ name.toList) :
    isAbsolute name = false := by
  rw [isAbsolute]
  cases text : name.toList with
  | nil => rfl
  | cons c cs =>
      have : c ≠ '/' := by
        rintro rfl
        simp [text] at clean
      simpa using this

theorem join_of_clean
    (clean : '/' ∉ name.toList) :
    join base name = base ++ separatorAfter base ++ name := by
  simp [join, isAbsolute_of_clean clean]

/-- A joined name stands behind the stem of the base. -/
theorem segments_join (clean : '/' ∉ name.toList) :
    segments (join base name) = (FilePath.ofText base).stem ++ [.text name] := by
  have slash : "/".toList = ['/'] := rfl
  rw [join_of_clean clean, FilePath.stem, FilePath.ofText]
  simp only [segments, splitOn_eq, String.toList_append]
  cases last : base.toList.getLast? with
  | none =>
      have empty : base.toList = [] := by simpa using last
      simp [separatorAfter, empty, List.splitOn_eq_singleton clean]
  | some c =>
      obtain ⟨above, text⟩ := List.getLast?_eq_some_iff.mp last
      by_cases closed : c = '/'
      · subst closed
        have split := List.splitOn_append_cons_self
          (a := '/') above name.toList
        simp [separatorAfter, text, List.splitOn_append_cons_self,
          split, List.splitOn_eq_singleton clean]
      · have split := List.splitOn_append_cons_self
          (a := '/') (above ++ [c]) name.toList
        obtain ⟨front, piece, ends⟩ := exists_splitOn_concat closed above
        rw [splitOn_eq] at ends
        rw [List.append_assoc, List.singleton_append] at split
        simp [separatorAfter, text, closed, slash, split, ends,
          List.splitOn_eq_singleton clean]

/-- Joining is the same for texts as for paths. -/
theorem ofText_join (clean : '/' ∉ name.toList) :
    FilePath.ofText (join base name) = (FilePath.ofText base).join name := by
  rw [FilePath.ofText, FilePath.join]
  simp only [segments_join clean]

theorem wayOf_stem (base : String) :
    wayOf (FilePath.ofText base).stem = way base :=
  (FilePath.ofText base).wayOf_stem

theorem way_join (named : IsName name) :
    way (join base name) = way base ++ [.text name] := by
  rw [way, segments_join named.2.2.2, wayOf_append, wayOf_stem,
    named.wayOf_singleton]

/-- A joined name is followed from where the base is. -/
theorem isAbsolute_join_eq (clean : '/' ∉ name.toList) :
    isAbsolute (join base name) = isAbsolute base := by
  rw [← FilePath.isAbsolute_ofText, ofText_join clean,
    FilePath.isAbsolute_join, FilePath.isAbsolute_ofText]

theorem isAbsolute_join
    (absolute : isAbsolute base = true) (clean : '/' ∉ name.toList) :
    isAbsolute (join base name) = true :=
  (isAbsolute_join_eq clean).trans absolute

theorem IsDirect.join
    (direct : IsDirect base) (named : IsName name) :
    IsDirect (join base name) := by
  constructor
  · exact isAbsolute_join direct.1 named.2.2.2
  · intro segment member
    rw [segments_join named.2.2.2] at member
    rcases List.mem_append.mp member with inside | last
    · exact direct.2 segment (FilePath.mem_segments_of_mem_stem inside)
    · rw [List.mem_singleton.mp last]
      exact ⟨named.ne_dot, named.ne_up⟩

theorem fileName_join (clean : '/' ∉ name.toList) :
    fileName (join base name) = name := by
  have slash : "/".toList = ['/'] := rfl
  rw [fileName, join_of_clean clean, String.toList_append]
  cases last : base.toList.getLast? with
  | none =>
      have empty : base.toList = [] := by simpa using last
      have start : (base ++ separatorAfter base).toList = [] := by
        simp [separatorAfter, empty]
      rw [start, List.nil_append, afterLast_of_clean clean,
        String.ofList_toList]
  | some c =>
      have ends :
          ∃ above, (base ++ separatorAfter base).toList =
            above ++ ['/'] := by
        obtain ⟨above, text⟩ := List.getLast?_eq_some_iff.mp last
        by_cases closed : c = '/'
        · exact ⟨above, by simp [separatorAfter, text, closed]⟩
        · exact ⟨base.toList, by
            simp [separatorAfter, text, closed, slash]⟩
      obtain ⟨above, text⟩ := ends
      rw [text, List.append_assoc, List.singleton_append,
        afterLast_append_cons clean, String.ofList_toList]

/-- What is joined to a joined name can be joined to the base at once. -/
theorem join_join
    (named : IsName name) {rest : String} (relative : isAbsolute rest = false) :
    join (join base name) rest = join base (name ++ "/" ++ rest) := by
  have clean := named.2.2.2
  have start : ∃ c cs, name.toList = c :: cs ∧ c ≠ '/' := by
    cases text : name.toList with
    | nil => exact absurd (by simpa using text) named.1
    | cons c cs =>
        refine ⟨c, cs, rfl, ?_⟩
        rintro rfl
        simp [text] at clean
  obtain ⟨c, cs, text, differs⟩ := start
  have whole : isAbsolute (name ++ "/" ++ rest) = false := by
    simpa [isAbsolute, text] using differs
  have apart : separatorAfter (base ++ separatorAfter base ++ name) = "/" := by
    obtain ⟨above, ending, split⟩ :
        ∃ above ending, name.toList = above ++ [ending] :=
      ⟨_, _, (List.dropLast_concat_getLast (by rw [text]; nofun)).symm⟩
    have noSlash : ending ≠ '/' := by
      rintro rfl
      simp [split] at clean
    rw [separatorAfter, String.toList_append, split]
    simp [noSlash]
  rw [join_of_clean clean]
  simp only [join, relative, whole, Bool.false_eq_true, if_false, apart]
  simp only [String.append_assoc]

/-- The parent of a joined name, as it is computed from its segments. -/
theorem parent_join_cases (base : String) (clean : '/' ∉ name.toList) :
    ((FilePath.ofText base).stem = [] ∧ parent (Path.join base name) = "") ∨
    ∃ first rest kept, (FilePath.ofText base).stem = first :: rest ∧
      (∀ segment ∈ first :: kept, segment ∈ segments base) ∧
      wayOf kept = wayOf rest ∧
      (kept = [] ∧ first = "" ∧ parent (Path.join base name) = "/" ∨
        (kept = [] → first ≠ "") ∧
          segments (parent (Path.join base name)) = first :: kept) := by
  cases stemmed : (FilePath.ofText base).stem with
  | nil =>
      refine Or.inl ⟨rfl, ?_⟩
      rw [parent, segments_join clean, stemmed]
      rfl
  | cons first rest =>
      have top : (segments (Path.join base name)).dropLast = first :: rest := by
        rw [segments_join clean, List.dropLast_concat, stemmed]
      have stripped :
          (rest.reverse.dropWhile isIdle).reverse <+: rest := by
        have suffix := List.dropWhile_suffix (l := rest.reverse) isIdle
        simpa using List.reverse_prefix.mpr suffix
      have sameWay :
          wayOf (rest.reverse.dropWhile isIdle).reverse = wayOf rest := by
        rw [wayOf_reverse, wayOf_dropWhile_isIdle, ← wayOf_reverse,
          List.reverse_reverse]
      have fromBase :
          ∀ segment ∈ first :: (rest.reverse.dropWhile isIdle).reverse,
            segment ∈ segments base := by
        intro segment member
        have inStem : segment ∈ (FilePath.ofText base).stem := by
          rw [stemmed]
          exact List.cons_subset_cons first stripped.subset member
        exact FilePath.mem_segments_of_mem_stem inStem
      have made := segments_ofSegments (List.cons_ne_nil first _)
        fun segment member =>
          exists_of_mem_segments (fromBase segment member)
      refine Or.inr ⟨first, rest, _, rfl, fromBase, sameWay, ?_⟩
      rw [parent, top]
      dsimp only
      cases keep : (rest.reverse.dropWhile isIdle).reverse with
      | nil =>
          rw [keep] at made
          by_cases empty : first = ""
          · exact Or.inl ⟨rfl, empty, by simp [empty]⟩
          · exact Or.inr ⟨fun _ => empty, by
              simpa [empty, ofSegments] using made⟩
      | cons other kept =>
          rw [keep] at made
          exact Or.inr ⟨nofun, made⟩

theorem segments_parent_join (clean : '/' ∉ name.toList) :
    (∀ segment ∈ segments (parent (Path.join base name)),
        segment = "" ∨ segment ∈ segments base) ∧
      way (parent (Path.join base name)) = way base := by
  have whole := wayOf_stem base
  rcases parent_join_cases base clean with
    ⟨stemmed, atTop⟩ |
      ⟨first, rest, kept, stemmed, fromBase, sameWay, outcome⟩
  · rw [stemmed] at whole
    have single : segments "" = [.text ""] := by decide
    rw [atTop, ← whole, way, single]
    exact ⟨fun segment member => Or.inl (List.mem_singleton.mp member), rfl⟩
  · rw [stemmed, wayOf_cons, ← sameWay] at whole
    rcases outcome with ⟨rfl, rfl, atRoot⟩ | ⟨-, made⟩
    · have double : segments "/" = [.text "", .text ""] := by decide
      rw [atRoot, ← whole, way, double]
      exact ⟨fun segment member => Or.inl (by simpa using member), rfl⟩
    · rw [way, made, wayOf_cons, whole]
      exact ⟨fun segment member => Or.inr (fromBase segment member), rfl⟩

theorem way_parent_join (clean : '/' ∉ name.toList) :
    way (parent (Path.join base name)) = way base :=
  (segments_parent_join clean).2

/-- The parent of a joined name is followed from where the base is. -/
theorem isAbsolute_parent_join (clean : '/' ∉ name.toList) :
    isAbsolute (parent (Path.join base name)) = isAbsolute base := by
  rcases parent_join_cases base clean with
    ⟨stemmed, atTop⟩ | ⟨first, rest, kept, stemmed, -, -, outcome⟩
  · rw [atTop, ← FilePath.isAbsolute_ofText base,
      FilePath.isAbsolute_of_stem_nil stemmed]
    rfl
  · rw [← FilePath.isAbsolute_ofText base, FilePath.isAbsolute_of_stem stemmed]
    rcases outcome with ⟨-, rfl, atRoot⟩ | ⟨top, made⟩
    · rw [atRoot]
      rfl
    · rw [isAbsolute_of_segments made]
      cases kept with
      | nil => simpa using top rfl
      | cons other kept => simp

theorem IsDirect.parent_join
    (direct : IsDirect base) (clean : '/' ∉ name.toList) :
    IsDirect (parent (Path.join base name)) := by
  refine ⟨(isAbsolute_parent_join clean).trans direct.1, ?_⟩
  intro segment member
  rcases (segments_parent_join clean).1 segment member with rfl | inside
  · decide
  · exact direct.2 segment inside

end Join

/-! ## Paths that end in a name -/

/-- A direct path that ends in a name. -/
def IsNamed (path : String) : Prop :=
  ∃ base name, path = join base name ∧ IsDirect base ∧ IsName name

section Named

variable {path : String}

theorem IsNamed.direct (named : IsNamed path) : IsDirect path := by
  obtain ⟨base, name, rfl, direct, isName⟩ := named
  exact direct.join isName

theorem IsNamed.direct_parent (named : IsNamed path) :
    IsDirect (parent path) := by
  obtain ⟨base, name, rfl, direct, isName⟩ := named
  exact direct.parent_join isName.2.2.2

theorem IsNamed.way_eq (named : IsNamed path) :
    way path = way (parent path) ++ [.text (fileName path)] := by
  obtain ⟨base, name, rfl, direct, isName⟩ := named
  rw [way_join isName, way_parent_join isName.2.2.2,
    fileName_join isName.2.2.2]

theorem IsNamed.way_ne_nil (named : IsNamed path) : way path ≠ [] := by
  simp [named.way_eq]

theorem IsNamed.dropLast_way (named : IsNamed path) :
    (way path).dropLast = way (parent path) := by
  rw [named.way_eq, List.dropLast_concat]

/-- A path that ends in a name goes through its parent. -/
theorem IsNamed.segments_eq (named : IsNamed path) :
    ∃ above, segments path = above ++ [.text (fileName path)] ∧
      wayOf above = way (parent path) ∧
      (∀ segment ∈ above, segment ≠ "..") ∧
      IsName (fileName path) := by
  obtain ⟨base, name, rfl, direct, isName⟩ := named
  have clean := isName.2.2.2
  refine ⟨(FilePath.ofText base).stem, ?_, ?_, ?_, ?_⟩
  · rw [segments_join clean, fileName_join clean]
  · rw [wayOf_stem, way_parent_join clean]
  · intro segment member
    exact direct.no_climb segment (FilePath.mem_segments_of_mem_stem member)
  · rw [fileName_join clean]
    exact isName

end Named

/-! ## Two dots -/

/--
The place that names lead to from another place, once there are directories all
along the way: two dots lead to the directory above.
-/
def resolve (place : Location) : List Name → Location
  | [] => place
  | name :: names =>
      if name = ".." then resolve place.dropLast names
      else resolve (place ++ [name]) names

theorem resolve_append
    (place : Location) (left right : List Name) :
    resolve place (left ++ right) = resolve (resolve place left) right := by
  induction left generalizing place with
  | nil => rfl
  | cons name left ih =>
      rw [List.cons_append, resolve, resolve]
      split
      · exact ih _
      · exact ih _

theorem resolve_of_calm
    {names : List Name} (calm : ∀ name ∈ names, name ≠ "..")
    (place : Location) : resolve place names = place ++ names := by
  induction names generalizing place with
  | nil => simp [resolve]
  | cons name names ih =>
      rw [resolve, if_neg (calm name List.mem_cons_self),
        ih fun other member => calm other (List.mem_cons_of_mem _ member)]
      simp

/-- A path that ends in a name. -/
def IsJoined (path : String) : Prop :=
  ∃ base name, path = join base name ∧ IsName name

/-- The place that an absolute path leads to. -/
def reach (path : String) : Location := resolve [] (way path)

/-- An absolute path that ends in a name. -/
def EndsInName (path : String) : Prop :=
  ∃ base name, path = join base name ∧ isAbsolute base = true ∧ IsName name

theorem EndsInName.joined
    {path : String} (ends : EndsInName path) :
    IsJoined path ∧ isAbsolute path = true := by
  obtain ⟨base, name, rfl, absolute, named⟩ := ends
  exact ⟨⟨base, name, rfl, named⟩, isAbsolute_join absolute named.2.2.2⟩

end BusReference.Files.Path
