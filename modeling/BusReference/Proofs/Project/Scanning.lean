import BusReference.Project.Scan
import BusReference.Proofs.Files.Walk
import BusReference.Proofs.Php.Paths

/-!
# What a scan of a directory does

A scan of a directory adds the source files below it that are not hidden, one
after another.  A name hides what it names if it is a text that starts with a
dot; a name that is no text hides nothing.  The paths of the files ascend by the
bytes of their names, name by name, so that a directory comes where its name
does and not where the slash behind it would be.  What the index holds
afterwards is what it would hold if the texts of the files had been added in
this order.  The scan ends at the first file that cannot be read or is no source
text; what the files before it gave is kept.  What is no directory is not
scanned at all.
-/

namespace BusReference

open BusReference.Files
open BusReference.Files.Path (IsName wayOf)
open BusReference.Php (Index)

namespace Files.FileSystem

/-- Everything that stands somewhere has a name there. -/
def WellNamed (fs : FileSystem) : Prop :=
  ∀ entry ∈ fs.entries, ∀ name ∈ entry.1, IsName name

instance (fs : FileSystem) : Decidable fs.WellNamed :=
  inferInstanceAs (Decidable
    (∀ entry ∈ fs.entries, ∀ name ∈ entry.1, IsName name))

theorem WellNamed.isName
    {fs : FileSystem} (named : fs.WellNamed)
    {place : Location} {node : Node} (stands : fs.get? place = some node) :
    ∀ name ∈ place, IsName name := by
  intro name member
  have below : place ≠ [] := List.ne_nil_of_mem member
  exact named _ (exists_entry_of_get? below stands) name member

end Files.FileSystem

namespace Scan

/-! ## Files by their paths -/

/-- The reason why the file at a path cannot be scanned, if there is one. -/
def error? (fs : FileSystem) (path : FilePath) : Option Error :=
  match fs.readText path with
  | .error reason => some (.sourceNotRead path.shown reason)
  | .ok text =>
    match Php.SourceFile.read text none with
    | .error fault => some (.malformedSource (some path.shown) fault)
    | .ok _ => none

/-- Adds the text of the file at a path to an index. -/
def addFile (fs : FileSystem) (index : Index) (path : FilePath) :
    Except Error Index :=
  match fs.readText path with
  | .error reason => .error (.sourceNotRead path.shown reason)
  | .ok text =>
    match index.addAt path text with
    | .error fault => .error (.malformedSource (some path.shown) fault)
    | .ok next => .ok next

/-- A path leads to a directory of a tree. -/
structure IsRoot
    (fs : FileSystem) (root : FilePath) (place : Location) : Prop where
  tree : fs.IsTree
  named : fs.WellNamed
  located : fs.locate root = .ok place
  here : fs.get? place = some .directory

/-- The paths to the source files that a walk below a root finds. -/
def paths (fs : FileSystem) (root : FilePath) (place : Location) :
    List FilePath :=
  (fs.sourcesBelow place).map (pathBelow root)

section Paths

variable
    {fs : FileSystem} {root path : FilePath} {place : Location}
    {below : List Name} {node : Node}

/-- The path to what stands below a root leads to it. -/
theorem IsRoot.locate_pathBelow
    (isRoot : IsRoot fs root place)
    (stands : fs.get? (place ++ below) = some node) :
    fs.locate (pathBelow root below) = .ok (place ++ below) := by
  induction below generalizing root place with
  | nil =>
      rw [List.append_nil]
      exact isRoot.located
  | cons name below ih =>
      have isName : IsName name := isRoot.named.isName stands name (by simp)
      rw [List.append_cons] at stands ⊢
      by_cases last : below = []
      · subst last
        rw [List.append_nil] at stands ⊢
        exact FileSystem.locate_join isName isRoot.located isRoot.here stands
      · have directory : fs.get? (place ++ [name]) = some .directory :=
          isRoot.tree.directory_above stands (List.prefix_append _ _)
            (by simpa using Ne.symm last)
        have located := FileSystem.locate_join isName isRoot.located
          isRoot.here directory
        exact ih ⟨isRoot.tree, isRoot.named, located, directory⟩ stands

theorem wayOf_pathBelow (named : ∀ name ∈ below, IsName name) :
    wayOf (pathBelow root below).segments = wayOf root.segments ++ below := by
  induction below generalizing root with
  | nil => rw [List.append_nil]; rfl
  | cons name below ih =>
      have isName := named name List.mem_cons_self
      have later := fun other member =>
        named other (List.mem_cons_of_mem _ member)
      rw [pathBelow, List.foldl_cons, ← pathBelow, ih later,
        FilePath.segments_join, Path.wayOf_append, FilePath.wayOf_stem,
        isName.wayOf_singleton, List.append_assoc, List.singleton_append]

theorem IsRoot.readText_pathBelow
    (isRoot : IsRoot fs root place) (found : below ∈ fs.sourcesBelow place) :
    fs.readText (pathBelow root below) = fs.readAt (place ++ below) := by
  obtain ⟨content, stands⟩ := (isRoot.tree.mem_sourcesBelow_iff.mp found).file
  rw [FileSystem.readText, isRoot.locate_pathBelow stands]

theorem IsRoot.mem_paths_iff (isRoot : IsRoot fs root place) :
    path ∈ paths fs root place ↔
      ∃ below, fs.SourceAt place below ∧ path = pathBelow root below := by
  rw [paths, List.mem_map]
  refine exists_congr fun below => ?_
  rw [isRoot.tree.mem_sourcesBelow_iff, eq_comm]

/-- The paths that a walk finds ascend by the bytes of their names. -/
theorem IsRoot.pairwise_paths (isRoot : IsRoot fs root place) :
    ((paths fs root place).map fun path =>
      (wayOf path.segments).map Name.bytes).Pairwise (· < ·) := by
  have names : ∀ below ∈ fs.sourcesBelow place,
      ∀ name ∈ below, IsName name := by
    intro below member name inside
    obtain ⟨content, stands⟩ :=
      (isRoot.tree.mem_sourcesBelow_iff.mp member).file
    exact isRoot.named.isName stands name (List.mem_append_right _ inside)
  rw [paths, List.map_map, List.pairwise_map]
  refine (fs.pairwise_sourcesBelow place).imp_of_mem ?_
  intro first second inFirst inSecond less
  rw [Function.comp_apply, Function.comp_apply,
    wayOf_pathBelow (names first inFirst),
    wayOf_pathBelow (names second inSecond)]
  exact Name.map_bytes_lt (List.append_left_lt less)

end Paths

/-! ## Files one after another -/

section Files

variable
    {fs : FileSystem} {root : FilePath} {place : Location} {below : List Name}

theorem error?_eq
    (reads : fs.readText (pathBelow root below) = fs.readAt (place ++ below)) :
    error? fs (pathBelow root below) =
      match readFile fs (pathBelow root below) (place ++ below) with
      | .error error => some error
      | .ok _ => none := by
  rw [error?, readFile, reads]
  cases fs.readAt (place ++ below) with
  | error reason => rfl
  | ok text =>
      dsimp only
      rw [Php.SourceFile.read_path]
      cases Php.SourceFile.read text none <;> rfl

theorem addFile_eq
    (reads : fs.readText (pathBelow root below) = fs.readAt (place ++ below))
    (index : Index) :
    addFile fs index (pathBelow root below) =
      (readFile fs (pathBelow root below) (place ++ below)).map
        index.registerAll := by
  rw [addFile, readFile, reads]
  cases fs.readAt (place ++ below) with
  | error reason => rfl
  | ok text =>
      dsimp only
      rw [← Index.addSource_path, Index.addSource]
      cases Php.SourceFile.read text (some (pathBelow root below)) <;> rfl

/-- Files without an error register what they declare, whatever the index holds,
and a scan goes on with the files behind them. -/
theorem exists_files
    {ways : List (List Name)}
    (reads : ∀ below ∈ ways,
      fs.readText (pathBelow root below) = fs.readAt (place ++ below))
    (fine : ∀ below ∈ ways, error? fs (pathBelow root below) = none) :
    ∃ ds, ∀ index,
      (ways.map (pathBelow root)).foldlM (addFile fs) index =
          .ok (index.registerAll ds) ∧
        ∀ later,
          let scan := files fs root place index (ways ++ later)
          let rest := files fs root place (index.registerAll ds) later
          scan.index = rest.index ∧ scan.failure = rest.failure ∧
            scan.count = ways.length + rest.count := by
  induction ways with
  | nil => exact ⟨[], fun index => ⟨rfl, fun later =>
      ⟨rfl, rfl, (Nat.zero_add _).symm⟩⟩⟩
  | cons below ways ih =>
      obtain ⟨es, others⟩ :=
        ih (fun other member => reads other (List.mem_cons_of_mem _ member))
          fun other member => fine other (List.mem_cons_of_mem _ member)
      have ownText := reads below List.mem_cons_self
      have own := fine below List.mem_cons_self
      rw [error?_eq ownText] at own
      cases read : readFile fs (pathBelow root below) (place ++ below) with
      | error error =>
          rw [read] at own
          cases own
      | ok ds =>
          refine ⟨ds ++ es, fun index => ?_⟩
          obtain ⟨added, goesOn⟩ := others (index.registerAll ds)
          rw [Index.registerAll_append]
          constructor
          · rw [List.map_cons, List.foldlM_cons, addFile_eq ownText, read]
            exact added
          · intro later
            obtain ⟨sameIndex, sameFailure, count⟩ := goesOn later
            rw [List.cons_append, files, read]
            refine ⟨sameIndex, sameFailure, ?_⟩
            rw [List.length_cons, Nat.add_right_comm, ← count]

end Files

/-! ## Scanning a directory -/

section Directory

variable {fs : FileSystem} {root : FilePath} {place : Location}

theorem IsRoot.directory_eq (isRoot : IsRoot fs root place) (index : Index) :
    directory fs index root =
      files fs root place index (fs.sourcesBelow place) := by
  rw [directory, isRoot.located]
  dsimp only
  rw [isRoot.here]

/-- Without an error all files are added, and nothing is new in them when they
are scanned again. -/
theorem IsRoot.directory_of_fine
    (isRoot : IsRoot fs root place)
    (fine : ∀ path ∈ paths fs root place, error? fs path = none)
    (index : Index) :
    let scan := directory fs index root
    scan.failure = none ∧ scan.count = (paths fs root place).length ∧
      (paths fs root place).foldlM (addFile fs) index = .ok scan.index ∧
      (directory fs scan.index root).failure = none ∧
      (directory fs scan.index root).index = scan.index := by
  intro scan
  obtain ⟨ds, done⟩ := exists_files
    (fun below found => isRoot.readText_pathBelow found)
    fun below found => fine _ (List.mem_map_of_mem found)
  have ends : ∀ start,
      (directory fs start root).index = start.registerAll ds ∧
        (directory fs start root).failure = none ∧
        (directory fs start root).count = (paths fs root place).length := by
    intro start
    have whole := (done start).2 []
    rw [List.append_nil, ← isRoot.directory_eq] at whole
    rw [paths, List.length_map]
    exact whole
  obtain ⟨sameIndex, failure, count⟩ := ends index
  refine ⟨failure, count, ?_, (ends _).2.1, ?_⟩
  · rw [sameIndex]
    exact (done index).1
  · rw [(ends _).1, sameIndex, Index.registerAll_registerAll]

/-- A scan ends at the first file with an error. -/
theorem IsRoot.directory_of_error
    (isRoot : IsRoot fs root place)
    {earlier later : List FilePath} {path : FilePath} {error : Error}
    (split : paths fs root place = earlier ++ path :: later)
    (fine : ∀ other ∈ earlier, error? fs other = none)
    (failed : error? fs path = some error) (index : Index) :
    let scan := directory fs index root
    scan.failure = some error ∧
      earlier.foldlM (addFile fs) index = .ok scan.index := by
  intro scan
  obtain ⟨before, others, sources, rfl, rest⟩ :=
    List.map_eq_append_iff.mp split
  obtain ⟨below, after, rfl, rfl, rfl⟩ := List.map_eq_cons_iff.mp rest
  have reads : ∀ other ∈ before ++ below :: after,
      fs.readText (pathBelow root other) = fs.readAt (place ++ other) :=
    fun other member => isRoot.readText_pathBelow (sources ▸ member)
  obtain ⟨ds, done⟩ := exists_files
    (fun other member => reads other (List.mem_append_left _ member))
    fun other member => fine _ (List.mem_map_of_mem member)
  obtain ⟨added, ends⟩ := done index
  obtain ⟨sameIndex, failure, -⟩ := ends (below :: after)
  rw [← sources, ← isRoot.directory_eq, files] at sameIndex failure
  rw [error?_eq (reads below (by simp))] at failed
  cases read : readFile fs (pathBelow root below) (place ++ below) with
  | ok es =>
      rw [read] at failed
      cases failed
  | error other =>
      rw [read] at failed sameIndex failure
      refine ⟨failure.trans failed, ?_⟩
      rw [added]
      exact congrArg Except.ok sameIndex.symm

/-- What is no directory is refused, and the index stays as it was. -/
theorem directory_of_not_directory
    (located : fs.locate root = .ok place)
    (noDirectory : fs.get? place ≠ some .directory) (index : Index) :
    directory fs index root =
      { index, failure := some (.rootNotDirectory root.shown) } := by
  rw [directory, located]
  dsimp only
  split
  · exact absurd ‹_› noDirectory
  · rfl

/--
A scan of a directory adds the files below it whose names end in `.php` and that
are not hidden, in the ascending order of their paths, and ends at the first one
that cannot be read or scanned.  A scan of anything else is refused.
-/
theorem directory_scans
    (tree : fs.IsTree) (named : fs.WellNamed)
    (located : fs.locate root = .ok place) (index : Index) :
    let scan := directory fs index root
    (fs.get? place ≠ some .directory →
      scan = { index, failure := some (.rootNotDirectory root.shown) }) ∧
    (fs.get? place = some .directory →
      (∀ path, path ∈ paths fs root place ↔
          ∃ below, fs.SourceAt place below ∧ path = pathBelow root below) ∧
        ((paths fs root place).map fun path =>
          (wayOf path.segments).map Name.bytes).Pairwise (· < ·) ∧
        ((∀ path ∈ paths fs root place, error? fs path = none) →
          scan.failure = none ∧ scan.count = (paths fs root place).length ∧
            (paths fs root place).foldlM (addFile fs) index = .ok scan.index ∧
            (directory fs scan.index root).failure = none ∧
            (directory fs scan.index root).index = scan.index) ∧
        (∀ earlier path later error,
          paths fs root place = earlier ++ path :: later →
          (∀ other ∈ earlier, error? fs other = none) →
          error? fs path = some error →
            scan.failure = some error ∧
              earlier.foldlM (addFile fs) index = .ok scan.index)) := by
  intro scan
  refine ⟨fun noDirectory => ?_, fun here => ?_⟩
  · exact directory_of_not_directory located noDirectory index
  · have isRoot : IsRoot fs root place := ⟨tree, named, located, here⟩
    exact ⟨fun _ => isRoot.mem_paths_iff, isRoot.pairwise_paths,
      fun fine => isRoot.directory_of_fine fine index,
      fun _ _ _ _ split fine failed =>
        isRoot.directory_of_error split fine failed index⟩

end Directory

/-- A text that declares two classes. -/
def twoTypes : String := "<?php class A \x7b\x7d class B \x7b\x7d"

/-- A text that ends in the body of a class. -/
def openType : String := "<?php class A \x7b"

/-- A directory and a file whose names start alike, beside a hidden directory;
the text of the file is given. -/
def siblings (text : String) : FileSystem where
  entries :=
    [(["src"], .directory), (["src", "a"], .directory),
      (["src", "a", "B.php"], .file "<?php class B \x7b\x7d".toUTF8),
      (["src", "a.php"], .file text.toUTF8),
      (["src", "a", "notes.txt"], .file "class D \x7b\x7d".toUTF8),
      (["src", ".git"], .directory),
      (["src", ".git", "C.php"], .file "<?php class C \x7b\x7d".toUTF8)]

/-- As texts the two paths come in the other order. -/
theorem paths_siblings (text : String) :
    paths (siblings text) "/src" ["src"] = [↑"/src/a/B.php", ↑"/src/a.php"] := by
  have outer : (siblings text).names ["src"] =
      [.text ".git", .text "a", .text "a.php"] := by
    have listed : (siblings text).entries.filterMap
        (fun entry => FileSystem.nameIn? ["src"] entry.1) =
          [.text "a", .text "a.php", .text ".git"] := rfl
    rw [FileSystem.names, listed]
    simp [List.eraseDups_cons, List.mergeSort]
  have inner : (siblings text).names ["src", "a"] =
      [.text "B.php", .text "notes.txt"] := by
    have listed : (siblings text).entries.filterMap
        (fun entry => FileSystem.nameIn? ["src", "a"] entry.1) =
          [.text "B.php", .text "notes.txt"] := rfl
    rw [FileSystem.names, listed]
    simp [List.eraseDups_cons, List.mergeSort]
  have below : (siblings text).sourcesBelow ["src", "a"] =
      [[.text "B.php"]] := by
    rw [FileSystem.sourcesBelow_eq, inner]
    rfl
  have under : (siblings text).sourcesUnder ["src"] "a" =
      ((siblings text).sourcesBelow ["src", "a"]).map (.text "a" :: ·) := rfl
  rw [paths, FileSystem.sourcesBelow_eq, outer, List.flatMap_cons,
    List.flatMap_cons, under, below]
  rfl

theorem isTree_siblings (text : String) : (siblings text).IsTree := by
  simp [FileSystem.IsTree, siblings, FileSystem.get?]

theorem wellNamed_siblings (text : String) : (siblings text).WellNamed := by
  simp only [FileSystem.WellNamed, siblings, List.forall_mem_cons]
  decide

/-- The file in the directory comes first, and what it declares counts.  Where
the other file has an error, the scan ends with what the first one gave.  The
other file itself is not scanned as a directory. -/
theorem directory_scans_siblings :
    let whole := directory (siblings twoTypes) {} "/src"
    let broken := directory (siblings openType) {} "/src"
    whole.failure = none ∧ whole.count = 2 ∧
      (whole.index.types.map fun d => (d.name, d.path)) =
        [("B", some ↑"/src/a/B.php"), ("A", some ↑"/src/a.php")] ∧
      broken.failure =
        some (.malformedSource (some "/src/a.php") (.openBody "A")) ∧
      broken.index.names = ["B"] ∧
      (directory (siblings twoTypes) {} "/src/a.php").failure =
        some (.rootNotDirectory "/src/a.php") := by
  intro whole broken
  have located : ∀ text, (siblings text).locate "/src" = .ok ["src"] :=
    fun _ => rfl
  have file : (siblings twoTypes).locate "/src/a.php" =
      .ok ["src", "a.php"] := rfl
  have scans := fun text => directory_scans
    (isTree_siblings text) (wellNamed_siblings text) (located text) {}
  have refused := (directory_scans
    (isTree_siblings twoTypes) (wellNamed_siblings twoTypes) file {}).1 nofun
  obtain ⟨-, -, fine, -⟩ := (scans twoTypes).2 rfl
  obtain ⟨-, -, -, failed⟩ := (scans openType).2 rfl
  rw [paths_siblings] at fine failed
  obtain ⟨failure, count, added, -⟩ := fine (by decide +kernel)
  obtain ⟨stopped, kept⟩ := failed [↑"/src/a/B.php"] "/src/a.php" []
    (.malformedSource (some "/src/a.php") (.openBody "A")) rfl
    (by decide +kernel) (by decide +kernel)
  have bothFiles :
      ([↑"/src/a/B.php", ↑"/src/a.php"].foldlM
        (addFile (siblings twoTypes)) {}).toOption.map
          (·.types.map fun d => (d.name, d.path)) =
        some [("B", some ↑"/src/a/B.php"), ("A", some ↑"/src/a.php")] := by
    decide +kernel
  have firstFile :
      ([↑"/src/a/B.php"].foldlM
        (addFile (siblings openType)) {}).toOption.map (·.names) =
          some ["B"] := by
    decide +kernel
  rw [added] at bothFiles
  rw [kept] at firstFile
  exact ⟨failure, count, Option.some_inj.mp bothFiles, stopped,
    Option.some_inj.mp firstFile, congrArg Scan.failure refused⟩

/-- A name that starts with a dot and is no text. -/
def dottedName : Name :=
  .raw [0x2E, 0xFF, 0x2E, 0x70, 0x68, 0x70] (by decide +kernel)

/-- A directory with a file that has this name. -/
def dotted : FileSystem where
  entries :=
    [(["src"], .directory),
      (["src", dottedName], .file "<?php class A \x7b\x7d".toUTF8)]

/-- A file whose name starts with a dot is scanned if the name is no text; and
no file counts as a directory with nothing in it. -/
theorem directory_scans_dotted :
    (IsRoot dotted "/src" ["src"] ∧ dottedName.bytes.head? = some 0x2E ∧
      FilePath.join "/src" dottedName ∈ paths dotted "/src" ["src"] ∧
      (directory dotted {} "/src").index.names = ["A"]) ∧
    (siblings twoTypes).locate "/src/a.php" = .ok ["src", "a.php"] ∧
      (directory (siblings twoTypes) {} "/src/a.php").failure =
        some (.rootNotDirectory "/src/a.php") := by
  have isRoot : IsRoot dotted "/src" ["src"] :=
    ⟨by decide, by decide, rfl, rfl⟩
  have names : dotted.names ["src"] = [dottedName] := by
    have listed : dotted.entries.filterMap
        (fun entry => FileSystem.nameIn? ["src"] entry.1) = [dottedName] := rfl
    rw [FileSystem.names, listed]
    simp [List.eraseDups_cons]
  have sources : dotted.sourcesBelow ["src"] = [[dottedName]] := by
    rw [FileSystem.sourcesBelow_eq, names]
    rfl
  refine ⟨⟨isRoot, rfl, ?_, ?_⟩, rfl, rfl⟩
  · rw [paths, sources]
    exact List.mem_singleton_self _
  · rw [isRoot.directory_eq, sources]
    decide +kernel

end Scan

end BusReference
