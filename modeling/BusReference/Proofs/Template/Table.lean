import Mathlib.Data.List.Forall2
import BusReference.Proofs.Template.Links
import BusReference.Proofs.Text.Intercalating

/-!
# The table of a definition page

The page of a definition shows its fields in a table with two columns.  The
fields are texts of any characters, pipes and backslashes among them; a pipe in
a cell gets a backslash, so that it ends no cell, and taking these backslashes
away again gives the field back.  The table is read from the text of the page as
any table of that kind is: the lines behind its head up to the next empty one.
-/

namespace BusReference

namespace Template

open Text.Pieces (replaceAll splitOn)

/-! ## Reading a table -/

/-- The lines behind the first head of a table with two columns, up to the next
empty line. -/
def tableLines : List (List Char) → List (List Char)
  | [] => []
  | line :: lines =>
      if line = "| | |".toList ∧ lines.head? = some "|---|---|".toList then
        lines.tail.takeWhile (· ≠ [])
      else tableLines lines

/-- The rows of the first table in a page. -/
def tableRows (text : String) : List (List Char) := tableLines (linesOf text)

/-- A pipe ends a cell unless a backslash stands immediately before it. -/
def endsCell (previous : Option Char) (c : Char) : Bool :=
  c == '|' && previous != some '\\'

/-- The number of pipes in a line that end a cell. -/
def barePipes (previous : Option Char) : List Char → Nat
  | [] => 0
  | c :: cs =>
      (if endsCell previous c then 1 else 0) + barePipes (some c) cs

/-- The stretches of a line between the pipes that end a cell. -/
def cells (previous : Option Char) : List Char → List (List Char)
  | [] => [[]]
  | c :: cs =>
      if endsCell previous c then [] :: cells (some c) cs
      else (cells (some c) cs).modifyHead (c :: ·)

/-- The text of a cell without the backslashes before its pipes. -/
def unescaped (cs : List Char) : List Char :=
  replaceAll ['\\', '|'] ['|'] 0 cs

theorem length_cells (previous : Option Char) (cs : List Char) :
    (cells previous cs).length = barePipes previous cs + 1 := by
  induction cs generalizing previous with
  | nil => rfl
  | cons c cs ih =>
      rw [cells, barePipes]
      split
      · rw [List.length_cons, ih]
        omega
      · rw [List.length_modifyHead, ih]
        omega

/-- A stretch without such a pipe goes up to the next pipe after a blank. -/
theorem cells_append_pipe
    {previous : Option Char} {cs : List Char}
    (sheltered : barePipes previous cs = 0) (rest : List Char) :
    cells previous (cs ++ ' ' :: '|' :: rest) =
      (cs ++ [' ']) :: cells (some '|') rest := by
  induction cs generalizing previous with
  | nil => simp [cells, endsCell]
  | cons c cs ih =>
      rw [barePipes] at sheltered
      have inside : endsCell previous c = false := by
        rw [← Bool.not_eq_true]
        intro ends
        rw [if_pos ends] at sheltered
        omega
      rw [inside] at sheltered
      have later : barePipes (some c) cs = 0 := by simpa using sheltered
      rw [List.cons_append, cells, inside, ih later]
      rfl

/-! ## Escaped texts -/

/-- The text with a backslash before every pipe. -/
def escaped (cs : List Char) : List Char :=
  cs.flatMap fun c => if c = '|' then ['\\', '|'] else [c]

@[simp]
theorem escaped_append (cs ds : List Char) :
    escaped (cs ++ ds) = escaped cs ++ escaped ds :=
  List.flatMap_append

theorem escaped_of_not_mem {cs : List Char} (clean : '|' ∉ cs) :
    escaped cs = cs := by
  rw [escaped]
  conv => rhs; rw [← List.flatMap_singleton' cs]
  refine List.flatMap_congr fun c member => if_neg ?_
  rintro rfl
  exact clean member

theorem toList_cell (s : String) : (cell s).toList = escaped s.toList := by
  have pipe : "|".toList = ['|'] := rfl
  have escape : "\\|".toList = ['\\', '|'] := rfl
  rw [cell, Text.Pieces.replace, String.toList_ofList, pipe, escape]
  induction s.toList with
  | nil => rfl
  | cons c cs ih =>
      rw [replaceAll, escaped, List.flatMap_cons]
      by_cases same : c = '|'
      · simp [same, ih, escaped]
      · simp [same, Ne.symm same, ih, escaped]

/-- No pipe of an escaped text ends a cell. -/
theorem barePipes_escaped (previous : Option Char) (cs : List Char) :
    barePipes previous (escaped cs) = 0 := by
  induction cs generalizing previous with
  | nil => rfl
  | cons c cs ih =>
      rw [escaped, List.flatMap_cons, ← escaped]
      by_cases pipe : c = '|'
      · simp [pipe, barePipes, endsCell, ih]
      · simp [pipe, barePipes, endsCell, ih]

theorem head?_escaped_ne (cs : List Char) : (escaped cs).head? ≠ some '|' := by
  cases cs with
  | nil => nofun
  | cons c cs =>
      rw [escaped, List.flatMap_cons]
      by_cases pipe : c = '|'
      · simp [pipe]
      · simp [pipe]

/-- What was escaped is given back. -/
theorem unescaped_escaped (cs : List Char) : unescaped (escaped cs) = cs := by
  induction cs with
  | nil => rfl
  | cons c cs ih =>
      rw [unescaped] at ih
      rw [escaped, List.flatMap_cons, ← escaped, unescaped]
      by_cases pipe : c = '|'
      · simp [pipe, replaceAll, ih]
      · -- behind a backslash of the text no pipe comes first
        have apart : ['\\', '|'].isPrefixOf (c :: escaped cs) = false := by
          rw [← Bool.not_eq_true, List.isPrefixOf_iff_prefix,
            List.cons_prefix_cons]
          rintro ⟨-, more, start⟩
          apply head?_escaped_ne cs
          rw [← start]
          rfl
        rw [if_neg pipe, List.singleton_append, replaceAll, apart]
        simp [ih]

theorem escaped_intercalate
    {separator : List Char} (clean : '|' ∉ separator)
    (pieces : List (List Char)) :
    escaped (separator.intercalate pieces) =
      separator.intercalate (pieces.map escaped) := by
  rw [escaped, Text.flatMap_intercalate, ← escaped, escaped_of_not_mem clean]
  rfl

theorem mem_of_mem_escaped
    {c : Char} {cs : List Char} (member : c ∈ escaped cs) (other : c ≠ '\\') :
    c ∈ cs := by
  obtain ⟨d, inside, written⟩ := List.mem_flatMap.mp member
  split at written
  next pipe =>
    rcases List.mem_cons.mp written with rfl | same
    · exact absurd rfl other
    · rwa [List.mem_singleton.mp same, ← pipe]
  next => rwa [List.mem_singleton.mp written]

/-! ## Code -/

/-- Every second one of some stretches, from the second on. -/
def secondOnes {α : Type} : List α → List α
  | _ :: inside :: rest => inside :: secondOnes rest
  | _ => []

/-- The stretches of a text between the marks of code. -/
def codeSpans (cs : List Char) : List String :=
  (secondOnes (splitOn '`' cs)).map String.ofList

section Spans

variable {cs : List Char}

theorem secondOnes_cons {α : Type} (x y : α) (xs : List α) :
    secondOnes (x :: xs) = secondOnes (y :: xs) := by
  cases xs <;> rfl

theorem codeSpans_append (outside : '`' ∉ cs) (rest : List Char) :
    codeSpans (cs ++ rest) = codeSpans rest := by
  induction cs with
  | nil => rfl
  | cons c cs ih =>
      have other : c ≠ '`' := by
        rintro rfl
        exact outside List.mem_cons_self
      have later := ih fun member => outside (List.mem_cons_of_mem _ member)
      rw [← later, codeSpans, codeSpans, List.cons_append, splitOn,
        if_neg other]
      cases splitOn '`' (cs ++ rest) with
      | nil => rfl
      | cons first others => rw [secondOnes_cons]

theorem codeSpans_code {value : String} (unmarked : '`' ∉ value.toList)
    (rest : List Char) :
    codeSpans ((code value).toList ++ rest) = value :: codeSpans rest := by
  have text : (code value).toList ++ rest =
      '`' :: (value.toList ++ '`' :: rest) := by
    simp [code]
  have inside : splitOn '`' (value.toList ++ '`' :: rest) =
      value.toList :: splitOn '`' rest := by
    rw [Files.Path.splitOn_eq, Files.Path.splitOn_eq,
      List.splitOn_append_cons_self_of_not_mem unmarked]
  rw [text, codeSpans, splitOn, if_pos rfl, inside, secondOnes, List.map_cons,
    String.ofList_toList, ← codeSpans]

/-- Values without the mark of code are the stretches between the marks. -/
theorem codeSpans_intercalate
    {values : List String} (unmarked : ∀ value ∈ values, '`' ∉ value.toList) :
    codeSpans (String.intercalate "<br>" (values.map code)).toList =
      values := by
  have between : '`' ∉ "<br>".toList := by decide
  induction values with
  | nil => rfl
  | cons value values ih =>
      have first := unmarked value List.mem_cons_self
      have others :=
        ih fun other member => unmarked other (List.mem_cons_of_mem _ member)
      cases values with
      | nil =>
          have alone := codeSpans_code first []
          rwa [List.append_nil] at alone
      | cons next values =>
          rw [List.map_cons, List.map_cons, String.intercalate_cons_cons,
            String.toList_append, String.toList_append, List.append_assoc,
            codeSpans_code first, codeSpans_append between, ← List.map_cons,
            others]

end Spans

/-! ## Rows -/

/-- A field of a definition in the table: its values, and whether they are
marked as code. -/
structure Row where
  title : String
  values : List String
  isCode : Bool
  titled : '|' ∉ title.toList ∧ '\n' ∉ title.toList

namespace Row

variable (row : Row)

/-- The values with the marks that the page puts on them. -/
def marked : String :=
  String.intercalate "<br>"
    (row.values.map fun value => if row.isCode then code value else value)

/-- What stands in the second cell, between two blanks. -/
def content : String :=
  String.intercalate "<br>"
    (row.values.map fun value =>
      if row.isCode then code (cell value) else cell value)

/-- The line of a row, without the line break that ends it. -/
def line : String := "| " ++ row.title ++ " | " ++ row.content ++ " |"

/-- A line shows a row if three pipes end its cells, and the second cell without
the backslashes before its pipes holds the values with their marks.  The values
that are marked as code are then what stands between the marks. -/
structure IsShownBy (line : List Char) : Prop where
  pipes : barePipes none line = 3
  shown : ∃ content,
    cells none line =
        [[], ' ' :: row.title.toList ++ [' '], ' ' :: content ++ [' '], []] ∧
      unescaped content = row.marked.toList ∧
      (row.isCode = true → (∀ value ∈ row.values, '`' ∉ value.toList) →
        codeSpans (unescaped content) = row.values)

theorem tableRow_eq : tableRow row.title row.content = row.line ++ "\n" := by
  have ending : " |\n" = " |" ++ "\n" := by decide
  rw [tableRow, line, ending]
  simp only [String.append_assoc]

theorem toList_content : row.content.toList = escaped row.marked.toList := by
  have clean : '|' ∉ "<br>".toList := by decide
  have mark : "`".toList = ['`'] := rfl
  have plain : escaped ['`'] = ['`'] := rfl
  rw [content, marked, String.toList_intercalate, String.toList_intercalate,
    escaped_intercalate clean, List.map_map, List.map_map, List.map_map]
  congr 1
  refine List.map_congr_left fun value _ => ?_
  rw [Function.comp_apply, Function.comp_apply, Function.comp_apply]
  split
  · simp only [code, String.toList_append, toList_cell, mark, escaped_append,
      plain]
  · exact toList_cell value

theorem toList_line :
    row.line.toList =
      '|' :: ((' ' :: row.title.toList) ++ ' ' :: '|' ::
        ((' ' :: row.content.toList) ++ [' ', '|'])) := by
  simp [line]

variable {row}

theorem newline_not_mem_line
    (oneLine : ∀ value ∈ row.values, '\n' ∉ value.toList) :
    '\n' ∉ row.line.toList := by
  have inside : '\n' ∉ row.content.toList := by
    rw [toList_content]
    intro member
    have known := mem_of_mem_escaped member (by decide)
    rw [marked, String.toList_intercalate] at known
    rcases Text.mem_of_mem_intercalate known with
      between | ⟨piece, listed, written⟩
    · exact absurd between (by decide)
    · rw [List.map_map] at listed
      obtain ⟨value, member, rfl⟩ := List.mem_map.mp listed
      have clean := oneLine value member
      rw [Function.comp_apply] at written
      split at written
      · exact clean (by simpa [code] using written)
      · exact clean written
  rw [toList_line]
  simp [inside, row.titled.2]

theorem cells_line :
    cells none row.line.toList =
      [[], ' ' :: row.title.toList ++ [' '],
        ' ' :: row.content.toList ++ [' '], []] := by
  have first : barePipes (some '|') (' ' :: row.title.toList) = 0 := by
    have clean : '|' ∉ ' ' :: row.title.toList := by
      simpa using row.titled.1
    rw [← escaped_of_not_mem clean]
    exact barePipes_escaped _ _
  have second : barePipes (some '|') (' ' :: row.content.toList) = 0 := by
    rw [toList_content]
    exact barePipes_escaped _ (' ' :: row.marked.toList)
  have opens : endsCell none '|' = true := rfl
  rw [toList_line, cells, if_pos opens, cells_append_pipe first,
    cells_append_pipe second, cells]

theorem isShownBy_line : row.IsShownBy row.line.toList where
  pipes := by
    have count := length_cells none row.line.toList
    rw [cells_line] at count
    exact (Nat.add_right_cancel count).symm
  shown := by
    have values : unescaped row.content.toList = row.marked.toList := by
      rw [toList_content, unescaped_escaped]
    refine ⟨row.content.toList, cells_line, values, ?_⟩
    intro isCode unmarked
    rw [values, marked]
    simp only [isCode, if_true]
    exact codeSpans_intercalate unmarked

end Row

/-- The fields of a definition in the order of the table; an empty version is
none. -/
def rowsOf (d : Definition) (version : Option String) : List Row :=
  [⟨"Type", [d.kind.title], false, by decide⟩,
    ⟨"Class", [d.commandClass], true, by decide⟩,
    ⟨"Handler", [d.handlerClass], true, by decide⟩] ++
  (if d.handlerInterfaces.isEmpty then []
    else [⟨"Implements", d.handlerInterfaces, true, by decide⟩]) ++
  [⟨"Return type", [d.returnType], true, by decide⟩] ++
  ((version.filter (!·.isEmpty)).map fun v =>
    ⟨"Since", [v], false, by decide⟩).toList

/-! ## The table of a page -/

theorem tableLines_paragraph (line : List Char) (lines : List (List Char)) :
    tableLines (line :: [] :: lines) = tableLines lines := by
  have apart : some [] ≠ some "|---|---|".toList := by decide
  have blank : ([] : List Char) ≠ "| | |".toList := by decide
  rw [tableLines, if_neg fun found => apart found.2, tableLines,
    if_neg fun found => blank found.1]

theorem tableLines_table
    {rows : List (List Char)} (filled : ∀ row ∈ rows, row ≠ [])
    (rest : List (List Char)) :
    tableLines ("| | |".toList :: "|---|---|".toList :: (rows ++ [] :: rest)) =
      rows := by
  rw [tableLines, if_pos ⟨rfl, rfl⟩, List.tail_cons,
    List.takeWhile_append_of_pos (by simpa using filled),
    List.takeWhile_cons_of_neg (by simp), List.append_nil]

/-- The lines above the table. -/
def openingLines (d : Definition) : List String :=
  ["## " ++ d.simpleClassName, ""] ++
    if d.description.isEmpty then [] else [d.description, ""]

/-- The lines of a page down to the end of the table. -/
def linesToTable (d : Definition) (version : Option String) : List String :=
  openingLines d ++ (["| | |", "|---|---|"] ++
    ((rowsOf d version).map Row.line ++ [""]))

theorem ofTexts_texts (ss : List String) (write : List String → String) :
    ofTexts (Page.texts ss) write =
      some (if ss.isEmpty then "" else write ss) := by
  cases ss with
  | nil => rfl
  | cons s ss =>
      simp [ofTexts, ofElements, Page.texts, Value.isTrue, Value.elements?,
        Value.text, Function.comp_def]

theorem ofLines_append (first second : List String) :
    ofLines (first ++ second) = ofLines first ++ ofLines second := by
  rw [ofLines, ofLines, ofLines, List.map_append, String.join_append]

theorem ofLines_openingLines (d : Definition) :
    ofLines (openingLines d) =
      String.join ["## ", d.simpleClassName, "\n\n",
        descriptionLines (.string d.description)] := by
  rw [← String.toList_inj, openingLines, descriptionLines]
  cases filled : d.description.isEmpty <;>
    simp [ofLines, Value.isTrue, Value.text, filled]

/-- The rows as the template writes them, field by field. -/
theorem ofLines_rowsOf (d : Definition) (version : Option String) :
    ofLines ((rowsOf d version).map Row.line) =
      String.join [
        tableRow "Type" d.kind.title,
        tableRow "Class" (code (cell d.commandClass)),
        tableRow "Handler" (code (cell d.handlerClass)),
        if d.handlerInterfaces.isEmpty then ""
          else tableRow "Implements" (String.intercalate "<br>"
            (d.handlerInterfaces.map fun name => code (cell name))),
        tableRow "Return type" (code (cell d.returnType)),
        ((version.filter (!·.isEmpty)).map fun v =>
          tableRow "Since" (cell v)).getD ""] := by
  have rows : ofLines ((rowsOf d version).map Row.line) = String.join
      ((rowsOf d version).map fun row => tableRow row.title row.content) := by
    rw [ofLines, List.map_map]
    congr 1
    exact List.map_congr_left fun row _ => row.tableRow_eq.symm
  have kind : cell d.kind.title = d.kind.title := by
    cases d.kind <;> decide
  rw [rows, rowsOf]
  cases d.handlerInterfaces.isEmpty <;>
    cases version.filter (!·.isEmpty) <;>
      simp [Row.content, kind]

theorem page?_ofDefinition
    (edition : Edition) (destination domain : String) (d : Definition) :
    let page := Page.ofDefinition edition destination domain d
    ∃ call, page.template.page? page.context =
      some (ofLines (linesToTable d edition.version) ++ call) := by
  intro page
  have kind : Text.CaseMapping.capitalize d.kind.name = d.kind.title := by
    cases d.kind <;> decide
  have since :
      (if edition.versionValue.isTrue then
        tableRow "Since" (cell edition.versionValue.text) else "") =
      ((edition.version.filter (!·.isEmpty)).map fun v =>
        tableRow "Since" (cell v)).getD "" := by
    rw [Edition.versionValue]
    cases edition.version with
    | none => rfl
    | some v =>
        cases empty : v.isEmpty <;>
          simp [Value.isTrue, Value.text, Option.filter, empty]
  have bound : page.template.page? page.context =
      (ofTexts (Page.texts d.handlerInterfaces) fun names =>
        tableRow "Implements" (String.intercalate "<br>"
          (names.map fun name => code (cell name)))).bind fun implements =>
      (ofTexts (Page.texts d.constructorParameters)
        (constructorCall d.simpleClassName)).bind fun call =>
      some (String.join [
        "## ", d.simpleClassName, "\n\n",
        descriptionLines (.string d.description), "| | |\n|---|---|\n",
        tableRow "Type" (Text.CaseMapping.capitalize d.kind.name),
        tableRow "Class" (code (cell d.commandClass)),
        tableRow "Handler" (code (cell d.handlerClass)),
        implements,
        tableRow "Return type" (code (cell d.returnType)),
        if edition.versionValue.isTrue then
          tableRow "Since" (cell edition.versionValue.text) else "",
        "\n", call]) := rfl
  have tableHead :
      ofLines ["| | |", "|---|---|"] = "| | |\n|---|---|\n" := by
    decide
  have tableEnd : ofLines [""] = "\n" := by decide
  rw [bound, ofTexts_texts, ofTexts_texts, Option.bind_some, Option.bind_some,
    kind, since]
  refine ⟨if d.constructorParameters.isEmpty then ""
    else constructorCall d.simpleClassName d.constructorParameters, ?_⟩
  rw [Option.some_inj, linesToTable, ofLines_append, ofLines_append,
    ofLines_append, ofLines_openingLines, ofLines_rowsOf, tableHead, tableEnd]
  simp only [String.join_cons, String.join_nil, String.append_assoc,
    String.append_empty]

theorem tableLines_linesToTable
    (d : Definition) (version : Option String) (rest : List (List Char)) :
    tableLines ((linesToTable d version).map String.toList ++ rest) =
      (rowsOf d version).map (·.line.toList) := by
  have rows : tableLines ("| | |".toList :: "|---|---|".toList ::
      ((rowsOf d version).map (·.line.toList) ++ [] :: rest)) =
      (rowsOf d version).map (·.line.toList) := by
    refine tableLines_table ?_ rest
    intro line member
    obtain ⟨row, -, rfl⟩ := List.mem_map.mp member
    rw [Row.toList_line]
    exact List.cons_ne_nil _ _
  have text : (linesToTable d version).map String.toList ++ rest =
      (openingLines d).map String.toList ++
        ("| | |".toList :: "|---|---|".toList ::
          ((rowsOf d version).map (·.line.toList) ++ [] :: rest)) := by
    simp [linesToTable, Function.comp_def]
  have heading : ∀ lines : List (List Char),
      tableLines ((openingLines d).map String.toList ++ lines) =
        tableLines lines := by
    intro lines
    rw [openingLines]
    split
    · exact tableLines_paragraph _ _
    · exact (tableLines_paragraph _ _).trans (tableLines_paragraph _ _)
  rw [text, heading, rows]

/-- No text that the table or the lines above it show has a line break. -/
structure OneLine (d : Definition) (version : Option String) : Prop where
  name : '\n' ∉ d.simpleClassName.toList
  description : '\n' ∉ d.description.toList
  commandClass : '\n' ∉ d.commandClass.toList
  handlerClass : '\n' ∉ d.handlerClass.toList
  returnType : '\n' ∉ d.returnType.toList
  interfaces : ∀ interface ∈ d.handlerInterfaces, '\n' ∉ interface.toList
  versions : ∀ v ∈ version, '\n' ∉ v.toList

namespace OneLine

variable {d : Definition} {version : Option String}

theorem openingLines
    (oneLine : OneLine d version) :
    ∀ line ∈ openingLines d, '\n' ∉ line.toList := by
  intro line member
  rcases List.mem_append.mp member with heading | described
  · rcases List.mem_pair.mp heading with rfl | rfl
    · simpa using oneLine.name
    · decide
  · split at described
    · cases described
    · rcases List.mem_pair.mp described with rfl | rfl
      · exact oneLine.description
      · decide

theorem rowsOf (oneLine : OneLine d version) :
    ∀ row ∈ rowsOf d version, ∀ value ∈ row.values, '\n' ∉ value.toList := by
  have kind : '\n' ∉ d.kind.title.toList := by
    cases d.kind <;> decide
  intro row member
  simp only [Template.rowsOf, List.mem_append, List.mem_cons,
    List.not_mem_nil, or_false, Option.mem_toList, Option.map_eq_some_iff]
    at member
  rcases member with
    (((rfl | rfl | rfl) | implements) | rfl) | ⟨v, given, rfl⟩
  · simpa using kind
  · simpa using oneLine.commandClass
  · simpa using oneLine.handlerClass
  · split at implements
    · cases implements
    · rw [List.mem_singleton.mp implements]
      exact oneLine.interfaces
  · simpa using oneLine.returnType
  · simpa using oneLine.versions v (Option.filter_eq_some_iff.mp given).1

theorem linesToTable (oneLine : OneLine d version) :
    ∀ line ∈ linesToTable d version, '\n' ∉ line.toList := by
  intro line member
  rcases List.mem_append.mp member with opening | inTable
  · exact oneLine.openingLines line opening
  · rcases List.mem_append.mp inTable with tableHead | shown
    · rcases List.mem_pair.mp tableHead with rfl | rfl <;> decide
    · rcases List.mem_append.mp shown with inRow | ending
      · obtain ⟨row, listed, rfl⟩ := List.mem_map.mp inRow
        exact Row.newline_not_mem_line (oneLine.rowsOf row listed)
      · rw [List.mem_singleton.mp ending]
        decide

end OneLine

/-- Every row of the table of a definition shows its field, whatever characters
the values hold: only the three pipes of the row itself end a cell, and the
second cell gives the values back in their order. -/
theorem tableRows_ofDefinition
    {edition : Edition} {d : Definition} (oneLine : OneLine d edition.version)
    (destination domain : String) :
    let page := Page.ofDefinition edition destination domain d
    ∃ text, page.template.render page.context = .ok text ∧
      List.Forall₂ Row.IsShownBy (rowsOf d edition.version)
        (tableRows text) := by
  intro page
  obtain ⟨call, done⟩ := page?_ofDefinition edition destination domain d
  refine ⟨_, by rw [render, done], ?_⟩
  rw [tableRows, linesOf_ofLines_append oneLine.linesToTable,
    tableLines_linesToTable, List.forall₂_map_right_iff, List.forall₂_same]
  exact fun row _ => Row.isShownBy_line

/-- A handler of two interfaces whose names and return type hold pipes, behind a
backslash and at the end of a text among them. -/
def withPipes : Definition where
  kind := .query
  domain := "Tax"
  handlerClass := "A|B\\|"
  commandClass := "Tax\\GetTax"
  constructorParameters := ["int|string $id"]
  description := "| | |"
  returnType := "int|string|null"
  handlerInterfaces := ["First|", "|Second"]
  simpleClassName := "GetTax"
  slug := "get-tax"

theorem tableRows_ofDefinition_withPipes :
    let edition : Edition := ⟨.nested, some "9|10"⟩
    let page := Page.ofDefinition edition "out" "Tax" withPipes
    OneLine withPipes edition.version ∧
      ∃ text, page.template.render page.context = .ok text ∧
        List.Forall₂ Row.IsShownBy (rowsOf withPipes (some "9|10"))
          (tableRows text) := by
  intro edition page
  have oneLine : OneLine withPipes edition.version :=
    ⟨by decide, by decide, by decide, by decide, by decide, by decide,
      by simp [edition]⟩
  exact ⟨oneLine, tableRows_ofDefinition oneLine "out" "Tax"⟩

end Template

end BusReference
