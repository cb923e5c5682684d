import Mathlib.Data.List.Basic
import BusReference.Printing.Page
import BusReference.Proofs.Files.Way
import BusReference.Proofs.Template.Rendering
import BusReference.Proofs.Text.Inert

/-!
# Links of rendered pages

The links and the includes of a page are read from its text, line by line below
its title.  What stands above the title may be anything: the version in the head
of a page is not restricted.  Names and slugs without line breaks, brackets and
quotation marks come out of a page as they were put into it, so the page that
links to the domains has one link for each of them, and the page of a domain
includes each of its definitions once.
-/

namespace BusReference

open BusReference.Text (Inert)

namespace Template

/-! ## Reading pages -/

/-- The lines of a text. -/
def linesOf (text : String) : List (List Char) :=
  Text.Pieces.splitOn '\n' text.toList

/-- A line is a title of the first level. -/
def isTitle (line : List Char) : Bool := "# ".toList.isPrefixOf line

/-- The lines below the last title of the first level. -/
def body (text : String) : List (List Char) :=
  ((linesOf text).reverse.takeWhile (!isTitle ·)).reverse

/-- What stands in a line between an opening text and the next closing
character. -/
def enclosed? (opening : String) (closing : Char) (line : List Char) :
    Option String :=
  if opening.toList.isPrefixOf line then
    some (String.ofList
      ((line.drop opening.toList.length).takeWhile (· != closing)))
  else none

/-- The target of the link that a line lists. -/
def linkOf? (line : List Char) : Option String :=
  if "- [".toList.isPrefixOf line then
    enclosed? "](" ')' (line.dropWhile (· != ']'))
  else none

/-- The name of the file that a line includes. -/
def includeOf? (line : List Char) : Option String :=
  enclosed? "\x7b\x7b% include file=\"" '"' line

/-- The targets of the links that are listed in a page. -/
def links (text : String) : List String := (body text).filterMap linkOf?

/-- The names of the files that a page includes. -/
def includes (text : String) : List String := (body text).filterMap includeOf?

/-! ## Lines -/

section Lines

variable {line rest : String}

theorem linesOf_line (clean : '\n' ∉ line.toList) (rest : String) :
    linesOf (line ++ "\n" ++ rest) = line.toList :: linesOf rest := by
  have newline : "\n".toList = ['\n'] := rfl
  rw [linesOf, linesOf, Files.Path.splitOn_eq, Files.Path.splitOn_eq,
    String.toList_append, String.toList_append, newline, List.append_assoc,
    List.singleton_append, List.splitOn_append_cons_self_of_not_mem clean]

theorem linesOf_append_newline (before rest : String) :
    linesOf (before ++ "\n" ++ rest) = linesOf before ++ linesOf rest := by
  have newline : "\n".toList = ['\n'] := rfl
  rw [linesOf, linesOf, linesOf, Files.Path.splitOn_eq, Files.Path.splitOn_eq,
    Files.Path.splitOn_eq, String.toList_append, String.toList_append, newline,
    List.append_assoc, List.singleton_append, List.splitOn_append_cons_self]

/-- A text of whole lines. -/
def ofLines (lines : List String) : String :=
  String.join (lines.map (· ++ "\n"))

theorem linesOf_ofLines_append
    {lines : List String} (clean : ∀ line ∈ lines, '\n' ∉ line.toList)
    (rest : String) :
    linesOf (ofLines lines ++ rest) =
      lines.map String.toList ++ linesOf rest := by
  induction lines with
  | nil => rw [ofLines, List.map_nil, String.join_nil, String.empty_append]; rfl
  | cons line lines ih =>
      rw [ofLines, List.map_cons, String.join_cons, ← ofLines,
        String.append_assoc, linesOf_line (clean line List.mem_cons_self),
        ih fun other member => clean other (List.mem_cons_of_mem _ member)]
      rfl

theorem linesOf_ofLines
    {lines : List String} (clean : ∀ line ∈ lines, '\n' ∉ line.toList) :
    linesOf (ofLines lines) = lines.map String.toList ++ [[]] := by
  have whole := linesOf_ofLines_append clean ""
  rwa [String.append_empty] at whole

/-- The body of a page are the lines after its title, and the empty one after
the last line break. -/
theorem body_ofLines
    {title : String} {lines : List String} (oneLine : '\n' ∉ title.toList)
    (clean : ∀ line ∈ lines, '\n' ∉ line.toList)
    (plain : ∀ line ∈ lines, isTitle line.toList = false) (before : String) :
    body (before ++ "\n" ++ ofLines (("# " ++ title) :: lines)) =
      lines.map String.toList ++ [[]] := by
  have opens : isTitle ("# " ++ title).toList = true := by
    rw [isTitle, List.isPrefixOf_iff_prefix, String.toList_append]
    exact List.prefix_append _ _
  have allClean : ∀ line ∈ ("# " ++ title) :: lines, '\n' ∉ line.toList := by
    intro line member
    rcases List.mem_cons.mp member with rfl | later
    · simpa using oneLine
    · exact clean line later
  have passes : ∀ line ∈ (lines.map String.toList ++ [[]]).reverse,
      (!isTitle line) = true := by
    intro line member
    rcases List.mem_append.mp (List.mem_reverse.mp member) with listed | last
    · obtain ⟨text, inside, rfl⟩ := List.mem_map.mp listed
      rw [plain text inside]
      rfl
    · rw [List.mem_singleton.mp last]
      rfl
  rw [body, linesOf_append_newline, linesOf_ofLines allClean, List.map_cons,
    List.cons_append, List.reverse_append, List.reverse_cons, List.append_assoc,
    List.singleton_append, List.takeWhile_append_of_pos passes,
    List.takeWhile_cons_of_neg, List.append_nil, List.reverse_reverse]
  rw [opens]
  decide

/-- What is read from the lines of a body, the empty one left aside. -/
theorem filterMap_body
    {read : List Char → Option String} (empty : read [] = none)
    (lines : List String) :
    (lines.map String.toList ++ [[]]).filterMap read =
      lines.filterMap (read ·.toList) := by
  rw [List.filterMap_append, List.filterMap_map]
  simp [empty]

theorem filterMap_map_of_forall
    {α : Type} {xs : List α} {text target : α → String}
    {read : List Char → Option String}
    (each : ∀ x ∈ xs, read (text x).toList = some (target x)) :
    (xs.map text).filterMap (read ·.toList) = xs.map target := by
  rw [List.filterMap_map]
  exact List.filterMap_eq_map_iff_forall_eq_some.mpr each

end Lines

/-! ## Single lines -/

theorem enclosed?_append
    {closing : Char} {inner : String} (clean : closing ∉ inner.toList)
    (opening : String) (rest : List Char) :
    enclosed? opening closing
        (opening.toList ++ (inner.toList ++ closing :: rest)) =
      some inner := by
  have passes : ∀ c ∈ inner.toList, (c != closing) = true := by
    intro c member
    have : c ≠ closing := by
      rintro rfl
      exact clean member
    simpa using this
  have opens :
      opening.toList.isPrefixOf
          (opening.toList ++ (inner.toList ++ closing :: rest)) = true :=
    List.isPrefixOf_iff_prefix.mpr (List.prefix_append _ _)
  rw [enclosed?, if_pos opens, List.drop_left,
    List.takeWhile_append_of_pos passes]
  simp

/-- A line that lists a link has its target, if no bracket is in the name or in
the target. -/
theorem linkOf?_line
    {name target : String} (named : ']' ∉ name.toList)
    (clean : ')' ∉ target.toList) (rest : String) :
    linkOf? ("- [" ++ name ++ "](" ++ target ++ ")" ++ rest).toList =
      some target := by
  have text : ("- [" ++ name ++ "](" ++ target ++ ")" ++ rest).toList =
      ("- [".toList ++ name.toList) ++
        ("](".toList ++ (target.toList ++ ')' :: rest.toList)) := by
    simp
  have passes : ∀ c ∈ "- [".toList ++ name.toList, (c != ']') = true := by
    intro c member
    have : c ≠ ']' := by
      rintro rfl
      rcases List.mem_append.mp member with opening | inside
      · exact absurd opening (by decide)
      · exact named inside
    simpa using this
  have opens : "- [".toList.isPrefixOf (("- [".toList ++ name.toList) ++
      ("](".toList ++ (target.toList ++ ')' :: rest.toList))) = true := by
    rw [List.isPrefixOf_iff_prefix, List.append_assoc]
    exact List.prefix_append _ _
  have stops : ("](".toList ++ (target.toList ++ ')' :: rest.toList)).dropWhile
      (· != ']') = "](".toList ++ (target.toList ++ ')' :: rest.toList) :=
    List.dropWhile_cons_of_neg (by decide)
  rw [text, linkOf?, if_pos opens, List.dropWhile_append_of_pos passes, stops]
  exact enclosed?_append clean "](" rest.toList

theorem includeOf?_line
    {name : String} (clean : '"' ∉ name.toList) (rest : String) :
    includeOf? ("\x7b\x7b% include file=\"" ++ name ++ "\"" ++ rest).toList =
      some name := by
  have text : ("\x7b\x7b% include file=\"" ++ name ++ "\"" ++ rest).toList =
      "\x7b\x7b% include file=\"".toList ++
        (name.toList ++ '"' :: rest.toList) := by
    simp
  rw [text]
  exact enclosed?_append clean _ rest.toList

/-! ## The page that links to the domains -/

theorem forEach_map
    {α : Type} {xs : List α} {write : Value → Option String}
    {value : α → Value} {text : α → String}
    (each : ∀ x ∈ xs, write (value x) = some (text x)) :
    forEach write (xs.map value) = some (String.join (xs.map text)) := by
  have all : (xs.map value).mapM write = some (xs.map text) := by
    induction xs with
    | nil => rfl
    | cons x xs ih =>
        have first := each x List.mem_cons_self
        have others := ih fun y member => each y (List.mem_cons_of_mem _ member)
        simp [List.mapM_cons, first, others]
  rw [forEach, all, Option.map_some]

theorem newline_not_mem_intText (n : Nat) :
    '\n' ∉ (Value.int n).text.toList := by
  intro member
  have positive : ¬ (n : Int) < 0 := by omega
  have digit : '\n' ∈ Nat.toDigits 10 n := by
    simpa [Value.text, Value.inner, Value.intText, Number.Shortest.sign,
      positive] using member
  have known := Nat.isDigit_of_mem_toDigits (by decide) (by decide) digit
  cases known

/-- The line of a domain, without the line break that ends it. -/
def domainText (edition : Edition) (entry : String × DomainDefinitions) :
    String :=
  "- [" ++ entry.1 ++ "](" ++ edition.layout.domainLink (domainSlug entry.1) ++
    ")" ++ (" (" ++ (Value.int entry.2.commands.length).text ++ " commands, " ++
      (Value.int entry.2.queries.length).text ++ " queries)")

theorem domainLine_domainValue
    (edition : Edition) (entry : String × DomainDefinitions) :
    domainLine (Page.domainValue edition entry.1 entry.2) =
      some (domainText edition entry ++ "\n") := by
  have line : domainLine (Page.domainValue edition entry.1 entry.2) =
      some (String.join [
        "- [", entry.1, "](", edition.layout.domainLink (domainSlug entry.1),
        ") (", (Value.int entry.2.commands.length).text, " commands, ",
        (Value.int entry.2.queries.length).text, " queries)\n"]) := rfl
  rw [line, Option.some_inj, ← String.toList_inj, domainText]
  simp [String.join]

section Pages

variable {edition : Edition} {entry : String × DomainDefinitions}

theorem newline_not_mem_domainLink
    {slug : String} (inert : Inert slug.toList) (layout : Layout) :
    '\n' ∉ (layout.domainLink slug).toList ∧
      ')' ∉ (layout.domainLink slug).toList := by
  have newline := inert.not_mem (c := '\n') rfl
  have bracket := inert.not_mem (c := ')') rfl
  cases layout <;> simp [Layout.domainLink, newline, bracket]

theorem newline_not_mem_domainText
    (name : Inert entry.1.toList) (slug : Inert (domainSlug entry.1).toList) :
    '\n' ∉ (domainText edition entry).toList := by
  have newline := name.not_mem (c := '\n') rfl
  have target := (newline_not_mem_domainLink slug edition.layout).1
  have commands := newline_not_mem_intText entry.2.commands.length
  have queries := newline_not_mem_intText entry.2.queries.length
  simp [domainText, newline, target, commands, queries]

theorem isTitle_domainText :
    isTitle (domainText edition entry).toList = false := by
  have opening : (domainText edition entry).toList.head? = some '-' := by
    simp [domainText]
  cases text : (domainText edition entry).toList with
  | nil => rfl
  | cons c cs =>
      rw [text] at opening
      cases opening
      rfl

theorem linkOf?_domainText
    (name : Inert entry.1.toList) (slug : Inert (domainSlug entry.1).toList) :
    linkOf? (domainText edition entry).toList =
      some (edition.layout.domainLink (domainSlug entry.1)) :=
  linkOf?_line (name.not_mem rfl)
    (newline_not_mem_domainLink slug edition.layout).2 _

/-- The lines between the title of the page that links to the domains and the
first domain. -/
def introduction : List String :=
  ["", "Commands and queries available on the command bus, grouped by domain.",
    ""]

theorem introduction_plain :
    ∀ line ∈ introduction, '\n' ∉ line.toList ∧
      isTitle line.toList = false ∧ linkOf? line.toList = none := by
  decide

theorem page?_ofIndex
    (edition : Edition) (destination : String)
    (domains : List (String × DomainDefinitions)) :
    let page := Page.ofIndex edition destination domains
    ∃ before, page.template.page? page.context = some
      (before ++ "\n" ++ ofLines
        (("# " ++ "CQRS commands and queries") ::
          (introduction ++ domains.map (domainText edition)))) := by
  intro page
  have lines : forEach domainLine
      (domains.map fun entry => Page.domainValue edition entry.1 entry.2) =
        some (String.join (domains.map (domainText edition · ++ "\n"))) :=
    forEach_map fun entry _ => domainLine_domainValue edition entry
  refine ⟨head "CQRS commands and queries" ++
    optionalVersionLine edition.versionValue ++ "---\n", ?_⟩
  have bound : page.template.page? page.context =
      (forEach domainLine
        (domains.map fun entry =>
          Page.domainValue edition entry.1 entry.2)).bind fun lines =>
        some (String.join [
          head "CQRS commands and queries",
          optionalVersionLine edition.versionValue,
          "---\n\n# CQRS commands and queries\n\n",
          "Commands and queries available on the command bus, grouped by domain.\n\n",
          lines]) := rfl
  rw [bound, lines, Option.bind_some, Option.some_inj, ← String.toList_inj]
  simp [ofLines, introduction, Function.comp_def]

/-- The page that links to the domains has one link for each of them. -/
theorem links_ofIndex
    (edition : Edition) (destination : String)
    {domains : List (String × DomainDefinitions)}
    (inert : ∀ entry ∈ domains,
      Inert entry.1.toList ∧ Inert (domainSlug entry.1).toList) :
    let page := Page.ofIndex edition destination domains
    ∃ text, page.template.render page.context = .ok text ∧
      links text = domains.map fun entry =>
        edition.layout.domainLink (domainSlug entry.1) := by
  intro page
  obtain ⟨before, done⟩ := page?_ofIndex edition destination domains
  refine ⟨_, by rw [render, done], ?_⟩
  have known : ∀ line ∈ introduction ++ domains.map (domainText edition),
      '\n' ∉ line.toList ∧ isTitle line.toList = false := by
    intro line member
    rcases List.mem_append.mp member with fixed | listed
    · obtain ⟨clean, plain, -⟩ := introduction_plain line fixed
      exact ⟨clean, plain⟩
    · obtain ⟨entry, inside, rfl⟩ := List.mem_map.mp listed
      obtain ⟨name, slug⟩ := inert entry inside
      exact ⟨newline_not_mem_domainText name slug, isTitle_domainText⟩
  rw [links, body_ofLines (by decide) (fun line member => (known line member).1)
    (fun line member => (known line member).2)]
  have fixed : introduction.filterMap (linkOf? ·.toList) = [] :=
    List.filterMap_eq_nil_iff.mpr fun line member =>
      (introduction_plain line member).2.2
  have listed : (domains.map (domainText edition)).filterMap
      (linkOf? ·.toList) =
        domains.map fun entry =>
          edition.layout.domainLink (domainSlug entry.1) :=
    filterMap_map_of_forall fun entry member =>
      linkOf?_domainText (inert entry member).1 (inert entry member).2
  rw [filterMap_body rfl, List.filterMap_append, fixed, listed]
  rfl

end Pages

/-! ## The page of a domain -/

/-- The file that the page of a domain includes for a definition. -/
def partialOf (d : Definition) : String := "_partials/" ++ d.slug ++ ".md"

/-- The line that includes it, without the line break that ends it. -/
def includeText (d : Definition) : String :=
  "\x7b\x7b% include file=\"" ++ partialOf d ++ "\"" ++ " %\x7d\x7d"

/-- The lines of the definitions of one kind. -/
def sectionLines (title : String) (ds : List Definition) : List String :=
  if ds.isEmpty then []
  else ["## " ++ title, ""] ++ ds.map includeText ++ [""]

theorem includeText_eq (d : Definition) :
    includeText d =
      "\x7b\x7b% include file=\"_partials/" ++ d.slug ++ ".md\" %\x7d\x7d" := by
  have text : includeText d =
      "\x7b\x7b% include file=\"" ++ ("_partials/" ++ d.slug ++ ".md") ++
        "\"" ++ " %\x7d\x7d" := rfl
  have opening : "\x7b\x7b% include file=\"_partials/" =
      "\x7b\x7b% include file=\"" ++ "_partials/" := by decide
  have ending : ".md\" %\x7d\x7d" = ".md" ++ ("\"" ++ " %\x7d\x7d") := by
    decide
  rw [text, opening, ending]
  simp only [String.append_assoc]

theorem includeLine_definitionValue (d : Definition) :
    includeLine (Page.definitionValue d) = some (includeText d ++ "\n") := by
  have slug : (Page.definitionValue d).part? "slug" =
      some (.string d.slug) := by
    simp [Page.definitionValue, Value.part?, Value.lookup, List.lookup_cons]
  have line : includeLine (Page.definitionValue d) = some
      ("\x7b\x7b% include file=\"_partials/" ++ d.slug ++
        ".md\" %\x7d\x7d\n") := by
    rw [includeLine, slug]
    rfl
  have ending : ".md\" %\x7d\x7d\n" = ".md\" %\x7d\x7d" ++ "\n" := by
    decide
  rw [line, includeText_eq, ending]
  simp only [String.append_assoc]

/-- The section of the definitions of one kind. -/
def includeSection (title : String) (ds : List Definition) : Option String :=
  ofElements (.list (ds.map Page.definitionValue)) fun vs =>
    ((forEach includeLine vs).map (· ++ "\n")).map fun body =>
      "## " ++ title ++ "\n\n" ++ body

theorem includeSection_eq (title : String) (ds : List Definition) :
    includeSection title ds = some (ofLines (sectionLines title ds)) := by
  have lines : forEach includeLine (ds.map Page.definitionValue) =
      some (String.join (ds.map (includeText · ++ "\n"))) :=
    forEach_map fun d _ => includeLine_definitionValue d
  cases ds with
  | nil => rfl
  | cons d ds =>
      have filled :
          (Value.list ((d :: ds).map Page.definitionValue)).isTrue = true :=
        rfl
      rw [includeSection, ofElements, if_pos filled, Value.elements?,
        Option.bind_some, lines, Option.map_some, Option.map_some,
        Option.some_inj, ← String.toList_inj]
      simp [ofLines, sectionLines, Function.comp_def]

theorem includeOf?_includeText {d : Definition} (inert : Inert d.slug.toList) :
    includeOf? (includeText d).toList = some (partialOf d) := by
  refine includeOf?_line ?_ _
  have mark := inert.not_mem (c := '"') rfl
  simp [partialOf, mark]

theorem includeText_plain {d : Definition} (inert : Inert d.slug.toList) :
    '\n' ∉ (includeText d).toList ∧
      isTitle (includeText d).toList = false := by
  have newline := inert.not_mem (c := '\n') rfl
  rw [includeText_eq, String.append_assoc, String.toList_append]
  constructor
  · simp [newline]
  · rfl

theorem sectionLines_plain
    {title : String} {ds : List Definition} (oneLine : '\n' ∉ title.toList)
    (inert : ∀ d ∈ ds, Inert d.slug.toList) :
    ∀ line ∈ sectionLines title ds,
      '\n' ∉ line.toList ∧ isTitle line.toList = false := by
  intro line member
  rw [sectionLines] at member
  split at member
  · cases member
  · simp only [List.mem_append, List.mem_cons, List.not_mem_nil, or_false,
      List.mem_map] at member
    rcases member with ((rfl | rfl) | ⟨d, inside, rfl⟩) | rfl
    · rw [String.toList_append]
      exact ⟨by simpa using oneLine, rfl⟩
    · decide
    · exact includeText_plain (inert d inside)
    · decide

theorem filterMap_sectionLines
    {title : String} {ds : List Definition}
    (inert : ∀ d ∈ ds, Inert d.slug.toList) :
    (sectionLines title ds).filterMap (includeOf? ·.toList) =
      ds.map partialOf := by
  have listed : (ds.map includeText).filterMap (includeOf? ·.toList) =
      ds.map partialOf :=
    filterMap_map_of_forall fun d member => includeOf?_includeText (inert d member)
  have opening : includeOf? ("## " ++ title).toList = none := by
    simp [includeOf?, enclosed?]
  have empty : includeOf? "".toList = none := rfl
  cases ds with
  | nil => rfl
  | cons d ds =>
      rw [sectionLines, if_neg (by simp), List.filterMap_append,
        List.filterMap_append, listed]
      simp only [List.filterMap_cons, opening, empty, List.filterMap_nil,
        List.nil_append, List.append_nil]

section Domain

variable {edition : Edition} {domain : String} {ds : DomainDefinitions}

theorem page?_ofDomain
    (destination domain : String) (ds : DomainDefinitions)
    (nested : edition.layout = .nested) :
    let page := Page.ofDomain edition destination domain ds
    ∃ before, page.template.page? page.context = some
      (before ++ "\n" ++ ofLines (("# " ++ (domain ++ " domain")) ::
        ("" :: (sectionLines "Commands" ds.commands ++
          sectionLines "Queries" ds.queries)))) := by
  intro page
  have template : page.template = .domainIndex := by
    simp only [page, Page.ofDomain, nested]
  refine ⟨head domain ++ versionLine edition.versionValue ++ "---\n", ?_⟩
  have bound : page.template.page? page.context =
      (kindSections (Page.definitionsValue ds) fun vs =>
        (forEach includeLine vs).map (· ++ "\n")).bind fun sections =>
          some (String.join [
            head domain, versionLine edition.versionValue, "---\n\n",
            "# ", domain, " domain\n\n", sections]) := by
    rw [template]
    rfl
  have sections : (kindSections (Page.definitionsValue ds) fun vs =>
      (forEach includeLine vs).map (· ++ "\n")) =
        some (ofLines (sectionLines "Commands" ds.commands) ++
          ofLines (sectionLines "Queries" ds.queries)) := by
    have parts : (kindSections (Page.definitionsValue ds) fun vs =>
        (forEach includeLine vs).map (· ++ "\n")) =
          (includeSection "Commands" ds.commands).bind fun commands =>
            (includeSection "Queries" ds.queries).bind fun queries =>
              some (commands ++ queries) := rfl
    rw [parts, includeSection_eq, includeSection_eq]
    rfl
  rw [bound, sections, Option.bind_some, Option.some_inj, ← String.toList_inj]
  simp [ofLines]

/-- The page of a domain in the nested layout includes each of its definitions
once, in their order. -/
theorem includes_ofDomain
    (destination : String) (nested : edition.layout = .nested)
    (name : Inert domain.toList)
    (inert : ∀ d ∈ ds.commands ++ ds.queries, Inert d.slug.toList) :
    let page := Page.ofDomain edition destination domain ds
    ∃ text, page.template.render page.context = .ok text ∧
      includes text = (ds.commands ++ ds.queries).map partialOf := by
  intro page
  obtain ⟨before, done⟩ := page?_ofDomain destination domain ds nested
  have commands : ∀ d ∈ ds.commands, Inert d.slug.toList :=
    fun d member => inert d (List.mem_append_left _ member)
  have queries : ∀ d ∈ ds.queries, Inert d.slug.toList :=
    fun d member => inert d (List.mem_append_right _ member)
  have oneLine : '\n' ∉ (domain ++ " domain").toList := by
    have newline := name.not_mem (c := '\n') rfl
    simp [newline]
  have known : ∀ line ∈ "" :: (sectionLines "Commands" ds.commands ++
      sectionLines "Queries" ds.queries),
      '\n' ∉ line.toList ∧ isTitle line.toList = false := by
    intro line member
    rcases List.mem_cons.mp member with rfl | inSection
    · decide
    · rcases List.mem_append.mp inSection with first | second
      · exact sectionLines_plain (by decide) commands line first
      · exact sectionLines_plain (by decide) queries line second
  refine ⟨_, by rw [render, done], ?_⟩
  rw [includes, body_ofLines oneLine (fun line member => (known line member).1)
    (fun line member => (known line member).2), filterMap_body rfl,
    List.filterMap_cons_none rfl, List.filterMap_append,
    filterMap_sectionLines commands, filterMap_sectionLines queries,
    List.map_append]

end Domain

end Template

end BusReference
