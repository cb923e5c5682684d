import Mathlib.Data.List.Nodup
import BusReference.Proofs.Definition.Slugs
import BusReference.Proofs.Printing.Refresh

/-!
# Pages of their own

A printing that succeeds has found no two domains with one slug.  Beyond that
nothing is checked: whether every page has a path of its own depends on the
slugs of the definitions within each domain, and in the flat layout on whether
some domain takes the place of the page that links to the domains.
-/

namespace BusReference

open BusReference.Files
open BusReference.Files.Path
open BusReference.Php (Index)

/-! ## Slugs of domains -/

namespace Printing

/-- A search without a result has found all slugs different. -/
theorem nodup_of_sharedSlug?
    {seen domains : List String} (none : sharedSlug? seen domains = none) :
    (domains.map domainSlug).Nodup ∧
      ∀ domain ∈ domains, ∀ other ∈ seen,
        domainSlug other ≠ domainSlug domain := by
  induction domains generalizing seen with
  | nil => exact ⟨List.nodup_nil, fun _ member => nomatch member⟩
  | cons domain domains ih =>
      rw [sharedSlug?] at none
      split at none
      · cases none
      · rename_i fresh
        obtain ⟨distinct, apart⟩ := ih none
        rw [List.find?_eq_none] at fresh
        constructor
        · rw [List.map_cons, List.nodup_cons]
          refine ⟨?_, distinct⟩
          intro member
          obtain ⟨later, listed, same⟩ := List.mem_map.mp member
          exact apart later listed domain List.mem_cons_self same.symm
        · intro later listed other earlier
          rcases List.mem_cons.mp listed with rfl | inside
          · simpa using fresh other earlier
          · exact apart later inside other (List.mem_cons_of_mem _ earlier)

theorem Admits.nodup_domainSlug
    {edition : Edition} {grouping : Grouping}
    (admits : Admits edition grouping) :
    (grouping.inhabited.map (domainSlug ·.1)).Nodup := by
  have checked := admits.2
  rw [checkSlugs] at checked
  split at checked
  · cases checked
  · rename_i none
    have distinct := (nodup_of_sharedSlug? none).1
    rwa [List.map_map] at distinct

end Printing

/-! ## Ways of pages -/

namespace Page

/-- The ways from the destination to the pages of a domain. -/
def waysOf
    (layout : Layout) (entry : String × DomainDefinitions) :
    List Location :=
  match layout with
  | .flat => [[domainSlug entry.1 ++ ".md"]]
  | .nested =>
      [domainSlug entry.1, "index.md"] ::
        (entry.2.commands ++ entry.2.queries).map fun d =>
          definitionWay (domainSlug entry.1) d.slug

/-- The ways from the destination to all pages, in their order. -/
def ways (layout : Layout) (grouping : Grouping) : List Location :=
  grouping.inhabited.flatMap (waysOf layout) ++ [indexWay]

section Ways

variable
    {edition : Edition} {destination : String} {grouping : Grouping}
    {layout : Layout} {entry : String × DomainDefinitions}

/-- The pages stand at the given ways below the destination. -/
theorem map_way_all (slugs : grouping.SlugsAreNames) :
    (all edition destination grouping).map (way ·.path) =
      (ways edition.layout grouping).map (way destination ++ ·) := by
  rw [all, ways, List.map_append, List.map_append, List.map_flatMap,
    List.map_flatMap]
  congr 1
  · refine List.flatMap_congr fun entry listed => ?_
    have named := slugs.isName listed
    rw [List.map_cons, ofDomain, way_domainFile named, ofDefinitions]
    cases edition.layout with
    | flat => rfl
    | nested =>
        rw [waysOf, List.map_cons, List.map_map, List.map_map]
        congr 1
        refine List.map_congr_left fun d inside => ?_
        exact way_definitionFile named ((slugs entry listed).2.2.2 d inside)
  · simp [ofIndex, way_indexFile]

theorem calm_of_mem_ways
    (slugs : grouping.SlugsAreNames) {relative : Location}
    (member : relative ∈ ways layout grouping) :
    ∀ name ∈ relative, name ≠ ".." := by
  have leaf : ∀ slug : String, '/' ∉ slug.toList → slug ++ ".md" ≠ ".." :=
    fun slug clean => (isName_append_extension clean).2.2.1
  rcases List.mem_append.mp member with inside | last
  · obtain ⟨entry, listed, isWay⟩ := List.mem_flatMap.mp inside
    obtain ⟨clean, -, notDots, definitions⟩ := slugs entry listed
    cases layout with
    | flat =>
        rw [waysOf, List.mem_singleton] at isWay
        simpa [isWay] using leaf _ clean
    | nested =>
        rcases List.mem_cons.mp isWay with rfl | ofDefinition
        · simpa using notDots
        · obtain ⟨d, inDomain, rfl⟩ := List.mem_map.mp ofDefinition
          simpa [definitionWay] using
            ⟨notDots, leaf _ (definitions d inDomain)⟩
  · rw [List.mem_singleton.mp last]
    decide

/-- What the paths of the pages reach is below what the destination does. -/
theorem map_reach_all (slugs : grouping.SlugsAreNames) :
    (all edition destination grouping).map (reach ·.path) =
      (ways edition.layout grouping).map (reach destination ++ ·) := by
  have byWay : (all edition destination grouping).map (reach ·.path) =
      ((all edition destination grouping).map (way ·.path)).map
        (resolve []) := by
    rw [List.map_map]
    rfl
  rw [byWay, map_way_all slugs, List.map_map]
  refine List.map_congr_left fun relative member => ?_
  exact (resolve_append _ _ _).trans
    (resolve_of_calm (calm_of_mem_ways slugs member) _)

/-- The pages of a domain in the nested layout stand below its slug. -/
theorem exists_tail_of_mem_waysOf
    {relative : Location} (member : relative ∈ waysOf .nested entry) :
    ∃ tail : List Name,
      relative = .text (domainSlug entry.1) :: tail ∧ tail ≠ [] := by
  rcases List.mem_cons.mp member with rfl | inside
  · exact ⟨["index.md"], rfl, nofun⟩
  · obtain ⟨d, -, rfl⟩ := List.mem_map.mp inside
    exact ⟨["_partials", d.slug ++ ".md"], rfl, nofun⟩

theorem nodup_waysOf_nested :
    (waysOf .nested entry).Nodup ↔
      ((entry.2.commands ++ entry.2.queries).map (·.slug)).Nodup := by
  have injective : Function.Injective (definitionWay (domainSlug entry.1)) := by
    intro slug other same
    simpa [definitionWay] using same
  have asMap :
      ((entry.2.commands ++ entry.2.queries).map fun d =>
          definitionWay (domainSlug entry.1) d.slug) =
        ((entry.2.commands ++ entry.2.queries).map (·.slug)).map
          (definitionWay (domainSlug entry.1)) := by
    rw [List.map_map]
    rfl
  rw [waysOf, asMap, List.nodup_cons, List.nodup_map_iff injective]
  refine and_iff_right ?_
  intro member
  obtain ⟨slug, -, same⟩ := List.mem_map.mp member
  simp [definitionWay] at same

/--
Every page can have a place of its own: no domain of the flat layout takes that
of the last page, and no two definitions in one domain of the nested layout
share a slug.
-/
def OwnPlaces (layout : Layout) (grouping : Grouping) : Prop :=
  match layout with
  | .flat => ∀ entry ∈ grouping.inhabited, domainSlug entry.1 ≠ "_index"
  | .nested =>
      ∀ entry ∈ grouping.inhabited,
        ((entry.2.commands ++ entry.2.queries).map (·.slug)).Nodup

instance (layout : Layout) (grouping : Grouping) :
    Decidable (OwnPlaces layout grouping) :=
  match layout with
  | .flat => inferInstanceAs (Decidable (∀ entry ∈ grouping.inhabited, _))
  | .nested => inferInstanceAs (Decidable (∀ entry ∈ grouping.inhabited, _))

theorem nodup_ways_flat
    (distinct : (grouping.inhabited.map (domainSlug ·.1)).Nodup) :
    (ways .flat grouping).Nodup ↔ OwnPlaces .flat grouping := by
  have asMap : grouping.inhabited.flatMap (waysOf .flat) =
      (grouping.inhabited.map (domainSlug ·.1)).map fun slug =>
        [.text (slug ++ ".md")] := by
    rw [List.map_map]
    exact List.map_eq_flatMap.symm
  have injective : Function.Injective fun slug : String =>
      [Name.text (slug ++ ".md")] := by
    intro slug other same
    simpa using same
  have index : ∀ slug : String,
      [.text (slug ++ ".md")] ≠ indexWay ↔ slug ≠ "_index" := by
    intro slug
    exact injective.ne_iff (y := "_index")
  rw [ways, List.nodup_append, asMap, List.nodup_map_iff injective, OwnPlaces]
  constructor
  · rintro ⟨-, -, apart⟩ entry listed
    rw [← index]
    refine apart _ ?_ _ List.mem_cons_self
    exact List.mem_map_of_mem (List.mem_map_of_mem listed)
  · intro own
    refine ⟨distinct, List.nodup_singleton _, ?_⟩
    intro relative member last isLast
    obtain ⟨slug, listed, rfl⟩ := List.mem_map.mp member
    obtain ⟨entry, inside, rfl⟩ := List.mem_map.mp listed
    rw [List.mem_singleton.mp isLast]
    exact (index _).mpr (own entry inside)

theorem nodup_ways_nested
    (distinct : (grouping.inhabited.map (domainSlug ·.1)).Nodup) :
    (ways .nested grouping).Nodup ↔ OwnPlaces .nested grouping := by
  rw [ways, List.nodup_append, List.nodup_flatMap, OwnPlaces]
  constructor
  · rintro ⟨⟨each, -⟩, -⟩ entry listed
    exact nodup_waysOf_nested.mp (each entry listed)
  · intro own
    refine ⟨⟨?_, ?_⟩, List.nodup_singleton _, ?_⟩
    · intro entry listed
      exact nodup_waysOf_nested.mpr (own entry listed)
    · refine (List.pairwise_map.mp distinct).imp ?_
      intro entry other apart relative member inOther
      obtain ⟨tail, rfl, -⟩ := exists_tail_of_mem_waysOf member
      obtain ⟨tail', same, -⟩ := exists_tail_of_mem_waysOf inOther
      exact apart (Name.text.inj (List.cons.inj same).1)
    · intro relative member last isLast same
      obtain ⟨entry, listed, inside⟩ := List.mem_flatMap.mp member
      obtain ⟨tail, rfl, more⟩ := exists_tail_of_mem_waysOf inside
      rw [List.mem_singleton.mp isLast, indexWay] at same
      exact more (List.cons.inj same).2

theorem nodup_ways_iff
    (distinct : (grouping.inhabited.map (domainSlug ·.1)).Nodup) :
    (ways layout grouping).Nodup ↔ OwnPlaces layout grouping := by
  cases layout with
  | flat => exact nodup_ways_flat distinct
  | nested => exact nodup_ways_nested distinct

/-- When the paths of the pages are pairwise distinct. -/
theorem nodup_paths_iff
    (slugs : grouping.SlugsAreNames)
    (distinct : (grouping.inhabited.map (domainSlug ·.1)).Nodup) :
    ((all edition destination grouping).map (·.path)).Nodup ↔
      OwnPlaces edition.layout grouping := by
  have byWay : ((all edition destination grouping).map (·.path)).Nodup ↔
      ((all edition destination grouping).map (way ·.path)).Nodup := by
    rw [show (fun page : Page => way page.path) = way ∘ (·.path) from rfl,
      ← List.map_map]
    constructor
    · refine List.Nodup.map_on ?_
      intro path member other inside same
      obtain ⟨page, listed, rfl⟩ := List.mem_map.mp member
      obtain ⟨page', listed', rfl⟩ := List.mem_map.mp inside
      exact Printing.path_eq_of_way_eq slugs listed listed' same
    · exact List.Nodup.of_map _
  have below : Function.Injective (way destination ++ ·) :=
    fun _ _ same => List.append_cancel_left same
  rw [byWay, map_way_all slugs, List.nodup_map_iff below,
    nodup_ways_iff distinct]

theorem nodup_reach_all
    (slugs : grouping.SlugsAreNames)
    (distinct : (grouping.inhabited.map (domainSlug ·.1)).Nodup)
    (own : OwnPlaces edition.layout grouping) :
    ((all edition destination grouping).map (reach ·.path)).Nodup := by
  have below : Function.Injective (reach destination ++ ·) :=
    fun _ _ same => List.append_cancel_left same
  rw [map_reach_all slugs, List.nodup_map_iff below]
  exact (nodup_ways_iff distinct).mpr own

end Ways

end Page

/-! ## Runs over pages with places of their own -/

namespace Printing

section Own

variable
    {render : Renderer} {fs after : FileSystem} {pages : List Page}
    {written skipped : List String}

/--
A run keeps all directories, and a file where none of its pages is to stand.
-/
theorem Completes.keeps_of_endsInName
    (run : Completes render true fs pages after written skipped)
    (tree : fs.IsTree) (ends : ∀ page ∈ pages, EndsInName page.path)
    {place : Location} {node : Node}
    (apart : node = .directory ∨ ∀ page ∈ pages, place ≠ reach page.path)
    (stood : fs.get? place = some node) :
    after.get? place = some node := by
  induction run with
  | done fs => exact stood
  | skip kept rest ih => cases kept
  | @write fs middle after page pages written skipped text notKept rendered
      put rest ih =>
      obtain ⟨treeMiddle, -, -, free, elsewhere⟩ :=
        tree.write_reaches (ends page List.mem_cons_self) put
      refine ih treeMiddle
        (fun other member => ends other (List.mem_cons_of_mem _ member))
        (apart.imp_right fun away other member =>
          away other (List.mem_cons_of_mem _ member))
        (elsewhere place node ?_ stood)
      rcases apart with rfl | away
      · rintro rfl
        exact free stood
      · exact away page List.mem_cons_self

/-- If no two pages reach one place, each of them holds its own text. -/
theorem Completes.holds_own
    (run : Completes render true fs pages after written skipped)
    (tree : fs.IsTree) (ends : ∀ page ∈ pages, EndsInName page.path)
    (distinct : (pages.map (reach ·.path)).Nodup)
    {page : Page} (listed : page ∈ pages) :
    ∃ text, render page.template page.context = .ok text ∧
      after.node? page.path = some (.file text.toUTF8) := by
  induction run with
  | done fs => cases listed
  | skip kept rest ih => cases kept
  | @write fs middle after first pages written skipped text notKept rendered
      put rest ih =>
      obtain ⟨treeMiddle, leads, stands, -, -⟩ :=
        tree.write_reaches (ends first List.mem_cons_self) put
      have endsLater : ∀ page ∈ pages, EndsInName page.path :=
        fun other member => ends other (List.mem_cons_of_mem _ member)
      obtain ⟨alone, distinctLater⟩ := List.nodup_cons.mp distinct
      rcases List.mem_cons.mp listed with rfl | later
      · have leadsAfter : after.Leads [] (way page.path).dropLast :=
          leads.keeps fun _ stood =>
            rest.keeps_of_endsInName treeMiddle endsLater (Or.inl rfl) stood
        refine ⟨text, rendered, ?_⟩
        rw [FileSystem.node?_eq_of_leads (ends page List.mem_cons_self)
          leadsAfter]
        refine rest.keeps_of_endsInName treeMiddle endsLater (Or.inr ?_) stands
        intro other member same
        exact alone (List.mem_map.mpr ⟨other, member, same.symm⟩)
      · exact ih treeMiddle endsLater distinctLater later

end Own

/-! ## The reference -/

section Reference

variable
    {render : Renderer} {edition : Edition} {grouping : Grouping}
    {destination : String} {force : Bool} {fs : FileSystem}

/--
After a printing of handlers in scanned sources that succeeds, the pages have
pairwise distinct paths exactly if each can have its own place.  Then after a
forced printing each page holds its own text.
-/
theorem print_distinct_iff
    {index : Index} {pattern : DomainPattern} {handlers : HandlerMap}
    (scanned : index.Scanned)
    (grouped : Grouping.ofHandlers index pattern handlers = .ok grouping)
    (success :
      (print render edition grouping destination force fs).failure = none) :
    let pages := Page.all edition destination grouping
    let run := print render edition grouping destination force fs
    ((pages.map (·.path)).Nodup ↔
        Page.OwnPlaces edition.layout grouping) ∧
      (force = true → isAbsolute destination = true → fs.IsTree →
        Page.OwnPlaces edition.layout grouping →
        ∀ page ∈ pages, ∃ text,
          render page.template page.context = .ok text ∧
            run.files.node? page.path = some (.file text.toUTF8)) := by
  intro pages run
  have slugs : grouping.SlugsAreNames :=
    (Grouping.slugsAreInert_of_ofHandlers scanned.inert grouped).slugsAreNames
  have domains := (admits_of_print success).nodup_domainSlug
  refine ⟨Page.nodup_paths_iff slugs domains, ?_⟩
  rintro rfl absolute tree own page listed
  exact (completes_of_print success).holds_own (tree.removeTree destination)
    (fun other member => Page.endsInName_all absolute slugs member)
    (Page.nodup_reach_all slugs domains own) listed

end Reference

/-! ## Two definitions in one place -/

/-- A class with an empty method that makes up a source text. -/
structure Sample where
  namespaceName : String
  name : String
  method : String

def Sample.text (sample : Sample) : String :=
  "<?php namespace " ++ sample.namespaceName ++ "; class " ++ sample.name ++
    " \x7b function " ++ sample.method ++ "() \x7b\x7d \x7d"

theorem Sample.toList_text (sample : Sample) :
    sample.text.toList =
      "<?php namespace ".toList ++ sample.namespaceName.toList ++
        "; class ".toList ++ sample.name.toList ++ " \x7b function ".toList ++
        sample.method.toList ++ "() \x7b\x7d \x7d".toList := by
  unfold Sample.text
  simp only [String.toList_append]

def Sample.declaration (sample : Sample) : Php.Declaration where
  name := sample.namespaceName ++ "\\" ++ sample.name
  kind := .classType
  methods := [{ name := sample.method }]
  source := some sample.text

/-- The handler of a command and the command. -/
def addTax : Sample × Sample :=
  (⟨"Tests", "AddTax", "handle"⟩,
    ⟨"Tests\\Resources\\Domain\\Tax\\Command", "Tax", "__construct"⟩)

/-- The handler of a query and the query, with the short name of the command. -/
def getTax : Sample × Sample :=
  (⟨"Tests", "GetTax", "handle"⟩,
    ⟨"Tests\\Resources\\Domain\\Tax\\Query", "Tax", "__construct"⟩)

def taxSamples : List Sample := [addTax.2, getTax.2, addTax.1, getTax.1]

def taxIndex : Index :=
  taxSamples.foldl (fun index sample =>
    index.registerAll [sample.declaration]) {}

theorem taxIndex_scanned : taxIndex.Scanned := by
  have read : ∀ sample ∈ taxSamples,
      Php.SourceFile.read sample.text none = .ok [sample.declaration] := by
    simp only [Php.SourceFile.read, Php.Token.read, Sample.toList_text,
      String.reduceToList]
    decide +kernel
  have scanned : ∀ samples : List Sample, samples ⊆ taxSamples →
      ∀ index : Index, index.Scanned →
        (samples.foldl (fun index sample =>
          index.registerAll [sample.declaration]) index).Scanned := by
    intro samples known
    induction samples with
    | nil => exact fun index start => start
    | cons sample samples ih =>
        intro index start
        exact ih (fun other member => known (List.mem_cons_of_mem _ member)) _
          (.source start (read sample (known List.mem_cons_self)))
  exact scanned taxSamples (List.Subset.refl _) {} .empty

def taxHandlers (pairs : List (Sample × Sample)) : HandlerMap :=
  ⟨pairs.map fun pair =>
    (pair.1.declaration.name, pair.2.declaration.name)⟩

/-- What is read about one of the two. -/
def taxDefinition (pair : Sample × Sample) : Definition where
  kind := .ofClass pair.2.declaration.name
  domain := "Tax"
  handlerClass := pair.1.declaration.name
  commandClass := pair.2.declaration.name
  constructorParameters := []
  description := ""
  returnType := "void"
  handlerInterfaces := []
  simpleClassName := "Tax"
  slug := "tax"

theorem read_taxDefinition :
    ∀ pair ∈ [addTax, getTax],
      Definition.read taxIndex .testFixtures pair.1.declaration.name
          pair.2.declaration.name =
        .ok (taxDefinition pair) := by
  have found : ∀ pair ∈ [addTax, getTax],
      taxIndex.find? pair.1.declaration.name = some pair.1.declaration ∧
        taxIndex.find? pair.2.declaration.name =
          some pair.2.declaration := by
    decide
  have own : ∀ pair ∈ [addTax, getTax],
      pair.1.declaration.method? Definition.handleMethod =
        some { name := "handle" } := by
    decide +kernel
  intro pair member
  obtain ⟨handlerFound, commandFound⟩ := found pair member
  rw [Definition.read_of_bare commandFound handlerFound rfl rfl
    (own pair member) rfl]
  revert pair
  decide +kernel

/-- The grouping of what is read about the given handlers. -/
def taxGrouping (pairs : List (Sample × Sample)) : Grouping :=
  (pairs.map taxDefinition).foldl Grouping.add {}

theorem grouped_tax
    {pairs : List (Sample × Sample)} (known : pairs ⊆ [addTax, getTax]) :
    Grouping.ofHandlers taxIndex .testFixtures (taxHandlers pairs) =
      .ok (taxGrouping pairs) := by
  rw [Grouping.ofHandlers, Grouping.collect, taxHandlers, taxGrouping]
  generalize ({} : Grouping) = start
  induction pairs generalizing start with
  | nil => rfl
  | cons pair pairs ih =>
      rw [List.map_cons, Grouping.addAll,
        read_taxDefinition pair (known List.mem_cons_self)]
      exact ih (fun p member => known (List.mem_cons_of_mem _ member)) _

/-- The kind of the definition that a page is about. -/
def shownKind (context : Template.Value) : String :=
  match (context.variableIn "definition").part? "kind" with
  | some (.string kind) => kind
  | _ => ""

/-- Prints pages that show nothing but the kind of their definition. -/
def printTax (pairs : List (Sample × Sample)) : Run :=
  print (fun _ context => .ok (shownKind context)) ⟨.nested, some "1"⟩
    (taxGrouping pairs) "/docs" true {}

/-- The command alone has a page of its own. -/
theorem print_distinct_iff_addTax :
    (printTax [addTax]).failure = none ∧
      ∀ page ∈ Page.all ⟨.nested, some "1"⟩ "/docs" (taxGrouping [addTax]),
        (printTax [addTax]).files.node? page.path =
          some (.file (shownKind page.context).toUTF8) := by
  have success : (printTax [addTax]).failure = none :=
    Option.isNone_iff_eq_none.mp (by decide +kernel)
  obtain ⟨-, own⟩ :=
    print_distinct_iff taxIndex_scanned (grouped_tax (by simp))
      success
  refine ⟨success, ?_⟩
  intro page listed
  obtain ⟨text, rendered, stands⟩ := own rfl (by decide) (by decide)
    (by decide) page listed
  cases rendered
  exact stands

/--
The page of the query takes the place of that of the command: the printing
succeeds, reports the path twice and leaves no page of the command.
-/
theorem print_shares_path :
    taxIndex.Scanned ∧
      Grouping.ofHandlers taxIndex .testFixtures
          (taxHandlers [addTax, getTax]) =
        .ok (taxGrouping [addTax, getTax]) ∧
      (printTax [addTax, getTax]).failure = none ∧
      (printTax [addTax, getTax]).written =
        ["/docs/tax/index.md", "/docs/tax/_partials/tax.md",
          "/docs/tax/_partials/tax.md", "/docs/_index.md"] ∧
      (printTax [addTax, getTax]).files.node? "/docs/tax/_partials/tax.md" =
        some (.file "query".toUTF8) ∧
      ¬ ((Page.all ⟨.nested, some "1"⟩ "/docs"
        (taxGrouping [addTax, getTax])).map (·.path)).Nodup := by
  refine ⟨taxIndex_scanned, grouped_tax (List.Subset.refl _), ?_⟩
  rw [← Option.isNone_iff_eq_none]
  decide +kernel

end Printing

end BusReference
