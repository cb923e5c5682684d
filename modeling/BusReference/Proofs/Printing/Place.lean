import BusReference.Proofs.Printing.Writing
import BusReference.Proofs.Text.LowerCase

/-!
# The places of pages

Every page of a grouping stands strictly below the destination, at a way of
one to three names that depends on the layout.  As long as the slugs are names,
no page stands on the way to another one, except that a domain of the nested
layout can take up the place of the page that links to the domains.
-/

namespace BusReference

open BusReference.Files
open BusReference.Files.Path

/-! ## Slugs -/

/--
The slugs of all printed domains and definitions name something in a
directory: none holds a slash, and no domain slug is one or two dots.
-/
def Grouping.SlugsAreNames (grouping : Grouping) : Prop :=
  ∀ entry ∈ grouping.inhabited,
    '/' ∉ (domainSlug entry.1).toList ∧
      domainSlug entry.1 ≠ "." ∧ domainSlug entry.1 ≠ ".." ∧
      ∀ definition ∈ entry.2.commands ++ entry.2.queries,
        '/' ∉ definition.slug.toList

instance (grouping : Grouping) : Decidable grouping.SlugsAreNames :=
  inferInstanceAs (Decidable (∀ entry ∈ grouping.inhabited, _))

theorem Text.Kebab.kebab_ne_empty
    {identifier : String} (nonempty : identifier ≠ "") :
    Text.Kebab.kebab identifier ≠ "" := by
  cases text : identifier.toList with
  | nil => exact absurd (by simpa using text) nonempty
  | cons c cs =>
      intro empty
      have chars := congrArg String.toList empty
      have start := Text.CaseMapping.lower_ne_nil c
      simp [Text.Kebab.kebab, text, Text.Kebab.kebabAfter, start] at chars

theorem domainSlug_ne_empty (domain : String) : domainSlug domain ≠ "" := by
  rw [domainSlug]
  split
  · decide
  · rename_i nonempty
    exact Text.Kebab.kebab_ne_empty (by simpa using nonempty)

theorem Grouping.SlugsAreNames.isName
    {grouping : Grouping} (slugs : grouping.SlugsAreNames)
    {entry : String × DomainDefinitions}
    (member : entry ∈ grouping.inhabited) :
    IsName (domainSlug entry.1) := by
  obtain ⟨clean, notDot, notDots, -⟩ := slugs entry member
  exact ⟨domainSlug_ne_empty entry.1, notDot, notDots, clean⟩

/-! ## Ways below the destination -/

/-- The way from the destination to the page of a domain. -/
def Layout.domainWay (layout : Layout) (slug : String) : Location :=
  match layout with
  | flat => [slug ++ ".md"]
  | nested => [slug, "index.md"]

/-- The way from the destination to the page of a definition. -/
def definitionWay (domainSlug slug : String) : Location :=
  [domainSlug, "_partials", slug ++ ".md"]

/-- The way from the destination to the page that links to the domains. -/
def indexWay : Location := ["_index.md"]

section Files

variable {destination slug : String}

theorem way_domainFile (named : IsName slug) (layout : Layout) :
    way (layout.domainFile destination slug) =
      way destination ++ layout.domainWay slug := by
  cases layout with
  | flat =>
      exact way_join (isName_append_extension named.2.2.2)
  | nested =>
      have index : IsName "index.md" := by decide
      rw [Layout.domainFile, way_join index, way_join named,
        Layout.domainWay]
      simp

theorem way_definitionFile
    (named : IsName slug)
    {definitionSlug : String} (clean : '/' ∉ definitionSlug.toList) :
    way (definitionFile destination slug definitionSlug) =
      way destination ++ definitionWay slug definitionSlug := by
  have partials : IsName "_partials" := by decide
  rw [definitionFile, way_join (isName_append_extension clean),
    way_join partials, way_join named, definitionWay]
  simp

theorem way_indexFile :
    way (indexFile destination) = way destination ++ indexWay :=
  way_join (by decide)

end Files

/-! ## Pages of a grouping -/

namespace Page

/-- The pages of the domains and of their definitions. -/
def ofDomains
    (edition : Edition) (destination : String) (grouping : Grouping) :
    List Page :=
  grouping.inhabited.flatMap fun (domain, definitions) =>
    ofDomain edition destination domain definitions ::
      ofDefinitions edition destination domain definitions

/-- The page that links to the domains comes last. -/
theorem all_eq
    (edition : Edition) (destination : String) (grouping : Grouping) :
    all edition destination grouping =
      ofDomains edition destination grouping ++
        [ofIndex edition destination grouping.inhabited] :=
  rfl

section Grouped

variable
    {edition : Edition} {destination : String} {grouping : Grouping}
    {page other : Page}

/-- A page that is not the last one belongs to a domain or a definition. -/
theorem mem_ofDomains_iff :
    page ∈ ofDomains edition destination grouping ↔
      ∃ entry ∈ grouping.inhabited,
        page = ofDomain edition destination entry.1 entry.2 ∨
          edition.layout = .nested ∧
            ∃ definition ∈ entry.2.commands ++ entry.2.queries,
              page = ofDefinition edition destination entry.1
                definition := by
  have definitions : ∀ entry : String × DomainDefinitions,
      page ∈ ofDefinitions edition destination entry.1 entry.2 ↔
        edition.layout = .nested ∧
          ∃ definition ∈ entry.2.commands ++ entry.2.queries,
            page = ofDefinition edition destination entry.1
              definition := by
    intro entry
    rw [ofDefinitions]
    cases edition.layout with
    | flat => simp
    | nested =>
        rw [List.mem_map]
        constructor
        · rintro ⟨definition, member, rfl⟩
          exact ⟨rfl, definition, member, rfl⟩
        · rintro ⟨-, definition, member, rfl⟩
          exact ⟨definition, member, rfl⟩
  rw [ofDomains, List.mem_flatMap]
  constructor
  · rintro ⟨entry, member, inside⟩
    refine ⟨entry, member, ?_⟩
    rw [← definitions entry]
    exact List.mem_cons.mp inside
  · rintro ⟨entry, member, inside⟩
    refine ⟨entry, member, ?_⟩
    rw [← definitions entry] at inside
    exact List.mem_cons.mpr inside

/-- Where the pages of domains and definitions stand. -/
theorem exists_way_of_mem_ofDomains
    (slugs : grouping.SlugsAreNames)
    (member : page ∈ ofDomains edition destination grouping) :
    ∃ slug : String, IsName slug ∧
      (∃ entry ∈ grouping.inhabited, domainSlug entry.1 = slug) ∧
      (page.path = edition.layout.domainFile destination slug ∨
        edition.layout = .nested ∧ ∃ definitionSlug,
          '/' ∉ definitionSlug.toList ∧
            page.path = definitionFile destination slug definitionSlug) := by
  obtain ⟨entry, listed, rfl | ⟨nested, definition, inside, rfl⟩⟩ :=
    mem_ofDomains_iff.mp member
  · exact ⟨_, slugs.isName listed, ⟨entry, listed, rfl⟩, Or.inl rfl⟩
  · exact ⟨_, slugs.isName listed, ⟨entry, listed, rfl⟩, Or.inr
      ⟨nested, definition.slug,
        (slugs entry listed).2.2.2 definition inside, rfl⟩⟩

/--
The path of a page is a name joined to a base, which has every property of the
destination that names keep.
-/
theorem exists_join_of_mem_all
    {Root : String → Prop} (root : Root destination)
    (grows : ∀ base (name : String), Root base → IsName name →
      Root (join base name))
    (slugs : grouping.SlugsAreNames)
    (member : page ∈ all edition destination grouping) :
    ∃ base, ∃ name : String,
      page.path = join base name ∧ Root base ∧ IsName name := by
  rw [all_eq] at member
  rcases List.mem_append.mp member with inside | last
  · obtain ⟨slug, named, -, path | ⟨-, definitionSlug, clean, path⟩⟩ :=
      exists_way_of_mem_ofDomains slugs inside
    · rw [path]
      cases edition.layout with
      | flat =>
          exact ⟨destination, _, rfl, root,
            isName_append_extension named.2.2.2⟩
      | nested =>
          exact ⟨join destination slug, _, rfl, grows _ _ root named,
            by decide⟩
    · have inDomain : Root (join destination slug) := grows _ _ root named
      rw [path]
      exact ⟨join (join destination slug) "_partials", _, rfl,
        grows _ _ inDomain (by decide), isName_append_extension clean⟩
  · rw [List.mem_singleton.mp last]
    exact ⟨destination, "_index.md", rfl, root, by decide⟩

/-- Every page of a direct destination has a direct path to a name. -/
theorem placed_all
    (direct : IsDirect destination) (slugs : grouping.SlugsAreNames) :
    Printing.Placed (all edition destination grouping) :=
  fun _ member =>
    exists_join_of_mem_all direct (fun _ _ above named => above.join named)
      slugs member

/-- Every page of an absolute destination has an absolute path to a name. -/
theorem endsInName_all
    (absolute : isAbsolute destination = true)
    (slugs : grouping.SlugsAreNames)
    (member : page ∈ all edition destination grouping) :
    EndsInName page.path :=
  exists_join_of_mem_all absolute
    (fun _ _ above named => isAbsolute_join above named.2.2.2) slugs member

/-- Every page stands strictly below the destination. -/
theorem exists_below_of_mem_all
    (slugs : grouping.SlugsAreNames)
    (member : page ∈ all edition destination grouping) :
    ∃ relative, relative ≠ [] ∧
      way page.path = way destination ++ relative := by
  rw [all_eq] at member
  rcases List.mem_append.mp member with inside | last
  · obtain ⟨slug, named, -, path | ⟨-, definitionSlug, clean, path⟩⟩ :=
      exists_way_of_mem_ofDomains slugs inside
    · refine ⟨edition.layout.domainWay slug, ?_, ?_⟩
      · cases edition.layout <;> simp [Layout.domainWay]
      · rw [path, way_domainFile named]
    · refine ⟨definitionWay slug definitionSlug, by simp [definitionWay], ?_⟩
      rw [path, way_definitionFile named clean]
  · rw [List.mem_singleton.mp last]
    exact ⟨indexWay, by simp [indexWay], way_indexFile⟩

/--
No page of a domain or a definition stands on the way to another one: if it
seems to, both have one path.
-/
theorem path_eq_of_way_isPrefix
    (slugs : grouping.SlugsAreNames)
    (first : page ∈ ofDomains edition destination grouping)
    (second : other ∈ ofDomains edition destination grouping)
    (onWay : way other.path <+: way page.path) :
    other.path = page.path := by
  obtain ⟨slug, named, -, path | ⟨nested, leaf, clean, path⟩⟩ :=
    exists_way_of_mem_ofDomains slugs first
  all_goals
    obtain ⟨slug', named', -, path' | ⟨nested', leaf', clean', path'⟩⟩ :=
      exists_way_of_mem_ofDomains slugs second
  · rw [path, path', way_domainFile named, way_domainFile named',
      List.prefix_append_right_inj] at onWay
    rw [path, path']
    cases layout : edition.layout with
    | flat =>
        simp only [layout, Layout.domainWay, List.cons_prefix_cons,
          Name.text.injEq] at onWay
        simp only [Layout.domainFile, onWay.1]
    | nested =>
        simp only [layout, Layout.domainWay, List.cons_prefix_cons,
          Name.text.injEq] at onWay
        simp only [Layout.domainFile, onWay.1]
  · rw [path, path', way_domainFile named, way_definitionFile named' clean',
      List.prefix_append_right_inj, nested'] at onWay
    simp [Layout.domainWay, definitionWay] at onWay
  · rw [path, path', way_definitionFile named clean, way_domainFile named',
      List.prefix_append_right_inj, nested] at onWay
    simp [Layout.domainWay, definitionWay] at onWay
  · rw [path, path', way_definitionFile named clean,
      way_definitionFile named' clean',
      List.prefix_append_right_inj] at onWay
    simp only [definitionWay, List.cons_prefix_cons, Name.text.injEq] at onWay
    rw [path, path', definitionFile, definitionFile, onWay.1, onWay.2.2.1]

/--
In the nested layout a domain whose slug is the name of the page that links to
the domains has its directory in the place of that page.
-/
def hidesIndex (edition : Edition) (grouping : Grouping) : Bool :=
  edition.layout == .nested &&
    grouping.inhabited.any fun entry => domainSlug entry.1 == "_index.md"

/-- A hidden page stands on the way to the page of a domain. -/
theorem exists_below_of_hidesIndex
    (slugs : grouping.SlugsAreNames)
    (hidden : hidesIndex edition grouping = true) :
    ∃ page ∈ all edition destination grouping,
      way page.path = way (indexFile destination) ++ [.text "index.md"] := by
  rw [hidesIndex, Bool.and_eq_true, List.any_eq_true] at hidden
  obtain ⟨nested, entry, listed, same⟩ := hidden
  have layout : edition.layout = .nested := by simpa using nested
  have slug : domainSlug entry.1 = "_index.md" := by simpa using same
  refine ⟨ofDomain edition destination entry.1 entry.2, ?_, ?_⟩
  · rw [all_eq]
    exact List.mem_append_left _
      (mem_ofDomains_iff.mpr ⟨entry, listed, Or.inl rfl⟩)
  · rw [ofDomain, way_domainFile (slugs.isName listed), way_indexFile,
      layout, slug, List.append_assoc]
    rfl

/--
No page stands on the way to a page with another path, unless it is the last
one and hidden.
-/
theorem eq_or_hidesIndex_of_way_isPrefix
    (slugs : grouping.SlugsAreNames)
    (first : page ∈ all edition destination grouping)
    (second : other ∈ all edition destination grouping)
    (onWay : way other.path <+: way page.path) :
    other.path = page.path ∨
      hidesIndex edition grouping = true ∧
        other.path = indexFile destination := by
  rw [all_eq, List.mem_append, List.mem_singleton] at first second
  rcases first with first | rfl
  · rcases second with second | rfl
    · exact Or.inl (path_eq_of_way_isPrefix slugs first second onWay)
    · rw [ofIndex, way_indexFile] at onWay
      obtain ⟨slug, named, ⟨entry, listed, same⟩,
        path | ⟨nested, leaf, clean, path⟩⟩ :=
        exists_way_of_mem_ofDomains slugs first
      · rw [path, way_domainFile named,
          List.prefix_append_right_inj] at onWay
        cases layout : edition.layout with
        | flat =>
            left
            simp only [layout, indexWay, Layout.domainWay,
              List.cons_prefix_cons, Name.text.injEq] at onWay
            rw [path, ofIndex, layout, Layout.domainFile, indexFile,
              ← onWay.1]
        | nested =>
            right
            simp only [layout, indexWay, Layout.domainWay,
              List.cons_prefix_cons, Name.text.injEq] at onWay
            rw [hidesIndex, layout, Bool.and_eq_true, List.any_eq_true]
            exact ⟨⟨rfl, entry, listed, by simp [same, ← onWay.1]⟩, rfl⟩
      · right
        rw [path, way_definitionFile named clean,
          List.prefix_append_right_inj] at onWay
        simp only [indexWay, definitionWay, List.cons_prefix_cons,
          Name.text.injEq] at onWay
        rw [hidesIndex, nested, Bool.and_eq_true, List.any_eq_true]
        exact ⟨⟨rfl, entry, listed, by simp [same, ← onWay.1]⟩, rfl⟩
  · left
    rcases second with second | rfl
    · rw [ofIndex, way_indexFile] at onWay
      obtain ⟨slug, named, -, path | ⟨nested, leaf, clean, path⟩⟩ :=
        exists_way_of_mem_ofDomains slugs second
      · rw [path, way_domainFile named,
          List.prefix_append_right_inj] at onWay
        cases layout : edition.layout with
        | flat =>
            simp only [layout, indexWay, Layout.domainWay,
              List.cons_prefix_cons, Name.text.injEq] at onWay
            rw [path, ofIndex, layout, Layout.domainFile, indexFile,
              onWay.1]
        | nested =>
            simp [layout, indexWay, Layout.domainWay] at onWay
      · rw [path, way_definitionFile named clean,
          List.prefix_append_right_inj] at onWay
        simp [indexWay, definitionWay] at onWay
    · rfl

end Grouped

end Page

end BusReference
