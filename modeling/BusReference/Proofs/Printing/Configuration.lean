import BusReference.Proofs.Definition.Collecting
import BusReference.Proofs.Printing.Refusal
import BusReference.Proofs.Text.Trimming

/-!
# Printings with a wrong configuration

The only errors of a printing that are about its configuration are found before
the first file is touched: the layout needs a version and none can be seen, or
two domains with definitions have one slug.  Where neither is the case, every
domain has a page of its own, whatever its slug is made of besides slashes.
-/

namespace BusReference

open BusReference.Files
open BusReference.Files.Path
open BusReference.Text.Blank (IsBlank)

/-! ## What is wrong -/

/-- Nothing can be seen of the version: there is none, or it is blank. -/
def Unversioned (version : Option String) : Prop :=
  ∀ v ∈ version, IsBlank v.toList

/-- Two different domains that have definitions have the same slug. -/
def Grouping.SharesSlug (grouping : Grouping) : Prop :=
  ∃ first ∈ grouping.domains, ∃ second ∈ grouping.domains,
    first.2.isEmpty = false ∧ second.2.isEmpty = false ∧
      first.1 ≠ second.1 ∧ domainSlug first.1 = domainSlug second.1

/-- The nested layout has no version to show, or two domains collide. -/
def Misconfigured
    (layout : Layout) (version : Option String) (grouping : Grouping) : Prop :=
  layout = .nested ∧ Unversioned version ∨ grouping.SharesSlug

theorem Edition.version_of_eq_none_iff
    (layout : Layout) {version : Option String} :
    (of layout version).version = none ↔ Unversioned version := by
  rw [of, Option.filter_eq_none_iff, Unversioned]
  refine forall₂_congr fun v given => ?_
  rw [← Text.Blank.trim_eq_nil_iff, Text.Blank.trimText]
  simp

theorem Grouping.mem_inhabited_iff
    {grouping : Grouping} {entry : String × DomainDefinitions} :
    entry ∈ grouping.inhabited ↔
      entry ∈ grouping.domains ∧ entry.2.isEmpty = false := by
  rw [inhabited, List.mem_filter]
  simp

/-- As domains are listed once, a slug that occurs twice is shared. -/
theorem Grouping.nodup_domainSlug_iff
    {grouping : Grouping} (ascending : Ascending grouping.domains) :
    (grouping.inhabited.map (domainSlug ·.1)).Nodup ↔
      ¬ grouping.SharesSlug := by
  have once : grouping.inhabited.Pairwise fun first second =>
      first.1 ≠ second.1 :=
    (ascending.sublist List.filter_sublist).imp fun less => ne_of_lt less
  constructor
  · rintro distinct
      ⟨first, listed, second, listed', some, some', apart, same⟩
    have equal := List.inj_on_of_nodup_map distinct
      (mem_inhabited_iff.mpr ⟨listed, some⟩)
      (mem_inhabited_iff.mpr ⟨listed', some'⟩) same
    exact apart (congrArg (·.1) equal)
  · intro unshared
    rw [List.nodup_iff_pairwise_ne, List.pairwise_map]
    refine once.imp_of_mem fun {first second} inside inside' apart same => ?_
    obtain ⟨listed, some⟩ := mem_inhabited_iff.mp inside
    obtain ⟨listed', some'⟩ := mem_inhabited_iff.mp inside'
    exact unshared ⟨first, listed, second, listed', some, some', apart, same⟩

namespace Printing

theorem checkVersion_of_eq_ok_iff
    {layout : Layout} {version : Option String} :
    checkVersion (Edition.of layout version) = .ok () ↔
      ¬ (layout = .nested ∧ Unversioned version) := by
  rw [← Edition.version_of_eq_none_iff layout, checkVersion]
  cases layout with
  | flat => simp [Edition.of, Layout.requiresVersion]
  | nested =>
      cases (Edition.of .nested version).version <;>
        simp [Edition.of, Layout.requiresVersion]

/-- What is checked before the first page is whether the configuration is
wrong. -/
theorem admits_of_iff
    {layout : Layout} {version : Option String} {grouping : Grouping}
    (ascending : Grouping.Ascending grouping.domains) :
    Admits (Edition.of layout version) grouping ↔
      ¬ Misconfigured layout version grouping := by
  rw [Admits, checkVersion_of_eq_ok_iff, checkSlugs_eq_ok_iff,
    Grouping.nodup_domainSlug_iff ascending, Misconfigured, not_or]

/-- Of two domains that the search finds, the first one is listed first. -/
theorem sublist_of_sharedSlug?
    {seen domains : List String} {first second : String}
    (found : sharedSlug? seen domains = some (first, second)) :
    List.Sublist [first, second] (seen.reverse ++ domains) ∧
      domainSlug first = domainSlug second := by
  induction domains generalizing seen with
  | nil => cases found
  | cons domain domains ih =>
      rw [sharedSlug?] at found
      split at found
      · rename_i other earlier
        cases found
        have before : [first].Sublist seen.reverse := by
          rw [List.singleton_sublist, List.mem_reverse]
          exact List.mem_of_find?_eq_some earlier
        have here : [second].Sublist (second :: domains) := by
          rw [List.singleton_sublist]
          exact List.mem_cons_self
        exact ⟨before.append here, by simpa using List.find?_some earlier⟩
      · simpa using ih found

/-- The error about a shared slug names two of the domains that share it. -/
theorem of_checkSlugs_eq_error
    {grouping : Grouping} (ascending : Grouping.Ascending grouping.domains)
    {first second slug : String}
    (refused : checkSlugs grouping = .error (.sharedSlug first second slug)) :
    first < second ∧ domainSlug first = slug ∧ domainSlug second = slug ∧
      first ∈ grouping.inhabited.map (·.1) ∧
      second ∈ grouping.inhabited.map (·.1) := by
  rw [checkSlugs] at refused
  split at refused
  · rename_i found
    cases refused
    obtain ⟨inOrder, same⟩ := sublist_of_sharedSlug? found
    have ordered : (grouping.inhabited.map (·.1)).Pairwise (· < ·) :=
      List.pairwise_map.mpr (ascending.sublist List.filter_sublist)
    refine ⟨?_, same, rfl, inOrder.subset ?_, inOrder.subset ?_⟩
    · exact List.rel_of_pairwise_cons (ordered.sublist inOrder)
        List.mem_cons_self
    · exact List.mem_cons_self
    · exact List.mem_cons_of_mem _ List.mem_cons_self
  · cases refused

end Printing

/-! ## Paths of domain pages -/

namespace Page

/-- The page is that of a domain. -/
def isOfDomain (page : Page) : Bool :=
  page.template == .domainList || page.template == .domainIndex

theorem isOfDomain_ofDomain
    (edition : Edition) (destination domain : String)
    (definitions : DomainDefinitions) :
    (ofDomain edition destination domain definitions).isOfDomain = true := by
  rw [isOfDomain, ofDomain]
  cases edition.layout <;> rfl

theorem filter_isOfDomain_all
    (edition : Edition) (destination : String) (grouping : Grouping) :
    (all edition destination grouping).filter isOfDomain =
      grouping.inhabited.map fun entry =>
        ofDomain edition destination entry.1 entry.2 := by
  have definitions : ∀ entry : String × DomainDefinitions,
      (ofDefinitions edition destination entry.1 entry.2).filter isOfDomain =
        [] := by
    intro entry
    rw [List.filter_eq_nil_iff, ofDefinitions]
    intro page member
    cases layout : edition.layout with
    | flat =>
        rw [layout] at member
        cases member
    | nested =>
        rw [layout] at member
        obtain ⟨d, -, rfl⟩ := List.mem_map.mp member
        exact Bool.false_ne_true
  rw [all, List.filter_append, List.filter_flatMap, List.map_eq_flatMap]
  have index : [ofIndex edition destination grouping.inhabited].filter
      isOfDomain = [] := rfl
  rw [index, List.append_nil]
  refine List.flatMap_congr fun entry _ => ?_
  rw [List.filter_cons_of_pos (isOfDomain_ofDomain ..), definitions]

/-- Joining a text without a slash adds it to the way, unless it is a dot. -/
theorem way_join_of_clean
    {base name : String} (clean : '/' ∉ name.toList) :
    way (join base name) = way base ++ wayOf [name] := by
  rw [way, segments_join clean, wayOf_append, wayOf_stem]

theorem way_domainFile_of_clean
    {destination slug : String} (clean : '/' ∉ slug.toList)
    (layout : Layout) :
    way (layout.domainFile destination slug) =
      way destination ++ wayOf (layout.domainWay slug) := by
  cases layout with
  | flat =>
      have file := isName_append_extension clean
      rw [Layout.domainFile, way_join file, Layout.domainWay,
        file.wayOf_singleton]
  | nested =>
      have index : IsName "index.md" := by decide
      have split := wayOf_append [slug] ["index.md"]
      rw [index.wayOf_singleton] at split
      rw [Layout.domainFile, way_join index, way_join_of_clean clean,
        List.append_assoc, ← split]
      rfl

/-- Slugs without slashes lead to different pages. -/
theorem domainSlug_eq_of_way_eq
    {layout : Layout} {destination first second : String}
    (clean : '/' ∉ (domainSlug first).toList)
    (clean' : '/' ∉ (domainSlug second).toList)
    (same : way (layout.domainFile destination (domainSlug first)) =
      way (layout.domainFile destination (domainSlug second))) :
    domainSlug first = domainSlug second := by
  have filled := domainSlug_ne_empty first
  have filled' := domainSlug_ne_empty second
  rw [way_domainFile_of_clean clean, way_domainFile_of_clean clean'] at same
  have below := List.append_cancel_left same
  cases layout with
  | flat =>
      rw [Layout.domainWay, Layout.domainWay,
        (isName_append_extension clean).wayOf_singleton,
        (isName_append_extension clean').wayOf_singleton] at below
      simpa using below
  | nested =>
      -- only a dot leaves no name on the way
      have index : isIdle "index.md" = false := by decide
      by_cases dot : domainSlug first = "."
      all_goals by_cases dot' : domainSlug second = "."
      all_goals
        simp [Layout.domainWay, wayOf_cons, isIdle, filled, filled', dot, dot']
          at below ⊢
      exact below

/-- The pages of domains that share no slug have different ways. -/
theorem nodup_ways_of_domains
    {edition : Edition} {destination : String} {grouping : Grouping}
    (distinct : (grouping.inhabited.map (domainSlug ·.1)).Nodup)
    (clean : ∀ entry ∈ grouping.inhabited,
      '/' ∉ (domainSlug entry.1).toList) :
    (((all edition destination grouping).filter isOfDomain).map
      (way ·.path)).Nodup := by
  have bySlug : ((all edition destination grouping).filter isOfDomain).map
      (way ·.path) =
        (grouping.inhabited.map (domainSlug ·.1)).map fun slug =>
          way (edition.layout.domainFile destination slug) := by
    rw [filter_isOfDomain_all, List.map_map, List.map_map]
    rfl
  rw [bySlug]
  refine List.Nodup.map_on ?_ distinct
  intro slug listed slug' listed' same
  obtain ⟨first, inside, rfl⟩ := List.mem_map.mp listed
  obtain ⟨second, inside', rfl⟩ := List.mem_map.mp listed'
  exact domainSlug_eq_of_way_eq (clean first inside) (clean second inside')
    same

end Page

/-! ## The printing -/

namespace Printing

section Print

variable
    {layout : Layout} {version : Option String} {grouping : Grouping}
    {destination : String} {force : Bool} {fs : FileSystem}

/-- An error about a shared slug comes from the check of the slugs. -/
theorem checkSlugs_of_print_fails
    {edition : Edition} {first second slug : String}
    (failed :
      (print Template.render edition grouping destination force fs).failure =
        some (.sharedSlug first second slug)) :
    checkSlugs grouping = .error (.sharedSlug first second slug) := by
  rcases print_failure_cases failed with ⟨refused, -, -⟩ | ⟨-, io⟩
  · rw [print] at failed
    rcases checked : checkVersion edition with reason | ⟨⟩
    · rw [checkVersion] at checked
      split at checked <;> cases checked
      simp [checkVersion, *, Run.refuse] at failed
    · rcases slugs : checkSlugs grouping with reason | ⟨⟩
      · simp only [checked, slugs, Run.refuse, Option.some_inj] at failed
        rw [failed]
      · exact absurd ⟨checked, slugs⟩ refused
  · cases io

/--
A printing fails over its configuration exactly if it is misconfigured: the
layout is nested and no version can be seen, or two different domains with
definitions have one slug.  Then it leaves the file system as it was and reports
no file, and where it is about a slug the error names two domains in their order
that have it.  Otherwise, if no slug of a domain has a slash, the pages of the
domains have pairwise distinct paths, also when empty segments and dots do not
count.
-/
theorem print_misconfigured_iff
    (ascending : Grouping.Ascending grouping.domains) :
    let edition := Edition.of layout version
    let run := print Template.render edition grouping destination force fs
    let domainPages :=
      (Page.all edition destination grouping).filter Page.isOfDomain
    ((∃ error, run.failure = some error ∧ error.category = .configuration) ↔
        Misconfigured layout version grouping) ∧
      (Misconfigured layout version grouping →
        run.files = fs ∧ run.written = [] ∧ run.skipped = []) ∧
      (∀ first second slug,
        run.failure = some (.sharedSlug first second slug) →
          first < second ∧ domainSlug first = slug ∧
            domainSlug second = slug ∧
            first ∈ grouping.inhabited.map (·.1) ∧
            second ∈ grouping.inhabited.map (·.1)) ∧
      (¬ Misconfigured layout version grouping →
        (∀ entry ∈ grouping.domains, entry.2.isEmpty = false →
          '/' ∉ (domainSlug entry.1).toList) →
        (domainPages.map (·.path)).Nodup ∧
          (domainPages.map (way ·.path)).Nodup) := by
  intro edition run domainPages
  have admits : Admits edition grouping ↔
      ¬ Misconfigured layout version grouping := admits_of_iff ascending
  have refused : Misconfigured layout version grouping →
      ∃ error, run = .refuse fs error := by
    intro wrong
    rcases print_cases Template.render edition grouping destination force fs
      with refused | ⟨admitted, -⟩
    · exact refused
    · exact absurd wrong (admits.mp admitted)
  refine ⟨⟨?_, ?_⟩, ?_, ?_, ?_⟩
  · rintro ⟨error, failed, configuration⟩
    rcases print_failure_cases failed with ⟨notAdmitted, -, -⟩ | ⟨-, io⟩
    · exact not_not.mp (mt admits.mpr notAdmitted)
    · rw [configuration] at io
      cases io
  · intro wrong
    obtain ⟨error, same⟩ := refused wrong
    have failed : run.failure = some error := by rw [same]; rfl
    rcases print_failure_cases failed with
      ⟨-, configuration, -⟩ | ⟨admitted, -⟩
    · exact ⟨error, failed, configuration⟩
    · exact absurd wrong (admits.mp admitted)
  · intro wrong
    obtain ⟨error, same⟩ := refused wrong
    rw [same]
    exact ⟨rfl, rfl, rfl⟩
  · intro first second slug failed
    exact of_checkSlugs_eq_error ascending (checkSlugs_of_print_fails failed)
  · intro right clean
    have unshared : ¬ grouping.SharesSlug := fun shared =>
      right (Or.inr shared)
    have ways : (domainPages.map (way ·.path)).Nodup := by
      refine Page.nodup_ways_of_domains
        ((Grouping.nodup_domainSlug_iff ascending).mpr unshared) ?_
      intro entry inside
      obtain ⟨listed, some⟩ := Grouping.mem_inhabited_iff.mp inside
      exact clean entry listed some
    refine ⟨List.Nodup.of_map way ?_, ways⟩
    rwa [List.map_map]

end Print

/-- A definition in a domain. -/
def memo (domain : String) : Definition where
  kind := .query
  domain := domain
  handlerClass := "Reader"
  commandClass := "Memo"
  constructorParameters := []
  description := ""
  returnType := "void"
  handlerInterfaces := []
  simpleClassName := "Memo"
  slug := "memo"

/-- Groups a definition in each of the given domains, and none in `Tax`. -/
def memos (domains : List String) : Grouping :=
  (domains.foldl (fun (grouping : Grouping) domain =>
    grouping.set domain { queries := [memo domain] }) {}).set "Tax" {}

/--
The domain without a name and one that is named like its slug cannot both be
printed; dots, of which one has the place of the destination itself, can.
-/
theorem print_misconfigured_iff_memos :
    let unnamed := memos ["_unclassified", ""]
    let dots := memos [".", "..", "tax"]
    let fs : FileSystem := { entries := [(["docs"], .directory)] }
    let run := print Template.render (Edition.of .flat none) unnamed "/docs"
      true fs
    let domainPages :=
      (Page.all (Edition.of .nested (some "9.0")) "/docs" dots).filter
        Page.isOfDomain
    Grouping.Ascending unnamed.domains ∧ Grouping.Ascending dots.domains ∧
      (∃ error, run.failure = some error ∧ error.category = .configuration) ∧
      run.files = fs ∧
      domainPages.map (·.path) =
        ["/docs/./index.md", "/docs/../index.md", "/docs/tax/index.md"] ∧
      (domainPages.map (way ·.path)).Nodup := by
  intro unnamed dots fs run domainPages
  have ascending : Grouping.Ascending unnamed.domains := by decide +kernel
  have ascendingDots : Grouping.Ascending dots.domains := by decide +kernel
  have shared : unnamed.SharesSlug :=
    ⟨("", { queries := [memo ""] }), by decide +kernel,
      ("_unclassified", { queries := [memo "_unclassified"] }),
      by decide +kernel, rfl, rfl, by decide, by decide +kernel⟩
  have configured : ¬ Misconfigured .nested (some "9.0") dots := by
    rw [← admits_of_iff ascendingDots]
    exact ⟨by decide +kernel, by decide +kernel⟩
  obtain ⟨fails, keeps, -, -⟩ :=
    @print_misconfigured_iff .flat none unnamed "/docs" true fs ascending
  obtain ⟨-, -, -, apart⟩ :=
    @print_misconfigured_iff .nested (some "9.0") dots "/docs" true fs
      ascendingDots
  refine ⟨ascending, ascendingDots, fails.mpr (Or.inr shared),
    (keeps (Or.inr shared)).1, by decide +kernel, ?_⟩
  exact (apart configured (by decide +kernel)).2

end Printing

end BusReference
