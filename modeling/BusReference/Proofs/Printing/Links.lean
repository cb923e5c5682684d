import BusReference.Proofs.Printing.Distinct
import BusReference.Proofs.Template.Links

/-!
# Links of the reference

The page that links to the domains takes its links from the layout, and so do
the pages their paths; the page of a domain in the nested layout includes files
by a text of its template.  After a printing that succeeds something stands at
the place of every page, since what is written later takes nothing away, and the
links and the includes of the pages that were written lead to places of pages.

What stands there is a file, except where a printing that is not forced has
found a directory: it keeps whatever exists.
-/

namespace BusReference

open BusReference.Files
open BusReference.Files.Path
open BusReference.Php (Index)
open BusReference.Text (Inert)

namespace Printing

/-! ## What stands after a run -/

/-- A file stands at the place of a path, or a directory that a run which is not
forced has found there and kept. -/
def Stands
    (force : Bool) (files : FileSystem) (skipped : List String)
    (path : String) : Prop :=
  (∃ content, files.get? (files.placeOf path) = some (.file content)) ∨
    force = false ∧ files.get? (files.placeOf path) = some .directory ∧
      path ∈ skipped

section Run

variable
    {render : Renderer} {force : Bool} {fs after : FileSystem}
    {page : Page} {pages : List Page} {written skipped : List String}

theorem Completes.keepsKinds
    (run : Completes render force fs pages after written skipped)
    (joined : ∀ page ∈ pages, IsJoined page.path) : fs.KeepsKinds after := by
  induction run with
  | done fs => exact .refl fs
  | skip kept rest ih =>
      exact ih (List.forall_mem_of_forall_mem_cons joined)
  | write notKept rendered put rest ih =>
      have step := FileSystem.KeepsKinds.of_write
        (joined _ List.mem_cons_self) put
      exact step.trans (ih (List.forall_mem_of_forall_mem_cons joined))

/-- Something stands at the place of every page. -/
theorem Completes.stands
    (run : Completes render force fs pages after written skipped)
    (joined : ∀ page ∈ pages, IsJoined page.path) (member : page ∈ pages) :
    Stands force after skipped page.path := by
  induction run with
  | done fs => cases member
  | @skip fs after first pages written skipped kept rest ih =>
      have joinedLater := List.forall_mem_of_forall_mem_cons joined
      rcases List.mem_cons.mp member with rfl | later
      · have keeps := rest.keepsKinds joinedLater
        rw [keepsPage, Bool.and_eq_true, FileSystem.pathExists,
          Option.isSome_iff_exists] at kept
        obtain ⟨unforced, node, found⟩ := kept
        have stood := FileSystem.get?_placeOf_of_node? found
        rw [Stands, keeps.placeOf_eq]
        cases node with
        | directory =>
            exact Or.inr ⟨by simpa using unforced, keeps.directory _ stood,
              List.mem_cons_self⟩
        | file content => exact Or.inl (keeps.file _ content stood)
      · rcases ih joinedLater later with
          file | ⟨unforced, directory, inside⟩
        · exact Or.inl file
        · exact Or.inr ⟨unforced, directory, List.mem_cons_of_mem _ inside⟩
  | @write fs middle after first pages written skipped text notKept rendered
      put rest ih =>
      have joinedLater := List.forall_mem_of_forall_mem_cons joined
      rcases List.mem_cons.mp member with rfl | later
      · have first := joined page List.mem_cons_self
        have keeps := rest.keepsKinds joinedLater
        obtain ⟨-, stood, -⟩ := FileSystem.write_places first put
        rw [Stands, keeps.placeOf_eq,
          (FileSystem.KeepsKinds.of_write first put).placeOf_eq]
        exact Or.inl (keeps.file _ _ stood)
      · exact ih joinedLater later

/-- In a tree the paths of the pages can be followed to their places. -/
theorem Completes.node?_eq
    (run : Completes render force fs pages after written skipped)
    (tree : fs.IsTree) {destination : String}
    (here : fs.get? (fs.origin destination) = some .directory)
    (joined : ∀ page ∈ pages, IsJoined page.path)
    (start : ∀ page ∈ pages, isAbsolute page.path = isAbsolute destination)
    (member : page ∈ pages) :
    after.node? page.path = after.get? (after.placeOf page.path) := by
  induction run with
  | done fs => cases member
  | @skip fs after first pages written skipped kept rest ih =>
      have joinedLater := List.forall_mem_of_forall_mem_cons joined
      rcases List.mem_cons.mp member with rfl | later
      · rw [keepsPage, Bool.and_eq_true] at kept
        exact (rest.keepsKinds joinedLater).node?_eq_of_exists kept.2
      · exact ih tree here joinedLater
          (List.forall_mem_of_forall_mem_cons start) later
  | @write fs middle after first pages written skipped text notKept rendered
      put rest ih =>
      have joinedLater := List.forall_mem_of_forall_mem_cons joined
      have joinedFirst := joined first List.mem_cons_self
      have sameOrigin : fs.origin first.path = fs.origin destination := by
        rw [FileSystem.origin_ofText, FileSystem.origin_ofText,
          start first List.mem_cons_self]
      have step := FileSystem.KeepsKinds.of_write joinedFirst put
      obtain ⟨treeMiddle, leads⟩ :=
        tree.write_leads joinedFirst (sameOrigin ▸ here) put
      rcases List.mem_cons.mp member with rfl | later
      · have keeps := rest.keepsKinds joinedLater
        refine FileSystem.node?_eq_get?_placeOf joinedFirst ?_
        rw [(step.trans keeps).origin_eq]
        exact leads.keeps keeps.directory
      · refine ih treeMiddle ?_ joinedLater
          (List.forall_mem_of_forall_mem_cons start) later
        rw [step.origin_eq]
        exact step.directory _ here

/-- A text stays in its place while other texts are written elsewhere. -/
theorem Completes.keeps_text
    (run : Completes render force fs pages after written skipped)
    (joined : ∀ page ∈ pages, IsJoined page.path)
    {place : Location} {text : String}
    (stood : fs.get? place = some (.file text.toUTF8))
    (same : ∀ page ∈ pages, fs.placeOf page.path = place →
      render page.template page.context = .ok text) :
    after.get? place = some (.file text.toUTF8) := by
  induction run with
  | done fs => exact stood
  | skip kept rest ih =>
      exact ih (List.forall_mem_of_forall_mem_cons joined) stood
        (List.forall_mem_of_forall_mem_cons same)
  | @write fs middle after first pages written skipped new notKept rendered
      put rest ih =>
      have joinedFirst := joined first List.mem_cons_self
      obtain ⟨-, stands, -, kept⟩ := FileSystem.write_places joinedFirst put
      refine ih (List.forall_mem_of_forall_mem_cons joined) ?_ ?_
      · by_cases here : fs.placeOf first.path = place
        · have equal := same first List.mem_cons_self here
          rw [rendered] at equal
          rw [← here, stands, Except.ok.inj equal]
        · exact kept place _ (Ne.symm here) stood
      · intro other member
        rw [(FileSystem.KeepsKinds.of_write joinedFirst put).placeOf_eq]
        exact same other (List.mem_cons_of_mem _ member)

/-! ## Pages that were written -/

/-- A run that succeeds has written the pages whose texts were made. -/
theorem written_eq_map_rendered
    (success : (writePages render force fs pages).failure = none) :
    (writePages render force fs pages).written =
      (writePages render force fs pages).rendered.map (·.path) := by
  induction pages generalizing fs with
  | nil => rfl
  | cons page pages ih =>
      rcases writePages_cons_cases render force fs page pages with
        ⟨-, run⟩ | ⟨-, text, after, -, -, run⟩ | ⟨-, after, error, -, run⟩
      · rw [run] at success ⊢
        exact ih success
      · rw [run] at success ⊢
        exact congrArg (page.path :: ·) (ih success)
      · rw [run] at success
        cases success

/-- A forced run that succeeds has written all pages. -/
theorem rendered_eq_of_forced
    (success : (writePages render true fs pages).failure = none) :
    (writePages render true fs pages).rendered = pages := by
  induction pages generalizing fs with
  | nil => rfl
  | cons page pages ih =>
      rcases writePages_cons_cases render true fs page pages with
        ⟨kept, -⟩ | ⟨-, text, after, -, -, run⟩ | ⟨-, after, error, -, run⟩
      · cases kept
      · rw [run] at success ⊢
        exact congrArg (page :: ·) (ih success)
      · rw [run] at success
        cases success

/-- The text of a page that was written stands in its place, if no later page
with another text has that place. -/
theorem holds_of_mem_rendered
    (success : (writePages render force fs pages).failure = none)
    (joined : ∀ page ∈ pages, IsJoined page.path)
    (own : ∀ before later, pages = before ++ page :: later →
      ∀ other ∈ later, fs.placeOf other.path = fs.placeOf page.path →
        other = page)
    (member : page ∈ (writePages render force fs pages).rendered) :
    let files := (writePages render force fs pages).files
    ∃ text, render page.template page.context = .ok text ∧
      files.get? (files.placeOf page.path) = some (.file text.toUTF8) := by
  induction pages generalizing fs with
  | nil => cases member
  | cons first pages ih =>
      have joinedLater := List.forall_mem_of_forall_mem_cons joined
      have ownLater : ∀ before later, pages = before ++ page :: later →
          ∀ other ∈ later, fs.placeOf other.path = fs.placeOf page.path →
            other = page := by
        rintro before later rfl
        exact own (first :: before) later rfl
      rcases writePages_cons_cases render force fs first pages with
        ⟨-, run⟩ | ⟨-, text, middle, rendered, put, run⟩ |
        ⟨-, middle, error, -, run⟩
      · rw [run] at success member ⊢
        exact ih success joinedLater ownLater member
      · rw [run] at success member ⊢
        have step :=
          FileSystem.KeepsKinds.of_write (joined first List.mem_cons_self) put
        rcases List.mem_cons.mp member with rfl | later
        · have rest := completes_of_failure_eq_none success
          have keeps := rest.keepsKinds joinedLater
          obtain ⟨-, stands, -⟩ :=
            FileSystem.write_places (joined page List.mem_cons_self) put
          refine ⟨text, rendered, ?_⟩
          dsimp only
          rw [(step.trans keeps).placeOf_eq]
          refine rest.keeps_text joinedLater stands ?_
          intro other listed here
          rw [step.placeOf_eq] at here
          rw [own [] pages rfl other listed here]
          exact rendered
        · refine ih success joinedLater ?_ later
          intro before later' split other listed
          rw [step.placeOf_eq, step.placeOf_eq]
          exact ownLater before later' split other listed
      · rw [run] at success
        cases success

end Run

/-! ## Where links lead to -/

/-- The file that a link leads to from the destination: a directory stands for
the page in it. -/
def linkedFile (destination link : String) : String :=
  join destination
    (if link.toList.getLast? = some '/' then link ++ "index.md" else link)

/-- The file that the page of a domain includes under a name. -/
def includedFile (destination slug name : String) : String :=
  join (join destination slug) name

section Targets

variable {destination slug : String}

/-- The link to a domain leads to its page. -/
theorem linkedFile_domainLink (named : IsName slug) (layout : Layout) :
    linkedFile destination (layout.domainLink slug) =
      layout.domainFile destination slug := by
  cases layout with
  | flat =>
      rw [linkedFile, Layout.domainLink, if_neg (by simp), Layout.domainFile]
  | nested =>
      rw [linkedFile, Layout.domainLink, if_pos (by simp), Layout.domainFile,
        join_join named (by decide)]

/-- What is included for a definition is its page. -/
theorem includedFile_partialOf
    {d : Definition} (clean : '/' ∉ d.slug.toList) :
    includedFile destination slug (Template.partialOf d) =
      definitionFile destination slug d.slug := by
  have opening : "_partials/" = "_partials" ++ "/" := rfl
  have relative : isAbsolute (d.slug ++ ".md") = false :=
    isAbsolute_of_clean (isName_append_extension clean).2.2.2
  rw [includedFile, definitionFile, join_join (by decide) relative,
    Template.partialOf, opening, String.append_assoc]

end Targets

end Printing

/-! ## Places of pages -/

namespace Page

section Places

variable
    {edition : Edition} {destination : String} {grouping : Grouping}
    {fs : FileSystem} {page other : Page}

theorem isJoined_all
    (slugs : grouping.SlugsAreNames) :
    ∀ page ∈ all edition destination grouping, IsJoined page.path := by
  intro page member
  obtain ⟨base, name, path, -, named⟩ : ∃ base name,
      page.path = join base name ∧ True ∧ IsName name :=
    exists_join_of_mem_all trivial (fun _ _ _ _ => trivial) slugs member
  exact ⟨base, name, path, named⟩

/-- Pages are found from where the destination is. -/
theorem isAbsolute_all
    (slugs : grouping.SlugsAreNames) :
    ∀ page ∈ all edition destination grouping,
      isAbsolute page.path = isAbsolute destination := by
  intro page member
  obtain ⟨base, name, path, start, named⟩ : ∃ base name,
      page.path = join base name ∧
        isAbsolute base = isAbsolute destination ∧ IsName name :=
    exists_join_of_mem_all rfl
      (fun _ _ above named => (isAbsolute_join_eq named.2.2.2).trans above)
      slugs member
  rw [path, isAbsolute_join_eq named.2.2.2, start]

/-- Pages in one place have one way. -/
theorem way_eq_of_placeOf_eq
    (slugs : grouping.SlugsAreNames)
    (first : page ∈ all edition destination grouping)
    (second : other ∈ all edition destination grouping)
    (same : fs.placeOf page.path = fs.placeOf other.path) :
    way page.path = way other.path := by
  have below : ∀ page ∈ all edition destination grouping,
      ∃ relative, way page.path = way destination ++ relative ∧
        fs.placeOf page.path = fs.placeOf destination ++ relative := by
    intro page member
    have listed : way page.path ∈
        (all edition destination grouping).map (way ·.path) :=
      List.mem_map_of_mem member
    rw [map_way_all slugs] at listed
    obtain ⟨relative, isWay, equal⟩ := List.mem_map.mp listed
    have start : fs.origin page.path = fs.origin destination := by
      rw [FileSystem.origin_ofText, FileSystem.origin_ofText,
        isAbsolute_all slugs page member]
    refine ⟨relative, equal.symm, ?_⟩
    rw [FileSystem.placeOf, FileSystem.placeOf, ← equal, resolve_append, start]
    exact resolve_of_calm (calm_of_mem_ways slugs isWay) _
  obtain ⟨relative, isWay, place⟩ := below page first
  obtain ⟨relative', isWay', place'⟩ := below other second
  rw [place, place', List.append_cancel_left_eq] at same
  rw [isWay, isWay', same]

theorem ofDomain_mem_all
    {entry : String × DomainDefinitions}
    (listed : entry ∈ grouping.inhabited) :
    ofDomain edition destination entry.1 entry.2 ∈
      all edition destination grouping :=
  List.mem_append_left _
    (mem_ofDomains_iff.mpr ⟨entry, listed, Or.inl rfl⟩)

theorem ofDefinition_mem_all
    (nested : edition.layout = .nested)
    {entry : String × DomainDefinitions}
    (listed : entry ∈ grouping.inhabited) {d : Definition}
    (inside : d ∈ entry.2.commands ++ entry.2.queries) :
    ofDefinition edition destination entry.1 d ∈
      all edition destination grouping :=
  List.mem_append_left _
    (mem_ofDomains_iff.mpr
      ⟨entry, listed, Or.inr ⟨nested, d, inside, rfl⟩⟩)

/-- In the nested layout no other page has the place of that of a domain. -/
theorem eq_ofDomain_of_way_eq
    (slugs : grouping.SlugsAreNames)
    (distinct : (grouping.inhabited.map (domainSlug ·.1)).Nodup)
    (nested : edition.layout = .nested)
    {entry : String × DomainDefinitions}
    (listed : entry ∈ grouping.inhabited)
    (member : other ∈ all edition destination grouping)
    (same : way other.path =
      way (ofDomain edition destination entry.1 entry.2).path) :
    other = ofDomain edition destination entry.1 entry.2 := by
  rw [ofDomain, way_domainFile (slugs.isName listed), nested] at same
  rw [all_eq, List.mem_append, List.mem_singleton] at member
  rcases member with inside | rfl
  · obtain ⟨entry', listed', rfl | ⟨-, d, inDomain, rfl⟩⟩ :=
      mem_ofDomains_iff.mp inside
    · rw [ofDomain, way_domainFile (slugs.isName listed'), nested,
        List.append_cancel_left_eq] at same
      have equal := List.inj_on_of_nodup_map distinct listed' listed
        (Name.text.inj (List.cons.inj same).1)
      rw [equal]
    · rw [ofDefinition, way_definitionFile (slugs.isName listed')
        ((slugs entry' listed').2.2.2 d inDomain),
        List.append_cancel_left_eq] at same
      simp [definitionWay, Layout.domainWay] at same
  · rw [ofIndex, way_indexFile, List.append_cancel_left_eq] at same
    simp [indexWay, Layout.domainWay] at same

/-- No page comes after the one that links to the domains. -/
theorem eq_nil_of_all_eq
    {before later : List Page}
    (split : all edition destination grouping =
      before ++ ofIndex edition destination grouping.inhabited :: later) :
    later = [] := by
  have fresh : ofIndex edition destination grouping.inhabited ∉
      ofDomains edition destination grouping := by
    intro inside
    obtain ⟨entry, -, same | ⟨-, d, -, same⟩⟩ := mem_ofDomains_iff.mp inside
    · have template := congrArg Page.template same
      simp only [ofIndex, ofDomain] at template
      split at template
      · cases template
      · cases template
    · cases congrArg Page.template same
  rcases later.eq_nil_or_concat with rfl | ⟨shorter, last, rfl⟩
  · rfl
  · rw [all_eq, List.concat_eq_append, ← List.cons_append,
      ← List.append_assoc] at split
    have inside := (List.append_inj' split rfl).1
    rw [inside] at fresh
    simp at fresh

end Places

end Page

/-! ## The reference -/

namespace Printing

section Reference

variable
    {render : Renderer} {edition : Edition} {grouping : Grouping}
    {destination : String} {force : Bool} {fs : FileSystem} {page : Page}
    {entry : String × DomainDefinitions}

/-- Something stands at the place of every page. -/
theorem stands_of_print
    (slugs : grouping.SlugsAreNames)
    (success :
      (print render edition grouping destination force fs).failure = none)
    (member : page ∈ Page.all edition destination grouping) :
    let run := print render edition grouping destination force fs
    Stands force run.files run.skipped page.path := by
  intro run
  exact (completes_of_print success).stands (Page.isJoined_all slugs) member

/-- The text of a page that was written stands in its place, if each later page
in that place is the same. -/
theorem holds_of_print
    (slugs : grouping.SlugsAreNames)
    (success :
      (print render edition grouping destination force fs).failure = none)
    (own : ∀ before later, Page.all edition destination grouping =
      before ++ page :: later → ∀ other ∈ later,
        way other.path = way page.path → other = page)
    (member :
      page ∈ (print render edition grouping destination force fs).rendered) :
    let files := (print render edition grouping destination force fs).files
    ∃ text, render page.template page.context = .ok text ∧
      files.get? (files.placeOf page.path) = some (.file text.toUTF8) := by
  have equal := print_eq_of_success success
  rw [equal] at success member ⊢
  refine holds_of_mem_rendered success (Page.isJoined_all slugs) ?_ member
  intro before later split other inside same
  have laterPage : other ∈ Page.all edition destination grouping := by
    rw [split]
    exact List.mem_append_right _ (List.mem_cons_of_mem _ inside)
  have thisPage : page ∈ Page.all edition destination grouping := by
    rw [split]
    exact List.mem_append_right _ List.mem_cons_self
  exact own before later split other inside
    (Page.way_eq_of_placeOf_eq slugs laterPage thisPage same)

/-- In a tree the places of the pages are found by their paths. -/
theorem node?_eq_of_print
    (slugs : grouping.SlugsAreNames)
    (success :
      (print render edition grouping destination force fs).failure = none)
    (tree : fs.IsTree) :
    let files := (print render edition grouping destination force fs).files
    let base := if force then (fs.removeTree destination).1 else fs
    base.get? (base.origin destination) = some .directory →
      ∀ page ∈ Page.all edition destination grouping,
        files.node? page.path = files.get? (files.placeOf page.path) := by
  intro files base here page member
  have complete := completes_of_print success
  have treeBase : base.IsTree := by
    cases force with
    | false => exact tree
    | true => exact tree.removeTree destination
  exact complete.node?_eq treeBase here (Page.isJoined_all slugs)
    (Page.isAbsolute_all slugs) member

/-- The links of the page that links to the domains, where it was written. -/
theorem exists_links_of_print
    (inert : grouping.SlugsAreInert)
    (names : ∀ entry ∈ grouping.inhabited, Inert entry.1.toList)
    (success :
      (print Template.render edition grouping destination force fs).failure =
        none) :
    let run := print Template.render edition grouping destination force fs
    Page.ofIndex edition destination grouping.inhabited ∈ run.rendered →
    ∃ text,
      run.files.get? (run.files.placeOf (indexFile destination)) =
        some (.file text.toUTF8) ∧
      Template.links text = grouping.inhabited.map (fun entry =>
        edition.layout.domainLink (domainSlug entry.1)) ∧
      ∀ link ∈ Template.links text, Stands force run.files run.skipped
        (linkedFile destination link) := by
  intro run member
  have slugs := inert.slugsAreNames
  obtain ⟨text, rendered, stands⟩ := holds_of_print slugs success
    (fun before later split other inside => by
      rw [Page.eq_nil_of_all_eq split] at inside
      cases inside) member
  obtain ⟨made, sameText, links⟩ := Template.links_ofIndex
    edition destination
    fun entry listed => ⟨names entry listed, (inert entry listed).1⟩
  obtain rfl : made = text := Except.ok.inj (sameText.symm.trans rendered)
  refine ⟨made, stands, links, ?_⟩
  intro link linked
  rw [links] at linked
  obtain ⟨entry, listed, rfl⟩ := List.mem_map.mp linked
  rw [linkedFile_domainLink (slugs.isName listed)]
  have inside : Page.ofDomain edition destination entry.1 entry.2 ∈
      Page.all edition destination grouping := Page.ofDomain_mem_all listed
  have stand := stands_of_print slugs success inside
  exact stand

/-- The includes of the page of a domain, where it was written. -/
theorem exists_includes_of_print
    (inert : grouping.SlugsAreInert) (nested : edition.layout = .nested)
    (listed : entry ∈ grouping.inhabited) (name : Inert entry.1.toList)
    (success :
      (print Template.render edition grouping destination force fs).failure =
        none) :
    let run := print Template.render edition grouping destination force fs
    Page.ofDomain edition destination entry.1 entry.2 ∈ run.rendered →
    ∃ text,
      run.files.get? (run.files.placeOf
          (Layout.nested.domainFile destination (domainSlug entry.1))) =
        some (.file text.toUTF8) ∧
      Template.includes text =
        (entry.2.commands ++ entry.2.queries).map Template.partialOf ∧
      ∀ name ∈ Template.includes text, Stands force run.files run.skipped
        (includedFile destination (domainSlug entry.1) name) := by
  intro run member
  have slugs := inert.slugsAreNames
  have distinct := (admits_of_print success).nodup_domainSlug
  obtain ⟨text, rendered, stands⟩ := holds_of_print slugs success
    (fun before later split other inside same => by
      refine Page.eq_ofDomain_of_way_eq slugs distinct nested listed ?_ same
      rw [split]
      exact List.mem_append_right _ (List.mem_cons_of_mem _ inside)) member
  obtain ⟨made, sameText, includes⟩ := Template.includes_ofDomain
    destination nested name (inert entry listed).2
  obtain rfl : made = text := Except.ok.inj (sameText.symm.trans rendered)
  rw [Page.ofDomain, nested] at stands
  refine ⟨made, stands, includes, ?_⟩
  intro name included
  rw [includes] at included
  obtain ⟨d, inDomain, rfl⟩ := List.mem_map.mp included
  rw [includedFile_partialOf ((slugs entry listed).2.2.2 d inDomain)]
  have inside : Page.ofDefinition edition destination entry.1 d ∈
      Page.all edition destination grouping :=
    Page.ofDefinition_mem_all nested listed inDomain
  have stand := stands_of_print slugs success inside
  exact stand

/--
After a printing of handlers in scanned sources that succeeds, the page that
links to the domains, if it was written, has one link for each domain, and the
page of a domain in the nested layout, if it was written, includes each of its
definitions once, both in the order of the pages.  Something stands where they
lead to: a file, or a directory that the printing has kept.  In a tree the places
of the pages are found by their paths, if there is a directory from which
relative ones are followed.
-/
theorem print_links
    {index : Index} {pattern : DomainPattern} {handlers : HandlerMap}
    (scanned : index.Scanned)
    (grouped : Grouping.ofHandlers index pattern handlers = .ok grouping)
    (success :
      (print Template.render edition grouping destination force fs).failure =
        none) :
    let run := print Template.render edition grouping destination force fs
    let base := if force then (fs.removeTree destination).1 else fs
    run.written = run.rendered.map (·.path) ∧
    (Page.ofIndex edition destination grouping.inhabited ∈ run.rendered →
      ∃ text,
        run.files.get? (run.files.placeOf (indexFile destination)) =
          some (.file text.toUTF8) ∧
        Template.links text = grouping.inhabited.map (fun entry =>
          edition.layout.domainLink (domainSlug entry.1)) ∧
        ∀ link ∈ Template.links text, Stands force run.files run.skipped
          (linkedFile destination link)) ∧
    (edition.layout = .nested → ∀ entry ∈ grouping.inhabited,
      Page.ofDomain edition destination entry.1 entry.2 ∈ run.rendered →
      ∃ text,
        run.files.get? (run.files.placeOf
            (Layout.nested.domainFile destination (domainSlug entry.1))) =
          some (.file text.toUTF8) ∧
        Template.includes text =
          (entry.2.commands ++ entry.2.queries).map Template.partialOf ∧
        ∀ name ∈ Template.includes text, Stands force run.files run.skipped
          (includedFile destination (domainSlug entry.1) name)) ∧
    (fs.IsTree → base.get? (base.origin destination) = some .directory →
      ∀ page ∈ Page.all edition destination grouping,
        run.files.node? page.path =
          run.files.get? (run.files.placeOf page.path)) := by
  intro run base
  have inert : grouping.SlugsAreInert :=
    Grouping.slugsAreInert_of_ofHandlers scanned.inert grouped
  have names : ∀ entry ∈ grouping.inhabited, Inert entry.1.toList :=
    fun entry member => Grouping.inert_domain_of_collect scanned.inert
      pattern.domain_isInfix grouped member
  refine ⟨?_, exists_links_of_print inert names success, ?_,
    node?_eq_of_print inert.slugsAreNames success⟩
  · have equal := print_eq_of_success success
    rw [equal] at success
    have written := written_eq_map_rendered success
    rwa [← equal] at written
  · intro nested entry listed
    exact exists_includes_of_print inert nested listed (names entry listed)
      success

/-- After a forced printing that succeeds all pages were written. -/
theorem rendered_eq_of_print_forced
    (success :
      (print render edition grouping destination true fs).failure = none) :
    (print render edition grouping destination true fs).rendered =
      Page.all edition destination grouping := by
  have equal := print_eq_of_success success
  rw [equal] at success ⊢
  exact rendered_eq_of_forced success

/-- What is printed of one command. -/
def taxEntry : String × DomainDefinitions :=
  ("Tax", { commands := [taxDefinition addTax] })

/-- The reference of one command in the nested layout. -/
def nestedTax : Run :=
  print Template.render ⟨.nested, some "1"⟩ (taxGrouping [addTax]) "/docs"
    true {}

/-- The links and the includes of the reference of one command. -/
theorem print_links_addTax :
    (∃ text,
      nestedTax.files.node? (indexFile "/docs") = some (.file text.toUTF8) ∧
        Template.links text = ["tax/"]) ∧
      Stands true nestedTax.files nestedTax.skipped
        (linkedFile "/docs" "tax/") ∧
      (∃ text,
        nestedTax.files.node? (Layout.nested.domainFile "/docs" "tax") =
            some (.file text.toUTF8) ∧
          Template.includes text = ["_partials/tax.md"]) ∧
      Stands true nestedTax.files nestedTax.skipped
        (includedFile "/docs" "tax" "_partials/tax.md") := by
  have success : nestedTax.failure = none :=
    Option.isNone_iff_eq_none.mp (by decide +kernel)
  have all : nestedTax.rendered =
      Page.all ⟨.nested, some "1"⟩ "/docs" (taxGrouping [addTax]) :=
    rendered_eq_of_print_forced success
  have tax : taxEntry ∈ (taxGrouping [addTax]).inhabited := by
    decide
  have slug : domainSlug taxEntry.1 = "tax" := by decide
  obtain ⟨-, index, domains, found⟩ :=
    print_links taxIndex_scanned (grouped_tax (by simp)) success
  have atPath := found (by decide) (by decide)
  have indexListed : Page.ofIndex ⟨.nested, some "1"⟩ "/docs"
      (taxGrouping [addTax]).inhabited ∈ Page.all ⟨.nested, some "1"⟩ "/docs"
        (taxGrouping [addTax]) :=
    List.mem_append_right _ List.mem_cons_self
  have domainListed : Page.ofDomain ⟨.nested, some "1"⟩ "/docs" taxEntry.1
      taxEntry.2 ∈ Page.all ⟨.nested, some "1"⟩ "/docs"
        (taxGrouping [addTax]) := Page.ofDomain_mem_all tax
  have indexFound := atPath _ indexListed
  have domainFound := atPath _ domainListed
  rw [← all] at indexListed domainListed
  obtain ⟨text, stands, links, targets⟩ := index indexListed
  obtain ⟨text', stands', includes, targets'⟩ :=
    domains rfl taxEntry tax domainListed
  rw [slug] at stands' targets'
  rw [Page.ofDomain, slug] at domainFound
  have linked : Template.links text = ["tax/"] := by
    rw [links]
    decide
  have included : Template.includes text' = ["_partials/tax.md"] := by
    rw [includes]
    decide
  exact ⟨⟨text, indexFound.trans stands, linked⟩,
    targets "tax/" (by simp [linked]),
    ⟨text', domainFound.trans stands', included⟩,
    targets' "_partials/tax.md" (by simp [included])⟩

/-- A printing that is not forced, over a directory in the place of a page. -/
def blockedTax : Run :=
  print Template.render ⟨.flat, none⟩ (taxGrouping [addTax]) "/docs" false
    { entries := [(["docs"], .directory), (["docs", "tax.md"], .directory)] }

/--
A directory in the place of a page is kept: the printing succeeds and writes the
page that links to the domains, and its link leads to no file.
-/
theorem print_links_to_directory :
    taxIndex.Scanned ∧
      Grouping.ofHandlers taxIndex .testFixtures (taxHandlers [addTax]) =
        .ok (taxGrouping [addTax]) ∧
      blockedTax.failure = none ∧
      blockedTax.written = [indexFile "/docs"] ∧
      (blockedTax.files.readText (indexFile "/docs")).toOption.map
          Template.links = some ["tax.md"] ∧
      blockedTax.files.node? (linkedFile "/docs" "tax.md") =
        some .directory := by
  have grouped : Grouping.ofHandlers taxIndex .testFixtures
      (taxHandlers [addTax]) = .ok (taxGrouping [addTax]) :=
    grouped_tax (by simp)
  have success : blockedTax.failure = none :=
    Option.isNone_iff_eq_none.mp (by decide)
  have rendered : blockedTax.rendered =
      [Page.ofIndex ⟨.flat, none⟩ "/docs" (taxGrouping [addTax]).inhabited] :=
    rfl
  have inert := Grouping.slugsAreInert_of_ofHandlers taxIndex_scanned.inert
    grouped
  -- The page has the links of its entries; its text is not computed for that.
  obtain ⟨text, stands, links, -⟩ :=
    exists_links_of_print inert
      (fun _ listed => Grouping.inert_domain_of_collect taxIndex_scanned.inert
        DomainPattern.testFixtures.domain_isInfix grouped listed)
      success (rendered ▸ List.mem_singleton_self _)
  have found := node?_eq_of_print inert.slugsAreNames success
    (by decide) (by decide) _
    (List.mem_append_right _ List.mem_cons_self)
  have readable : blockedTax.files.readText (indexFile "/docs") = .ok text :=
    FileSystem.readText_of_node? (found.trans stands)
  refine ⟨taxIndex_scanned, grouped, success, ?_, ?_, ?_⟩
  · decide
  · rw [readable]
    refine congrArg some (links.trans ?_)
    decide
  · decide

end Reference

end Printing

end BusReference
