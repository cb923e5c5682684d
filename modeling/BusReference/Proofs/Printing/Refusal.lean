import BusReference.Proofs.Printing.Distinct
import BusReference.Proofs.Template.Rendering

/-!
# Why a printing fails

A printing is refused, before anything is changed, if its edition lacks a
version or two of its domains share a slug.  Once it has begun, only the file
system can make it fail, since every page can be rendered.
-/

namespace BusReference.Printing

open BusReference.Files

/-! ## Refusals -/

/-- The search finds two domains exactly if some slug occurs twice. -/
theorem sharedSlug?_eq_none_iff {seen domains : List String} :
    sharedSlug? seen domains = none ↔
      (domains.map domainSlug).Nodup ∧
        ∀ domain ∈ domains, ∀ other ∈ seen,
          domainSlug other ≠ domainSlug domain := by
  constructor
  · exact nodup_of_sharedSlug?
  · rintro ⟨distinct, apart⟩
    induction domains generalizing seen with
    | nil => rfl
    | cons domain domains ih =>
        obtain ⟨alone, distinctLater⟩ := List.nodup_cons.mp distinct
        have fresh :
            (seen.find? fun other => domainSlug other == domainSlug domain) =
              none := by
          rw [List.find?_eq_none]
          intro other earlier same
          exact apart domain List.mem_cons_self other earlier
            (beq_iff_eq.mp same)
        rw [sharedSlug?, fresh]
        refine ih distinctLater ?_
        intro later listed other earlier
        rcases List.mem_cons.mp earlier with rfl | before
        · intro same
          exact alone (List.mem_map.mpr ⟨later, listed, same.symm⟩)
        · exact apart later (List.mem_cons_of_mem _ listed) other before

theorem checkSlugs_eq_ok_iff {grouping : Grouping} :
    checkSlugs grouping = .ok () ↔
      (grouping.inhabited.map (domainSlug ·.1)).Nodup := by
  have search : sharedSlug? [] (grouping.inhabited.map (·.1)) = none ↔ _ :=
    sharedSlug?_eq_none_iff
  rw [List.map_map] at search
  rw [checkSlugs]
  split
  · rename_i first second found
    rw [found] at search
    refine iff_of_false (fun done => by cases done) ?_
    intro distinct
    have nothingSeen : ∀ domain ∈ grouping.inhabited.map (·.1),
        ∀ other ∈ ([] : List String),
          domainSlug other ≠ domainSlug domain := by
      intro domain listed other seen
      cases seen
    have unshared := search.mpr ⟨distinct, nothingSeen⟩
    cases unshared
  · rename_i nothing
    exact iff_of_true rfl (search.mp nothing).1

theorem category_of_checkSlugs
    {grouping : Grouping} {error : Error}
    (refused : checkSlugs grouping = .error error) :
    error.category = .configuration := by
  rw [checkSlugs] at refused
  split at refused <;> cases refused
  rfl

theorem category_of_checkVersion
    {edition : Edition} {error : Error}
    (refused : checkVersion edition = .error error) :
    error.category = .configuration := by
  rw [checkVersion] at refused
  split at refused <;> cases refused
  rfl

/-! ## Failures of a run -/

theorem category_ofWrite (error : FileSystem.WriteError) :
    (Error.ofWrite error).category = .io := by
  cases error <;> rfl

/-- If all pages can be rendered, then a run fails only at writing a file. -/
theorem category_of_writePages
    {render : Renderer} {force : Bool} {fs : FileSystem} {pages : List Page}
    {error : Error}
    (texts : ∀ page ∈ pages,
      ∃ text, render page.template page.context = .ok text)
    (failed : (writePages render force fs pages).failure = some error) :
    error.category = .io := by
  induction pages generalizing fs with
  | nil => cases failed
  | cons page pages ih =>
      have later : ∀ page ∈ pages,
          ∃ text, render page.template page.context = .ok text :=
        fun other member => texts other (List.mem_cons_of_mem _ member)
      obtain ⟨text, rendered⟩ := texts page List.mem_cons_self
      rw [writePages, rendered] at failed
      split at failed
      · exact ih later failed
      · dsimp only at failed
        split at failed
        · cases failed
          exact category_ofWrite _
        · exact ih later failed

section Print

variable
    {edition : Edition} {grouping : Grouping} {destination : String}
    {force : Bool} {fs : FileSystem} {error : Error}

/--
A printing that fails was either refused and left the files as they were, or
was begun and failed at the file system.
-/
theorem print_failure_cases
    (failed :
      (print Template.render edition grouping destination force fs).failure =
        some error) :
    (¬ Admits edition grouping ∧ error.category = .configuration ∧
      (print Template.render edition grouping destination force fs).files =
        fs) ∨
    (Admits edition grouping ∧ error.category = .io) := by
  have texts : ∀ page ∈ Page.all edition destination grouping,
      ∃ text, page.template.render page.context = .ok text :=
    fun page member => Page.exists_render_of_mem_all member
  rcases version : checkVersion edition with reason | ⟨⟩
  · have refused :
        print Template.render edition grouping destination force fs =
          .refuse fs reason := by
      rw [print, version]
    rw [refused] at failed ⊢
    cases failed
    refine Or.inl ⟨?_, category_of_checkVersion version, rfl⟩
    rintro ⟨checked, -⟩
    rw [version] at checked
    cases checked
  · rcases slugs : checkSlugs grouping with reason | ⟨⟩
    · have refused :
          print Template.render edition grouping destination force fs =
            .refuse fs reason := by
        rw [print, version, slugs]
      rw [refused] at failed ⊢
      cases failed
      refine Or.inl ⟨?_, category_of_checkSlugs slugs, rfl⟩
      rintro ⟨-, checked⟩
      rw [slugs] at checked
      cases checked
    · refine Or.inr ⟨⟨version, slugs⟩, ?_⟩
      rw [print, version, slugs] at failed
      dsimp only at failed
      split at failed
      · split at failed
        · cases failed
          rfl
        · exact category_of_writePages texts failed
      · exact category_of_writePages texts failed

end Print

end BusReference.Printing
