import BusReference.Proofs.Printing.Place

/-!
# Pages that can be rendered

A template fails only where it asks for a part of what is undefined, or walks
through what has no elements.  The values that a grouping gives rise to hold
everything that their templates ask for, so every page of the reference has a
text, whatever the definitions are.
-/

namespace BusReference

namespace Template

open Value

/-! ## Parts of templates -/

section Parts

variable
    {write : Value → Option String} {next : String → Option String}
    {vs : List Value}

theorem exists_forEach
    (each : ∀ v ∈ vs, ∃ text, write v = some text) :
    ∃ text, forEach write vs = some text := by
  have all : ∃ texts, vs.mapM write = some texts := by
    induction vs with
    | nil => exact ⟨[], rfl⟩
    | cons v vs ih =>
        obtain ⟨text, first⟩ := each v List.mem_cons_self
        obtain ⟨texts, others⟩ :=
          ih fun w member => each w (List.mem_cons_of_mem _ member)
        exact ⟨text :: texts, by simp [List.mapM_cons, first, others]⟩
  obtain ⟨texts, written⟩ := all
  exact ⟨String.join texts, by rw [forEach, written, Option.map_some]⟩

/-- A template goes on after a part that has a text. -/
theorem exists_bind
    {part : Option String} (written : ∃ text, part = some text)
    (goesOn : ∀ text, ∃ page, next text = some page) :
    ∃ page, part.bind next = some page := by
  obtain ⟨text, rfl⟩ := written
  exact goesOn text

theorem exists_bind_ofElements
    {body : List Value → Option String}
    (written : ∃ text, body vs = some text)
    (goesOn : ∀ text, ∃ page, next text = some page) :
    ∃ page, (ofElements (.list vs) body).bind next = some page := by
  rw [ofElements]
  split
  · exact exists_bind written goesOn
  · exact goesOn ""

theorem exists_bind_ofTexts
    {ss : List String} {body : List String → String}
    (goesOn : ∀ text, ∃ page, next text = some page) :
    ∃ page, (ofTexts (Page.texts ss) body).bind next = some page :=
  exists_bind_ofElements ⟨_, rfl⟩ goesOn

theorem exists_bind_kindSections
    {body : List Value → Option String} {ds : DomainDefinitions}
    (written : ∀ listed : List Definition,
      ∃ text, body (listed.map Page.definitionValue) = some text)
    (goesOn : ∀ text, ∃ page, next text = some page) :
    ∃ page,
      (kindSections (Page.definitionsValue ds) body).bind next =
        some page := by
  have titled : ∀ (title : String) (listed : List Definition),
      ∃ text,
        (body (listed.map Page.definitionValue)).map
          (fun text => "## " ++ title ++ "\n\n" ++ text) = some text := by
    intro title listed
    obtain ⟨text, done⟩ := written listed
    exact ⟨_, by rw [done, Option.map_some]⟩
  have sections : ∃ text,
      kindSections (Page.definitionsValue ds) body = some text :=
    exists_bind_ofElements (titled "Commands" ds.commands) fun commands =>
      exists_bind_ofElements (titled "Queries" ds.queries) fun queries =>
        ⟨commands ++ queries, rfl⟩
  exact exists_bind sections goesOn

end Parts

/-! ## Pages -/

theorem exists_listEntry (d : Definition) :
    ∃ text, listEntry (Page.definitionValue d) = some text :=
  exists_bind_ofTexts fun _ => exists_bind_ofTexts fun _ => ⟨_, rfl⟩

section Pages

variable
    (edition : Edition) (destination domain : String)
    (ds : DomainDefinitions) (d : Definition)

theorem exists_page?_ofDefinition :
    let page := Page.ofDefinition edition destination domain d
    ∃ text, page.template.page? page.context = some text :=
  exists_bind_ofTexts fun _ => exists_bind_ofTexts fun _ => ⟨_, rfl⟩

theorem exists_page?_ofDomain :
    let page := Page.ofDomain edition destination domain ds
    ∃ text, page.template.page? page.context = some text := by
  rcases edition with ⟨layout, version⟩
  cases layout with
  | flat =>
      refine exists_bind_kindSections ?_ fun _ => ⟨_, rfl⟩
      intro listed
      refine exists_forEach ?_
      intro v member
      obtain ⟨d, -, rfl⟩ := List.mem_map.mp member
      exact exists_listEntry d
  | nested =>
      refine exists_bind_kindSections ?_ fun _ => ⟨_, rfl⟩
      intro listed
      have lines : ∃ text,
          forEach includeLine (listed.map Page.definitionValue) =
            some text := by
        refine exists_forEach ?_
        intro v member
        obtain ⟨d, -, rfl⟩ := List.mem_map.mp member
        exact ⟨_, rfl⟩
      obtain ⟨text, done⟩ := lines
      exact ⟨_, by rw [done, Option.map_some]⟩

theorem exists_page?_ofIndex
    (domains : List (String × DomainDefinitions)) :
    let page := Page.ofIndex edition destination domains
    ∃ text, page.template.page? page.context = some text := by
  have lines : ∃ text,
      forEach domainLine
        (domains.map fun entry =>
          Page.domainValue edition entry.1 entry.2) = some text := by
    refine exists_forEach ?_
    intro v member
    obtain ⟨entry, -, rfl⟩ := List.mem_map.mp member
    exact ⟨_, rfl⟩
  exact exists_bind lines fun _ => ⟨_, rfl⟩

end Pages

end Template

/-- Every page of a grouping has a text. -/
theorem Page.exists_render_of_mem_all
    {edition : Edition} {destination : String} {grouping : Grouping}
    {page : Page} (member : page ∈ all edition destination grouping) :
    ∃ text, page.template.render page.context = .ok text := by
  have written : ∃ text, page.template.page? page.context = some text := by
    rw [all_eq] at member
    rcases List.mem_append.mp member with inside | last
    · obtain ⟨entry, -, rfl | ⟨-, d, -, rfl⟩⟩ := mem_ofDomains_iff.mp inside
      · exact Template.exists_page?_ofDomain _ _ _ _
      · exact Template.exists_page?_ofDefinition _ _ _ _
    · rw [List.mem_singleton.mp last]
      exact Template.exists_page?_ofIndex _ _ _
  obtain ⟨text, done⟩ := written
  exact ⟨text, by rw [Template.render, done]⟩

end BusReference
