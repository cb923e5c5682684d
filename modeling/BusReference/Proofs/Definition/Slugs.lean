import BusReference.Definition.Grouping
import BusReference.Proofs.Definition.Reading
import BusReference.Proofs.Php.Hierarchy.Registration
import BusReference.Proofs.Php.Names
import BusReference.Proofs.Printing.Place
import BusReference.Proofs.Regex.Capture

/-!
# Slugs of definitions

A grouping of handlers lists what was read about each of them under its domain,
and nothing else.  The domain and the short name of a command are stretches of
its name, so where the declared types have inert names, all slugs are inert and
name something in a directory.
-/

namespace BusReference

open BusReference.Php (Declaration Index shortName plainName)
open BusReference.Text (Inert)

/-! ## What is read -/

/-- What was read about a command is determined by the name of a declared type. -/
theorem Definition.exists_declaration_of_readWith
    {index : Index} {domainOf : String → String} {handler command : String}
    {d : Definition}
    (done : Definition.readWith index domainOf handler command = .ok d) :
    (∃ declared ∈ index.types, declared.name = d.commandClass) ∧
      d.kind = .ofClass d.commandClass ∧
      d.domain = domainOf d.commandClass ∧
      d.slug = Text.Kebab.kebab (shortName d.commandClass) := by
  obtain ⟨command, handler, returnType, resolved, -, -, rfl⟩ :=
    readWith_eq_ok_iff.mp done
  exact ⟨⟨command, Php.Index.mem_of_lookup (resolve_eq_ok_iff.mp resolved)⟩,
    rfl, rfl, rfl⟩

/-! ## What is grouped -/

namespace DomainDefinitions

theorem mem_insertByClass
    {d e : Definition} {es : List Definition} :
    e ∈ insertByClass d es ↔ e = d ∨ e ∈ es := by
  induction es with
  | nil => simp [insertByClass]
  | cons first others ih =>
      rw [insertByClass]
      split
      · exact List.mem_cons
      · rw [List.mem_cons, ih, List.mem_cons]
        exact or_left_comm

theorem mem_add
    {d e : Definition} {ds : DomainDefinitions} :
    e ∈ (ds.add d).commands ++ (ds.add d).queries ↔
      e = d ∨ e ∈ ds.commands ++ ds.queries := by
  rw [add]
  split
  · simp only [List.mem_append, mem_insertByClass]
    exact or_assoc
  · simp only [List.mem_append, mem_insertByClass]
    exact or_left_comm

end DomainDefinitions

namespace Grouping

/-- Each definition is listed under its domain, and the predicate holds of it. -/
def Lists (P : Definition → Prop) (grouping : Grouping) : Prop :=
  ∀ entry ∈ grouping.domains,
    ∀ d ∈ entry.2.commands ++ entry.2.queries, d.domain = entry.1 ∧ P d

theorem mem_change
    {name : String} {f : DomainDefinitions → DomainDefinitions}
    {domains : List (String × DomainDefinitions)}
    {entry : String × DomainDefinitions}
    (member : entry ∈ change name f domains) :
    entry ∈ domains ∨ entry = (name, f {}) ∨
      ∃ ds, (name, ds) ∈ domains ∧ entry = (name, f ds) := by
  induction domains with
  | nil => exact Or.inr (Or.inl (List.mem_singleton.mp member))
  | cons first others ih =>
      rw [change] at member
      split at member
      · rcases List.mem_cons.mp member with rfl | old
        · exact Or.inr (Or.inl rfl)
        · exact Or.inl old
      · split at member
        · rename_i same
          subst same
          rcases List.mem_cons.mp member with rfl | old
          · exact Or.inr (Or.inr ⟨_, List.mem_cons_self, rfl⟩)
          · exact Or.inl (List.mem_cons_of_mem _ old)
        · rcases List.mem_cons.mp member with rfl | later
          · exact Or.inl List.mem_cons_self
          · rcases ih later with old | new | ⟨ds, listed, changed⟩
            · exact Or.inl (List.mem_cons_of_mem _ old)
            · exact Or.inr (Or.inl new)
            · exact Or.inr (Or.inr
                ⟨ds, List.mem_cons_of_mem _ listed, changed⟩)

theorem Lists.add
    {P : Definition → Prop} {grouping : Grouping} (lists : grouping.Lists P)
    {d : Definition} (holds : P d) : (grouping.add d).Lists P := by
  intro entry member e inside
  rcases mem_change member with old | rfl | ⟨ds, listed, rfl⟩
  · exact lists entry old e inside
  · rcases DomainDefinitions.mem_add.mp inside with rfl | old
    · exact ⟨rfl, holds⟩
    · cases old
  · rcases DomainDefinitions.mem_add.mp inside with rfl | old
    · exact ⟨rfl, holds⟩
    · exact lists (d.domain, ds) listed e old

theorem Lists.addAll
    {ε : Type} {reader : String → String → Except ε Definition}
    {P : Definition → Prop} {grouping result : Grouping}
    (lists : grouping.Lists P)
    (holds : ∀ handler command d, reader handler command = .ok d → P d)
    {pairs : List (String × String)}
    (done : grouping.addAll reader pairs = .ok result) :
    result.Lists P := by
  induction pairs generalizing grouping with
  | nil =>
      cases done
      exact lists
  | cons pair pairs ih =>
      rw [Grouping.addAll] at done
      split at done
      · cases done
      · rename_i d read
        exact ih (lists.add (holds _ _ d read)) done

/-- A grouping of handlers lists only what was read about one of them. -/
theorem lists_of_collect
    {ε : Type} {reader : String → String → Except ε Definition}
    {handlers : HandlerMap} {grouping : Grouping}
    (done : collect reader handlers = .ok grouping) :
    grouping.Lists fun d => ∃ handler command,
      reader handler command = .ok d := by
  have nothing : Grouping.Lists (fun d => ∃ handler command,
      reader handler command = .ok d) {} := by
    intro entry member
    cases member
  exact nothing.addAll (fun handler command d read => ⟨handler, command, read⟩)
    done

/-! ## Inert slugs -/

/-- The slugs of all printed domains and their definitions are inert. -/
def SlugsAreInert (grouping : Grouping) : Prop :=
  ∀ entry ∈ grouping.inhabited,
    Inert (domainSlug entry.1).toList ∧
      ∀ d ∈ entry.2.commands ++ entry.2.queries, Inert d.slug.toList

theorem SlugsAreInert.slugsAreNames
    {grouping : Grouping} (inert : grouping.SlugsAreInert) :
    grouping.SlugsAreNames := by
  intro entry member
  obtain ⟨domain, definitions⟩ := inert entry member
  refine ⟨domain.not_mem rfl, ?_, ?_, ?_⟩
  · intro dot
    rw [dot] at domain
    exact absurd domain (by decide)
  · intro dots
    rw [dots] at domain
    exact absurd domain (by decide)
  · intro d inside
    exact (definitions d inside).not_mem rfl

section Collect

variable
    {index : Index} {domainOf : String → String} {handlers : HandlerMap}
    {grouping : Grouping} {entry : String × DomainDefinitions}

/-- What was read about a command under inert declared names has an inert name. -/
theorem inert_commandClass_of_mem
    (inert : index.Inert)
    (done :
      collect (Definition.readWith index domainOf) handlers = .ok grouping)
    (member : entry ∈ grouping.domains) {d : Definition}
    (inside : d ∈ entry.2.commands ++ entry.2.queries) :
    Inert d.commandClass.toList ∧ entry.1 = domainOf d.commandClass ∧
      d.slug = Text.Kebab.kebab (shortName d.commandClass) := by
  obtain ⟨domain, handler, command, read⟩ :=
    lists_of_collect done entry member d inside
  obtain ⟨⟨declared, listed, named⟩, -, isDomain, slug⟩ :=
    Definition.exists_declaration_of_readWith read
  exact ⟨named ▸ inert declared listed, domain.symm.trans isDomain, slug⟩

/-- Where a domain is a stretch of the name of its class, it is inert. -/
theorem inert_domain_of_collect
    (inert : index.Inert)
    (captures : ∀ name, (domainOf name).toList <:+: name.toList)
    (done :
      collect (Definition.readWith index domainOf) handlers = .ok grouping)
    (member : entry ∈ grouping.inhabited) : Inert entry.1.toList := by
  obtain ⟨listed, printed⟩ := List.mem_filter.mp member
  obtain ⟨d, inside⟩ :
      ∃ d, d ∈ entry.2.commands ++ entry.2.queries := by
    refine List.exists_mem_of_ne_nil _ ?_
    intro empty
    rw [List.append_eq_nil_iff] at empty
    simp [DomainDefinitions.isEmpty, empty.1, empty.2] at printed
  obtain ⟨inertClass, isDomain, -⟩ :=
    inert_commandClass_of_mem inert done listed inside
  rw [isDomain]
  exact inertClass.stretch (captures _)

/-- Then pages have inert names. -/
theorem slugsAreInert_of_collect
    (inert : index.Inert)
    (captures : ∀ name, (domainOf name).toList <:+: name.toList)
    (done :
      collect (Definition.readWith index domainOf) handlers = .ok grouping) :
    grouping.SlugsAreInert := by
  intro entry member
  constructor
  · have inertDomain := inert_domain_of_collect inert captures done member
    rw [domainSlug]
    split
    · decide
    · exact Text.inert_kebab inertDomain
  · intro d inside
    obtain ⟨inertClass, -, slug⟩ := inert_commandClass_of_mem inert done
      (List.mem_filter.mp member).1 inside
    rw [slug]
    exact Text.inert_kebab (Text.inert_shortName inertClass)

end Collect

theorem slugsAreInert_of_ofHandlers
    {index : Index} (inert : index.Inert)
    {pattern : DomainPattern} {handlers : HandlerMap} {grouping : Grouping}
    (done : ofHandlers index pattern handlers = .ok grouping) :
    grouping.SlugsAreInert :=
  slugsAreInert_of_collect inert pattern.domain_isInfix done

end Grouping

end BusReference
