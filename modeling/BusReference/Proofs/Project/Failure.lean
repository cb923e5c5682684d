import BusReference.Proofs.Printing.Refusal
import BusReference.Proofs.Project.Confirmation

/-!
# Failing without a trace

A printing of a project that is cancelled or fails leaves the files as they
were, unless it fails at the file system itself.  All that can be wrong with
the definitions and the version is found before the question is asked, except
for domains that share a slug: they are found after the removal of the
destination was confirmed, and before anything is removed.
-/

namespace BusReference

open BusReference.Files
open BusReference.Printing (checkVersion Admits)

/-! ## How a printing of a project ends -/

namespace Project

section Cases

variable
    (p : Project) (docs : DocsSettings) (destination : String)
    (force : Bool) (fs : FileSystem)

/-- Whether a printing that gets as far as that asks its question. -/
def NeedsAnswer (destination : String) (force : Bool) (fs : FileSystem) :
    Prop :=
  force = true ∧ fs.pathExists destination = true

/-- A printing fails at once, or goes on with or without an answer. -/
theorem print_cases :
    (∃ error,
      p.print docs destination force fs = .done ⟨fs, .error error⟩ ∧
      (checkVersion (Edition.of docs.layout docs.version) = .error error ∨
        p.grouping = .error error)) ∨
    (checkVersion (Edition.of docs.layout docs.version) = .ok () ∧
      ∃ grouping, p.grouping = .ok grouping ∧
        let resume := resumePrint (Edition.of docs.layout docs.version)
          grouping destination force fs
        (NeedsAnswer destination force fs ∧
          p.print docs destination force fs = .ask destination resume ∨
        ¬ NeedsAnswer destination force fs ∧
          p.print docs destination force fs =
            .done (resume (.ok true)))) := by
  rw [Project.print]
  rcases version : checkVersion (Edition.of docs.layout docs.version)
    with error | ⟨⟩
  · exact Or.inl ⟨error, rfl, Or.inl rfl⟩
  · rcases grouped : p.grouping with error | grouping
    · exact Or.inl ⟨error, rfl, Or.inr rfl⟩
    · refine Or.inr ⟨rfl, grouping, rfl, ?_⟩
      rw [NeedsAnswer, ← Bool.and_eq_true_iff]
      by_cases asks : (force && fs.pathExists destination) = true
      · exact Or.inl ⟨asks, by simp only [if_pos asks]⟩
      · exact Or.inr ⟨asks, by simp only [if_neg asks]⟩

/-- What becomes of a printing after an answer. -/
theorem resumePrint_cases
    (edition : Edition) (grouping : Grouping)
    (reply : Except Error Bool) :
    let result :=
      resumePrint edition grouping destination force fs reply
    (∃ error, reply = .error error ∧ result = ⟨fs, .error error⟩) ∨
    (reply = .ok false ∧ result = ⟨fs, .ok .cancelled⟩) ∨
    (reply = .ok true ∧ ∃ error, result = ⟨fs, .error error⟩ ∧
      ¬ Admits edition grouping ∧ error.category = .configuration) ∨
    (reply = .ok true ∧ Admits edition grouping ∧
      ((∃ error, result.outcome = .error error ∧ error.category = .io) ∨
      ∃ written skipped,
        result.outcome = .ok (.printed written skipped))) := by
  intro result
  rcases reply with error | confirmed
  · exact Or.inl ⟨error, rfl, rfl⟩
  · cases confirmed with
    | false => exact Or.inr (Or.inl ⟨rfl, rfl⟩)
    | true =>
        refine Or.inr (Or.inr ?_)
        have ofRun : result = PrintResult.ofRun
            (Printing.print Template.render edition grouping destination
              force fs) := rfl
        rw [ofRun, PrintResult.ofRun]
        split
        · rename_i error failed
          rcases Printing.print_failure_cases failed with
            ⟨refused, configuration, kept⟩ | ⟨admits, io⟩
          · exact Or.inl ⟨rfl, error, by rw [kept], refused, configuration⟩
          · exact Or.inr ⟨rfl, admits, Or.inl ⟨error, rfl, io⟩⟩
        · rename_i success
          exact Or.inr ⟨rfl, Printing.admits_of_print success,
            Or.inr ⟨_, _, rfl⟩⟩

end Cases

/-! ## Two domains of one slug -/

/-- A handler and the command that it handles, which is in the given domain. -/
def commandIn (domain : String) : Php.Declaration × Php.Declaration :=
  ({ name := "Tests\\" ++ domain ++ "Handler"
     kind := .classType
     methods := [{ name := "handle" }] },
   { name := "Tests\\Resources\\Domain\\" ++ domain ++ "\\Command\\Add"
     kind := .classType
     methods := [{ name := "__construct" }] })

/-- Commands in two domains whose names differ in the case of a letter. -/
def twins : Project where
  index := ⟨["Tax", "tax"].flatMap fun domain =>
    [(commandIn domain).1, (commandIn domain).2]⟩
  pattern := .testFixtures
  handlers := ⟨["Tax", "tax"].map fun domain =>
    ((commandIn domain).1.name, (commandIn domain).2.name)⟩

def definitionIn (domain : String) : Definition where
  kind := .command
  domain
  handlerClass := (commandIn domain).1.name
  commandClass := (commandIn domain).2.name
  constructorParameters := []
  description := ""
  returnType := "void"
  handlerInterfaces := []
  simpleClassName := "Add"
  slug := "add"

theorem read_commandIn :
    ∀ domain ∈ ["Tax", "tax"],
      Definition.read twins.index .testFixtures (commandIn domain).1.name
          (commandIn domain).2.name =
        .ok (definitionIn domain) := by
  have found : ∀ domain ∈ ["Tax", "tax"],
      twins.index.find? (commandIn domain).1.name =
          some (commandIn domain).1 ∧
        twins.index.find? (commandIn domain).2.name =
          some (commandIn domain).2 := by
    decide
  have own : ∀ domain ∈ ["Tax", "tax"],
      (commandIn domain).1.method? Definition.handleMethod =
        some { name := "handle" } := by
    decide +kernel
  intro domain member
  obtain ⟨handlerFound, commandFound⟩ := found domain member
  rw [Definition.read_of_bare commandFound handlerFound rfl rfl
    (own domain member) rfl]
  revert domain
  decide +kernel

/-- The commands of the two domains, one in each. -/
def twinGrouping : Grouping :=
  (({} : Grouping).add (definitionIn "Tax")).add (definitionIn "tax")

theorem grouping_twins : twins.grouping = .ok twinGrouping := by
  have first := read_commandIn "Tax" (by decide)
  have second := read_commandIn "tax" (by decide)
  rw [grouping, Grouping.ofHandlers, Grouping.collect]
  show Grouping.addAll (Definition.read twins.index .testFixtures) {} [_, _] = _
  rw [Grouping.addAll, first]
  dsimp only
  rw [Grouping.addAll, second]
  rfl

/-- Printing the two domains asks, and is refused after any confirmation. -/
theorem print_twins :
    twins.print { layout := .flat } "/docs" true oldPage =
      .ask "/docs" (resumePrint (Edition.of .flat none) twinGrouping
        "/docs" true oldPage) := by
  have stands : (true && oldPage.pathExists "/docs") = true := by
    decide
  rw [Project.print, grouping_twins]
  simp only [stands, if_true]
  rfl

theorem outcome_twins :
    ((twins.print { layout := .flat } "/docs" true oldPage).answer
        fun _ => .ok true).outcome =
      .error (.sharedSlug "Tax" "tax" "tax") := by
  rw [print_twins]
  rfl

/-! ## Files after a failure -/

theorem resumePrint_keeps_files
    {edition : Edition} {grouping : Grouping} {destination : String}
    {force : Bool} {fs : FileSystem} {reply : Except Error Bool}
    (ended :
      let result :=
        resumePrint edition grouping destination force fs reply
      result.outcome = .ok .cancelled ∨
        ∃ error, result.outcome = .error error ∧
          (error.category ≠ .io ∨ reply = .error error)) :
    (resumePrint edition grouping destination force fs reply).files = fs := by
  dsimp only at ended
  rcases resumePrint_cases destination force fs edition grouping reply with
    ⟨error, -, result⟩ | ⟨-, result⟩ | ⟨-, error, result, -⟩ |
      ⟨confirmed, -, ⟨error, failed, io⟩ | ⟨written, skipped, done⟩⟩
  · rw [result]
  · rw [result]
  · rw [result]
  · rcases ended with cancelled | ⟨other, outcome, notIo | refused⟩
    · rw [failed] at cancelled
      cases cancelled
    · rw [failed] at outcome
      cases outcome
      exact absurd io notIo
    · rw [confirmed] at refused
      cases refused
  · rcases ended with cancelled | ⟨other, outcome, -⟩
    · rw [done] at cancelled
      cases cancelled
    · rw [done] at outcome
      cases outcome

section Outcome

variable
    {p : Project} {docs : DocsSettings} {destination : String}
    {force : Bool} {confirm : String → Except Error Bool}
    {fs : FileSystem}

/--
A printing that is cancelled, that got no answer, or that failed otherwise than
at the file system leaves all files and directories as they were.
-/
theorem print_keeps_files
    (ended :
      let run := p.print docs destination force fs
      (run.answer confirm).outcome = .ok .cancelled ∨
        ∃ error, (run.answer confirm).outcome = .error error ∧
          (error.category ≠ .io ∨
            run.asks = true ∧ confirm destination = .error error)) :
    ((p.print docs destination force fs).answer confirm).files = fs := by
  dsimp only at ended
  rcases print_cases p docs destination force fs with
    ⟨error, atOnce, -⟩ | ⟨-, grouping, -, ⟨-, asked⟩ | ⟨-, goesOn⟩⟩
  · rw [atOnce]
    rfl
  · rw [asked] at ended ⊢
    refine resumePrint_keeps_files (ended.imp_right ?_)
    rintro ⟨error, outcome, reason⟩
    exact ⟨error, outcome, reason.imp_right fun answered => answered.2⟩
  · rw [goesOn] at ended ⊢
    rw [Confirmed.answer] at ended ⊢
    refine resumePrint_keeps_files (ended.imp_right ?_)
    rintro ⟨error, outcome, notIo | ⟨asks, -⟩⟩
    · exact ⟨error, outcome, Or.inl notIo⟩
    · cases asks

end Outcome

/-- The refused printing of the two domains leaves the old page. -/
theorem print_keeps_files_twins :
    let run := twins.print { layout := .flat } "/docs" true oldPage
    (run.answer fun _ => .ok true).outcome =
        .error (.sharedSlug "Tax" "tax" "tax") ∧
      (run.answer fun _ => .ok true).files = oldPage := by
  intro run
  refine ⟨outcome_twins,
    print_keeps_files (Or.inr ⟨_, outcome_twins, Or.inl ?_⟩)⟩
  decide

/-! ## Failures after the question -/

/--
After an answer, a printing fails over the configuration exactly if it was
confirmed and is refused.
-/
theorem resumePrint_fails_iff
    {edition : Edition} {grouping : Grouping} {destination : String}
    {force : Bool} {fs : FileSystem} {reply : Except Error Bool} :
    (∃ error,
      (resumePrint edition grouping destination force fs reply).outcome =
        .error error ∧
      (error.category = .configuration ∨ error.category = .typeResolution) ∧
      reply ≠ .error error) ↔
    reply = .ok true ∧ ¬ Admits edition grouping := by
  rcases resumePrint_cases destination force fs edition grouping reply with
    ⟨error, refused, result⟩ | ⟨declined, result⟩ |
      ⟨confirmed, error, result, refused, configuration⟩ |
      ⟨confirmed, admits, ended⟩
  · rw [result]
    refine iff_of_false ?_ ?_
    · rintro ⟨other, same, -, own⟩
      cases same
      exact own refused
    · rw [refused]
      rintro ⟨confirmed, -⟩
      cases confirmed
  · rw [result]
    refine iff_of_false ?_ ?_
    · rintro ⟨other, same, -⟩
      cases same
    · rw [declined]
      rintro ⟨confirmed, -⟩
      cases confirmed
  · rw [result, confirmed]
    exact iff_of_true ⟨error, rfl, Or.inl configuration, nofun⟩
      ⟨rfl, refused⟩
  · refine iff_of_false ?_ fun refused => refused.2 admits
    rintro ⟨error, failed, category, -⟩
    rcases ended with ⟨other, outcome, io⟩ | ⟨written, skipped, done⟩
    · rw [outcome] at failed
      cases failed
      rw [io] at category
      rcases category with configuration | typeResolution
      · cases configuration
      · cases typeResolution
    · rw [done] at failed
      cases failed

section Late

variable
    {p : Project} {docs : DocsSettings} {destination : String}
    {force : Bool} {confirm : String → Except Error Bool}
    {fs : FileSystem}

/--
A printing asks in vain, in that it then fails over the configuration or the
types of the project, exactly if the removal of the destination is confirmed and
two domains with definitions share a slug.
-/
theorem print_asks_in_vain_iff :
    let run := p.print docs destination force fs
    (run.asks = true ∧
      ∃ error, (run.answer confirm).outcome = .error error ∧
        (error.category = .configuration ∨
          error.category = .typeResolution) ∧
        confirm destination ≠ .error error) ↔
    (force = true ∧ fs.pathExists destination = true ∧
      confirm destination = .ok true ∧
      checkVersion (Edition.of docs.layout docs.version) = .ok () ∧
      ∃ grouping, p.grouping = .ok grouping ∧
        ¬ (grouping.inhabited.map (domainSlug ·.1)).Nodup) := by
  intro run
  rcases print_cases p docs destination force fs with
    ⟨error, atOnce, reason⟩ |
      ⟨version, grouping, grouped, ⟨needs, asked⟩ | ⟨idle, goesOn⟩⟩
  · refine iff_of_false ?_ ?_
    · rintro ⟨asks, -⟩
      rw [show run = _ from atOnce] at asks
      cases asks
    · rintro ⟨-, -, -, version, grouping, grouped, -⟩
      rcases reason with unversioned | ungrouped
      · rw [version] at unversioned
        cases unversioned
      · rw [grouped] at ungrouped
        cases ungrouped
  · have admits : Admits (Edition.of docs.layout docs.version) grouping ↔
        (grouping.inhabited.map (domainSlug ·.1)).Nodup := by
      rw [Admits, Printing.checkSlugs_eq_ok_iff]
      exact and_iff_right version
    rw [show run = _ from asked, Confirmed.answer, resumePrint_fails_iff,
      admits]
    constructor
    · rintro ⟨-, confirmed, shared⟩
      exact ⟨needs.1, needs.2, confirmed, version, grouping, grouped, shared⟩
    · rintro ⟨-, -, confirmed, -, other, same, shared⟩
      rw [grouped] at same
      cases same
      exact ⟨rfl, confirmed, shared⟩
  · refine iff_of_false ?_ ?_
    · rintro ⟨asks, -⟩
      rw [show run = _ from goesOn] at asks
      cases asks
    · rintro ⟨forced, stands, -⟩
      exact idle ⟨forced, stands⟩

end Late

/--
The removal of the destination is asked about and confirmed, and only then the
configuration turns out to be wrong.
-/
theorem print_asks_before_sharedSlug :
    let run := twins.print { layout := .flat } "/docs" true oldPage
    run.asks = true ∧
      (run.answer fun _ => .ok true).outcome =
        .error (.sharedSlug "Tax" "tax" "tax") ∧
      (Error.sharedSlug "Tax" "tax" "tax").category = .configuration := by
  intro run
  refine ⟨?_, outcome_twins, rfl⟩
  rw [show run = _ from print_twins]
  rfl

end Project

end BusReference
