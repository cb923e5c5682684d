import BusReference.Proofs.Php.Grammar.Declarations
import BusReference.Proofs.Php.Requests
import BusReference.Proofs.Project.Order

/-!
# Absolute names

Backslashes that lead a name say only that it is absolute, which the names of
handlers and commands are anyway.  So a name stands for the class whose name is
left without them, and a definition depends on this class alone: whatever is
computed from a name is computed from that of the class, and so is the error if
a class or a method is missing.  A definition in turn determines both classes.
Hence the documentation of a handler map depends only on the classes of its
pairs.
-/

namespace BusReference

open BusReference.Php

/-! ## Names of classes -/

namespace Php

/-- The name stands for the class, by any number of backslashes before the name
of the class, which has none itself. -/
structure Denotes (name className : String) : Prop where
  relative : className.toList.head? ≠ some '\\'
  absolute : ∃ backslashes, name = absoluteName backslashes className

theorem exists_eq_absoluteName_plainName (name : String) :
    ∃ backslashes, name = absoluteName backslashes (plainName name) := by
  have leading : name.toList.takeWhile (· == '\\') =
      List.replicate (name.toList.takeWhile (· == '\\')).length '\\' :=
    List.eq_replicate_of_mem fun c member => by
      simpa using List.mem_takeWhile_imp member
  refine ⟨(name.toList.takeWhile (· == '\\')).length, ?_⟩
  rw [absoluteName, ← leading, plainName, Text.Pieces.dropLeading,
    String.toList_ofList, List.takeWhile_append_dropWhile,
    String.ofList_toList]

theorem head?_plainName_ne (name : String) :
    (plainName name).toList.head? ≠ some '\\' := by
  intro leads
  have stops := List.head?_dropWhile_not (· == '\\') name.toList
  rw [plainName, Text.Pieces.dropLeading, String.toList_ofList] at leads
  rw [leads] at stops
  cases stops

/-- Every name stands for one class, which is named by its plain form. -/
theorem denotes_iff {name className : String} :
    Denotes name className ↔ plainName name = className := by
  constructor
  · rintro ⟨relative, backslashes, rfl⟩
    rw [plainName_absoluteName, Grammar.plainName_of_relative relative]
  · rintro rfl
    exact ⟨head?_plainName_ne name, exists_eq_absoluteName_plainName name⟩

end Php

/-! ## What is read about two classes -/

namespace Definition

/-- Why nothing is read about a handler and a command: there is no class of the
command, or else none of the handler, or else the handler has no `handle`
method. -/
inductive Refuses (index : Index) (handlerClass commandClass : String) :
    Error → Prop
  | command (missing : ¬ ∃ t ∈ index.types, t.name = commandClass) :
      Refuses index handlerClass commandClass (.unknownType commandClass)
  | handler
      (known : ∃ t ∈ index.types, t.name = commandClass)
      (missing : ¬ ∃ t ∈ index.types, t.name = handlerClass) :
      Refuses index handlerClass commandClass (.unknownType handlerClass)
  | method {handler : Declaration}
      (known : ∃ t ∈ index.types, t.name = commandClass)
      (found : Index.lookup index.types handlerClass = some handler)
      (silent : handleOf index handler = none) :
      Refuses index handlerClass commandClass
        (.unknownMethod handlerClass handleMethod)

section Classes

variable
    {index : Index} {domainOf : String → String}
    {handlerName commandName : String}

theorem exists_resolve_eq_ok_iff {name : String} :
    (∃ d, resolve index name = .ok d) ↔
      ∃ t ∈ index.types, t.name = plainName name := by
  constructor
  · rintro ⟨d, resolved⟩
    exact ⟨d, Index.mem_of_lookup (resolve_eq_ok_iff.mp resolved)⟩
  · intro known
    cases found : index.find? name with
    | none => exact absurd known (Index.find?_eq_none_iff.mp found)
    | some d => exact ⟨d, resolve_eq_ok_iff.mpr found⟩

/-- The domain is all that depends on the way to find it. -/
theorem readWith_of_readWith
    (otherDomainOf : String → String) {d : Definition}
    (read : readWith index domainOf handlerName commandName = .ok d) :
    readWith index otherDomainOf handlerName commandName =
      .ok { d with domain := otherDomainOf d.commandClass } := by
  obtain ⟨command, handler, type, commandFound, handlerFound, told, rfl⟩ :=
    readWith_eq_ok_iff.mp read
  exact readWith_eq_ok_iff.mpr
    ⟨command, handler, type, commandFound, handlerFound, told, rfl⟩

/-- Names are read by their plain forms. -/
theorem readWith_eq_of_plainName_eq
    {otherHandler otherCommand : String}
    (sameHandler : plainName otherHandler = plainName handlerName)
    (sameCommand : plainName otherCommand = plainName commandName) :
    readWith index domainOf otherHandler otherCommand =
      readWith index domainOf handlerName commandName := by
  have resolves {first second : String}
      (same : plainName first = plainName second) :
      resolve index first = resolve index second := by
    rw [resolve, resolve, Index.find?, Index.find?, same]
  rw [readWith, readWith, resolves sameHandler, resolves sameCommand,
    sameHandler, sameCommand]

/-- Only names of the same two classes are read as the same definition. -/
theorem readWith_eq_ok_iff_of_readWith
    {d : Definition}
    (read : readWith index domainOf handlerName commandName = .ok d)
    {otherHandler otherCommand : String} :
    readWith index domainOf otherHandler otherCommand = .ok d ↔
      plainName otherHandler = plainName handlerName ∧
        plainName otherCommand = plainName commandName := by
  constructor
  · intro otherRead
    have named := isNamedAfter_of_readWith read
    have otherNamed := isNamedAfter_of_readWith otherRead
    exact ⟨otherNamed.handlerClass.symm.trans named.handlerClass,
      otherNamed.commandClass.symm.trans named.commandClass⟩
  · rintro ⟨sameHandler, sameCommand⟩
    rw [readWith_eq_of_plainName_eq sameHandler sameCommand, read]

/-- The class of the command is looked up before that of the handler, and the
method after both. -/
theorem readWith_eq_error_iff_refuses {error : Error} :
    readWith index domainOf handlerName commandName = .error error ↔
      Refuses index (plainName handlerName) (plainName commandName) error := by
  have known {name : String} {d : Declaration}
      (resolved : resolve index name = .ok d) :
      ∃ t ∈ index.types, t.name = plainName name :=
    exists_resolve_eq_ok_iff.mp ⟨d, resolved⟩
  rw [readWith_eq_error_iff]
  constructor
  · rintro (refused | ⟨command, resolved, refused | ⟨handler, found, failed⟩⟩)
    · obtain ⟨missing, rfl⟩ := resolve_eq_error_iff.mp refused
      exact .command (Index.find?_eq_none_iff.mp missing)
    · obtain ⟨missing, rfl⟩ := resolve_eq_error_iff.mp refused
      exact .handler (known resolved) (Index.find?_eq_none_iff.mp missing)
    · obtain ⟨silent, rfl⟩ := returnTypeOf_eq_error_iff.mp failed
      have listed := resolve_eq_ok_iff.mp found
      -- the error has the name of what was found, which is that of the class
      rw [(Index.mem_of_lookup listed).2]
      exact .method (known resolved) listed silent
  · intro refused
    cases refused with
    | command missing =>
        exact Or.inl (resolve_of_missing missing)
    | handler known missing =>
        obtain ⟨command, resolved⟩ := exists_resolve_eq_ok_iff.mpr known
        exact Or.inr ⟨command, resolved, Or.inl (resolve_of_missing missing)⟩
    | @method handler known found silent =>
        obtain ⟨command, resolved⟩ := exists_resolve_eq_ok_iff.mpr known
        have unknown : returnTypeOf index handler =
            .error (.unknownMethod (plainName handlerName) handleMethod) :=
          returnTypeOf_eq_error_iff.mpr
            ⟨silent, by rw [(Index.mem_of_lookup found).2]⟩
        exact Or.inr ⟨command, resolved,
          Or.inr ⟨handler, resolve_of_find? found, unknown⟩⟩

end Classes

/--
Backslashes before the name of a handler and before that of a command change
nothing.  Both names stand for a class; a definition takes its kind, its domain,
its class names and its slug from the names of these classes, and no names but
those that stand for them are read as the same definition.  If nothing is read,
the error names the class that is missing, or the class of the handler if that
has no `handle` method.
-/
theorem readWith_absoluteName
    (index : Index) (domainOf : String → String)
    (handlerName commandName : String) :
    (∀ m n,
        readWith index domainOf (absoluteName m handlerName)
            (absoluteName n commandName) =
          readWith index domainOf handlerName commandName) ∧
      ∃ handlerClass commandClass,
        Denotes handlerName handlerClass ∧
          Denotes commandName commandClass ∧
          (∀ d, readWith index domainOf handlerName commandName = .ok d →
            d.IsNamedAfter domainOf handlerClass commandClass ∧
              ∀ otherHandler otherCommand,
                readWith index domainOf otherHandler otherCommand = .ok d ↔
                  Denotes otherHandler handlerClass ∧
                    Denotes otherCommand commandClass) ∧
          ∀ error,
            readWith index domainOf handlerName commandName = .error error ↔
              Refuses index handlerClass commandClass error := by
  refine ⟨fun m n => ?_, plainName handlerName, plainName commandName,
    denotes_iff.mpr rfl, denotes_iff.mpr rfl, fun d read => ?_,
    fun error => readWith_eq_error_iff_refuses⟩
  · exact readWith_eq_of_plainName_eq (plainName_absoluteName m _)
      (plainName_absoluteName n _)
  · refine ⟨isNamedAfter_of_readWith read, fun otherHandler otherCommand => ?_⟩
    rw [denotes_iff, denotes_iff]
    exact readWith_eq_ok_iff_of_readWith read

/-- A domain for the names that begin with the root namespace of the tests. -/
def testNamespace (name : String) : String :=
  if "Tests\\".toList.isPrefixOf name.toList then "Tests" else ""

/-- With backslashes before both names the same is read, in the domain of names
that have none; without a class of the handler nothing is. -/
theorem readWith_absoluteName_addTax :
    (∃ d,
        readWith Printing.taxIndex testNamespace
            (absoluteName 2 Printing.addTax.1.declaration.name)
            (absoluteName 1 Printing.addTax.2.declaration.name) = .ok d ∧
          d.kind = .command ∧ d.domain = "Tests" ∧ d.slug = "tax") ∧
      readWith Printing.taxIndex testNamespace (absoluteName 3 "AddTax")
          (absoluteName 1 Printing.addTax.2.declaration.name) =
        .error (.unknownType "AddTax") := by
  constructor
  · have read := readWith_of_readWith testNamespace
      (Printing.read_taxDefinition Printing.addTax List.mem_cons_self)
    obtain ⟨same, handlerClass, commandClass, -, denotes, named, -⟩ :=
      readWith_absoluteName Printing.taxIndex testNamespace
        Printing.addTax.1.declaration.name Printing.addTax.2.declaration.name
    obtain ⟨names, -⟩ := named _ read
    obtain rfl := denotes_iff.mp denotes
    refine ⟨_, (same 2 1).trans read, names.kind.trans ?_,
      names.domain.trans ?_, names.slug.trans ?_⟩
    all_goals decide +kernel
  · obtain ⟨same, handlerClass, commandClass, gone, denotes, -, refused⟩ :=
      readWith_absoluteName Printing.taxIndex testNamespace "AddTax"
        Printing.addTax.2.declaration.name
    have missing : handlerClass = "AddTax" := by
      rw [← denotes_iff.mp gone]
      decide +kernel
    obtain rfl := denotes_iff.mp denotes
    rw [same 3 1, refused, missing]
    exact .handler (by decide +kernel) (by decide +kernel)

end Definition

/-! ## Documentation of classes -/

open Definition (readWith readWith_eq_of_plainName_eq)

/-- The classes that a pair of names stands for. -/
def HandlerMap.classes (pair : String × String) : String × String :=
  (plainName pair.1, plainName pair.2)

theorem Grouping.addAll_map_classes
    (index : Index) (domainOf : String → String) (grouping : Grouping)
    (pairs : List (String × String)) :
    grouping.addAll (readWith index domainOf) (pairs.map HandlerMap.classes) =
      grouping.addAll (readWith index domainOf) pairs := by
  induction pairs generalizing grouping with
  | nil => rfl
  | cons pair pairs ih =>
      have first :
          readWith index domainOf (plainName pair.1) (plainName pair.2) =
            readWith index domainOf pair.1 pair.2 :=
        readWith_eq_of_plainName_eq (plainName_plainName _)
          (plainName_plainName _)
      rw [List.map_cons, HandlerMap.classes, addAll, addAll, first]
      split
      · rfl
      · exact ih _

/-- Two handler maps whose pairs stand for the same classes have the same
documentation: the same grouping, the same listing, and the same course and
result of every printing. -/
theorem Project.documentation_of_classes
    (index : Index) (pattern : DomainPattern) {first second : HandlerMap}
    (same : first.entries.map HandlerMap.classes =
      second.entries.map HandlerMap.classes) :
    let p : Project := ⟨index, pattern, first⟩
    let q : Project := ⟨index, pattern, second⟩
    p.grouping = q.grouping ∧ p.listing = q.listing ∧
      ∀ docs destination force fs,
        p.print docs destination force fs =
          q.print docs destination force fs := by
  intro p q
  have grouped : p.grouping = q.grouping := by
    calc p.grouping
        = Grouping.addAll (readWith index pattern.domain) {}
            (first.entries.map HandlerMap.classes) :=
          (Grouping.addAll_map_classes index pattern.domain {} _).symm
      _ = q.grouping := by
          rw [same]
          exact Grouping.addAll_map_classes index pattern.domain {} _
  exact ⟨grouped,
    congrArg (fun collected => (collected.map Grouping.toList).map Listing.text)
      grouped,
    print_eq_of_grouping_eq grouped⟩

end BusReference
