import Mathlib.Data.List.DropRight
import BusReference.HandlerMap.Basic
import BusReference.Proofs.Definition.Reading
import BusReference.Proofs.Php.Hierarchy.Methods
import BusReference.Proofs.Php.Remainder

/-!
# Reading discovered handlers

Discovery and reading look for a handler and for its `handle` method on their
own.  In an index of source texts and registered declarations every type is
found under its own name, since names have no leading backslash there.  So a
discovered handler is known and has a `handle` method whenever it is read, and
only its command can be missing.
-/

namespace BusReference

/-! ## Names of declarations -/

namespace Php

theorem plainName_plainName (name : String) :
    plainName (plainName name) = plainName name := by
  rw [plainName, Text.Pieces.dropLeading, plainName, Text.Pieces.dropLeading,
    String.toList_ofList, List.dropWhile_idempotent]

namespace SourceFile

theorem plainName_name_of_readDeclaration
    {origin : Origin} {scope : Scope} {pending : Pending} {kind : TypeKind}
    {short : String} {ts rest : List Token} {d : Declaration}
    (done :
      readDeclaration origin scope pending kind short ts = .ok (d, rest)) :
    plainName d.name = d.name := by
  obtain ⟨heritage, body, members, -, -, rfl⟩ :=
    exists_of_readDeclaration done
  exact plainName_plainName _

/-- A declared type has no leading backslash in its name. -/
theorem plainName_name_of_read
    {text : String} {path : Option Files.FilePath} {ds : List Declaration}
    (done : read text path = .ok ds) : ∀ d ∈ ds, plainName d.name = d.name := by
  rw [read] at done
  split at done
  · cases done
  · intro d member
    obtain ⟨_, _, _, _, _, _, -, declares⟩ :=
      exists_place_of_readFrom done d member
    exact plainName_name_of_readDeclaration declares

end SourceFile

/-! ## Built indices -/

namespace Index

/-- The index holds the declarations of source texts, and such as were made
under a name and registered by themselves. -/
inductive Built : Index → Prop
  | empty : Built {}
  | source {index after : Index} {text : String} {path : Option Files.FilePath}
      (built : Built index) (added : index.addSource text path = .ok after) :
      Built after
  | register {index : Index} {d : Declaration} {name : String}
      (built : Built index)
      (made : d.name = (Declaration.named name d.kind).name) :
      Built (index.register d)

theorem Built.registered
    {index : Index} (built : index.Built) : index.Registered := by
  induction built with
  | empty => exact .empty
  | source _ added ih => exact ih.addSource added
  | register _ _ ih => exact ih.register _

theorem plainName_name_of_registerAll
    {index : Index} {ds : List Declaration}
    (known : ∀ d ∈ index.types, plainName d.name = d.name)
    (new : ∀ d ∈ ds, plainName d.name = d.name) :
    ∀ d ∈ (index.registerAll ds).types, plainName d.name = d.name := by
  induction ds generalizing index with
  | nil => exact known
  | cons e ds ih =>
      refine ih (fun d member => ?_)
        fun d member => new d (List.mem_cons_of_mem _ member)
      rcases mem_register member with old | rfl
      · exact known d old
      · exact new d List.mem_cons_self

/-- The names in a built index have no leading backslash. -/
theorem Built.plainName_name
    {index : Index} (built : index.Built) :
    ∀ d ∈ index.types, plainName d.name = d.name := by
  induction built with
  | empty =>
      intro d member
      cases member
  | source _ added ih =>
      obtain ⟨ds, read, rfl⟩ := exists_registerAll_of_addSource added
      exact plainName_name_of_registerAll ih
        (SourceFile.plainName_name_of_read read)
  | @register index d name _ made ih =>
      have plain : plainName d.name = d.name := by
        rw [made]
        exact plainName_plainName name
      intro e member
      rcases mem_register member with old | rfl
      · exact ih e old
      · exact plain

/-- A type is found under its own name. -/
theorem Built.find?_name
    {index : Index} (built : index.Built) {d : Declaration}
    (member : d ∈ index.types) : index.find? d.name = some d := by
  rw [find?, built.plainName_name d member,
    lookup_eq_some_iff built.registered.distinct]
  exact ⟨member, rfl⟩

theorem find?_eq_none_iff {index : Index} {name : String} :
    index.find? name = none ↔ ¬ ∃ d ∈ index.types, d.name = plainName name := by
  constructor
  · rintro missing ⟨d, member, named⟩
    exact name_ne_of_lookup_eq_none missing member named
  · intro nowhere
    cases found : index.find? name with
    | none => rfl
    | some d =>
        obtain ⟨member, named⟩ := mem_of_lookup found
        exact absurd ⟨d, member, named⟩ nowhere

end Index

end Php

/-! ## Discovery -/

namespace HandlerMap

open BusReference.Php

theorem mem_put
    {handler command : String} {pairs : List (String × String)}
    {pair : String × String} (member : pair ∈ put handler command pairs) :
    pair = (handler, command) ∨ pair ∈ pairs := by
  induction pairs with
  | nil => exact Or.inl (List.mem_singleton.mp member)
  | cons first pairs ih =>
      rw [put] at member
      split at member
      · rename_i same
        rcases List.mem_cons.mp member with changed | later
        · rw [same] at changed
          exact Or.inl changed
        · exact Or.inr (List.mem_cons_of_mem _ later)
      · rcases List.mem_cons.mp member with kept | later
        · exact Or.inr (kept ▸ List.mem_cons_self)
        · exact (ih later).imp_right (List.mem_cons_of_mem _)

theorem mem_foldl_insert
    {map : HandlerMap} {pairs : List (String × String)}
    {pair : String × String}
    (member : pair ∈ (pairs.foldl
      (fun map (handler, command) => map.insert handler command) map).entries) :
    pair ∈ map.entries ∨ pair ∈ pairs := by
  induction pairs generalizing map with
  | nil => exact Or.inl member
  | cons first pairs ih =>
      rcases ih member with known | later
      · rcases mem_put known with rfl | old
        · exact Or.inr List.mem_cons_self
        · exact Or.inl old
      · exact Or.inr (List.mem_cons_of_mem _ later)

theorem mem_put_self
    (handler command : String) (pairs : List (String × String)) :
    (handler, command) ∈ put handler command pairs := by
  induction pairs with
  | nil => exact List.mem_cons_self
  | cons first pairs ih =>
      rw [put]
      split
      · rename_i same
        exact same ▸ List.mem_cons_self
      · exact List.mem_cons_of_mem _ ih

theorem mem_put_of_ne
    {handler command : String} {pairs : List (String × String)}
    {pair : String × String}
    (member : pair ∈ pairs) (apart : handler ≠ pair.1) :
    pair ∈ put handler command pairs := by
  induction pairs with
  | nil => cases member
  | cons first pairs ih =>
      rw [put]
      split
      · rename_i same
        rcases List.mem_cons.mp member with rfl | later
        · exact absurd same.symm apart
        · exact List.mem_cons_of_mem _ later
      · rcases List.mem_cons.mp member with rfl | later
        · exact List.mem_cons_self
        · exact List.mem_cons_of_mem _ (ih later)

/-- A pair stays in a map if no other pair of its handler is inserted. -/
theorem mem_foldl_insert_of_unique
    {map : HandlerMap} {pairs : List (String × String)}
    {pair : String × String}
    (unique : ∀ other ∈ pairs, other.1 = pair.1 → other = pair)
    (member : pair ∈ map.entries ∨ pair ∈ pairs) :
    pair ∈ (pairs.foldl
      (fun map (handler, command) => map.insert handler command)
      map).entries := by
  induction pairs generalizing map with
  | nil => exact member.resolve_right List.not_mem_nil
  | cons first pairs ih =>
      refine ih (fun other later =>
        unique other (List.mem_cons_of_mem _ later)) ?_
      by_cases same : first.1 = pair.1
      · rw [← unique first List.mem_cons_self same]
        exact Or.inl (mem_put_self _ _ _)
      · rcases member with known | listed
        · exact Or.inl (mem_put_of_ne known same)
        · rcases List.mem_cons.mp listed with rfl | later
          · exact absurd rfl same
          · exact Or.inr later

/-- The pairs that are discovered are the handlers that tell what they
handle. -/
theorem mem_discover_iff
    {index : Index} (distinct : Distinct index.types)
    {handler command : String} :
    (handler, command) ∈ (discover index).entries ↔
      ∃ d ∈ index.types, isHandler d = true ∧ d.name = handler ∧
        handledType? index d = some command := by
  have paired {pair : String × String} :
      pair ∈ (index.types.filter isHandler).filterMap (fun d =>
          (handledType? index d).map (d.name, ·)) ↔
        ∃ d ∈ index.types, isHandler d = true ∧ d.name = pair.1 ∧
          handledType? index d = some pair.2 := by
    rw [List.mem_filterMap]
    constructor
    · rintro ⟨d, member, same⟩
      obtain ⟨listed, marked⟩ := List.mem_filter.mp member
      obtain ⟨type, handled, rfl⟩ := Option.map_eq_some_iff.mp same
      exact ⟨d, listed, marked, rfl, handled⟩
    · rintro ⟨d, listed, marked, named, handled⟩
      refine ⟨d, List.mem_filter.mpr ⟨listed, marked⟩, ?_⟩
      rw [handled, named]
      rfl
  constructor
  · intro discovered
    exact paired.mp
      ((mem_foldl_insert discovered).resolve_left List.not_mem_nil)
  · intro typed
    refine mem_foldl_insert_of_unique ?_ (Or.inr (paired.mpr typed))
    -- another pair of the handler would be that of the same declaration
    rintro ⟨other, type⟩ member rfl
    obtain ⟨d, listed, -, rfl, handled⟩ := typed
    obtain ⟨e, known, -, same, otherwise⟩ := paired.mp member
    rw [distinct e known d listed same, handled] at otherwise
    rw [Option.some.inj otherwise]

theorem isSome_findMethod_of_handledType?
    {index : Index} {d : Declaration} {command : String}
    (handled : handledType? index d = some command) :
    (Hierarchy.findMethod index d Definition.handleMethod).isSome = true := by
  rw [handledType?] at handled
  split at handled
  · cases handled
  · rename_i found
    rw [found]
    rfl

end HandlerMap

/-! ## Reading -/

namespace Definition

open BusReference.Php

theorem isSome_handleOf
    {index : Index} {handler : Declaration}
    (found : (Hierarchy.findMethod index handler handleMethod).isSome = true) :
    (handleOf index handler).isSome = true := by
  rw [handleOf]
  split
  · rfl
  · exact found

/-- A handler with a `handle` method tells what it returns. -/
theorem exists_returnTypeOf
    {index : Index} {handler : Declaration}
    (found : (handleOf index handler).isSome = true) :
    ∃ type, returnTypeOf index handler = .ok type := by
  rw [returnTypeOf]
  split
  · rename_i missing
    rw [missing] at found
    cases found
  · split
    · exact ⟨_, rfl⟩
    · exact ⟨_, rfl⟩

theorem resolve_of_find?
    {index : Index} {name : String} {d : Declaration}
    (found : index.find? name = some d) : resolve index name = .ok d :=
  resolve_eq_ok_iff.mpr found

theorem resolve_of_missing
    {index : Index} {name : String}
    (missing : ¬ ∃ t ∈ index.types, t.name = plainName name) :
    resolve index name = .error (.unknownType (plainName name)) :=
  resolve_eq_error_iff.mpr ⟨Index.find?_eq_none_iff.mpr missing, rfl⟩

section Reading

variable
    {index : Index} {handlerName commandName : String} {handler : Declaration}

/-- With a known handler that has a `handle` method the command decides. -/
theorem readWith_of_resolve
    (known : resolve index handlerName = .ok handler)
    (found : (handleOf index handler).isSome = true)
    {command : Declaration} (named : resolve index commandName = .ok command)
    (domainOf : String → String) :
    ∃ d, readWith index domainOf handlerName commandName = .ok d := by
  obtain ⟨type, returns⟩ := exists_returnTypeOf found
  exact ⟨_, readWith_eq_ok_iff.mpr
    ⟨command, handler, type, named, known, returns, rfl⟩⟩

theorem readWith_of_resolve_eq_error
    {error : Error} (failed : resolve index commandName = .error error)
    (domainOf : String → String) :
    readWith index domainOf handlerName commandName = .error error :=
  readWith_eq_error_iff.mpr (Or.inl failed)

end Reading

theorem message_unknownType (name : String) :
    (Error.unknownType name).message =
      "Type resolution error: Class \"" ++ name ++ "\" does not exist" := by
  have opens : "Type resolution error: Class \"" =
      "Type resolution error" ++ (": " ++ ("Class " ++ "\"")) := by
    decide
  have ends : "\" does not exist" = "\"" ++ " does not exist" := by
    decide
  calc (Error.unknownType name).message
      = "Type resolution error" ++ ": " ++
          ("Class " ++ ("\"" ++ name ++ "\"") ++ " does not exist") := rfl
    _ = "Type resolution error: Class \"" ++ name ++ "\" does not exist" := by
          rw [opens, ends]
          simp only [String.append_assoc]

/--
A discovered handler is found again and has a `handle` method.  So what it
handles is read exactly if that is a type of the index, and otherwise the error
is that there is no such type.
-/
theorem readWith_discovered
    {index : Index} (built : index.Built) (domainOf : String → String)
    {handler command : String}
    (discovered : (handler, command) ∈ (HandlerMap.discover index).entries) :
    ((∃ d, readWith index domainOf handler command = .ok d) ↔
        ∃ t ∈ index.types, t.name = plainName command) ∧
      ((¬ ∃ t ∈ index.types, t.name = plainName command) →
        ∃ error, readWith index domainOf handler command = .error error ∧
          error.category = .typeResolution ∧
          error.message = "Type resolution error: Class \"" ++
            plainName command ++ "\" does not exist") ∧
      ∃ d, resolve index handler = .ok d ∧
        (Hierarchy.findMethod index d handleMethod).isSome = true ∧
        (handleOf index d).isSome = true := by
  obtain ⟨d, member, -, rfl, handled⟩ :=
    (HandlerMap.mem_discover_iff built.registered.distinct).mp discovered
  have known : resolve index d.name = .ok d :=
    resolve_of_find? (built.find?_name member)
  have declared := HandlerMap.isSome_findMethod_of_handledType? handled
  have found : (handleOf index d).isSome = true := isSome_handleOf declared
  refine ⟨⟨?_, ?_⟩, ?_, d, known, declared, found⟩
  · rintro ⟨e, read⟩
    refine Decidable.byContradiction fun missing => ?_
    rw [readWith_of_resolve_eq_error (resolve_of_missing missing)] at read
    cases read
  · intro listed
    cases lookup : index.find? command with
    | none => exact absurd listed (Index.find?_eq_none_iff.mp lookup)
    | some t =>
        exact readWith_of_resolve known found (resolve_of_find? lookup) domainOf
  · intro missing
    exact ⟨.unknownType (plainName command),
      readWith_of_resolve_eq_error (resolve_of_missing missing) domainOf, rfl,
      message_unknownType _⟩

/-- A class that extends another one and handles the given type. -/
def handling (name parent type : String) : Declaration :=
  { Declaration.named name .classType with
    attributes := ["AsQueryHandler"]
    parent := some parent
    methods := [{
      name := "Handle"
      parameters := [{ name := "message", declaredType := some type }] }] }

theorem method?_handling (name parent type : String) :
    (handling name parent type).method? handleMethod =
      (handling name parent type).methods.head? := by
  have named : Text.Pieces.sameLetters "Handle" handleMethod = true := by
    rw [Hierarchy.sameLetters_eq]
    decide
  rw [Declaration.method?]
  exact List.find?_cons_of_pos named

theorem handledType?_handling (index : Index) (name parent type : String) :
    HandlerMap.handledType? index (handling name parent type) = some type := by
  rw [HandlerMap.handledType?, Hierarchy.findMethod, method?_handling]
  rfl

/-- A handler that inherits its method. -/
def mailHandler : Declaration :=
  { Declaration.named "\\App\\MailHandler" .classType with
    attributes := ["Bus\\AsCommandHandler"]
    parent := some "\\App\\Reader" }

/-- Two handlers that extend each other, and one of a type that is not
declared. -/
def mailing : Index :=
  ((({} : Index).register mailHandler).register
    (handling "App\\Reader" "App\\MailHandler" "\\App\\Mail")).register
    (handling "\\App\\Sender" "App\\Sender" "App\\Gone") |>.register
    (Declaration.named "App\\Mail" .classType)

theorem built_mailing : mailing.Built :=
  (((Index.Built.empty.register rfl).register rfl).register rfl).register rfl

theorem handledType?_mailHandler :
    HandlerMap.handledType? mailing mailHandler = some "\\App\\Mail" := by
  have reader : Index.lookup
      (Hierarchy.without mailHandler.name mailing.types)
      (plainName "\\App\\Reader") =
        some (handling "App\\Reader" "App\\MailHandler" "\\App\\Mail") := by
    rfl
  have inherits : Hierarchy.findMethod mailing mailHandler handleMethod =
      Hierarchy.searchMethod handleMethod
        (Hierarchy.without mailHandler.name mailing.types)
        ["\\App\\Reader"] := rfl
  rw [HandlerMap.handledType?, inherits,
    Hierarchy.searchMethod_cons_of_lookup reader (method?_handling ..)]
  rfl

/-- Both handlers are discovered, and only the declared type is read. -/
theorem readWith_discovered_mailing :
    mailing.Built ∧
      (("App\\MailHandler", "\\App\\Mail") ∈
          (HandlerMap.discover mailing).entries ∧
        ∃ d, readWith mailing (fun _ => "") "App\\MailHandler" "\\App\\Mail" =
          .ok d) ∧
      ("App\\Sender", "App\\Gone") ∈ (HandlerMap.discover mailing).entries ∧
        ∃ error,
          readWith mailing (fun _ => "") "App\\Sender" "App\\Gone" =
              .error error ∧
            error.category = .typeResolution := by
  have distinct := built_mailing.registered.distinct
  have mail : ("App\\MailHandler", "\\App\\Mail") ∈
      (HandlerMap.discover mailing).entries :=
    (HandlerMap.mem_discover_iff distinct).mpr
      ⟨mailHandler, by decide +kernel, by decide +kernel, by decide +kernel,
        handledType?_mailHandler⟩
  have sender : ("App\\Sender", "App\\Gone") ∈
      (HandlerMap.discover mailing).entries :=
    (HandlerMap.mem_discover_iff distinct).mpr
      ⟨handling "\\App\\Sender" "App\\Sender" "App\\Gone",
        by decide +kernel, by decide +kernel, by decide +kernel,
        handledType?_handling ..⟩
  obtain ⟨read, -, -⟩ := readWith_discovered built_mailing (fun _ => "") mail
  obtain ⟨-, refused, -⟩ :=
    readWith_discovered built_mailing (fun _ => "") sender
  obtain ⟨error, failed, category, -⟩ := refused (by decide +kernel)
  exact ⟨built_mailing, ⟨mail, read.mpr (by decide +kernel)⟩, sender, error,
    failed, category⟩

end Definition

end BusReference
