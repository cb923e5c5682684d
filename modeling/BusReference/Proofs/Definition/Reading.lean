import BusReference.Definition.Reading

/-!
# What is read about a handler

A definition is read if the classes of the command and of the handler are found
and the handler tells what it returns; the first of the three that is missing is
what the error is about.  A handler that has no parent class and no interfaces
stands for itself: its own `handle` method is the one that counts.  What the
method returns is told by the `@return` tag of its doc comment, looked up in the
files of the handler and of the method, or by its declaration if it has no such
tag.
-/

namespace BusReference

open BusReference.Php

/-! ## What is read and what is refused -/

namespace Definition

theorem resolve_eq_ok_iff {index : Index} {name : String} {d : Declaration} :
    resolve index name = .ok d ↔ index.find? name = some d := by
  rw [resolve]
  cases index.find? name with
  | none => simp
  | some e => simp

theorem resolve_eq_error_iff
    {index : Index} {name : String} {error : Error} :
    resolve index name = .error error ↔
      index.find? name = none ∧ error = .unknownType (plainName name) := by
  rw [resolve]
  cases index.find? name with
  | none => simp [eq_comm]
  | some e => simp

theorem returnTypeOf_eq_error_iff
    {index : Index} {handler : Declaration} {error : Error} :
    returnTypeOf index handler = .error error ↔
      handleOf index handler = none ∧
        error = .unknownMethod handler.name handleMethod := by
  rw [returnTypeOf]
  cases handleOf index handler with
  | none => simp [eq_comm]
  | some declared =>
      obtain ⟨declaring, method⟩ := declared
      cases tagged : method.doc.bind DocComment.returnTag? with
      | none => simp [tagged]
      | some tag => simp [tagged]

/-- What a definition takes from names it takes from those of the handler and of
the command that are given. -/
structure IsNamedAfter
    (domainOf : String → String) (handler command : String)
    (d : Definition) : Prop where
  handlerClass : d.handlerClass = handler
  commandClass : d.commandClass = command
  kind : d.kind = .ofClass command
  domain : d.domain = domainOf command
  simpleClassName : d.simpleClassName = shortName command
  slug : d.slug = Text.Kebab.kebab (shortName command)

section Reading

variable
    {index : Index} {domainOf : String → String}
    {handlerName commandName : String}

/-- The definition of a command, once the classes are found and the return type
is told. -/
def ofFound
    (index : Index) (domainOf : String → String)
    (handlerName commandName : String) (command handler : Declaration)
    (returnType : String) : Definition where
  kind := .ofClass (plainName commandName)
  domain := domainOf (plainName commandName)
  handlerClass := plainName handlerName
  commandClass := plainName commandName
  constructorParameters := constructorParametersOf index command
  description := (command.doc.map DocComment.summary).getD ""
  returnType := returnType
  handlerInterfaces := Hierarchy.interfaceNames index handler
  simpleClassName := shortName (plainName commandName)
  slug := Text.Kebab.kebab (shortName (plainName commandName))

theorem readWith_eq_ok_iff {d : Definition} :
    readWith index domainOf handlerName commandName = .ok d ↔
      ∃ command handler returnType,
        resolve index commandName = .ok command ∧
          resolve index handlerName = .ok handler ∧
          returnTypeOf index handler = .ok returnType ∧
          ofFound index domainOf handlerName commandName command handler
            returnType = d := by
  rw [readWith]
  cases resolve index commandName with
  | error error => simp
  | ok command =>
      cases resolve index handlerName with
      | error error => simp
      | ok handler =>
          cases told : returnTypeOf index handler with
          | error error => simp [told]
          | ok returnType => simp [told, ofFound]

/-- What is read is named after the plain names of both classes. -/
theorem isNamedAfter_of_readWith
    {d : Definition}
    (read : readWith index domainOf handlerName commandName = .ok d) :
    d.IsNamedAfter domainOf (plainName handlerName)
      (plainName commandName) := by
  obtain ⟨command, handler, returnType, -, -, -, rfl⟩ :=
    readWith_eq_ok_iff.mp read
  exact ⟨rfl, rfl, rfl, rfl, rfl, rfl⟩

theorem readWith_eq_error_iff {error : Error} :
    readWith index domainOf handlerName commandName = .error error ↔
      resolve index commandName = .error error ∨
        ∃ command, resolve index commandName = .ok command ∧
          (resolve index handlerName = .error error ∨
            ∃ handler, resolve index handlerName = .ok handler ∧
              returnTypeOf index handler = .error error) := by
  rw [readWith]
  cases resolve index commandName with
  | error error => simp
  | ok command =>
      cases resolve index handlerName with
      | error error => simp
      | ok handler =>
          cases told : returnTypeOf index handler with
          | error error => simp [told]
          | ok returnType => simp [told]

end Reading

end Definition

/-! ## Handlers that stand for themselves -/

/-- A type without a parent class and without interfaces has no interface. -/
theorem Php.Hierarchy.interfaceNames_of_bare
    {index : Index} {d : Declaration}
    (orphan : d.parent = none) (plain : d.interfaces = []) :
    interfaceNames index d = [] := by
  have alone : lineage (without d.name index.types) d = [d] := by
    rw [lineage, orphan]
  simp [interfaceNames, alone, plain, listInterfaces]

namespace Definition

variable {index : Index} {handler declaring : Declaration} {method : Method}

theorem handleOf_of_bare
    (orphan : handler.parent = none) (plain : handler.interfaces = [])
    (own : handler.method? handleMethod = some method) :
    handleOf index handler = some (handler, method) := by
  rw [handleOf, Hierarchy.interfaceNames_of_bare orphan plain]
  simp [handleOfInterfaces, Hierarchy.findMethod, own]

/--
What is read about a command whose handler stands for itself and whose `handle`
method has no doc comment.
-/
theorem read_of_bare
    {pattern : DomainPattern} {handlerName commandName : String}
    {command : Declaration}
    (commandFound : index.find? commandName = some command)
    (handlerFound : index.find? handlerName = some handler)
    (orphan : handler.parent = none) (plain : handler.interfaces = [])
    (own : handler.method? handleMethod = some method)
    (undocumented : method.doc = none) :
    Definition.read index pattern handlerName commandName = .ok {
      kind := .ofClass (plainName commandName)
      domain := pattern.domain (plainName commandName)
      handlerClass := plainName handlerName
      commandClass := plainName commandName
      constructorParameters := constructorParametersOf index command
      description := (command.doc.map DocComment.summary).getD ""
      returnType := method.returnType.getD "void"
      handlerInterfaces := []
      simpleClassName := shortName (plainName commandName)
      slug := Text.Kebab.kebab (shortName (plainName commandName)) } := by
  have noInterfaces : Hierarchy.interfaceNames index handler = [] :=
    Hierarchy.interfaceNames_of_bare orphan plain
  have handles : handleOf index handler = some (handler, method) :=
    handleOf_of_bare orphan plain own
  have told : returnTypeOf index handler =
      .ok (method.returnType.getD "void") := by
    rw [returnTypeOf, handles]
    dsimp only
    rw [undocumented, Option.bind_none]
  exact readWith_eq_ok_iff.mpr
    ⟨command, handler, _, resolve_eq_ok_iff.mpr commandFound,
      resolve_eq_ok_iff.mpr handlerFound, told, by rw [ofFound, noInterfaces]⟩

/-! ## Documented types -/

open DocComment

theorem returnTypeOf_of_tag
    {tag : String}
    (handles : handleOf index handler = some (declaring, method))
    (tagged : method.doc.bind returnTag? = some tag) :
    returnTypeOf index handler = .ok (qualifyTag [handler, declaring] tag) := by
  rw [returnTypeOf, handles]
  dsimp only
  rw [tagged]

/-- The file of the first type is searched before all others. -/
theorem qualify_of_import
    {d : Declaration} {text short full : String}
    (source : d.source = some text) (found : import? text short = some full)
    (others : List Declaration) :
    qualify (d :: others) short = full := by
  rw [qualify, List.findSome?_cons, source, Option.bind_some, found]

/-- What is not imported in the file is kept as it is written. -/
theorem qualify_of_same_source
    {d e : Declaration} {text : String}
    (source : d.source = some text) (same : e.source = some text)
    (short : String) :
    qualify [d, e] short = (import? text short).getD short := by
  cases found : import? text short with
  | some full => exact qualify_of_import source found [e]
  | none => simp [qualify, source, same, found]

end Definition

end BusReference
