import BusReference.Definition.Basic

/-!
# Listing

The definitions as a numbered text for a terminal.
-/

namespace BusReference.Listing

/-- The part of a line that names the interfaces of a handler, if there are any. -/
def interfaces (names : List String) : String :=
  if names.isEmpty then "" else " (Implements: " ++ String.intercalate ", " names ++ ")"

/-- The entry of a definition under its number. -/
def entry (number : Nat) (d : Definition) : String :=
  String.join [
    String.ofList (Nat.toDigits 10 number), ".\n",
    d.kind.title, ": ", d.commandClass, "\n",
    "Handler: ", d.handlerClass, ".", interfaces d.handlerInterfaces, "\n",
    "Return type: ", if d.returnType.isEmpty then "not defined" else d.returnType, "\n",
    d.description, "\n\n"]

/-- The entries of definitions that are numbered from the given number on. -/
def entriesFrom (number : Nat) : List Definition → String
  | [] => ""
  | d :: ds => entry number d ++ entriesFrom (number + 1) ds

/-- The text that lists definitions. -/
def text (ds : List Definition) : String := entriesFrom 1 ds

end BusReference.Listing
