import BusReference.Error
import BusReference.Text.Kebab

/-!
# Layouts

Where the pages of the reference stand. In the flat layout every domain has one page; in the nested
layout it has a directory with a page of its own and one for each definition. The page that links
to the domains stands beside them in both.
-/

namespace BusReference

open BusReference.Files

/-- The layouts of the reference. -/
inductive Layout where
  | flat
  | nested
  deriving DecidableEq, Repr

namespace Layout

/-- The name of a layout. -/
def name : Layout → String
  | flat => "flat"
  | nested => "nested"

/-- The layout of exactly the given name. -/
def ofName? : String → Option Layout
  | "flat" => some flat
  | "nested" => some nested
  | _ => none

/-- The layout of the given name in any case of its ASCII letters. -/
def parse (s : String) : Except Error Layout :=
  match ofName? s.toLower with
  | some layout => .ok layout
  | none => .error (.unknownLayout s.toLower)

/-- The pages of the nested layout show a version. -/
def requiresVersion : Layout → Bool
  | flat => false
  | nested => true

/-- The path of the page of a domain. -/
def domainFile (layout : Layout) (destination slug : String) : String :=
  match layout with
  | flat => Path.join destination (slug ++ ".md")
  | nested => Path.join (Path.join destination slug) "index.md"

/-- The link to the page of a domain. -/
def domainLink (layout : Layout) (slug : String) : String :=
  match layout with
  | flat => slug ++ ".md"
  | nested => slug ++ "/"

end Layout

/-- The path of the page of a definition in the nested layout. -/
def definitionFile (destination domainSlug slug : String) : String :=
  Path.join (Path.join (Path.join destination domainSlug) "_partials") (slug ++ ".md")

/-- The path of the page that links to the domains. -/
def indexFile (destination : String) : String := Path.join destination "_index.md"

/-- The slug of a domain; the empty domain has a fixed one. -/
def domainSlug (domain : String) : String :=
  if domain.isEmpty then "_unclassified" else Text.Kebab.kebab domain

end BusReference
