import BusReference.Error
import BusReference.Regex.Matching
import BusReference.Regex.Parsing

/-!
# Domains

The business domain of a class is a part of its qualified name. A pattern with a capture group finds
it: the domain is what the first group captures in the first match, or empty.
-/

namespace BusReference

/-- A regular expression whose first group captures the domain of a class name. -/
structure DomainPattern where
  regex : Regex
  deriving DecidableEq, Repr

namespace DomainPattern

/-- An ASCII letter. -/
def asciiLetter : CharSet :=
  .union (.range 'a' 'z') (.range 'A' 'Z')

/-- Matches a namespace prefix and the letters after it, which make up a whole name segment. -/
def below (namespacePrefix : String) : DomainPattern :=
  ⟨.seq (.literal namespacePrefix.toList)
    (.seq (.group 1 (.repetition 1 none true (.set asciiLetter))) (.set (.single '\\')))⟩

/-- The pattern of the core namespace. -/
def core : DomainPattern := below "PrestaShop\\PrestaShop\\Core\\Domain\\"

/-- The pattern of the namespace of test fixtures. -/
def testFixtures : DomainPattern := below "Tests\\Resources\\Domain\\"

/-- The pattern that a regular expression describes. It needs a group. -/
def ofText (text : String) : Except Error DomainPattern :=
  match Regex.parse? text with
  | none => .error .unreadablePattern
  | some regex =>
    if regex.groupCount = 0 then .error (.noDomainGroup text) else .ok ⟨regex⟩

/-- The pattern of a setting: the name of a known pattern or a regular expression. -/
def ofSetting (setting : String) : Except Error DomainPattern :=
  if setting = "core" then .ok core
  else if setting = "test" then .ok testFixtures
  else ofText setting

/-- The domain of a class name; empty if the pattern finds none. -/
def domain (pattern : DomainPattern) (className : String) : String :=
  match pattern.regex.search className with
  | none => ""
  | some captures => String.ofList ((captures.lookup 1).getD [])

end DomainPattern

end BusReference
