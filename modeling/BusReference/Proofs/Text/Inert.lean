import BusReference.Php.Declaration
import BusReference.Proofs.Text.LowerCase
import BusReference.Text.Kebab

/-!
# Texts without a meaning in paths and links

A slash ends a segment of a path, and segments of dots lead elsewhere.  A line
break, a bracket or a quotation mark ends what is written in a page.  A text
that holds none of these characters is inert: wherever it is put into a path or
a link, it is a part of a name.  Lower case and kebab case never turn another
character into one of them, so the slug of an inert text is inert.
-/

namespace BusReference.Text

/-- The characters that can give a segment of a path a meaning, or end a line, a
link or a quotation. -/
def steers (c : Char) : Bool :=
  ['/', '.', '\n', ']', ')', '"'].contains c

theorem steers_iff {c : Char} :
    steers c = true ↔ c ∈ ['/', '.', '\n', ']', ')', '"'] := by
  rw [steers, List.contains_iff_mem]

theorem toNat_of_steers
    {c : Char} (steering : steers c = true) :
    0 < c.toNat ∧ c.toNat ≤ 0x5d := by
  have range : ∀ c ∈ ['/', '.', '\n', ']', ')', '"'],
      0 < c.toNat ∧ c.toNat ≤ 0x5d := by
    simp only [List.forall_mem_cons, List.not_mem_nil, false_implies,
      implies_true, and_true]
    decide
  exact range c (steers_iff.mp steering)

/-- Among the characters there is none that steers. -/
def Inert (cs : List Char) : Prop :=
  ∀ c ∈ cs, steers c = false

instance (cs : List Char) : Decidable (Inert cs) :=
  List.decidableBAll (fun c => steers c = false) cs

namespace Inert

variable {cs ds : List Char}

theorem append (left : Inert cs) (right : Inert ds) : Inert (cs ++ ds) := by
  intro c member
  rcases List.mem_append.mp member with inside | inside
  · exact left c inside
  · exact right c inside

theorem stretch (inert : Inert ds) (inside : cs <:+: ds) : Inert cs :=
  fun c member => inert c (inside.subset member)

theorem not_mem
    (inert : Inert cs) {c : Char} (steering : steers c = true) : c ∉ cs := by
  intro member
  rw [inert c member] at steering
  cases steering

end Inert

/-! ## Kebab case -/

/-- A steering character is in the lower-case form of itself only. -/
theorem eq_of_mem_lower
    {c x : Char} (member : x ∈ CaseMapping.lower c)
    (steering : steers x = true) : c = x := by
  obtain ⟨positive, small⟩ := toNat_of_steers steering
  exact CaseMapping.eq_of_mem_lower_of_le member positive small

theorem inert_kebabAfter
    {before after : List Char} (inert : Inert after) :
    Inert (Kebab.kebabAfter before after) := by
  induction after generalizing before with
  | nil => exact inert
  | cons c after ih =>
      rw [Kebab.kebabAfter]
      refine Inert.append (Inert.append ?_ ?_) (ih ?_)
      · split <;> decide
      · intro x member
        rw [Bool.eq_false_iff]
        intro steering
        have same := eq_of_mem_lower member steering
        rw [← same, inert c List.mem_cons_self] at steering
        cases steering
      · exact inert.stretch (List.suffix_cons c after).isInfix

/-- The kebab-case form of an inert identifier is inert. -/
theorem inert_kebab
    {identifier : String} (inert : Inert identifier.toList) :
    Inert (Kebab.kebab identifier).toList := by
  rw [Kebab.kebab, String.toList_ofList]
  exact inert_kebabAfter inert

/-! ## Parts of names -/

theorem afterLast_isSuffix (separator : Char) (cs : List Char) :
    Pieces.afterLast separator cs <:+ cs := by
  rw [Pieces.afterLast, ← List.reverse_prefix, List.reverse_reverse]
  exact List.takeWhile_prefix _

theorem inert_shortName
    {name : String} (inert : Inert name.toList) :
    Inert (Php.shortName name).toList := by
  rw [Php.shortName, String.toList_ofList]
  exact inert.stretch (afterLast_isSuffix _ _).isInfix

theorem inert_plainName
    {name : String} (inert : Inert name.toList) :
    Inert (Php.plainName name).toList := by
  rw [Php.plainName, Pieces.dropLeading, String.toList_ofList]
  exact inert.stretch (List.dropWhile_suffix _).isInfix

end BusReference.Text
