import BusReference.Proofs.Text.LowerCase
import BusReference.Proofs.Text.Removing
import BusReference.Text.Kebab

/-!
# Hyphens of kebab case

The kebab-case form of an identifier is its lower-case form with hyphens put in.
Every one of them stands for itself between two characters that are no hyphens,
so the hyphens of the identifier can be told from them wherever two hyphens
follow each other and at both ends.  A form without capital letters has no place
for another hyphen and is its own kebab-case form.
-/

namespace BusReference.Text

open CaseMapping
open Kebab (kebab kebabAfter opensWord)
open Letters (isAlphanumeric isLowercase isUppercase)
open Pieces (exists_append_of_not_mem)

/-! ## Texts with hyphens put in -/

/-- The second text is the first with single hyphens put in, each between two
characters that are no hyphens. -/
inductive Hyphenated : List Char → List Char → Prop
  | nil : Hyphenated [] []
  | keep (c : Char) {cs ds : List Char} (later : Hyphenated cs ds) :
      Hyphenated (c :: cs) (c :: ds)
  | hyphen {c d : Char} {cs ds : List Char}
      (left : c ≠ '-') (right : d ≠ '-')
      (later : Hyphenated (d :: cs) (d :: ds)) :
      Hyphenated (c :: d :: cs) (c :: '-' :: d :: ds)

namespace Hyphenated

variable {cs ds : List Char}

theorem refl (cs : List Char) : Hyphenated cs cs := by
  induction cs with
  | nil => exact .nil
  | cons c cs ih => exact .keep c ih

theorem append_left (front : List Char) (later : Hyphenated cs ds) :
    Hyphenated (front ++ cs) (front ++ ds) := by
  induction front with
  | nil => exact later
  | cons c front ih => exact .keep c ih

/-- A hyphen may be put in behind a text that has none. -/
theorem append_hyphen
    {front : List Char} (nonempty : front ≠ []) (plain : '-' ∉ front)
    {d : Char} (right : d ≠ '-') (later : Hyphenated (d :: cs) (d :: ds)) :
    Hyphenated (front ++ d :: cs) (front ++ '-' :: d :: ds) := by
  induction front with
  | nil => exact absurd rfl nonempty
  | cons c front ih =>
      rw [List.mem_cons, not_or] at plain
      cases front with
      | nil => exact .hyphen (Ne.symm plain.1) right later
      | cons e front => exact .keep c (ih (List.cons_ne_nil e front) plain.2)

/-- Apart from hyphens both texts are the same. -/
theorem filter_eq (inserted : Hyphenated cs ds) :
    ds.filter (· ≠ '-') = cs.filter (· ≠ '-') := by
  induction inserted with
  | nil => rfl
  | keep c later ih => rw [List.filter_cons, List.filter_cons, ih]
  | @hyphen c d cs ds left right later ih =>
      rw [List.filter_cons, List.filter_cons_of_neg (by simp), ih,
        List.filter_cons (x := c)]

theorem mem_of_mem
    (inserted : Hyphenated cs ds) {d : Char} (member : d ∈ ds) :
    d ∈ cs ∨ d = '-' := by
  by_cases hyphen : d = '-'
  · exact .inr hyphen
  · have kept : d ∈ ds.filter (· ≠ '-') := by
      simpa [hyphen] using member
    rw [inserted.filter_eq] at kept
    exact .inl (List.mem_filter.mp kept).1

theorem head?_eq (inserted : Hyphenated cs ds) : ds.head? = cs.head? := by
  cases inserted <;> rfl

theorem getLast?_eq (inserted : Hyphenated cs ds) :
    ds.getLast? = cs.getLast? := by
  induction inserted with
  | nil => rfl
  | keep c later ih => rw [List.getLast?_cons, List.getLast?_cons, ih]
  | hyphen left right later ih =>
      rw [List.getLast?_cons_cons, List.getLast?_cons_cons,
        List.getLast?_cons_cons, ih]

/-- Two hyphens in a row were there before, at the same place. -/
theorem exists_of_doubled
    (inserted : Hyphenated cs ds) {before after : List Char}
    (doubled : ds = before ++ '-' :: '-' :: after) :
    ∃ first second, cs = first ++ '-' :: '-' :: second ∧
      Hyphenated first before ∧ Hyphenated second after := by
  induction inserted generalizing before with
  | nil =>
      have nothing := congrArg List.length doubled
      simp at nothing
  | @keep c cs ds later ih =>
      cases before with
      | nil =>
          obtain ⟨rfl, rest⟩ := List.cons.inj doubled
          subst rest
          cases later with
          | keep d later => exact ⟨[], _, rfl, .nil, later⟩
          | hyphen left => exact absurd rfl left
      | cons b before =>
          obtain ⟨rfl, rest⟩ := List.cons.inj doubled
          obtain ⟨first, second, rfl, front, back⟩ := ih rest
          exact ⟨c :: first, second, rfl, .keep c front, back⟩
  | @hyphen c d cs ds left right later ih =>
      rcases before with _ | ⟨b, _ | ⟨e, _ | ⟨f, before⟩⟩⟩
      · exact absurd (List.cons.inj doubled).1 left
      · exact absurd (List.cons.inj (List.cons.inj (List.cons.inj doubled).2).2).1
          right
      · exact absurd (List.cons.inj (List.cons.inj (List.cons.inj doubled).2).2).1
          right
      · obtain ⟨rfl, next⟩ := List.cons.inj doubled
        obtain ⟨rfl, rest⟩ := List.cons.inj next
        obtain ⟨rfl, -⟩ := List.cons.inj rest
        obtain ⟨first, second, text, front, back⟩ := ih rest
        obtain ⟨others, rfl⟩ := List.head?_eq_some_iff.mp front.head?_eq.symm
        exact ⟨c :: d :: others, second, by rw [text]; rfl,
          .hyphen left right front, back⟩

end Hyphenated

/-! ## Characters in lower case -/

/-- The lower-case forms of the characters of a text, one after the other. -/
def lowered (cs : List Char) : List Char := cs.flatMap lower

theorem lowered_cons (c : Char) (cs : List Char) :
    lowered (c :: cs) = lower c ++ lowered cs :=
  List.flatMap_cons

theorem hyphen_mem_lower_iff {c : Char} : '-' ∈ lower c ↔ c = '-' := by
  constructor
  · exact fun member => eq_of_mem_lower_of_le member (by decide) (by decide)
  · rintro rfl
    decide

/-- A hyphen of the lower-case form is one of the text. -/
theorem exists_of_lowered_eq_append
    {cs before after : List Char} (text : lowered cs = before ++ '-' :: after) :
    ∃ first second, cs = first ++ '-' :: second ∧
      lowered first = before ∧ lowered second = after := by
  induction cs generalizing before with
  | nil =>
      have nothing := congrArg List.length text
      simp [lowered] at nothing
  | cons c cs ih =>
      rw [lowered_cons] at text
      by_cases hyphen : c = '-'
      · subst hyphen
        cases before with
        | nil =>
            obtain ⟨-, rest⟩ := List.cons.inj text
            exact ⟨[], cs, rfl, rfl, rest⟩
        | cons b before =>
            obtain ⟨rfl, rest⟩ := List.cons.inj text
            obtain ⟨first, second, rfl, front, back⟩ := ih rest
            exact ⟨'-' :: first, second, rfl, congrArg ('-' :: ·) front, back⟩
      · obtain ⟨lead, rfl, rest⟩ :=
          exists_append_of_not_mem (mt hyphen_mem_lower_iff.mp hyphen) text
        obtain ⟨first, second, rfl, front, back⟩ := ih rest
        exact ⟨c :: first, second, rfl, by rw [lowered_cons, front], back⟩

theorem lowered_eq_nil_iff {cs : List Char} : lowered cs = [] ↔ cs = [] := by
  cases cs with
  | nil => exact iff_of_true rfl rfl
  | cons c cs => simp [lowered, lower_ne_nil]

/-- So are two hyphens in a row. -/
theorem exists_of_lowered_eq_append_doubled
    {cs before after : List Char}
    (text : lowered cs = before ++ '-' :: '-' :: after) :
    ∃ first second, cs = first ++ '-' :: '-' :: second ∧
      lowered first = before ∧ lowered second = after := by
  obtain ⟨first, others, rfl, front, rest⟩ := exists_of_lowered_eq_append text
  have start : lowered others = [] ++ '-' :: after := rest
  obtain ⟨nothing, second, rfl, empty, back⟩ := exists_of_lowered_eq_append start
  rw [lowered_eq_nil_iff] at empty
  subst empty
  exact ⟨first, second, rfl, front, back⟩

theorem head?_lowered_eq_hyphen_iff {cs : List Char} :
    (lowered cs).head? = some '-' ↔ cs.head? = some '-' := by
  cases cs with
  | nil => exact Iff.rfl
  | cons c cs =>
      rw [lowered_cons, List.head?_append_of_ne_nil _ (lower_ne_nil c),
        List.head?_cons, Option.some.injEq]
      constructor
      · exact fun first => hyphen_mem_lower_iff.mp (List.mem_of_mem_head? first)
      · rintro rfl
        decide

theorem getLast?_lowered_eq_hyphen_iff {cs : List Char} :
    (lowered cs).getLast? = some '-' ↔ cs.getLast? = some '-' := by
  induction cs using List.reverseRecOn with
  | nil => exact Iff.rfl
  | append_singleton cs c ih =>
      rw [lowered, List.flatMap_append, List.flatMap_singleton,
        List.getLast?_append_of_ne_nil _ (lower_ne_nil c), List.getLast?_concat,
        Option.some.injEq]
      constructor
      · exact fun last => hyphen_mem_lower_iff.mp (List.mem_of_getLast? last)
      · rintro rfl
        decide

/-! ## Kebab case -/

/-- Words open between letters. -/
theorem ne_hyphen_of_opensWord
    {p c : Char} {before after : List Char}
    (opens : opensWord (p :: before) c after = true) : p ≠ '-' ∧ c ≠ '-' := by
  have noUpper : isUppercase '-' = false := rfl
  have noLower : isLowercase '-' = false := rfl
  constructor
  · rintro rfl
    simp [opensWord, noUpper, noLower] at opens
  · rintro rfl
    simp [opensWord, noUpper] at opens

/-- Writes the kebab-case form behind what is written already, and a hyphen only
if none is the last character there. -/
def writeKebab (written before : List Char) : List Char → List Char
  | [] => written
  | c :: after =>
    let separated :=
      if opensWord before c after && written.getLast? != some '-' then
        written ++ ['-']
      else written
    writeKebab (separated ++ lower c) (c :: before) after

/-- What is written for a character ends with a hyphen only if the character is
one. -/
theorem getLast?_append_lower_ne_hyphen
    {c : Char} (other : c ≠ '-') (written : List Char) :
    (written ++ lower c).getLast? ≠ some '-' := by
  rw [List.getLast?_append_of_ne_nil _ (lower_ne_nil c)]
  exact fun last => other (hyphen_mem_lower_iff.mp (List.mem_of_getLast? last))

/-- What is written never has to be looked at: where a word opens, it ends with
the form of a letter. -/
theorem writeKebab_eq
    (written : List Char) {before : List Char} (after : List Char)
    (ends : ∀ p ∈ before.head?, p ≠ '-' → written.getLast? ≠ some '-') :
    writeKebab written before after = written ++ kebabAfter before after := by
  induction after generalizing written before with
  | nil => exact (List.append_nil written).symm
  | cons c after ih =>
      have later : ∀ separated : List Char, ∀ p ∈ (c :: before).head?,
          p ≠ '-' → (separated ++ lower c).getLast? ≠ some '-' := by
        rintro separated _ ⟨⟩ other
        exact getLast?_append_lower_ne_hyphen other separated
      rw [writeKebab, ih _ (later _), kebabAfter]
      cases opens : opensWord before c after with
      | false => simp
      | true =>
          have plain : written.getLast? ≠ some '-' := by
            cases before with
            | nil => cases opens
            | cons p before => exact ends p rfl (ne_hyphen_of_opensWord opens).1
          simp [plain]

/-- The kebab-case form goes on with hyphens after every character. -/
theorem hyphenated_kebabAfter (p : Char) (before after : List Char) :
    Hyphenated (lower p ++ lowered after)
      (lower p ++ kebabAfter (p :: before) after) := by
  induction after generalizing p before with
  | nil => exact .refl _
  | cons c after ih =>
      have later := ih c (p :: before)
      rw [lowered_cons, kebabAfter, List.append_assoc]
      split
      · rename_i opens
        obtain ⟨left, right⟩ := ne_hyphen_of_opensWord opens
        obtain ⟨d, others, form⟩ := List.exists_cons_of_ne_nil (lower_ne_nil c)
        have visible : d ≠ '-' := by
          rintro rfl
          apply right
          apply hyphen_mem_lower_iff.mp
          rw [form]
          exact List.mem_cons_self
        rw [form] at later ⊢
        exact .append_hyphen (lower_ne_nil p)
          (mt hyphen_mem_lower_iff.mp left) visible later
      · exact later.append_left (lower p)

theorem hyphenated_kebab (identifier : String) :
    Hyphenated (lowered identifier.toList) (kebab identifier).toList := by
  rw [kebab, String.toList_ofList]
  cases identifier.toList with
  | nil => exact .nil
  | cons c cs =>
      rw [lowered_cons]
      exact hyphenated_kebabAfter c [] cs

/-- Where no capital letter stands, no word opens. -/
theorem kebabAfter_eq_lowered
    {cs : List Char} (small : ∀ c ∈ cs, isUppercase c = false)
    (before : List Char) : kebabAfter before cs = lowered cs := by
  induction cs generalizing before with
  | nil => rfl
  | cons c cs ih =>
      rw [List.forall_mem_cons] at small
      have closed : ¬ opensWord before c cs = true := by
        cases before with
        | nil => exact Bool.false_ne_true
        | cons p before => simp [opensWord, small.1]
      rw [kebabAfter, if_neg closed, ih small.2, lowered_cons]
      rfl

theorem lowered_eq_self
    {cs : List Char} (small : ∀ c ∈ cs, lower c = [c]) : lowered cs = cs := by
  induction cs with
  | nil => rfl
  | cons c cs ih =>
      rw [List.forall_mem_cons] at small
      rw [lowered_cons, small.1, ih small.2]
      rfl

/-- A kebab-case form without capital letters is its own. -/
theorem kebab_kebab
    {identifier : String}
    (small : ∀ c ∈ lowered identifier.toList, isUppercase c = false) :
    kebab (kebab identifier) = kebab identifier := by
  have letters : ∀ c ∈ (kebab identifier).toList,
      isUppercase c = false ∧ lower c = [c] := by
    intro c member
    rcases (hyphenated_kebab identifier).mem_of_mem member with inside | rfl
    · obtain ⟨origin, -, form⟩ := List.mem_flatMap.mp inside
      exact ⟨small c inside, lower_of_mem_lower form⟩
    · exact ⟨rfl, rfl⟩
  calc kebab (kebab identifier)
    _ = String.ofList (lowered (kebab identifier).toList) := by
        rw [kebab, kebabAfter_eq_lowered fun c member => (letters c member).1]
    _ = kebab identifier := by
        rw [lowered_eq_self fun c member => (letters c member).2,
          String.ofList_toList]

/--
The kebab-case form of an identifier is its lower-case form with single hyphens
put in, each between two characters that are no hyphens.  Without hyphens both
are the same, and a hyphen that is doubled or stands at an end is one of the
identifier.  If the lower-case form has no capital letters, the kebab-case form
is its own.  Writing it character by character gives the same, whether or not the
last character written is looked at before a hyphen.
-/
theorem kebab_hyphenates (identifier : String) :
    String.ofList (writeKebab [] [] identifier.toList) = kebab identifier ∧
      Hyphenated (lowered identifier.toList) (kebab identifier).toList ∧
      (kebab identifier).toList.filter (· ≠ '-') =
        (lowered identifier.toList).filter (· ≠ '-') ∧
      (∀ before after,
        (kebab identifier).toList = before ++ '-' :: '-' :: after →
          ∃ first second,
            identifier.toList = first ++ '-' :: '-' :: second ∧
            Hyphenated (lowered first) before ∧
            Hyphenated (lowered second) after) ∧
      ((kebab identifier).toList.head? = some '-' ↔
        identifier.toList.head? = some '-') ∧
      ((kebab identifier).toList.getLast? = some '-' ↔
        identifier.toList.getLast? = some '-') ∧
      ((∀ c ∈ lowered identifier.toList, isUppercase c = false) →
        kebab (kebab identifier) = kebab identifier) := by
  have inserted := hyphenated_kebab identifier
  have written : String.ofList (writeKebab [] [] identifier.toList) =
      kebab identifier := by
    rw [writeKebab_eq [] identifier.toList nofun, List.nil_append, kebab]
  refine ⟨written, inserted, inserted.filter_eq, ?doubled, ?first, ?last, kebab_kebab⟩
  case doubled =>
    intro before after doubled
    obtain ⟨front, back, text, left, right⟩ := inserted.exists_of_doubled doubled
    obtain ⟨first, second, whole, rfl, rfl⟩ :=
      exists_of_lowered_eq_append_doubled text
    exact ⟨first, second, whole, left, right⟩
  case first => rw [inserted.head?_eq, head?_lowered_eq_hyphen_iff]
  case last => rw [inserted.getLast?_eq, getLast?_lowered_eq_hyphen_iff]

theorem kebab_hyphenates_xmlHttp :
    kebab "XMLHttp--GetRésumé-" = "xml-http--get-résumé-" ∧
      (∃ first second,
        "XMLHttp--GetRésumé-".toList = first ++ '-' :: '-' :: second ∧
        Hyphenated (lowered first) "xml-http".toList ∧
        Hyphenated (lowered second) "get-résumé-".toList) ∧
      (∀ c ∈ lowered "XMLHttp--GetRésumé-".toList, isUppercase c = false) ∧
      kebab "xml-http--get-résumé-" = "xml-http--get-résumé-" := by
  have form : kebab "XMLHttp--GetRésumé-" = "xml-http--get-résumé-" := by
    decide +kernel
  have small : ∀ c ∈ lowered "XMLHttp--GetRésumé-".toList,
      isUppercase c = false :=
    List.forall_iff_forall_mem.mp (by decide +kernel)
  obtain ⟨-, -, -, doubled, -, -, again⟩ := kebab_hyphenates "XMLHttp--GetRésumé-"
  rw [form] at doubled again
  exact ⟨form, doubled "xml-http".toList "get-résumé-".toList rfl, small,
    again small⟩

/-- A letter without a small form stays a capital, so the text before it decides
anew whether a word opens there. -/
example : kebab "A𝐀" = "a𝐀" ∧ kebab "a𝐀" = "a-𝐀" := by decide +kernel

end BusReference.Text
