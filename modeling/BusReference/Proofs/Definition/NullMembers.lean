import BusReference.Definition.Reading
import BusReference.Proofs.Files.Way
import BusReference.Proofs.Text.Removing

/-!
# Null in the types of parameters

A parameter that may be left out and accepts null is written with `?`, and its
type loses its members `null`.  They are not looked up as members: first each
`|null` goes from the text of type and name, and then each `null|`.  The main
statement says for which types and names exactly the members `null` go.
-/

namespace BusReference.Definition

open BusReference.Php
open BusReference.Text.Pieces
  (splitOn removed removed_append removed_append_cons removed_cons
    removed_eq_self removed_length_le removed_length_lt removed_prefix
    prefix_append_cons_iff)

/-! ## The members of a union -/

def nullMember : List Char := ['n', 'u', 'l', 'l']

/-- Members with bars between them. -/
def union (members : List (List Char)) : List Char :=
  ['|'].intercalate members

section Unions

variable {member : List Char} {members : List (List Char)}

theorem union_cons
    (member : List Char) (nonempty : members ≠ []) :
    union (member :: members) = member ++ '|' :: union members := by
  cases members with
  | nil => exact absurd rfl nonempty
  | cons other members =>
      rw [union, List.intercalate_cons_cons, List.append_assoc]
      rfl

@[simp]
theorem union_singleton (member : List Char) : union [member] = member :=
  List.intercalate_singleton

theorem union_append_cons
    (front member : List Char) (members : List (List Char)) :
    union ((front ++ member) :: members) = front ++ union (member :: members) := by
  cases members with
  | nil => simp
  | cons other members =>
      rw [union_cons _ (List.cons_ne_nil _ _),
        union_cons _ (List.cons_ne_nil _ _), List.append_assoc]

theorem union_splitOn (type : List Char) : union (splitOn '|' type) = type := by
  rw [union, Files.Path.splitOn_eq]
  exact List.intercalate_splitOn '|'

theorem prefix_union_iff
    {pattern : List Char} (noBar : '|' ∉ pattern) (member : List Char)
    (members : List (List Char)) :
    pattern <+: union (member :: members) ↔ pattern <+: member := by
  cases members with
  | nil => rw [union_singleton]
  | cons other members =>
      rw [union_cons _ (List.cons_ne_nil _ _), prefix_append_cons_iff noBar]

/-- The members when each `|null` is gone: what follows it belongs to the
member before. -/
def glued : List Char → List (List Char) → List (List Char)
  | first, [] => [first]
  | first, member :: members =>
      if nullMember <+: member then
        glued (first ++ member.drop nullMember.length) members
      else first :: glued member members

/-- The text of members when each `null|` is gone. -/
def stripped : List (List Char) → List Char
  | [] => []
  | [last] => last
  | member :: other :: members =>
      (if nullMember <:+ member then
        member.take (member.length - nullMember.length)
      else member ++ ['|']) ++ stripped (other :: members)

theorem glued_ne_nil (first : List Char) (members : List (List Char)) :
    glued first members ≠ [] := by
  induction members generalizing first with
  | nil => exact List.cons_ne_nil _ _
  | cons member members ih =>
      rw [glued]
      split
      · exact ih _
      · exact List.cons_ne_nil _ _

theorem removed_union
    (first : List Char) (members : List (List Char))
    (noBar : ∀ member ∈ first :: members, '|' ∉ member) :
    removed ('|' :: nullMember) (union (first :: members)) =
      union (glued first members) := by
  induction members generalizing first with
  | nil =>
      rw [glued, union_singleton, removed_eq_self]
      intro occurs
      exact noBar first List.mem_cons_self (occurs.subset List.mem_cons_self)
  | cons member members ih =>
      rw [List.forall_mem_cons, List.forall_mem_cons] at noBar
      obtain ⟨noBarFirst, noBarMember, noBarOthers⟩ := noBar
      have passes : ∀ cs, removed ('|' :: nullMember) (first ++ cs) =
          first ++ removed ('|' :: nullMember) cs := by
        apply removed_append _ (List.cons_ne_nil _ _)
        rintro _ ⟨⟩
        exact noBarFirst
      rw [union_cons _ (List.cons_ne_nil _ _), passes, glued]
      split
      · rename_i starts
        obtain ⟨tail, rfl⟩ := starts
        have noBarTail : '|' ∉ tail := fun inside =>
          noBarMember (List.mem_append_right _ inside)
        rw [union_append_cons, ← List.cons_append,
          removed_prefix (List.cons_ne_nil _ _), ← passes, ← union_append_cons,
          List.drop_left]
        apply ih
        rw [List.forall_mem_cons]
        exact ⟨by simp [noBarFirst, noBarTail], noBarOthers⟩
      · rename_i other
        have stays : ¬ '|' :: nullMember <+: '|' :: union (member :: members) := by
          rw [List.cons_prefix_cons, prefix_union_iff (by decide)]
          exact fun starts => other starts.2
        have later : ∀ other ∈ member :: members, '|' ∉ other := by
          rw [List.forall_mem_cons]
          exact ⟨noBarMember, noBarOthers⟩
        rw [removed_cons stays, ih member later,
          union_cons _ (glued_ne_nil member members)]

theorem mem_glued
    {c : Char} {first : List Char}
    (without : ∀ member ∈ first :: members, c ∉ member) :
    ∀ member ∈ glued first members, c ∉ member := by
  induction members generalizing first with
  | nil => simpa [glued] using without
  | cons member members ih =>
      rw [List.forall_mem_cons, List.forall_mem_cons] at without
      obtain ⟨inFirst, inMember, inOthers⟩ := without
      rw [glued]
      split
      · apply ih
        rw [List.forall_mem_cons, List.mem_append, not_or]
        exact ⟨⟨inFirst, fun inside => inMember (List.mem_of_mem_drop inside)⟩,
          inOthers⟩
      · rw [List.forall_mem_cons]
        refine ⟨inFirst, ih ?_⟩
        rw [List.forall_mem_cons]
        exact ⟨inMember, inOthers⟩

/-- Before a bar, only the letters right before it can go with it. -/
theorem removed_before_bar
    (noBar : '|' ∉ member) (cs : List Char) :
    removed (nullMember ++ ['|']) (member ++ '|' :: cs) =
      (if nullMember <:+ member then
        member.take (member.length - nullMember.length)
      else member ++ ['|']) ++ removed (nullMember ++ ['|']) cs := by
  induction member with
  | nil => exact removed_cons (by simp [nullMember])
  | cons c member ih =>
      have later := noBar
      rw [List.mem_cons, not_or] at later
      by_cases whole : c :: member = nullMember
      · rw [whole, if_pos List.suffix_rfl, Nat.sub_self, List.take_zero,
          List.nil_append, ← removed_prefix (by simp) cs, List.append_assoc]
        rfl
      · have stays : ¬ nullMember ++ ['|'] <+: c :: (member ++ '|' :: cs) := by
          rintro ⟨rest, same⟩
          apply whole
          rw [List.append_assoc, ← List.cons_append] at same
          have front : nullMember <+: c :: member :=
            (prefix_append_cons_iff (by decide)).mp ⟨_, same⟩
          have back : c :: member <+: nullMember :=
            (prefix_append_cons_iff noBar).mp ⟨_, same.symm⟩
          exact back.eq_of_length_le front.length_le
        have ends : nullMember <:+ c :: member ↔ nullMember <:+ member := by
          rw [List.suffix_cons_iff]
          exact or_iff_right fun same => whole same.symm
        rw [List.cons_append, removed_cons stays, ih later.2]
        simp only [ends]
        split
        · rename_i tail
          rw [List.length_cons, Nat.succ_sub tail.length_le, List.take_succ_cons,
            List.cons_append]
        · simp

theorem removed_union_eq_stripped
    (noBar : ∀ member ∈ members, '|' ∉ member) :
    removed (nullMember ++ ['|']) (union members) = stripped members := by
  induction members with
  | nil => rfl
  | cons member members ih =>
      rw [List.forall_mem_cons] at noBar
      cases members with
      | nil =>
          rw [stripped, union_singleton, removed_eq_self]
          exact fun occurs => noBar.1 (occurs.subset (by simp))
      | cons other members =>
          rw [union_cons _ (List.cons_ne_nil _ _), removed_before_bar noBar.1,
            ih noBar.2, stripped]

/-- The members that are not null. -/
def kept (members : List (List Char)) : List (List Char) :=
  members.filter (· ≠ nullMember)

theorem kept_cons_of_ne
    (other : member ≠ nullMember) (members : List (List Char)) :
    kept (member :: members) = member :: kept members := by
  simp [kept, other]

@[simp]
theorem kept_cons_null (members : List (List Char)) :
    kept (nullMember :: members) = kept members := by
  simp [kept]

/-- As long as a kept member does not start with null, nothing else goes. -/
theorem glued_eq
    {first : List Char}
    (starts : ∀ member ∈ kept members, ¬ nullMember <+: member) :
    glued first members = first :: kept members := by
  induction members generalizing first with
  | nil => rfl
  | cons member members ih =>
      by_cases isNull : member = nullMember
      · subst isNull
        rw [kept_cons_null] at starts ⊢
        rw [glued, if_pos List.prefix_rfl, List.drop_length, List.append_nil]
        exact ih starts
      · rw [kept_cons_of_ne isNull, List.forall_mem_cons] at starts
        rw [kept_cons_of_ne isNull, glued, if_neg starts.1, ih starts.2]

/-- If a kept member starts with null, its first letters go. -/
theorem union_glued_length_le (first : List Char) (members : List (List Char)) :
    (union (glued first members)).length ≤
        (union (first :: kept members)).length ∧
      ((union (glued first members)).length =
          (union (first :: kept members)).length →
        ∀ member ∈ kept members, ¬ nullMember <+: member) := by
  induction members generalizing first with
  | nil => exact ⟨Nat.le_refl _, fun _ => nofun⟩
  | cons member members ih =>
      by_cases isNull : member = nullMember
      · subst isNull
        rw [glued, if_pos List.prefix_rfl, List.drop_length, List.append_nil,
          kept_cons_null]
        exact ih first
      · rw [kept_cons_of_ne isNull, union_cons _ (List.cons_ne_nil _ _), glued]
        split
        · rename_i starts
          obtain ⟨tail, rfl⟩ := starts
          have shorter := (ih (first ++ tail)).1
          rw [union_append_cons] at shorter ⊢
          rw [List.drop_left]
          simp only [List.length_append, List.length_cons] at shorter ⊢
          exact ⟨by omega, fun same => by omega⟩
        · rename_i other
          have later := ih member
          rw [union_cons _ (glued_ne_nil member members), List.forall_mem_cons]
          simp only [List.length_append, List.length_cons]
          exact ⟨by omega, fun same => ⟨other, later.2 (by omega)⟩⟩

/-- As long as no member but the last ends with null, nothing goes. -/
theorem stripped_eq
    (ends : ∀ member ∈ members.dropLast, ¬ nullMember <:+ member) :
    stripped members = union members := by
  induction members with
  | nil => rfl
  | cons member members ih =>
      cases members with
      | nil => rw [stripped, union_singleton]
      | cons other members =>
          rw [List.dropLast_cons_cons, List.forall_mem_cons] at ends
          rw [stripped, if_neg ends.1, ih ends.2,
            union_cons _ (List.cons_ne_nil _ _), List.append_assoc]
          rfl

/-- If a member but the last ends with null, its last letters go. -/
theorem stripped_length_le (members : List (List Char)) :
    (stripped members).length ≤ (union members).length ∧
      ((stripped members).length = (union members).length →
        ∀ member ∈ members.dropLast, ¬ nullMember <:+ member) := by
  induction members with
  | nil => exact ⟨Nat.le_refl _, fun _ => nofun⟩
  | cons member members ih =>
      cases members with
      | nil => exact ⟨by simp [stripped], fun _ => nofun⟩
      | cons other members =>
          rw [stripped, union_cons _ (List.cons_ne_nil _ _),
            List.dropLast_cons_cons, List.forall_mem_cons]
          split
          · simp only [List.length_append, List.length_take, List.length_cons]
            exact ⟨by omega, fun same => by omega⟩
          · rename_i stays
            simp only [List.length_append, List.length_cons, List.length_nil]
            exact ⟨by omega, fun same => ⟨stays, ih.2 (by omega)⟩⟩

theorem stripped_glued_length_le
    (first : List Char) (members : List (List Char)) :
    (stripped (glued first members)).length ≤
      (union (first :: kept members)).length :=
  Nat.le_trans (stripped_length_le _).1 (union_glued_length_le first members).1

/-- The members but null are left if none of them starts or ends with null
next to a bar. -/
theorem stripped_glued_eq_iff (first : List Char) (members : List (List Char)) :
    stripped (glued first members) = union (first :: kept members) ↔
      (∀ member ∈ kept members, ¬ nullMember <+: member) ∧
        ∀ member ∈ (first :: kept members).dropLast,
          ¬ nullMember <:+ member := by
  constructor
  · intro same
    have whole := congrArg List.length same
    have inner := (stripped_length_le (glued first members)).1
    have outer := (union_glued_length_le first members).1
    have starts : ∀ member ∈ kept members, ¬ nullMember <+: member :=
      (union_glued_length_le first members).2 (by omega)
    refine ⟨starts, ?_⟩
    rw [← glued_eq starts]
    exact (stripped_length_le _).2 (by omega)
  · rintro ⟨starts, ends⟩
    rw [glued_eq starts, stripped_eq ends]

/-- Null as the first member goes with what stands between it and the next
member. -/
theorem exists_stripped_glued_null
    {first : List Char} {others members : List (List Char)}
    (left : kept members = first :: others) :
    ∃ later, kept later = others ∧
      stripped (glued nullMember members) = stripped (glued first later) := by
  induction members with
  | nil => cases left
  | cons member members ih =>
      by_cases isNull : member = nullMember
      · subst isNull
        rw [kept_cons_null] at left
        rw [glued, if_pos List.prefix_rfl, List.drop_length, List.append_nil]
        exact ih left
      · rw [kept_cons_of_ne isNull] at left
        obtain ⟨rfl, rfl⟩ := List.cons.inj left
        refine ⟨members, rfl, ?_⟩
        rw [glued]
        split
        · rename_i starts
          obtain ⟨tail, rfl⟩ := starts
          rw [List.drop_left]
        · obtain ⟨next, rest, split⟩ :=
            List.exists_cons_of_ne_nil (glued_ne_nil member members)
          rw [split, stripped, if_pos List.suffix_rfl, Nat.sub_self,
            List.take_zero, List.nil_append]

theorem exists_stripped_glued
    {first : List Char} {others members : List (List Char)}
    {last : List Char} (left : kept (last :: members) = first :: others) :
    ∃ later, kept later = others ∧
      stripped (glued last members) = stripped (glued first later) := by
  by_cases isNull : last = nullMember
  · subst isNull
    rw [kept_cons_null] at left
    exact exists_stripped_glued_null left
  · rw [kept_cons_of_ne isNull] at left
    obtain ⟨rfl, rfl⟩ := List.cons.inj left
    exact ⟨members, rfl, rfl⟩

theorem exists_glued_eq_cons (first : List Char) (members : List (List Char)) :
    ∃ tail others, glued first members = (first ++ tail) :: others := by
  induction members generalizing first with
  | nil => exact ⟨[], [], by rw [glued, List.append_nil]⟩
  | cons member members ih =>
      rw [glued]
      split
      · obtain ⟨tail, others, split⟩ :=
          ih (first ++ member.drop nullMember.length)
        exact ⟨_, others, by rw [split, List.append_assoc]⟩
      · exact ⟨[], _, by rw [List.append_nil]⟩

/-- A mark at the start stays. -/
theorem exists_stripped_mark (tail : List Char) (others : List (List Char)) :
    ∃ rest, stripped (('?' :: tail) :: others) = '?' :: rest := by
  cases others with
  | nil => exact ⟨tail, rfl⟩
  | cons other others =>
      rw [stripped]
      split
      · rename_i ends
        have within : nullMember <:+ tail := by
          rcases List.suffix_cons_iff.mp ends with whole | within
          · exact absurd whole (by simp [nullMember])
          · exact within
        rw [List.length_cons, Nat.succ_sub within.length_le,
          List.take_succ_cons, List.cons_append]
        exact ⟨_, rfl⟩
      · exact ⟨_, rfl⟩

theorem exists_stripped_glued_mark
    (first : List Char) (members : List (List Char)) :
    ∃ rest, stripped (glued ('?' :: first) members) = '?' :: rest := by
  obtain ⟨tail, others, split⟩ := exists_glued_eq_cons ('?' :: first) members
  rw [split]
  exact exists_stripped_mark (first ++ tail) others

end Unions

/-! ## Types and names -/

section Texts

/-- The text with neither `|null` nor `null|`. -/
def cleared (cs : List Char) : List Char :=
  removed (nullMember ++ ['|']) (removed ('|' :: nullMember) cs)

theorem toList_withoutNull (s : String) :
    (withoutNull s).toList = cleared s.toList := by
  have bar : "|null".toList = '|' :: nullMember := by decide +kernel
  have beforeBar : "null|".toList = nullMember ++ ['|'] := by decide +kernel
  have nothing : "".toList = [] := rfl
  simp only [withoutNull, Text.Pieces.replace, bar, beforeBar, nothing,
    String.toList_ofList]
  rfl

theorem cleared_append_blank (type name : List Char) :
    cleared (type ++ ' ' :: name) = cleared type ++ ' ' :: cleared name := by
  rw [cleared, removed_append_cons (by simp) (by decide),
    removed_append_cons (by simp) (by decide)]
  rfl

theorem cleared_length_le (cs : List Char) : (cleared cs).length ≤ cs.length :=
  Nat.le_trans (removed_length_le _ _) (removed_length_le _ _)

/-- A name is left as it is if it has neither text. -/
theorem cleared_eq_self_iff {cs : List Char} :
    cleared cs = cs ↔
      ¬ '|' :: nullMember <:+: cs ∧ ¬ nullMember ++ ['|'] <:+: cs := by
  constructor
  · intro same
    have whole := congrArg List.length same
    have shorter := removed_length_le (nullMember ++ ['|'])
      (removed ('|' :: nullMember) cs)
    rw [cleared] at whole
    have noBar : ¬ '|' :: nullMember <:+: cs := by
      intro occurs
      have lost := removed_length_lt (List.cons_ne_nil _ _) occurs
      omega
    refine ⟨noBar, fun occurs => ?_⟩
    have lost := removed_length_lt (by simp) occurs
    rw [removed_eq_self noBar] at whole
    omega
  · rintro ⟨noBar, noBarAfter⟩
    rw [cleared, removed_eq_self noBar, removed_eq_self noBarAfter]

theorem cleared_union
    {first : List Char} {members : List (List Char)}
    (noBar : ∀ member ∈ first :: members, '|' ∉ member) :
    cleared (union (first :: members)) = stripped (glued first members) := by
  rw [cleared, removed_union first members noBar,
    removed_union_eq_stripped (mem_glued noBar)]

/-- In a type of which members are left, these tell what is left of it. -/
theorem exists_cleared_eq
    {type first : List Char} {others : List (List Char)}
    (left : kept (splitOn '|' type) = first :: others) :
    ∃ later, kept later = others ∧
      cleared type = stripped (glued first later) := by
  have noBar : ∀ member ∈ splitOn '|' type, '|' ∉ member := fun member inside =>
    Files.Path.not_mem_of_mem_splitOn inside
  have whole := union_splitOn type
  cases split : splitOn '|' type with
  | nil =>
      rw [split] at left
      cases left
  | cons member members =>
      rw [split] at left noBar whole
      obtain ⟨later, same, text⟩ := exists_stripped_glued left
      rw [← whole, cleared_union noBar]
      exact ⟨later, same, text⟩

section Types

/-- The text of a type without a mark at its start. -/
def unmarked : List Char → List Char
  | '?' :: cs => cs
  | cs => cs

variable {type first : List Char} {others : List (List Char)}

theorem cleared_type_length_le
    (left : kept (splitOn '|' type) = first :: others) :
    (cleared type).length ≤ (union (first :: others)).length := by
  obtain ⟨later, rfl, text⟩ := exists_cleared_eq left
  rw [text]
  exact stripped_glued_length_le first later

theorem cleared_type_eq_iff
    (left : kept (splitOn '|' type) = first :: others) :
    cleared type = union (first :: others) ↔
      (∀ member ∈ others, ¬ nullMember <+: member) ∧
        ∀ member ∈ (first :: others).dropLast, ¬ nullMember <:+ member := by
  obtain ⟨later, rfl, text⟩ := exists_cleared_eq left
  rw [text]
  exact stripped_glued_eq_iff first later

theorem exists_cleared_mark
    (left : kept (splitOn '|' type) = ('?' :: first) :: others) :
    ∃ rest, cleared type = '?' :: rest := by
  obtain ⟨later, -, text⟩ := exists_cleared_eq left
  rw [text]
  exact exists_stripped_glued_mark first later

theorem unmarked_eq_self
    (left : kept (splitOn '|' type) = first :: others)
    (noMark : first.head? ≠ some '?') :
    unmarked type = type := by
  cases type with
  | nil => rfl
  | cons c cs =>
      by_cases mark : c = '?'
      · subst mark
        obtain ⟨member, members, split⟩ :
            ∃ member members, splitOn '|' ('?' :: cs) =
              ('?' :: member) :: members := by
          rw [splitOn, if_neg (by decide)]
          cases splitOn '|' cs with
          | nil => exact ⟨[], [], rfl⟩
          | cons member members => exact ⟨member, members, rfl⟩
        rw [split, kept_cons_of_ne (by simp [nullMember])] at left
        obtain ⟨rfl, -⟩ := List.cons.inj left
        exact absurd rfl noMark
      · rw [unmarked]
        rintro _ ⟨⟩
        exact mark rfl

theorem not_mark_prefix_union
    (noMark : first.head? ≠ some '?') (others : List (List Char))
    (rest : List Char) :
    ¬ ['?'] <+: union (first :: others) ++ ' ' :: rest := by
  rintro ⟨after, same⟩
  have head := congrArg List.head? same
  rw [List.singleton_append, List.head?_cons] at head
  cases first with
  | nil =>
      cases others with
      | nil => simp at head
      | cons other others =>
          rw [union_cons _ (List.cons_ne_nil _ _)] at head
          simp at head
  | cons c cs =>
      apply noMark
      cases others with
      | nil => simpa using head.symm
      | cons other others =>
          rw [union_cons _ (List.cons_ne_nil _ _)] at head
          simpa using head.symm

end Types

end Texts

/-! ## Parameters -/

section Parameters

/-- What stands before the name of a parameter. -/
def sigil (p : Parameter) : List Char :=
  if p.variadic then ['.', '.', '.', '$'] else ['$']

/-- A parameter with one mark, without null in its type, and with its default
value. -/
def markedText (type : String) (p : Parameter) (value : DefaultValue) : String :=
  "?" ++
    String.ofList (union (kept (splitOn '|' (unmarked type.toList)))) ++ " " ++
      ((if p.variadic then "...$" else "$") ++ p.name) ++ " = " ++ value.literal

/-- Only whole members `null` of the type can be found in the text of the type
and the name, and what is left has no mark of its own. -/
structure LosesOnlyNull (type name : String) : Prop where
  noMark : ∀ member ∈ (kept (splitOn '|' type.toList)).head?,
    member.head? ≠ some '?'
  starts : ∀ member ∈ (kept (splitOn '|' type.toList)).tail,
    ¬ nullMember <+: member
  ends : ∀ member ∈ (kept (splitOn '|' type.toList)).dropLast,
    ¬ nullMember <:+ member
  name : ¬ '|' :: nullMember <:+: name.toList ∧
    ¬ nullMember ++ ['|'] <:+: name.toList

theorem toList_sigil (p : Parameter) :
    (if p.variadic then "...$" else "$").toList = sigil p := by
  rw [sigil]
  cases p.variadic <;> rfl

theorem cleared_sigil_append (p : Parameter) (cs : List Char) :
    cleared (sigil p ++ cs) = sigil p ++ cleared cs := by
  have apart : '|' ∉ sigil p ∧ 'n' ∉ sigil p := by
    rw [sigil]
    cases p.variadic <;> decide
  have bar : removed ('|' :: nullMember) (sigil p ++ cs) =
      sigil p ++ removed ('|' :: nullMember) cs :=
    removed_append (by rintro _ ⟨⟩; exact apart.1) (List.cons_ne_nil _ _) cs
  rw [cleared, bar]
  exact removed_append (by rintro _ ⟨⟩; exact apart.2) (by simp) _

section Texts

variable
    {constructor : Method} {p : Parameter} {type : String}
    {value : DefaultValue}

theorem toList_parameterText
    (typed : parameterType? constructor p = some type)
    (hasDefault : p.defaultValue = some value)
    (nullable : p.allowsNull = true) :
    (parameterText constructor p).toList =
      '?' :: (cleared type.toList ++ ' ' :: (sigil p ++ cleared p.name.toList) ++
        (" = " ++ value.literal).toList) := by
  have head : (withoutNull (parameterHead (some type) p)).toList =
      cleared type.toList ++ ' ' :: (sigil p ++ cleared p.name.toList) := by
    rw [toList_withoutNull, parameterHead, String.toList_append,
      String.toList_append, String.toList_append, toList_sigil,
      List.append_assoc, ← cleared_sigil_append, ← cleared_append_blank]
    rfl
  rw [parameterText, typed, hasDefault]
  dsimp only
  rw [nullable, Option.isSome_some, Bool.and_self, if_pos rfl, String.append_assoc,
    String.append_assoc, String.toList_append, String.toList_append, head]
  rfl

theorem toList_markedText (type : String) (p : Parameter) (value : DefaultValue) :
    (markedText type p value).toList =
      '?' :: (union (kept (splitOn '|' (unmarked type.toList))) ++
        ' ' :: (sigil p ++ p.name.toList) ++ (" = " ++ value.literal).toList) := by
  have mark : "?".toList = ['?'] := rfl
  have blank : " ".toList = [' '] := rfl
  simp only [markedText, String.toList_append, String.toList_ofList,
    toList_sigil, mark, blank, List.append_assoc, List.cons_append,
    List.nil_append]

end Texts

/--
A parameter that may be left out and accepts null is written with one mark, its
type without the members `null`, its name and its default value exactly if the
first member left has no mark, no other one starts and none but the last ends
with the letters of null, and the name has none next to a bar.
-/
theorem parameterText_eq_markedText_iff
    {constructor : Method} {p : Parameter} {type : String} {value : DefaultValue}
    (typed : parameterType? constructor p = some type)
    (hasDefault : p.defaultValue = some value) (nullable : p.allowsNull = true)
    (left : ∃ member ∈ splitOn '|' type.toList, member ≠ nullMember) :
    (parameterText constructor p = markedText type p value ∧
      ¬ ['?', '?'] <+: (parameterText constructor p).toList) ↔
        LosesOnlyNull type p.name := by
  obtain ⟨member, inside, other⟩ := left
  have stays : member ∈ kept (splitOn '|' type.toList) := by
    simpa [kept, inside] using other
  obtain ⟨first, others, members⟩ :=
    List.exists_cons_of_ne_nil (List.ne_nil_of_mem stays)
  have text := toList_parameterText typed hasDefault nullable
  by_cases mark : first.head? = some '?'
  · -- the mark of the type stays after the one of the parameter
    obtain ⟨tail, rfl⟩ : ∃ tail, first = '?' :: tail := by
      cases first with
      | nil => cases mark
      | cons c tail =>
          cases mark
          exact ⟨tail, rfl⟩
    obtain ⟨rest, marked⟩ := exists_cleared_mark members
    refine iff_of_false (fun right => right.2 ?_) fun loses => ?_
    · rw [text, marked]
      simp
    · exact loses.noMark _ (by rw [members]; rfl) rfl
  · have plain := toList_markedText type p value
    rw [unmarked_eq_self members mark, members] at plain
    have clear : ¬ ['?', '?'] <+: (markedText type p value).toList := by
      rw [plain, List.cons_prefix_cons, List.append_assoc, List.cons_append]
      exact fun marked => not_mark_prefix_union mark others _ marked.2
    constructor
    · rintro ⟨same, -⟩
      have whole := congrArg String.toList same
      rw [text, plain] at whole
      have inner := List.append_cancel_right (List.cons.inj whole).2
      -- neither part can be longer than it should be, so both are right
      have lengths := congrArg List.length inner
      have typeLength := cleared_type_length_le members
      have nameLength := cleared_length_le p.name.toList
      simp only [List.length_append, List.length_cons] at lengths
      obtain ⟨sameType, sameRest⟩ := List.append_inj inner (by omega)
      have sameName := List.append_cancel_left (List.cons.inj sameRest).2
      obtain ⟨starts, ends⟩ := (cleared_type_eq_iff members).mp sameType
      refine ⟨?_, ?_, ?_, cleared_eq_self_iff.mp sameName⟩
      · rw [members]
        rintro _ ⟨⟩
        exact mark
      · rw [members]
        exact starts
      · rw [members]
        exact ends
    · rintro ⟨-, starts, ends, name⟩
      rw [members] at starts ends
      have same : parameterText constructor p = markedText type p value := by
        rw [← String.toList_inj, text, plain, cleared_eq_self_iff.mpr name,
          (cleared_type_eq_iff members).mpr ⟨starts, ends⟩]
      rw [same]
      exact ⟨rfl, clear⟩

/-- A constructor with a tag that has a member null. -/
def documentedConstructor : Method where
  name := constructorMethod
  doc := some "/** @param string|null $dni */"
  parameters := [{ name := "dni", defaultValue := some .null }]

/-- The member null of the tag goes, and nothing else. -/
theorem parameterText_eq_markedText_iff_documented :
    parameterText documentedConstructor
        { name := "dni", defaultValue := some .null } = "?string $dni = NULL" ∧
      LosesOnlyNull "string|null" "dni" := by
  have typed : parameterType? documentedConstructor
      { name := "dni", defaultValue := some .null } = some "string|null" := by
    decide +kernel
  refine ⟨by decide +kernel, ?_⟩
  refine (parameterText_eq_markedText_iff typed rfl rfl ?_).mp ?_
  · exact ⟨"string".toList, by decide +kernel, by decide +kernel⟩
  · decide +kernel

/-- A tag with a mark of its own, and a type with a name that starts like null. -/
def nullLookalikes : String :=
  "<?php class A\x7b/** @param ?int $rate */" ++
    "function __construct($rate=null,int|nullable $id=null);\x7d"

/-- The mark stands twice, and the name of the type loses its first letters. -/
theorem parameterText_nullLookalikes :
    (SourceFile.read nullLookalikes none).map
        (·.flatMap fun d => d.methods.flatMap fun m =>
          m.parameters.map fun p => (parameterType? m p, parameterText m p)) =
      .ok [(some "?int", "??int $rate = NULL"),
        (some "int|nullable", "?intable $id = NULL")] ∧
      markedText "?int" { name := "rate" } .null = "?int $rate = NULL" ∧
      markedText "int|nullable" { name := "id" } .null =
        "?int|nullable $id = NULL" := by
  decide +kernel

end Parameters

end BusReference.Definition
