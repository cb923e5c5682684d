import BusReference.Proofs.Php.Body.Types
import BusReference.Proofs.Php.Signature.PlainTokens

/-!
# Doc comments in parameter lists

Doc comments are no part of the meaning of a parameter list.  The reader passes
over them nearly everywhere, but it decides from the next token whether an
ampersand passes by reference and whether a variable has a default value, and
it takes a doc comment for the start of the type, after which no modifiers are
expected.  The main statement is that the parameters with the comments are
those without them exactly if there is none of these places.
-/

namespace BusReference.Php

open Attribute (groupPairs)
open Body
  (BodyTokens MemberTokens MethodTokens TypeTokens declaredMethods)
open Grammar (Nested)
open SourceFile (Origin Pending readDeclaration)

namespace Signature

/-! ## What stands before a variable -/

/-- A piece of a parameter before its variable. -/
inductive HeadPiece where
  | attributes (content : Nested groupPairs)
  | token
      (t : { t : Token // t ≠ .attributeOpen ∧ ∀ name, t ≠ .variable name })

namespace HeadPiece

def tokens : HeadPiece → List Token
  | attributes content => .attributeOpen :: (content.1 ++ [.punct ']'])
  | token t => [t.1]

/-- The dots of a variadic parameter. -/
def isDots : HeadPiece → Bool
  | attributes _ => false
  | token t => t.1 == .ellipsis

/-- The piece without doc comments, unless it is one. -/
def plain? : HeadPiece → Option HeadPiece
  | attributes content =>
      some (.attributes ⟨withoutDocs content.1,
        content.2.withoutDocs (by decide)⟩)
  | token t => if t.1.isDocComment then none else some (.token t)

end HeadPiece

def plainHead (head : List HeadPiece) : List HeadPiece :=
  head.filterMap (·.plain?)

section Plain

variable
    {t : { t : Token // t ≠ .attributeOpen ∧ ∀ name, t ≠ .variable name }}
    {later : List HeadPiece}

theorem plainHead_docComment (isDoc : t.1.isDocComment = true) :
    plainHead (.token t :: later) = plainHead later :=
  List.filterMap_cons_none (by rw [HeadPiece.plain?, if_pos isDoc])

theorem plainHead_token (kept : t.1.isDocComment = false) :
    plainHead (.token t :: later) = .token t :: plainHead later :=
  List.filterMap_cons_some (by rw [HeadPiece.plain?, kept]; rfl)

theorem any_isDots_plainHead (head : List HeadPiece) :
    (plainHead head).any (·.isDots) = head.any (·.isDots) := by
  induction head with
  | nil => rfl
  | cons piece head ih =>
      rw [List.any_cons, ← ih]
      cases piece with
      | attributes content => rfl
      | token t =>
          cases isDoc : t.1.isDocComment with
          | true =>
              obtain ⟨text, same⟩ := exists_of_isDocComment isDoc
              rw [plainHead_docComment isDoc, HeadPiece.isDots, same]
              rfl
          | false => rw [plainHead_token isDoc, List.any_cons]

theorem withoutDocs_flatMap_tokens (head : List HeadPiece) :
    withoutDocs (head.flatMap (·.tokens)) =
      (plainHead head).flatMap (·.tokens) := by
  induction head with
  | nil => rfl
  | cons piece head ih =>
      rw [List.flatMap_cons, withoutDocs_append, ih]
      cases piece with
      | attributes content =>
          rw [HeadPiece.tokens, withoutDocs_cons rfl, withoutDocs_append]
          rfl
      | token t =>
          cases isDoc : t.1.isDocComment with
          | true =>
              obtain ⟨text, same⟩ := exists_of_isDocComment isDoc
              rw [plainHead_docComment isDoc, HeadPiece.tokens, same]
              rfl
          | false =>
              rw [plainHead_token isDoc, HeadPiece.tokens,
                withoutDocs_cons isDoc]
              rfl

end Plain

/-- The variable follows right away, or the dots before it do. -/
def precedesVariable (head : List HeadPiece) : Bool :=
  head.head?.all (·.isDots)

/-- The token is no part of the type, of which `typed` tells whether any token
was read. -/
def isPassed (typed : Bool) (t : Token) (later : List HeadPiece) : Bool :=
  t == .ellipsis || (t == .punct '&' && precedesVariable later) ||
    (!typed && isModifier t)

/-- The tokens that the reader takes for those of the type. -/
def typeTokens (typed : Bool) : List HeadPiece → List Token
  | [] => []
  | .attributes _ :: later => typeTokens typed later
  | .token t :: later =>
      if isPassed typed t.1 later then typeTokens typed later
      else t.1 :: typeTokens true later

theorem startsVariable_head
    (head : List HeadPiece) (name : String) (rest : List Token) :
    startsVariable
        (head.flatMap (·.tokens) ++ .variable name :: rest) =
      precedesVariable head := by
  cases head with
  | nil => rfl
  | cons piece head =>
      cases piece with
      | attributes content => rfl
      | token t =>
          obtain ⟨t, noGroup, noVariable⟩ := t
          cases t with
          | «variable» name => exact absurd rfl (noVariable name)
          | _ => rfl

theorem readParameterAfter_token
    {scope : Scope} {before : List Token} {variadic : Bool} {t : Token}
    (plain : t ≠ .attributeOpen ∧ ∀ name, t ≠ .variable name)
    (notDots : t ≠ .ellipsis) (rest : List Token) :
    readParameterAfter scope before variadic (t :: rest) =
      if (t = .punct '&' ∧ startsVariable rest) ∨
          (before.isEmpty && isModifier t) = true then
        readParameterAfter scope before variadic rest
      else readParameterAfter scope (t :: before) variadic rest := by
  rw [readParameterAfter]
  · split
    · rename_i mark
      rw [if_pos (.inl mark)]
    · rename_i noMark
      split
      · rename_i modifier
        rw [if_pos (.inr modifier)]
      · rename_i noModifier
        rw [if_neg (not_or.mpr ⟨noMark, noModifier⟩)]
  · exact plain.1
  · exact notDots
  · exact plain.2

theorem readParameterAfter_head
    (scope : Scope) (head : List HeadPiece) (before : List Token)
    (variadic : Bool) (name : String) (rest : List Token) :
    readParameterAfter scope before variadic
        (head.flatMap (·.tokens) ++ .variable name :: rest) =
      some (parameter scope
        (before.reverse ++ typeTokens (!before.isEmpty) head)
        (variadic || head.any (·.isDots)) name (readDefault rest)) := by
  induction head generalizing before variadic with
  | nil =>
      rw [List.flatMap_nil, List.nil_append, readParameterAfter, typeTokens,
        List.append_nil, List.any_nil, Bool.or_false]
  | cons piece head ih =>
      cases piece with
      | attributes content =>
          rw [List.flatMap_cons, HeadPiece.tokens, List.cons_append,
            List.cons_append, readParameterAfter, List.append_assoc,
            List.append_assoc, List.singleton_append,
            Attribute.skipGroup_group content.2, ih]
          rfl
      | token t =>
          obtain ⟨t, plain⟩ := t
          rw [List.flatMap_cons, HeadPiece.tokens, List.cons_append,
            List.cons_append, List.nil_append]
          by_cases dots : t = .ellipsis
          · subst dots
            rw [readParameterAfter, ih]
            simp [typeTokens, isPassed, HeadPiece.isDots]
          · have noDots : (t == .ellipsis) = false :=
              beq_eq_false_iff_ne.mpr dots
            have passes : isPassed (!before.isEmpty) t head = true ↔
                (t = .punct '&' ∧ startsVariable
                  (head.flatMap (·.tokens) ++ .variable name :: rest)) ∨
                (before.isEmpty && isModifier t) = true := by
              rw [startsVariable_head]
              simp [isPassed, noDots]
            rw [readParameterAfter_token plain dots, typeTokens]
            by_cases passed : isPassed (!before.isEmpty) t head = true
            · rw [if_pos (passes.mp passed), if_pos passed, ih]
              simp [HeadPiece.isDots, noDots]
            · rw [if_neg (mt passes.mpr passed), if_neg passed, ih]
              simp [HeadPiece.isDots, noDots]

/-! ## Places that doc comments disturb -/

/-- How much of the type was read: nothing, at most doc comments, or a part. -/
inductive Stage where
  | start
  | commented
  | typed

namespace Stage

/-- A token of the type was read, doc comments apart. -/
def isTyped : Stage → Bool
  | typed => true
  | _ => false

/-- A token of the type or a doc comment was read. -/
def isStarted : Stage → Bool
  | start => false
  | _ => true

def comment : Stage → Stage
  | typed => typed
  | _ => commented

/-- What is reached after a piece that others follow. -/
def next (stage : Stage) (later : List HeadPiece) : HeadPiece → Stage
  | .attributes _ => stage
  | .token t =>
      if t.1.isDocComment then stage.comment
      else if isPassed stage.isTyped t.1 later then stage
      else typed

end Stage

/--
A modifier after a doc comment is taken for a part of the type, and so is an
ampersand if a doc comment stands between it and the variable or the dots.
-/
inductive Disturbed : Stage → List HeadPiece → Prop
  | modifier
      {t : { t : Token // t ≠ .attributeOpen ∧ ∀ name, t ≠ .variable name }}
      {later : List HeadPiece} (modifier : isModifier t.1 = true) :
      Disturbed .commented (.token t :: later)
  | reference
      {t : { t : Token // t ≠ .attributeOpen ∧ ∀ name, t ≠ .variable name }}
      {stage : Stage} {later : List HeadPiece}
      (mark : t.1 = .punct '&') (hidden : precedesVariable later = false)
      (marked : precedesVariable (plainHead later) = true) :
      Disturbed stage (.token t :: later)
  | later
      {stage : Stage} {piece : HeadPiece} {later : List HeadPiece}
      (disturbed : Disturbed (stage.next later piece) later) :
      Disturbed stage (piece :: later)

section Comparing

variable
    {t : { t : Token // t ≠ .attributeOpen ∧ ∀ name, t ≠ .variable name }}
    {stage : Stage} {piece : HeadPiece} {later : List HeadPiece}

theorem disturbed_cons_iff
    (calm : ∀ t, piece = .token t →
      ¬ (stage = .commented ∧ isModifier t.1 = true) ∧
      ¬ (t.1 = .punct '&' ∧ precedesVariable later = false ∧
        precedesVariable (plainHead later) = true)) :
    Disturbed stage (piece :: later) ↔
      Disturbed (stage.next later piece) later := by
  constructor
  · intro disturbed
    cases disturbed with
    | modifier modifier => exact absurd ⟨rfl, modifier⟩ (calm _ rfl).1
    | reference mark hidden marked =>
        exact absurd ⟨mark, hidden, marked⟩ (calm _ rfl).2
    | later disturbed => exact disturbed
  · exact .later

theorem precedesVariable_plainHead (marked : precedesVariable later = true) :
    precedesVariable (plainHead later) = true := by
  cases later with
  | nil => rfl
  | cons piece later =>
      cases piece with
      | attributes content => cases marked
      | token t =>
          have dots : t.1 = .ellipsis := eq_of_beq marked
          have kept : t.1.isDocComment = false := by rw [dots]; rfl
          rw [plainHead_token kept]
          exact marked

/-- What the tokens of a type are, with and without the doc comments. -/
def Compares (scope : Scope) (stage : Stage) (head : List HeadPiece) : Prop :=
  (Disturbed stage head ∧
      typeMarks scope (typeTokens stage.isTyped (plainHead head)) <
        typeMarks scope (typeTokens stage.isStarted head)) ∨
    (¬ Disturbed stage head ∧
      typeTokens stage.isTyped (plainHead head) =
        withoutDocs (typeTokens stage.isStarted head))

theorem typeMarks_withoutDocs (scope : Scope) (ts : List Token) :
    typeMarks scope (withoutDocs ts) = typeMarks scope ts := by
  rw [← marks_readType, readType_withoutDocs, marks_readType]

theorem Compares.le
    {scope : Scope} {head : List HeadPiece}
    (compares : Compares scope stage head) :
    typeMarks scope (typeTokens stage.isTyped (plainHead head)) ≤
      typeMarks scope (typeTokens stage.isStarted head) := by
  rcases compares with ⟨-, fewer⟩ | ⟨-, same⟩
  · exact fewer.le
  · rw [same, typeMarks_withoutDocs]

/-- Nothing is disturbed by a piece that adds as much with doc comments as
without them. -/
theorem Compares.cons
    {scope : Scope} (added : List Token)
    (compares : Compares scope (stage.next later piece) later)
    (calm : ∀ t, piece = .token t →
      ¬ (stage = .commented ∧ isModifier t.1 = true) ∧
      ¬ (t.1 = .punct '&' ∧ precedesVariable later = false ∧
        precedesVariable (plainHead later) = true))
    (read : typeTokens stage.isStarted (piece :: later) =
      added ++ typeTokens (stage.next later piece).isStarted later)
    (readPlain : typeTokens stage.isTyped (plainHead (piece :: later)) =
      withoutDocs added ++
        typeTokens (stage.next later piece).isTyped (plainHead later)) :
    Compares scope stage (piece :: later) := by
  rw [Compares, disturbed_cons_iff calm, read, readPlain, typeMarks_append,
    typeMarks_append, typeMarks_withoutDocs, withoutDocs_append,
    Nat.add_lt_add_iff_left, List.append_right_inj]
  exact compares

section Passing

variable {scope : Scope}

theorem Compares.attributes
    {content : Nested groupPairs} (compares : Compares scope stage later) :
    Compares scope stage (.attributes content :: later) :=
  Compares.cons [] compares nofun rfl rfl

theorem Compares.docComment
    (isDoc : t.1.isDocComment = true)
    (compares : Compares scope stage.comment later) :
    Compares scope stage (.token t :: later) := by
  obtain ⟨text, same⟩ := exists_of_isDocComment isDoc
  have noModifier : ∀ text, isModifier (.docComment text) = false :=
    fun _ => rfl
  have next : stage.next later (.token t) = stage.comment := by
    rw [Stage.next, if_pos isDoc]
  have kept : isPassed stage.isStarted t.1 later = false := by
    rw [isPassed, same, noModifier, Bool.and_false]
    rfl
  refine Compares.cons [t.1] (by rwa [next]) ?_ ?_ ?_
  · intro u is
    cases is
    rw [same, noModifier]
    exact ⟨nofun, nofun⟩
  · rw [typeTokens, kept, next]
    cases stage <;> rfl
  · rw [plainHead_docComment isDoc, same, next]
    cases stage <;> rfl

theorem isPassed_iff {typed : Bool} :
    isPassed typed t.1 later = true ↔
      t.1 = .ellipsis ∨ (t.1 = .punct '&' ∧ precedesVariable later = true) ∨
        (typed = false ∧ isModifier t.1 = true) := by
  simp [isPassed, or_assoc]

theorem isPassed_plainHead {typed started : Bool}
    (less : typed = true → started = true)
    (passed : isPassed started t.1 later = true) :
    isPassed typed t.1 (plainHead later) = true := by
  rw [isPassed_iff] at passed ⊢
  rcases passed with dots | ⟨mark, marked⟩ | ⟨fresh, modifier⟩
  · exact .inl dots
  · exact .inr (.inl ⟨mark, precedesVariable_plainHead marked⟩)
  · refine .inr (.inr ⟨?_, modifier⟩)
    rw [← Bool.not_eq_true]
    intro isTyped
    rw [less isTyped] at fresh
    cases fresh

theorem Stage.isStarted_of_isTyped (isTyped : stage.isTyped = true) :
    stage.isStarted = true := by
  cases stage with
  | typed => rfl
  | _ => cases isTyped

/-- Marks are no modifiers. -/
theorem not_isModifier_of_mark
    (mark : t.1 = .ellipsis ∨ t.1 = .punct '&') : isModifier t.1 = false := by
  rcases mark with same | same <;> rw [same] <;> rfl

/-- A token that is no part of the type, whether or not there are comments. -/
theorem Compares.passed
    (kept : t.1.isDocComment = false)
    (passed : isPassed stage.isStarted t.1 later = true)
    (compares : Compares scope stage later) :
    Compares scope stage (.token t :: later) := by
  have plain := isPassed_plainHead Stage.isStarted_of_isTyped passed
  have next : stage.next later (.token t) = stage := by
    rw [Stage.next, kept, if_neg Bool.false_ne_true]
    split
    · rfl
    · rename_i notPassed
      rw [isPassed_iff] at passed notPassed
      rcases passed with dots | marked | ⟨fresh, modifier⟩
      · exact absurd (.inl dots) notPassed
      · exact absurd (.inr (.inl marked)) notPassed
      · cases stage with
        | start => exact absurd (.inr (.inr ⟨rfl, modifier⟩)) notPassed
        | _ => cases fresh
  refine Compares.cons [] (by rwa [next]) ?_ ?_ ?_
  · intro u is
    cases is
    rw [isPassed_iff] at passed
    rcases passed with dots | ⟨mark, marked⟩ | ⟨fresh, modifier⟩
    · rw [not_isModifier_of_mark (.inl dots), dots]
      exact ⟨nofun, nofun⟩
    · rw [not_isModifier_of_mark (.inr mark), marked]
      exact ⟨nofun, nofun⟩
    · refine ⟨?_, ?_⟩
      · rintro ⟨rfl, -⟩
        cases fresh
      · rintro ⟨mark, -, -⟩
        rw [not_isModifier_of_mark (.inr mark)] at modifier
        cases modifier
  · rw [typeTokens, if_pos passed, next]
    rfl
  · rw [plainHead_token kept, typeTokens, if_pos plain, next]
    rfl

/-- A token that only doc comments bring into the type. -/
theorem Compares.extra
    (noAlias : ∀ entry ∈ scope.imports, isModifier (.name entry.1) = false)
    (kept : t.1.isDocComment = false)
    (read : ¬ isPassed stage.isStarted t.1 later = true)
    (passed : isPassed stage.isTyped t.1 (plainHead later) = true)
    (compares : Compares scope stage.comment later) :
    Compares scope stage (.token t :: later) := by
  have fewer := compares.le
  have plain : stage.comment.isTyped = stage.isTyped := by cases stage <;> rfl
  have started : stage.comment.isStarted = true := by cases stage <;> rfl
  rw [plain, started] at fewer
  have adds : ∀ disturbed : Disturbed stage (.token t :: later),
      0 < marks (memberText scope t.1) →
        Compares scope stage (.token t :: later) := by
    intro disturbed positive
    refine .inl ⟨disturbed, ?_⟩
    rw [plainHead_token kept, typeTokens, if_pos passed, typeTokens,
      if_neg read, typeMarks_cons]
    omega
  rw [isPassed_iff] at read passed
  rcases passed with dots | ⟨mark, marked⟩ | ⟨fresh, modifier⟩
  · exact absurd (.inl dots) read
  · have hidden : precedesVariable later = false := by
      rw [← Bool.not_eq_true]
      exact fun marked => read (.inr (.inl ⟨mark, marked⟩))
    refine adds (.reference mark hidden marked) ?_
    rw [mark]
    show 0 < marks "&"
    decide
  · obtain ⟨text, same⟩ := exists_of_isModifier modifier
    refine adds ?_ ?_
    · cases stage with
      | start => exact absurd (.inr (.inr ⟨rfl, modifier⟩)) read
      | commented => exact .modifier modifier
      | typed => cases fresh
    · rw [same] at modifier ⊢
      exact marks_modifier noAlias modifier

/-- A token of the type, whether or not there are comments. -/
theorem Compares.typed
    (kept : t.1.isDocComment = false)
    (read : ¬ isPassed stage.isTyped t.1 (plainHead later) = true)
    (compares : Compares scope .typed later) :
    Compares scope stage (.token t :: later) := by
  have documented : ¬ isPassed stage.isStarted t.1 later = true :=
    mt (isPassed_plainHead Stage.isStarted_of_isTyped) read
  have next : stage.next later (.token t) = .typed := by
    rw [Stage.next, kept, if_neg Bool.false_ne_true,
      if_neg (mt (isPassed_plainHead id) read)]
  refine Compares.cons [t.1] (by rwa [next]) ?_ ?_ ?_
  · intro u is
    cases is
    rw [isPassed_iff] at read
    refine ⟨?_, ?_⟩
    · rintro ⟨rfl, modifier⟩
      exact read (.inr (.inr ⟨rfl, modifier⟩))
    · rintro ⟨mark, -, marked⟩
      exact read (.inr (.inl ⟨mark, marked⟩))
  · rw [typeTokens, if_neg documented, next]
    rfl
  · rw [plainHead_token kept, typeTokens, if_neg read, next,
      withoutDocs_cons kept]
    rfl

end Passing

/-- Doc comments bring marks into a type exactly if they disturb. -/
theorem compares
    {scope : Scope}
    (noAlias : ∀ entry ∈ scope.imports, isModifier (.name entry.1) = false)
    (stage : Stage) (head : List HeadPiece) :
    Compares scope stage head := by
  induction head generalizing stage with
  | nil => exact .inr ⟨nofun, rfl⟩
  | cons piece later ih =>
      cases piece with
      | attributes content => exact (ih stage).attributes
      | token t =>
          cases isDoc : t.1.isDocComment with
          | true => exact (ih stage.comment).docComment isDoc
          | false =>
              by_cases passed : isPassed stage.isStarted t.1 later = true
              · exact (ih stage).passed isDoc passed
              · by_cases plain :
                    isPassed stage.isTyped t.1 (plainHead later) = true
                · exact (ih stage.comment).extra noAlias isDoc passed plain
                · exact (ih .typed).typed isDoc plain

end Comparing

/-! ## Parameters -/

/-- A doc comment comes between the variable and the sign of its default. -/
def HidesDefault (rest : List Token) : Prop :=
  (∃ text, rest.head? = some (.docComment text)) ∧
    (withoutDocs rest).head? = some (.punct '=')

/-- A parameter of which a doc comment is not passed over. -/
inductive DisturbedItem : List Token → Prop
  | head {head : List HeadPiece} {name : String} {rest : List Token}
      (disturbed : Disturbed .start head) :
      DisturbedItem (head.flatMap (·.tokens) ++ .variable name :: rest)
  | initializer {head : List HeadPiece} {name : String} {rest : List Token}
      (hidden : HidesDefault rest) :
      DisturbedItem (head.flatMap (·.tokens) ++ .variable name :: rest)

section Parameters

variable {scope : Scope}

theorem readDefault_eq_none_iff {rest : List Token} :
    readDefault rest = none ↔ rest.head? ≠ some (.punct '=') := by
  unfold readDefault
  split
  · simp
  · rename_i other
    refine iff_of_true rfl fun same => ?_
    obtain ⟨value, rfl⟩ := List.head?_eq_some_iff.mp same
    exact other value rfl

theorem readDefault_withoutDocs_iff (rest : List Token) :
    readDefault rest = readDefault (withoutDocs rest) ↔
      ¬ HidesDefault rest := by
  cases rest with
  | nil => exact iff_of_true rfl fun hides => nomatch hides.2
  | cons t rest =>
      cases isDoc : t.isDocComment with
      | true =>
          obtain ⟨text, rfl⟩ := exists_of_isDocComment isDoc
          have nothing : readDefault (.docComment text :: rest) = none :=
            readDefault_eq_none_iff.mpr nofun
          rw [nothing, eq_comm, readDefault_eq_none_iff, HidesDefault,
            not_and, ne_eq]
          exact ⟨fun other _ => other, fun hides => hides ⟨text, rfl⟩⟩
      | false =>
          refine iff_of_true ?_ ?_
          · rw [withoutDocs_cons isDoc]
            by_cases assigns : t = .punct '='
            · rw [assigns, readDefault, readDefault, Token.join_withoutDocs]
            · have nothing : ∀ us, readDefault (t :: us) = none := fun us =>
                readDefault_eq_none_iff.mpr (by simpa using assigns)
              rw [nothing, nothing]
          · rintro ⟨⟨text, same⟩, -⟩
            rw [Option.some.inj same] at isDoc
            cases isDoc

theorem readParameterAfter_eq_none
    {t : Token} {ts : List Token}
    (plain : t ≠ .attributeOpen ∧ ∀ name, t ≠ .variable name)
    (nothing : ∀ before variadic,
      readParameterAfter scope before variadic ts = none)
    (before : List Token) (variadic : Bool) :
    readParameterAfter scope before variadic (t :: ts) = none := by
  by_cases dots : t = .ellipsis
  · rw [dots, readParameterAfter]
    exact nothing before true
  · rw [readParameterAfter_token plain dots, nothing, nothing, ite_self]

/-- An item has a variable after some pieces, or it is no parameter. -/
theorem exists_head_or_none (scope : Scope) (item : List Token) :
    (∃ (head : List HeadPiece) (name : String) (rest : List Token),
      item = head.flatMap (·.tokens) ++ .variable name :: rest) ∨
    ∀ (before : List Token) (variadic : Bool),
      readParameterAfter scope before variadic item = none ∧
        readParameterAfter scope before variadic (withoutDocs item) = none := by
  induction size : item.length using Nat.strong_induction_on
    generalizing item with
  | _ size ih =>
  subst size
  cases item with
  | nil =>
      right
      intro before variadic
      rw [withoutDocs_nil, readParameterAfter]
      exact ⟨rfl, rfl⟩
  | cons t ts =>
      by_cases opens : t = .attributeOpen
      · subst opens
        have shorter := Attribute.skipGroup_length_le 0 ts
        rcases ih _ (Nat.lt_succ_of_le shorter) (Attribute.skipGroup 0 ts) rfl with
          ⟨head, name, rest, split⟩ | nothing
        · have left : Attribute.skipGroup 0 ts ≠ [] := by
            rw [split]
            simp
          obtain ⟨content, inside, group⟩ :=
            Attribute.exists_group_of_skipGroup left
          refine .inl ⟨.attributes ⟨content, inside⟩ :: head, name, rest, ?_⟩
          rw [group, split]
          simp [HeadPiece.tokens]
        · right
          intro before variadic
          rw [withoutDocs_cons rfl, readParameterAfter, readParameterAfter,
            Attribute.skipGroup_withoutDocs]
          exact nothing before variadic
      · by_cases isVariable : ∃ name, t = .variable name
        · obtain ⟨name, rfl⟩ := isVariable
          exact .inl ⟨[], name, ts, rfl⟩
        · have plain : t ≠ .attributeOpen ∧ ∀ name, t ≠ .variable name :=
            ⟨opens, fun name same => isVariable ⟨name, same⟩⟩
          rcases ih _ (Nat.lt_succ_self _) ts rfl with
            ⟨head, name, rest, rfl⟩ | nothing
          · exact .inl ⟨.token ⟨t, plain⟩ :: head, name, rest, rfl⟩
          · right
            have step : ∀ {us : List Token},
                (∀ before variadic,
                  readParameterAfter scope before variadic us = none) →
                ∀ before variadic,
                  readParameterAfter scope before variadic (t :: us) = none :=
              fun nothing before variadic =>
                readParameterAfter_eq_none plain nothing before variadic
            intro before variadic
            refine ⟨step (fun b v => (nothing b v).1) before variadic, ?_⟩
            cases isDoc : t.isDocComment with
            | true =>
                obtain ⟨text, rfl⟩ := exists_of_isDocComment isDoc
                exact (nothing before variadic).2
            | false =>
                rw [withoutDocs_cons isDoc]
                exact step (fun b v => (nothing b v).2) before variadic

theorem declaredType_parameter
    (ts : List Token) (variadic : Bool) (name : String)
    (value : Option DefaultValue) :
    (parameter scope ts variadic name value).declaredType =
      (readType scope ts).map (·.1) := by
  unfold parameter
  cases readType scope ts <;> cases value <;> rfl

theorem defaultValue_parameter
    (ts : List Token) (variadic : Bool) (name : String)
    (value : Option DefaultValue) :
    (parameter scope ts variadic name value).defaultValue = value := by
  unfold parameter
  cases readType scope ts <;> cases value <;> rfl

/-- A parameter is the same with its doc comments exactly if all of them are
passed over. -/
theorem readParameter_head_iff
    (noAlias : ∀ entry ∈ scope.imports, isModifier (.name entry.1) = false)
    (head : List HeadPiece) (name : String) (rest : List Token) :
    readParameter scope (head.flatMap (·.tokens) ++ .variable name :: rest) =
        readParameter scope (withoutDocs
          (head.flatMap (·.tokens) ++ .variable name :: rest)) ↔
      ¬ Disturbed .start head ∧ ¬ HidesDefault rest := by
  have same : parameter scope (typeTokens false head)
        (head.any (·.isDots)) name (readDefault rest) =
      parameter scope (typeTokens false (plainHead head))
        (head.any (·.isDots)) name (readDefault (withoutDocs rest)) ↔
      ¬ Disturbed .start head ∧ ¬ HidesDefault rest := by
    rw [← readDefault_withoutDocs_iff]
    rcases compares noAlias .start head with ⟨disturbed, more⟩ | ⟨calm, kept⟩
    · refine iff_of_false (fun same => ?_) fun both => both.1 disturbed
      have types := congrArg Parameter.declaredType same
      rw [declaredType_parameter, declaredType_parameter] at types
      have counted := congrArg (fun type => (type.map marks).getD 0) types
      simp only [Option.map_map, Function.comp_def, marks_readType] at counted
      exact more.ne counted.symm
    · have type : readType scope (typeTokens false (plainHead head)) =
          readType scope (typeTokens false head) :=
        (congrArg (readType scope) kept).trans (readType_withoutDocs scope _)
      constructor
      · intro same
        have defaults := congrArg Parameter.defaultValue same
        rw [defaultValue_parameter, defaultValue_parameter] at defaults
        exact ⟨calm, defaults⟩
      · rintro ⟨-, defaults⟩
        rw [defaults]
        unfold parameter
        rw [type]
  rw [withoutDocs_append, withoutDocs_cons rfl, withoutDocs_flatMap_tokens,
    readParameter, readParameter, readParameterAfter_head,
    readParameterAfter_head, any_isDots_plainHead, Option.some_inj]
  exact same

/-- The same for all items of a list. -/
theorem readParameter_withoutDocs_iff
    (noAlias : ∀ entry ∈ scope.imports, isModifier (.name entry.1) = false)
    (item : List Token) :
    readParameter scope item = readParameter scope (withoutDocs item) ↔
      ¬ DisturbedItem item := by
  constructor
  · rintro same (⟨disturbed⟩ | ⟨hidden⟩)
    · exact ((readParameter_head_iff noAlias _ _ _).mp same).1 disturbed
    · exact ((readParameter_head_iff noAlias _ _ _).mp same).2 hidden
  · intro calm
    rcases exists_head_or_none scope item with
      ⟨head, name, rest, rfl⟩ | nothing
    · exact (readParameter_head_iff noAlias head name rest).mpr
        ⟨fun disturbed => calm (.head disturbed),
          fun hidden => calm (.initializer hidden)⟩
    · obtain ⟨first, second⟩ := nothing [] false
      exact first.trans second.symm

/-- Whether an item is a parameter does not depend on its doc comments. -/
theorem isSome_readParameter_withoutDocs (item : List Token) :
    (readParameter scope (withoutDocs item)).isSome =
      (readParameter scope item).isSome := by
  rcases exists_head_or_none scope item with
    ⟨head, name, rest, rfl⟩ | nothing
  · rw [withoutDocs_append, withoutDocs_cons rfl, withoutDocs_flatMap_tokens,
      readParameter, readParameter, readParameterAfter_head,
      readParameterAfter_head]
    rfl
  · obtain ⟨first, second⟩ := nothing [] false
    rw [readParameter, readParameter, first, second]

theorem filterMap_eq_iff
    {α β : Type} {f g : α → Option β} {as : List α}
    (alike : ∀ a, (g a).isSome = (f a).isSome) :
    as.filterMap f = as.filterMap g ↔ ∀ a ∈ as, f a = g a := by
  induction as with
  | nil => simp
  | cons a as ih =>
      have here := alike a
      rw [List.filterMap_cons, List.filterMap_cons, List.forall_mem_cons, ← ih]
      cases first : f a with
      | none =>
          cases second : g a with
          | none => simp
          | some b => simp [first, second] at here
      | some b =>
          cases second : g a with
          | none => simp [first, second] at here
          | some c => simp

/-- The parameters of a list are the same with its doc comments exactly if all
of them are passed over. -/
theorem readParameters_withoutDocs_iff
    (noAlias : ∀ entry ∈ scope.imports, isModifier (.name entry.1) = false)
    (ts : List Token) :
    readParameters scope ts = readParameters scope (withoutDocs ts) ↔
      ∀ item ∈ listItems 0 ts, ¬ DisturbedItem item := by
  have items : readParameters scope (withoutDocs ts) =
      (listItems 0 ts).filterMap fun item =>
        readParameter scope (withoutDocs item) := by
    rw [readParameters, listItems_withoutDocs, List.filterMap_map]
    rfl
  rw [items, readParameters,
    filterMap_eq_iff isSome_readParameter_withoutDocs]
  exact forall₂_congr fun item _ => readParameter_withoutDocs_iff noAlias item

end Parameters

/-! ## Methods -/

/-- The method without the doc comments between its parentheses. -/
def plainParameters (m : MethodTokens) : MethodTokens :=
  { m with
    parameters := ⟨withoutDocs m.parameters.1,
      m.parameters.2.withoutDocs (by decide)⟩ }

def plainMember : MemberTokens → MemberTokens
  | .method lead keyword m => .method lead keyword (plainParameters m)
  | member => member

/-- The type without the doc comments in the parameter lists of its methods. -/
def plainType (written : TypeTokens) : TypeTokens where
  header := written.header
  body :=
    { written.body with members := written.body.members.map plainMember }

/-- The items of the parameter list, if the member is a method. -/
def parameterItems : MemberTokens → List (List Token)
  | .method _ _ m => listItems 0 m.parameters.1
  | _ => []

section Methods

variable {scope : Scope}

theorem declared_plainParameters_iff
    (noAlias : ∀ entry ∈ scope.imports, isModifier (.name entry.1) = false)
    (m : MethodTokens) (doc : Option String) :
    m.declared scope doc = (plainParameters m).declared scope doc ↔
      ∀ item ∈ listItems 0 m.parameters.1, ¬ DisturbedItem item := by
  rw [← readParameters_withoutDocs_iff noAlias]
  simp [MethodTokens.declared, plainParameters]

theorem docAfter_plainMember (doc : Option String) (member : MemberTokens) :
    (plainMember member).docAfter doc = member.docAfter doc := by
  cases member <;> rfl

theorem declaredMethods_plainMember_iff
    (noAlias : ∀ entry ∈ scope.imports, isModifier (.name entry.1) = false)
    (members : List MemberTokens) (doc : Option String) :
    declaredMethods scope doc members =
        declaredMethods scope doc (members.map plainMember) ↔
      ∀ member ∈ members, ∀ item ∈ parameterItems member,
        ¬ DisturbedItem item := by
  induction members generalizing doc with
  | nil => simp [declaredMethods]
  | cons member members ih =>
      rw [List.map_cons, declaredMethods, declaredMethods,
        List.forall_mem_cons, docAfter_plainMember,
        ← ih (member.docAfter doc)]
      cases member with
      | method lead keyword m =>
          rw [parameterItems, ← declared_plainParameters_iff noAlias]
          exact List.cons_eq_cons
      | _ => simp [plainMember, MemberTokens.declared, parameterItems]

theorem traits_plainMember (members : List MemberTokens) :
    (members.map plainMember).flatMap (·.traits scope) =
      members.flatMap (·.traits scope) := by
  rw [List.flatMap_map]
  congr 1
  funext member
  cases member <;> rfl

end Methods

/--
A type is read as the same with and without the doc comments in the parameter
lists of its methods exactly if in no parameter there is one between the start
and a modifier, between an ampersand and what it marks, or between the variable
and the sign of the default value.
-/
theorem readDeclaration_plainType_iff
    {scope : Scope}
    (noAlias : ∀ entry ∈ scope.imports, isModifier (.name entry.1) = false)
    (origin : Origin) (pending : Pending) (kind : TypeKind) (short : String)
    (written : TypeTokens) (rest : List Token) :
    ∃ d plain,
      readDeclaration origin scope pending kind short
          (written.tokens ++ rest) = .ok (d, rest) ∧
        readDeclaration origin scope pending kind short
          ((plainType written).tokens ++ rest) = .ok (plain, rest) ∧
        (d = plain ↔ ∀ member ∈ written.body.members,
          ∀ item ∈ parameterItems member, ¬ DisturbedItem item) := by
  obtain ⟨d, read⟩ := Body.exists_readDeclaration_tokens origin scope pending
    kind short written.header
  refine ⟨_, _, read written.body rest, read (plainType written).body rest, ?_⟩
  rw [← declaredMethods_plainMember_iff noAlias _ none]
  simp [BodyTokens.declared, plainType, traits_plainMember]

/-- A promoted parameter with a comment in front. -/
def commentedItem : List HeadPiece :=
  [.token ⟨.docComment "/** d */", by simp⟩, .token ⟨.name "private", by simp⟩,
    .token ⟨.name "array", by simp⟩]

def commentedType : TypeTokens where
  header := ⟨[], List.not_mem_nil⟩
  body :=
    { members :=
        [.method [] Grammar.functionKeyword
          { byReference := false
            name := "f"
            parameters :=
              ⟨commentedItem.flatMap (·.tokens) ++ [.variable "x"],
                balanced_of_closeBracket
                  (rfl : closeBracket '(' ')'
                    [.docComment "/** d */", .name "private", .name "array",
                      .variable "x", .punct ')'] = .ok (_, []))⟩
            returns := none
            body := none }]
      trailing := [] }

theorem readDeclaration_plainType_iff_commentedType :
    (∀ entry ∈ Grammar.billing.imports,
        isModifier (.name entry.1) = false) ∧
      ∃ d plain,
        readDeclaration ⟨none, ""⟩ Grammar.billing {} .classType "A"
            commentedType.tokens = .ok (d, []) ∧
          readDeclaration ⟨none, ""⟩ Grammar.billing {} .classType "A"
            (plainType commentedType).tokens = .ok (plain, []) ∧
          d ≠ plain := by
  have noAlias : ∀ entry ∈ Grammar.billing.imports,
      isModifier (.name entry.1) = false := by decide +kernel
  have disturbed : Disturbed .start commentedItem := by
    refine .later ?_
    show Disturbed .commented _
    exact .modifier (by decide +kernel)
  have listed : commentedItem.flatMap (·.tokens) ++ [.variable "x"] ∈
      listItems 0 (commentedItem.flatMap (·.tokens) ++ [.variable "x"]) :=
    List.mem_cons_self
  obtain ⟨d, plain, read, readPlain, same⟩ := readDeclaration_plainType_iff
    noAlias ⟨none, ""⟩ {} .classType "A" commentedType []
  rw [List.append_nil] at read readPlain
  refine ⟨noAlias, d, plain, read, readPlain, fun equal => ?_⟩
  exact same.mp equal _ List.mem_cons_self _ listed (.head disturbed)

/-- A class with doc comments at the three places. -/
def commentedParameters : String :=
  "<?php class A\x7bfunction f(/** d */private readonly array $x," ++
    "int & /** d */$y,$z /** d */=[A])\x7b\x7d\x7d"

/-- The same class without them. -/
def uncommentedParameters : String :=
  "<?php class A\x7bfunction f(private readonly array $x," ++
    "int &$y,$z =[A])\x7b\x7d\x7d"

def commentedTokens : List Token :=
  [.name "class", .name "A", .punct '\x7b', .name "function", .name "f",
    .punct '(', .docComment "/** d */", .name "private", .name "readonly",
    .name "array", .variable "x", .punct ',', .name "int", .punct '&',
    .docComment "/** d */", .variable "y", .punct ',', .variable "z",
    .docComment "/** d */", .punct '=', .punct '[', .name "A", .punct ']',
    .punct ')', .punct '\x7b', .punct '\x7d', .punct '\x7d']

/-- The comments change the types and drop the default value. -/
theorem parameters_of_commentedParameters :
    (Token.read commentedParameters).map withoutDocs =
        Token.read uncommentedParameters ∧
      (SourceFile.read commentedParameters none).map
          (·.flatMap fun d => d.methods.flatMap (·.parameters)) =
        .ok [{ name := "x", declaredType := some "privatereadonlyarray" },
          { name := "y", declaredType := some "int&" }, { name := "z" }] ∧
      (SourceFile.read uncommentedParameters none).map
          (·.flatMap fun d => d.methods.flatMap (·.parameters)) =
        .ok [{ name := "x", declaredType := some "array" },
          { name := "y", declaredType := some "int" },
          { name := "z", defaultValue := some (.expression "[A]") }] := by
  have commented : Token.read commentedParameters = .ok commentedTokens :=
    Grammar.eq_ok_of_toOption (by decide +kernel)
  have uncommented : Token.read uncommentedParameters =
      .ok (withoutDocs commentedTokens) :=
    Grammar.eq_ok_of_toOption (by decide +kernel)
  refine ⟨?_, ?_, ?_⟩
  · rw [commented, uncommented]
    rfl
  · rw [SourceFile.read, commented]
    exact Grammar.eq_ok_of_toOption (by decide +kernel)
  · rw [SourceFile.read, uncommented]
    exact Grammar.eq_ok_of_toOption (by decide +kernel)

end Signature

end BusReference.Php
