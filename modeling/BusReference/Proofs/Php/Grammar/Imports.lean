import BusReference.Proofs.Php.Grammar.Types
import BusReference.Proofs.Php.Remainder

/-!
# Imports as they are written

A written import makes one name known, perhaps under another one, or a group
of names that start alike.  The entries of an import say under which alias
which name is known afterwards; reading its tokens adds exactly these entries
to the scope.
-/

namespace BusReference.Php

/-! ## Scopes with more imports -/

namespace Scope

/-- Makes qualified names known, one after the other. -/
def addImports (scope : Scope) (entries : List (String × String)) : Scope :=
  { scope with imports := entries.reverse ++ scope.imports }

variable {scope : Scope}

theorem addImports_append (first second : List (String × String)) :
    scope.addImports (first ++ second) =
      (scope.addImports first).addImports second := by
  simp [addImports]

theorem addImports_cons (entry : String × String)
    (entries : List (String × String)) :
    scope.addImports (entry :: entries) =
      (scope.addImport entry.1 entry.2).addImports entries := by
  simp [addImports, addImport]

theorem NamesImports.addImports
    (imports : scope.NamesImports) {entries : List (String × String)}
    (named : ∀ entry ∈ entries, entry.2 ≠ "") :
    (scope.addImports entries).NamesImports := by
  intro entry member
  rcases List.mem_append.mp member with added | known
  · exact named entry (List.mem_reverse.mp added)
  · exact imports entry known

end Scope

namespace Grammar

/-- A keyword, in any letter case. -/
abbrev Keyword (word : String) := { text : String // text.toLower = word }

theorem Keyword.isKeyword {word : String} (keyword : Keyword word) :
    Token.isKeyword word (.name keyword.1) = true := by
  simp [Token.isKeyword, keyword.2]

theorem Reference.not_isKeyword
    (n : Reference) {word : String} (reserved : word ∈ reservedWords) :
    Token.isKeyword word (.name n.text) = false := by
  rw [Token.isKeyword, beq_eq_false_iff_ne]
  rintro rfl
  exact n.unreserved reserved

/-! ## Imported names -/

/-- An imported name, perhaps with an alias. -/
structure ImportedName where
  name : Reference
  renamed : Option (Keyword "as" × String)

namespace ImportedName

def renamingTokens (i : ImportedName) : List Token :=
  match i.renamed with
  | some (keyword, short) => [.name keyword.1, .name short]
  | none => []

def tokens (i : ImportedName) : List Token :=
  .name i.name.text :: i.renamingTokens

/-- What is known under which alias, which defaults to the last segment. -/
def entry (i : ImportedName) (full : String) : String × String :=
  ((i.renamed.map (·.2)).getD (shortName full), full)

theorem readAlias_renamingTokens
    (i : ImportedName) (full : String) {t : Token} {ts : List Token}
    (followed : t.isKeyword "as" = false) :
    Scope.readAlias full (i.renamingTokens ++ t :: ts) =
      ((i.entry full).1, t :: ts) := by
  rw [renamingTokens, entry]
  cases i.renamed with
  | none => simp [Scope.readAlias, followed]
  | some renamed =>
      obtain ⟨keyword, short⟩ := renamed
      simp [Scope.readAlias, keyword.isKeyword]

end ImportedName

/-! ## Groups -/

/-- Keywords of imports that are no types. -/
abbrev ImportMarker :=
  { text : String // text.toLower ∈ ["function", "const"] }

/-- A member of a group, perhaps marked as a function or as a constant. -/
structure GroupMember where
  marker : Option ImportMarker
  imported : ImportedName

namespace GroupMember

def markerTokens (m : GroupMember) : List Token :=
  (m.marker.map (.name ·.1)).toList

def tokens (m : GroupMember) : List Token :=
  m.markerTokens ++ m.imported.tokens

/--
The entries of a member.  In a group a marker is taken for a name of its own.
-/
def entries (base : String) (m : GroupMember) : List (String × String) :=
  (m.marker.map fun marker =>
      (shortName (base ++ marker.1), base ++ marker.1)).toList ++
    [m.imported.entry (base ++ m.imported.name.text)]

variable {scope : Scope} {base : String}

theorem readGroup_imported
    (i : ImportedName) {t : Token} {ts : List Token}
    (followed : t.isKeyword "as" = false) :
    Scope.readGroup base scope (i.tokens ++ t :: ts) =
      Scope.readGroup base
        (scope.addImports [i.entry (base ++ i.name.text)]) (t :: ts) := by
  rw [ImportedName.tokens, List.cons_append, Scope.readGroup,
    i.readAlias_renamingTokens _ followed]
  rfl

theorem readGroup_tokens
    (m : GroupMember) {t : Token} {ts : List Token}
    (followed : t.isKeyword "as" = false) :
    Scope.readGroup base scope (m.tokens ++ t :: ts) =
      Scope.readGroup base (scope.addImports (m.entries base)) (t :: ts) := by
  rw [tokens, entries, markerTokens, List.append_assoc]
  cases m.marker with
  | none => exact readGroup_imported m.imported followed
  | some marker =>
      -- the name after the marker keeps it from having an alias
      have noAlias :
          Token.isKeyword "as" (.name m.imported.name.text) = false :=
        m.imported.name.not_isKeyword (by decide)
      have passed : ∀ us : List Token,
          Scope.readAlias (base ++ marker.1)
              (.name m.imported.name.text :: us) =
            (shortName (base ++ marker.1),
              .name m.imported.name.text :: us) := by
        intro us
        simp [Scope.readAlias, noAlias]
      rw [Option.map_some, Option.map_some, Option.toList_some,
        Option.toList_some, List.singleton_append, List.singleton_append,
        Scope.readGroup, ImportedName.tokens, List.cons_append, passed,
        Scope.addImports_cons, ← readGroup_imported m.imported followed]
      rfl

theorem readGroup_commaList
    (members : List GroupMember) {t : Token} {ts : List Token}
    (followed : t.isKeyword "as" = false) :
    Scope.readGroup base scope
        (commaList (members.map (·.tokens)) ++ t :: ts) =
      Scope.readGroup base
        (scope.addImports (members.flatMap (entries base))) (t :: ts) := by
  have separator : Token.isKeyword "as" (.punct ',') = false := rfl
  induction members generalizing scope with
  | nil => rfl
  | cons m members ih =>
      rw [List.flatMap_cons, Scope.addImports_append, ← ih]
      cases members with
      | nil =>
          rw [List.map_singleton, commaList_singleton,
            m.readGroup_tokens followed]
          rfl
      | cons other members =>
          rw [List.map_cons, List.map_cons, commaList_cons_cons,
            List.append_assoc, List.cons_append,
            m.readGroup_tokens separator, Scope.readGroup]
          all_goals simp

end GroupMember

/-! ## Clauses -/

/-- What stands between the commas of a declaration of imports. -/
inductive ImportClause where
  | name (imported : ImportedName)
  | group (base : Reference) (members : List GroupMember) (trailing : Bool)

namespace ImportClause

/-- The name that a clause starts with, as it is written. -/
def firstName : ImportClause → String
  | name i => i.name.text
  | group base _ _ => base.text ++ "\\"

def laterTokens : ImportClause → List Token
  | name i => i.renamingTokens
  | group _ members trailing =>
      .punct '\x7b' ::
        (commaList (members.map (·.tokens)) ++
          (optionalToken trailing (.punct ',') ++ [.punct '\x7d']))

def tokens (c : ImportClause) : List Token :=
  .name c.firstName :: c.laterTokens

def entries : ImportClause → List (String × String)
  | name i => [i.entry (plainName i.name.text)]
  | group base members _ =>
      members.flatMap (·.entries (plainName base.text ++ "\\"))

variable (c : ImportClause) {scope : Scope} {t : Token} {ts : List Token}

/-- The keywords of other imports do not end in a backslash. -/
theorem not_isKeyword_firstName
    {word : String} (reserved : word ∈ reservedWords)
    (plain : word.toList.getLast? ≠ some '\\') :
    Token.isKeyword word (.name c.firstName) = false := by
  cases c with
  | name i => exact i.name.not_isKeyword reserved
  | group base members trailing =>
      rw [firstName, Token.isKeyword, beq_eq_false_iff_ne]
      rintro rfl
      have letters : (base.text ++ "\\").toLower.toList =
          (base.text ++ "\\").toList.map Char.toLower :=
        String.toList_map
      refine plain ?_
      rw [letters]
      simp

theorem entries_ne_empty :
    ∀ entry ∈ c.entries, entry.2 ≠ "" := by
  cases c with
  | name i =>
      intro entry member
      rw [entries, List.mem_singleton] at member
      rw [member]
      exact i.name.named
  | group base members trailing =>
      intro entry member empty
      obtain ⟨m, -, inside⟩ := List.mem_flatMap.mp member
      have extended : ∃ name,
          entry.2 = plainName base.text ++ "\\" ++ name := by
        rcases List.mem_append.mp inside with marked | imported
        · obtain ⟨marker, -, rfl⟩ :=
            Option.map_eq_some_iff.mp (Option.mem_toList.mp marked)
          exact ⟨_, rfl⟩
        · rw [List.mem_singleton.mp imported]
          exact ⟨_, rfl⟩
      obtain ⟨name, full⟩ := extended
      rw [full, String.append_eq_empty_iff, String.append_eq_empty_iff]
        at empty
      exact base.named empty.1.1

theorem readImport_name
    (i : ImportedName)
    (followed : t.isKeyword "as" = false) (noBrace : t ≠ .punct '\x7b')
    (full : String) :
    Scope.readImport scope full (i.renamingTokens ++ t :: ts) =
      (scope.addImports [i.entry full], t :: ts) := by
  have noGroup : ∀ rest,
      i.renamingTokens ++ t :: ts = .punct '\x7b' :: rest → False := by
    intro rest
    rw [ImportedName.renamingTokens]
    split
    · simp
    · intro same
      exact noBrace (List.cons.inj same).1
  rw [Scope.readImport]
  · rw [i.readAlias_renamingTokens _ followed]
    rfl
  · exact noGroup

theorem readGroup_closing
    (base : String) (members : List GroupMember) (trailing : Bool)
    (rest : List Token) :
    Scope.readGroup base scope
        (commaList (members.map (·.tokens)) ++
          (optionalToken trailing (.punct ',') ++ .punct '\x7d' :: rest)) =
      (scope.addImports (members.flatMap (·.entries base)), rest) := by
  have closed : ∀ known : Scope,
      Scope.readGroup base known (.punct '\x7d' :: rest) = (known, rest) := by
    intro known
    rw [Scope.readGroup]
  cases trailing with
  | false =>
      exact (GroupMember.readGroup_commaList members rfl).trans (closed _)
  | true =>
      refine (GroupMember.readGroup_commaList members rfl).trans ?_
      rw [Scope.readGroup]
      · exact closed _
      all_goals simp

theorem readImport_laterTokens
    (followed : t.isKeyword "as" = false) (noBrace : t ≠ .punct '\x7b') :
    Scope.readImport scope (plainName c.firstName)
        (c.laterTokens ++ t :: ts) =
      (scope.addImports c.entries, t :: ts) := by
  cases c with
  | name i => exact readImport_name i followed noBrace _
  | group base members trailing =>
      have ends : (plainName (base.text ++ "\\")).toList.getLast? =
          some '\\' := by
        rw [plainName_append base.named]
        simp
      rw [laterTokens, List.cons_append, List.append_assoc,
        List.append_assoc, Scope.readImport, firstName, if_pos ends,
        plainName_append base.named]
      exact readGroup_closing _ members trailing (t :: ts)

end ImportClause

/-! ## Declarations of imports -/

theorem readImports_commaList
    (first : ImportClause) (others : List ImportClause)
    {scope : Scope} (rest : List Token) :
    Scope.readImports scope
        (commaList ((first :: others).map (·.tokens)) ++
          .punct ';' :: rest) =
      (scope.addImports ((first :: others).flatMap (·.entries)), rest) := by
  induction others generalizing first scope with
  | nil =>
      rw [List.map_singleton, commaList_singleton, ImportClause.tokens,
        List.cons_append, Scope.readImports_cons
          (first.readImport_laterTokens (by decide) (by decide)),
        if_neg (by decide), List.flatMap_singleton]
  | cons second others ih =>
      rw [List.map_cons, List.map_cons, commaList_cons_cons,
        List.append_assoc, List.cons_append, ImportClause.tokens,
        List.cons_append, Scope.readImports_cons
          (first.readImport_laterTokens (by decide) (by decide)),
        if_pos rfl, List.flatMap_cons, Scope.addImports_append]
      exact ih second

theorem dropThrough_append
    {c : Char} {ts : List Token} (clean : .punct c ∉ ts)
    (rest : List Token) :
    Scope.dropThrough c (ts ++ .punct c :: rest) = rest := by
  induction ts with
  | nil => rw [List.nil_append, Scope.dropThrough, if_pos rfl]
  | cons t ts ih =>
      rw [List.mem_cons, not_or] at clean
      rw [List.cons_append, Scope.dropThrough, if_neg (Ne.symm clean.1),
        ih clean.2]

/-- A declaration of imports: of types, or of functions or constants. -/
inductive UseDeclaration where
  | types (first : ImportClause) (others : List ImportClause)
  | marked
      (marker : ImportMarker)
      (content : { ts : List Token // Token.punct ';' ∉ ts })

namespace UseDeclaration

/-- The name after the keyword. -/
def firstName : UseDeclaration → String
  | types first _ => first.firstName
  | marked marker _ => marker.1

/-- The tokens of the declaration after its keyword. -/
def tokens : UseDeclaration → List Token
  | types first others =>
      commaList ((first :: others).map (·.tokens)) ++ [.punct ';']
  | marked marker content =>
      .name marker.1 :: (content.1 ++ [.punct ';'])

def entries : UseDeclaration → List (String × String)
  | types first others => (first :: others).flatMap (·.entries)
  | marked _ _ => []

variable (u : UseDeclaration)

theorem entries_ne_empty :
    ∀ entry ∈ u.entries, entry.2 ≠ "" := by
  intro entry member
  cases u with
  | types first others =>
      obtain ⟨c, -, inside⟩ := List.mem_flatMap.mp member
      exact c.entries_ne_empty entry inside
  | marked marker content => cases member

theorem exists_tokens_eq_cons :
    ∃ ts, u.tokens = .name u.firstName :: ts := by
  cases u with
  | types first others =>
      cases others with
      | nil => exact ⟨_, by rw [tokens]; rfl⟩
      | cons second others =>
          exact ⟨_, by
            rw [tokens, List.map_cons, List.map_cons, commaList_cons_cons]
            rfl⟩
  | marked marker content => exact ⟨_, rfl⟩

/-- Reading a declaration of imports adds its entries. -/
theorem readUse_tokens {scope : Scope} (rest : List Token) :
    Scope.readUse scope (u.tokens ++ rest) =
      (scope.addImports u.entries, rest) := by
  obtain ⟨ts, starts⟩ := u.exists_tokens_eq_cons
  rw [Scope.readUse, starts, List.cons_append, List.head?_cons,
    Option.any_some, ← List.cons_append, ← starts]
  cases u with
  | types first others =>
      rw [firstName, first.not_isKeyword_firstName (by decide) (by decide),
        first.not_isKeyword_firstName (by decide) (by decide),
        Bool.or_false, if_neg (by decide), tokens, List.append_assoc]
      exact readImports_commaList first others rest
  | marked marker content =>
      have isMarker : (Token.isKeyword "function" (.name marker.1) ||
          Token.isKeyword "const" (.name marker.1)) = true := by
        have listed := marker.2
        simpa [Token.isKeyword] using listed
      have clean : Token.punct ';' ∉ .name marker.1 :: content.1 := by
        simpa using content.2
      rw [firstName, if_pos isMarker, tokens, ← List.cons_append,
        List.append_assoc]
      exact congrArg (Prod.mk scope) (dropThrough_append clean rest)

end UseDeclaration

end Grammar

end BusReference.Php
