import BusReference.Proofs.Php.Body.DocComments

/-!
# Keywords as names in a body

Constants, enum cases and methods may be named like a keyword, and the default
values of properties may refer to such constants.  The name of a method never
misleads the reader of a body.  But outside of braces and attributes it takes
the words `function` and `use` of any other member for the start of a method or
of a declaration of used traits.  The main statement says for which bodies this
makes no difference.
-/

namespace BusReference.Php

open BracketPair (parentheses)

/-! ## Parentheses that are closed -/

namespace Closes

variable {t : Token} {depth : Nat} {ts us : List Token}

/-- Parentheses that open after the first token are closed as well. -/
theorem exists_of_cons
    (closes : Closes [parentheses] (.punct ')') depth (t :: ts)) :
    ∃ depth, Closes [parentheses] (.punct ')') depth ts := by
  generalize whole : t :: ts = us at closes
  cases closes with
  | balanced inside =>
      cases inside with
      | nil => cases whole
      | plain _ later =>
          cases whole
          exact ⟨0, .balanced later⟩
      | group member inside later =>
          obtain rfl := List.mem_singleton.mp member
          cases whole
          exact ⟨1, .closing inside (.balanced later)⟩
  | closing inside later =>
      cases inside with
      | nil =>
          cases whole
          exact ⟨_, later⟩
      | plain _ inside =>
          cases whole
          exact ⟨_, .closing inside later⟩
      | group member inside between =>
          obtain rfl := List.mem_singleton.mp member
          cases whole
          have joined := closing inside (closing between later)
          exact ⟨_, by simpa [parentheses] using joined⟩

theorem exists_of_append
    (closes : Closes [parentheses] (.punct ')') depth (ts ++ us)) :
    ∃ depth, Closes [parentheses] (.punct ')') depth us := by
  induction ts generalizing depth with
  | nil => exact ⟨depth, closes⟩
  | cons t ts ih =>
      obtain ⟨_, later⟩ := exists_of_cons closes
      exact ih later

/-- A parenthesis that opens is closed, and so are those after it. -/
theorem exists_of_parenthesis
    (closes : Closes [parentheses] (.punct ')') depth (.punct '(' :: ts)) :
    ∃ inner rest, ts = inner ++ .punct ')' :: rest ∧
      Balanced [parentheses] inner ∧
        Closes [parentheses] (.punct ')') depth rest := by
  have bracket : ¬ IsPlain [parentheses] (.punct '(') := by decide
  generalize whole : Token.punct '(' :: ts = us at closes
  cases closes with
  | balanced inside =>
      cases inside with
      | nil => cases whole
      | plain noBracket _ =>
          cases whole
          exact absurd noBracket bracket
      | group member inside later =>
          obtain rfl := List.mem_singleton.mp member
          cases whole
          exact ⟨_, _, rfl, inside, .balanced later⟩
  | closing inside later =>
      cases inside with
      | nil => cases whole
      | plain noBracket _ =>
          cases whole
          exact absurd noBracket bracket
      | @group _ inner between member inside after =>
          obtain rfl := List.mem_singleton.mp member
          cases whole
          refine ⟨inner, _, ?_, inside, .closing after later⟩
          simp [parentheses]

end Closes

namespace Body

open Grammar (Keyword)
open SourceFile (Origin Pending readDeclaration)

/-! ## Members -/

/-- A token that neither ends a member nor opens a block or a group of
attributes. -/
def IsInner (t : Token) : Prop :=
  t ∉ [.punct '\x7b', .punct '\x7d', .punct ';', .attributeOpen]

instance (t : Token) : Decidable (IsInner t) :=
  inferInstanceAs (Decidable (t ∉ _))

/-- The tokens after a word, up to the semicolon of its member.  Parentheses
that open there are closed there. -/
structure Tail where
  tokens : List Token
  inner : ∀ t ∈ tokens, IsInner t
  closes : ∃ depth, Closes [parentheses] (.punct ')') depth tokens

/-- A member of a body in which names may be keywords. -/
inductive NamedMember where
  /-- The words `function` and `use` stand in it only as the keywords of a
  method or of used traits, or after these. -/
  | regular (member : MemberTokens)
  /-- A constant, an enum case or a property, with `function` as the first of
  the words in it. -/
  | function (lead : List Piece) (word : Keyword "function") (after : Tail)
  /-- A constant, an enum case or a property, with `use` as the first of the
  words in it. -/
  | use (lead : List Piece) (word : Keyword "use") (after : Tail)

namespace NamedMember

def tokens : NamedMember → List Token
  | regular member => member.tokens
  | function lead word after =>
      lead.flatMap (·.tokens) ++
        .name word.1 :: (after.tokens ++ [.punct ';'])
  | use lead word after =>
      lead.flatMap (·.tokens) ++
        .name word.1 :: (after.tokens ++ [.punct ';'])

/-- The method that the member declares where a doc comment is in force. -/
def declared (scope : Scope) (doc : Option String) :
    NamedMember → List Method
  | regular member => member.declared scope doc
  | _ => []

/-- The doc comment that is in force after the member. -/
def docAfter (doc : Option String) : NamedMember → Option String
  | regular member => member.docAfter doc
  | _ => none

/-- The qualified names of the traits that the member uses. -/
def traits (scope : Scope) : NamedMember → List String
  | regular member => member.traits scope
  | _ => []

/-- The doc comment that the reader keeps after the member. -/
def docKept (doc : Option String) : NamedMember → Option String
  | regular member => member.docAfter doc
  | use lead _ _ => (lastDoc lead).or doc
  | function _ _ _ => none

/-- Nothing is found in the member that it does not declare. -/
def IsHarmless : NamedMember → Prop
  | regular _ => True
  | function _ _ _ => False
  | use _ _ after => ∀ text, .name text ∉ after.tokens

end NamedMember

/-! ## What is found in a member -/

section Finding

variable
    {scope : Scope} {owner : String} {doc : Option String}
    {rest left : List Token}

/-- A split before a token that the front does not have falls into the part
before it, or is that one. -/
theorem eq_or_exists_of_append_eq
    {t mark : Token} {front us ts : List Token} (without : mark ∉ front)
    (same : front ++ t :: us = ts ++ mark :: rest) :
    (t = mark ∧ us = rest) ∨
      ∃ mid, ts = front ++ t :: mid ∧ us = mid ++ mark :: rest := by
  rcases List.append_eq_append_iff.mp same with
    ⟨mid, split, ends⟩ | ⟨between, split, ends⟩
  · cases mid with
    | nil =>
        cases ends
        exact .inl ⟨rfl, rfl⟩
    | cons _ mid =>
        cases ends
        exact .inr ⟨mid, split, rfl⟩
  · cases between with
    | nil =>
        cases ends
        exact .inl ⟨rfl, rfl⟩
    | cons _ between =>
        cases ends
        exact absurd (by simp [split]) without

/-- What is read as a method where there is none ends with the member. -/
theorem eq_of_readMethod_tail
    (tail : Tail) {m : Method}
    (done : readMethod scope doc (tail.tokens ++ .punct ';' :: rest) =
      .ok (m, left)) :
    left = rest := by
  have noEnd : .punct ';' ∉ tail.tokens := fun member =>
    tail.inner _ member (by simp)
  have noBrace : .punct '\x7b' ∉ tail.tokens := fun member =>
    tail.inner _ member (by simp)
  obtain ⟨byReference, start⟩ :=
    exists_eq_skipIf (tail.tokens ++ .punct ';' :: rest)
  rw [readMethod] at done
  split at done
  · rename_i name after named
    rw [named] at start
    unfold readNamedMethod at done
    split at done
    · rename_i opened
      -- the parenthesis stands in the member, and so does its partner
      have without : .punct ';' ∉
          optionalToken byReference (.punct '&') ++ [.name name] := by
        cases byReference <;> simp [optionalToken]
      rcases eq_or_exists_of_append_eq without
          (by simpa using start.symm) with
        ⟨other, -⟩ | ⟨inside, split, rfl⟩
      · cases other
      obtain ⟨depth, closes⟩ := tail.closes
      rw [split] at closes
      obtain ⟨_, opens⟩ := closes.exists_of_append
      obtain ⟨inner, final, rfl, balanced, -⟩ := opens.exists_of_parenthesis
      rw [List.append_assoc, List.cons_append,
        closeBracket_balanced (by decide) balanced] at done
      dsimp only at done
      obtain ⟨returns, typed⟩ :=
        exists_eq_readReturnType scope (final ++ .punct ';' :: rest)
      have noEndBefore : .punct ';' ∉
          (returns.map (.punct ':' :: ·.1)).getD [] := by
        cases returns with
        | none => exact List.not_mem_nil
        | some returns =>
            rintro (_ | ⟨_, member⟩)
            exact absurd (returns.2 _ member) (by decide)
      split at done
      · cases done
      · rename_i body skipped
        cases done
        unfold skipMethodBody at skipped
        split at skipped
        · rename_i semicolon
          cases skipped
          rw [semicolon] at typed
          rcases eq_or_exists_of_append_eq noEndBefore typed.symm with
            ⟨-, same⟩ | ⟨mid, within, -⟩
          · exact same
          · exact absurd (by simp [split, within]) noEnd
        · rename_i block
          rw [block] at typed
          rcases eq_or_exists_of_append_eq noEndBefore typed.symm with
            ⟨other, -⟩ | ⟨mid, within, -⟩
          · cases other
          · exact absurd (by simp [split, within]) noBrace
        · cases skipped
    · cases done
  · cases done

theorem exists_of_readFrom_function
    (lead : List Piece) (word : Keyword "function") (after : Tail)
    {found : Members}
    (done : readFrom scope owner 0 doc
      ((NamedMember.function lead word after).tokens ++ rest) =
        .ok (found, left)) :
    ∃ m later, readFrom scope owner 0 none rest = .ok (later, left) ∧
      found = later.addMethod m := by
  rw [NamedMember.tokens, List.append_assoc, List.cons_append,
    List.append_assoc, List.singleton_append, readFrom_pieces] at done
  obtain ⟨m, others, split⟩ := exists_method_of_readFrom word done
  have named : readMethod scope doc (after.tokens ++ .punct ';' :: rest) =
      .ok (m.declared scope doc, others) := by
    rw [split, m.readMethod_tokens]
  rw [split, readFrom_function, eq_of_readMethod_tail after named] at done
  obtain ⟨⟨later, final⟩, read, whole⟩ := exists_of_map_eq_ok done
  cases whole
  exact ⟨_, later, read, rfl⟩

theorem readFrom_use_tail
    (lead : List Piece) (word : Keyword "use") (after : Tail) :
    readFrom scope owner 0 doc
        ((NamedMember.use lead word after).tokens ++ rest) =
      (readFrom scope owner 0 ((lastDoc lead).or doc) rest).map
        fun (members, left) =>
          (members.addTraits (resolvedNames scope after.tokens), left) := by
  have noBlock : .punct '\x7b' ∉ after.tokens := fun member =>
    after.inner _ member (by simp)
  have noEnd : .punct ';' ∉ after.tokens := fun member =>
    after.inner _ member (by simp)
  rw [NamedMember.tokens, List.append_assoc, List.cons_append, readFrom_pieces]
  exact readFrom_use word ⟨⟨after.tokens, noBlock, noEnd⟩, none⟩ _ rest

end Finding

/-! ## Bodies -/

/-- The methods that members declare where a doc comment is in force. -/
def namedMethods (scope : Scope) :
    Option String → List NamedMember → List Method
  | _, [] => []
  | doc, member :: members =>
      member.declared scope doc ++
        namedMethods scope (member.docAfter doc) members

/-- The same methods with the doc comments that the reader keeps for them. -/
def seenMethods (scope : Scope) :
    Option String → List NamedMember → List Method
  | _, [] => []
  | doc, member :: members =>
      member.declared scope doc ++
        seenMethods scope (member.docKept doc) members

/-- After nothing but used traits comes a method, and none of these has a doc
comment of its own. -/
inductive TakesDoc : List NamedMember → Prop
  | method
      {lead : List Piece} {keyword : Keyword "function"} {m : MethodTokens}
      {later : List NamedMember} (noDoc : lastDoc lead = none) :
      TakesDoc (.regular (.method lead keyword m) :: later)
  | traitUse
      {lead : List Piece} {keyword : Keyword "use"} {u : TraitTokens}
      {later : List NamedMember} (noDoc : lastDoc lead = none)
      (takes : TakesDoc later) :
      TakesDoc (.regular (.traitUse lead keyword u) :: later)

/-- The doc comment before a member with the word `use` goes on to a method. -/
inductive Carries : Option String → List NamedMember → Prop
  | here
      {doc : Option String} {lead : List Piece} {word : Keyword "use"}
      {after : Tail} {later : List NamedMember}
      (kept : (lastDoc lead).or doc ≠ none) (takes : TakesDoc later) :
      Carries doc (.use lead word after :: later)
  | later
      {doc : Option String} {member : NamedMember}
      {later : List NamedMember} (carries : Carries (member.docKept doc) later) :
      Carries doc (member :: later)

section Docs

variable
    {scope : Scope} {doc : Option String} {lead : List Piece}
    {members : List NamedMember}

theorem takesDoc_method_iff {keyword : Keyword "function"} {m : MethodTokens} :
    TakesDoc (.regular (.method lead keyword m) :: members) ↔
      lastDoc lead = none := by
  constructor
  · rintro ⟨noDoc⟩
    exact noDoc
  · exact .method

theorem takesDoc_traitUse_iff {keyword : Keyword "use"} {u : TraitTokens} :
    TakesDoc (.regular (.traitUse lead keyword u) :: members) ↔
      lastDoc lead = none ∧ TakesDoc members := by
  constructor
  · intro goesOn
    cases goesOn with
    | traitUse noDoc takes => exact ⟨noDoc, takes⟩
  · rintro ⟨noDoc, takes⟩
    exact .traitUse noDoc takes

theorem carries_use_iff {word : Keyword "use"} {after : Tail} :
    Carries doc (.use lead word after :: members) ↔
      ((lastDoc lead).or doc ≠ none ∧ TakesDoc members) ∨
        Carries ((lastDoc lead).or doc) members := by
  constructor
  · rintro (⟨kept, takes⟩ | carries)
    · exact .inl ⟨kept, takes⟩
    · exact .inr carries
  · rintro (⟨kept, takes⟩ | carries)
    · exact .here kept takes
    · exact .later carries

theorem carries_cons_iff
    {member : NamedMember}
    (noWord : ∀ lead word after, member ≠ .use lead word after) :
    Carries doc (member :: members) ↔
      Carries (member.docKept doc) members := by
  constructor
  · rintro (_ | carries)
    · exact absurd rfl (noWord _ _ _)
    · exact carries
  · exact .later

theorem or_lastDoc_eq_iff (lead : List Piece) (kept inForce : Option String) :
    (lastDoc lead).or kept = (lastDoc lead).or inForce ↔
      kept = inForce ∨ ¬ lastDoc lead = none := by
  cases lastDoc lead <;> simp

/-- The reader keeps the doc comment in force, or one that it should have
dropped; the methods are the same if none of them takes such a one. -/
theorem seenMethods_eq_namedMethods_iff
    (scope : Scope) {kept inForce : Option String}
    (dropped : inForce = none ∨ inForce = kept) (members : List NamedMember) :
    seenMethods scope kept members = namedMethods scope inForce members ↔
      (kept = inForce ∨ ¬ TakesDoc members) ∧ ¬ Carries kept members := by
  induction members generalizing kept inForce with
  | nil => exact iff_of_true rfl ⟨.inr nofun, nofun⟩
  | cons member members ih =>
      rw [seenMethods, namedMethods]
      have fresh : seenMethods scope none members =
          namedMethods scope none members ↔ ¬ Carries none members :=
        (ih (.inl rfl)).trans (and_iff_right (.inl rfl))
      rcases member with member | ⟨lead, word, after⟩ | ⟨lead, word, after⟩
      · rw [carries_cons_iff (by simp)]
        cases member with
        | method lead keyword m =>
            rw [takesDoc_method_iff, ← or_lastDoc_eq_iff]
            simpa [NamedMember.declared, NamedMember.docKept,
              NamedMember.docAfter, MemberTokens.declared,
              MemberTokens.docAfter, MethodTokens.declared] using
              fun _ => fresh
        | traitUse lead keyword u =>
            have still : (lastDoc lead).or inForce = none ∨
                (lastDoc lead).or inForce = (lastDoc lead).or kept := by
              rcases dropped with rfl | rfl
              · cases lastDoc lead <;> simp
              · exact .inr rfl
            rw [takesDoc_traitUse_iff]
            refine (ih still).trans (and_congr_left' ?_)
            rw [or_lastDoc_eq_iff, not_and_or, or_assoc]
        | statement pieces =>
            have noTakes : ¬ TakesDoc (.regular (.statement pieces) :: members) := by
              intro takes
              cases takes
            exact fresh.trans (and_iff_right (.inr noTakes)).symm
        | block pieces inner =>
            have noTakes :
                ¬ TakesDoc (.regular (.block pieces inner) :: members) := by
              intro takes
              cases takes
            exact fresh.trans (and_iff_right (.inr noTakes)).symm
      · have noTakes : ¬ TakesDoc (.function lead word after :: members) := by
          intro takes
          cases takes
        rw [carries_cons_iff (by simp)]
        exact fresh.trans (and_iff_right (.inr noTakes)).symm
      · have noTakes : ¬ TakesDoc (.use lead word after :: members) := by
          intro takes
          cases takes
        rw [carries_use_iff, not_or]
        rw [not_and_or, not_not]
        exact (ih (.inl rfl)).trans (and_iff_right (.inr noTakes)).symm

end Docs

/-- How many methods and used traits there are. -/
def Members.size (members : Members) : Nat :=
  members.methods.length + members.traits.length

section Reading

variable
    {scope : Scope} {owner : String} {doc : Option String}
    {rest left : List Token} {found : Members}

theorem resolvedNames_eq_nil_iff {ts : List Token} :
    resolvedNames scope ts = [] ↔ ∀ text, .name text ∉ ts := by
  rw [resolvedNames, List.filterMap_eq_nil_iff]
  constructor
  · intro none text member
    cases none _ member
  · intro noName t member
    cases t with
    | name text => exact absurd member (noName text)
    | _ => rfl

/-- A harmless member is read as what it declares. -/
theorem readFrom_namedMember
    (scope : Scope) (owner : String) {member : NamedMember}
    (harmless : member.IsHarmless) (doc : Option String) (rest : List Token) :
    readFrom scope owner 0 doc (member.tokens ++ rest) =
      (readFrom scope owner 0 (member.docKept doc) rest).map
        fun (members, left) =>
          ({ methods := member.declared scope doc ++ members.methods
             traits := member.traits scope ++ members.traits }, left) := by
  cases member with
  | regular member => exact readFrom_member member doc rest
  | function => exact harmless.elim
  | use lead word after =>
      rw [readFrom_use_tail, resolvedNames_eq_nil_iff.mpr harmless]
      rfl

/-- Any other member yields more than it declares. -/
theorem exists_of_readFrom_namedMember
    (member : NamedMember)
    (done : readFrom scope owner 0 doc (member.tokens ++ rest) =
      .ok (found, left)) :
    ∃ later more, readFrom scope owner 0 (member.docKept doc) rest =
        .ok (later, left) ∧
      found.size = (member.declared scope doc).length +
        (member.traits scope).length + later.size + more ∧
      (more = 0 → member.IsHarmless) := by
  cases member with
  | regular member =>
      rw [NamedMember.tokens, readFrom_member] at done
      obtain ⟨⟨later, final⟩, read, whole⟩ := exists_of_map_eq_ok done
      cases whole
      refine ⟨later, 0, read, ?_, fun _ => trivial⟩
      simp only [Members.size, NamedMember.declared, NamedMember.traits,
        List.length_append]
      omega
  | function lead word after =>
      obtain ⟨m, later, read, rfl⟩ :=
        exists_of_readFrom_function lead word after done
      refine ⟨later, 1, read, ?_, nofun⟩
      simp only [Members.size, Members.addMethod, NamedMember.declared,
        NamedMember.traits, List.length_cons, List.length_nil]
      omega
  | use lead word after =>
      rw [readFrom_use_tail] at done
      obtain ⟨⟨later, final⟩, read, whole⟩ := exists_of_map_eq_ok done
      cases whole
      refine ⟨later, (resolvedNames scope after.tokens).length, read, ?_, ?_⟩
      · simp only [Members.size, Members.addTraits, NamedMember.declared,
          NamedMember.traits, List.length_append, List.length_nil]
        omega
      · intro noMore
        exact resolvedNames_eq_nil_iff.mp (List.length_eq_zero_iff.mp noMore)

theorem readFrom_trailing (trailing : List Piece) (rest : List Token) :
    readFrom scope owner 0 doc
        (trailing.flatMap (·.tokens) ++ .punct '\x7d' :: rest) =
      .ok ({}, rest) := by
  rw [readFrom_pieces, readFrom_cons, readItem]

theorem readFrom_namedMembers
    {members : List NamedMember} (trailing : List Piece)
    (harmless : ∀ member ∈ members, member.IsHarmless) :
    readFrom scope owner 0 doc
        (members.flatMap (·.tokens) ++
          (trailing.flatMap (·.tokens) ++ .punct '\x7d' :: rest)) =
      .ok ({ methods := seenMethods scope doc members
             traits := members.flatMap (·.traits scope) }, rest) := by
  induction members generalizing doc with
  | nil => exact readFrom_trailing trailing rest
  | cons member members ih =>
      rw [List.flatMap_cons, List.append_assoc,
        readFrom_namedMember scope owner (harmless _ List.mem_cons_self),
        ih fun other inside => harmless other (List.mem_cons_of_mem _ inside)]
      rfl

/-- If as much is found as is declared, all members are harmless. -/
theorem exists_of_readFrom_namedMembers
    (members : List NamedMember) (trailing : List Piece)
    (done : readFrom scope owner 0 doc
      (members.flatMap (·.tokens) ++
        (trailing.flatMap (·.tokens) ++ .punct '\x7d' :: rest)) =
          .ok (found, left)) :
    ∃ more, found.size = (seenMethods scope doc members).length +
        (members.flatMap (·.traits scope)).length + more ∧
      (more = 0 → ∀ member ∈ members, member.IsHarmless) := by
  induction members generalizing doc found with
  | nil =>
      cases done.symm.trans (readFrom_trailing trailing rest)
      exact ⟨0, rfl, fun _ => nofun⟩
  | cons member members ih =>
      rw [List.flatMap_cons, List.append_assoc] at done
      obtain ⟨later, first, read, size, harmless⟩ :=
        exists_of_readFrom_namedMember member done
      obtain ⟨more, others, allHarmless⟩ := ih read
      refine ⟨first + more, ?_, fun none => ?_⟩
      · rw [size, others, seenMethods, List.flatMap_cons, List.length_append,
          List.length_append]
        omega
      · rw [List.forall_mem_cons]
        exact ⟨harmless (by omega), allHarmless (by omega)⟩

theorem length_seenMethods
    (scope : Scope) (kept inForce : Option String)
    (members : List NamedMember) :
    (seenMethods scope kept members).length =
      (namedMethods scope inForce members).length := by
  induction members generalizing kept inForce with
  | nil => rfl
  | cons member members ih =>
      have same : (member.declared scope kept).length =
          (member.declared scope inForce).length := by
        rcases member with member | _ | _
        · cases member <;> rfl
        · rfl
        · rfl
      rw [seenMethods, namedMethods, List.length_append, List.length_append,
        same, ih]

end Reading

/-- A body in which names may be keywords. -/
structure NamedBody where
  members : List NamedMember
  trailing : List Piece

namespace NamedBody

def tokens (body : NamedBody) : List Token :=
  body.members.flatMap (·.tokens) ++ body.trailing.flatMap (·.tokens)

/-- What the body declares. -/
def declared (scope : Scope) (body : NamedBody) : Members where
  methods := namedMethods scope none body.members
  traits := body.members.flatMap (·.traits scope)

end NamedBody

/-- What is declared is found exactly if all members are harmless and no doc
comment goes on. -/
theorem read_namedBody_iff
    (scope : Scope) (owner : String) (body : NamedBody) (rest : List Token) :
    read scope owner (body.tokens ++ .punct '\x7d' :: rest) =
        .ok (body.declared scope, rest) ↔
      (∀ member ∈ body.members, member.IsHarmless) ∧
        ¬ Carries none body.members := by
  have docs : seenMethods scope none body.members =
      namedMethods scope none body.members ↔ ¬ Carries none body.members :=
    (seenMethods_eq_namedMethods_iff scope (.inl rfl) _).trans
      (and_iff_right (.inl rfl))
  rw [read, NamedBody.tokens, List.append_assoc]
  constructor
  · intro done
    obtain ⟨more, size, harmless⟩ :=
      exists_of_readFrom_namedMembers body.members body.trailing done
    have same := length_seenMethods scope none none body.members
    have all : ∀ member ∈ body.members, member.IsHarmless := by
      apply harmless
      simp only [Members.size, NamedBody.declared] at size
      omega
    rw [readFrom_namedMembers body.trailing all] at done
    refine ⟨all, docs.mp ?_⟩
    exact congrArg (fun read => read.1.methods) (Except.ok.inj done)
  · rintro ⟨harmless, noneCarried⟩
    rw [readFrom_namedMembers body.trailing harmless,
      docs.mpr noneCarried]
    rfl

/-! ## Types -/

section Types

/--
A type is read with exactly the methods and the used traits that it declares if
and only if no other member has the word `function`, or the word `use` with a
name after it, and no doc comment before such a `use` goes on to a method.  The
names of the methods do not matter.
-/
theorem readDeclaration_namedBody_iff
    (origin : Origin) (scope : Scope) (pending : Pending) (kind : TypeKind)
    (short : String) (header : { ts : List Token // .punct '\x7b' ∉ ts })
    (body : NamedBody) (rest : List Token) :
    (∃ d, readDeclaration origin scope pending kind short
        (header.1 ++
          .punct '\x7b' :: (body.tokens ++ .punct '\x7d' :: rest)) =
          .ok (d, rest) ∧
      d.methods = (body.declared scope).methods ∧
      d.traits = (body.declared scope).traits) ↔
    (∀ member ∈ body.members, member.IsHarmless) ∧
      ¬ Carries none body.members := by
  obtain ⟨heritage, read⟩ := SourceFile.exists_readHeader scope kind
    (Declaration.named (scope.qualify short) kind).name header.2 .none {}
  rw [readDeclaration, read, ← read_namedBody_iff scope
    (Declaration.named (scope.qualify short) kind).name body rest]
  dsimp only
  constructor
  · rintro ⟨d, done, methods, traits⟩
    split at done
    · cases done
    · rename_i found left inside
      cases done
      rw [inside, show found = body.declared scope from
        congrArg₂ Members.mk methods traits]
  · intro found
    rw [found]
    exact ⟨_, rfl, rfl, rfl⟩

/-- A method of any name is read as such. -/
example :
    (SourceFile.read "<?php class A\x7bfunction use();\x7d" none).map
        (·.map fun d => (d.traits, d.methods.map (·.name))) =
      .ok [([], ["use"])] := by
  decide +kernel

/-! Bodies that are written out. -/

/-- Words before a keyword, none of which is one. -/
def idle
    (ts : List Token)
    (each : ∀ t ∈ ts, Grammar.IsIdle t := by decide +kernel) : List Piece :=
  ts.attach.map fun t => .token ⟨t.1, each t.1 t.2⟩

/-- The tail of a member without parentheses. -/
def Tail.plain
    (ts : List Token) (inner : ∀ t ∈ ts, IsInner t := by decide +kernel)
    (noParenthesis : ∀ t ∈ ts, IsPlain [parentheses] t := by
      decide +kernel) : Tail where
  tokens := ts
  inner := inner
  closes := by
    refine ⟨0, .balanced ?_⟩
    clear inner
    induction ts with
    | nil => exact .nil
    | cons t ts ih =>
        rw [List.forall_mem_cons] at noParenthesis
        exact .plain noParenthesis.1 (ih noParenthesis.2)

/-- Brackets with nothing inside. -/
def empty (pairs : List BracketPair) : Grammar.Nested pairs := ⟨[], .nil⟩

/-- An enum of which a case is named like the keyword of methods. -/
def functionCase : String := "<?php enum A\x7bcase Function;\x7d"

def functionCaseBody : NamedBody where
  members :=
    [.function (idle [.name "case"]) ⟨"Function", by decide +kernel⟩
      (.plain [])]
  trailing := []

/-- A class of which a constant is named like the keyword of used traits, and
has a doc comment. -/
def useConstant : String :=
  "<?php class A\x7b/** d */const USE=B;function f();\x7d"

def useConstantBody : NamedBody where
  members :=
    [.use (idle [.docComment "/** d */", .name "const"])
        ⟨"USE", by decide +kernel⟩ (.plain [.punct '=', .name "B"]),
      .regular (.method [] Grammar.functionKeyword
        ⟨false, "f", empty [parentheses], none, none⟩)]
  trailing := []

/-- The name of the case is taken for the start of a method, and the value of
the constant for a trait; the comment goes on to the method. -/
theorem read_keywordNames :
    Token.read functionCase =
        .ok (.name "enum" :: .name "A" :: .punct '\x7b' ::
          (functionCaseBody.tokens ++ [.punct '\x7d'])) ∧
      functionCaseBody.declared {} = {} ∧
      SourceFile.read functionCase none = .error .noMethodName ∧
      Token.read useConstant =
        .ok (.name "class" :: .name "A" :: .punct '\x7b' ::
          (useConstantBody.tokens ++ [.punct '\x7d'])) ∧
      useConstantBody.declared {} = { methods := [{ name := "f" }] } ∧
      (SourceFile.read useConstant none).map
          (·.map fun d => (d.traits, d.methods)) =
        .ok [(["B"], [{ name := "f", doc := some "/** d */" }])] := by
  decide +kernel

end Types

end Body

end BusReference.Php
