import BusReference.Proofs.Php.Position.Imports
import BusReference.Proofs.Php.Position.Lexing

/-!
# Source files by positions

The declarations of a source text, read with positions only: first the tokens
with a cursor in the text, then the declarations with a position in the tokens.
Whatever the text is, no stretch is asked for that does not exist, no number is
taken from a smaller one, and no loop comes back to where it was.  The tokens,
the declarations and the faults are the ones that the readers of lists give.
-/

namespace BusReference.Php.Position

open SourceFile (Clause Heritage Origin Pending opensDeclaration)

/-! ## Declarations -/

section Declarations

variable (tokens : List Token) (scope : Scope)

/-- Reads the header of a type behind its name. -/
def readHeader (kind : TypeKind) (owner : String) (clause : Clause)
    (heritage : Heritage) (pos : Nat) : Except Stop (Heritage × Nat) :=
  match next : tokens[pos]? with
  | none => .error (.fault (.openDeclaration owner))
  | some (.punct '{') => .ok (heritage, pos + 1)
  | some (.name word) =>
    if (Token.name word).isKeyword "extends" then
      readHeader kind owner .extending heritage (pos + 1)
    else if (Token.name word).isKeyword "implements" then
      readHeader kind owner .implementing heritage (pos + 1)
    else
      readHeader kind owner clause
        (heritage.add kind clause (scope.resolve word)) (pos + 1)
  | some _ => readHeader kind owner clause heritage (pos + 1)
  termination_by tokens.length - pos
  decreasing_by all_goals exact sub_lt_of_getElem? next

/-- Reads a declaration behind its keyword and its name. -/
def readDeclaration (origin : Origin) (pending : Pending) (kind : TypeKind)
    (short : String) (pos : Nat) : Except Stop (Declaration × Nat) := do
  let declared := Declaration.named (scope.qualify short) kind
  let (heritage, body) ←
    readHeader tokens scope kind declared.name .none {} pos
  let (members, stop) ← readBody tokens scope declared.name body
  return ({ declared with
    doc := pending.doc
    attributes := pending.attributes
    parent := heritage.parent
    interfaces := heritage.interfaces
    traits := members.traits
    methods := members.methods
    path := origin.path
    source := some origin.source }, stop)

/-- Skips the rest of a function behind its parameters. -/
def skipFunctionBody (pos : Nat) : Except Stop Nat :=
  match next : tokens[pos]? with
  | none => .ok pos
  | some t =>
    have := lt_of_getElem? next
    if t = .punct '{' then (closeBracket tokens '{' '}' (pos + 1)).map (·.2)
    else if t = .punct ';' then .ok pos
    else if t = .punct '(' then
      match closeBracket tokens '(' ')' (pos + 1) with
      | .error stop => .error stop
      | .ok (_, stop) =>
        if pos < stop then skipFunctionBody stop
        else .error (.defect .standstill)
    else skipFunctionBody (pos + 1)
  termination_by tokens.length - pos

/-- Skips a function behind its keyword. -/
def skipFunction (pos : Nat) : Except Stop Nat :=
  let named := skipIf tokens (fun t => match t with | .name _ => true | _ => false)
    (skipIf tokens (· == .punct '&') pos)
  if tokens[named]? = some (.punct '(') then do
    let (_, stop) ← closeBracket tokens '(' ')' (named + 1)
    skipFunctionBody tokens stop
  else .ok named

variable {tokens} {scope} {pos : Nat}

theorem readHeader_eq
    {kind : TypeKind} {owner : String} {clause : Clause}
    {heritage : Heritage} :
    readHeader tokens scope kind owner clause heritage pos =
      placed tokens (SourceFile.readHeader scope kind owner clause heritage
        (tokens.drop pos)) := by
  fun_induction readHeader tokens scope kind owner clause heritage pos with
  | case1 clause heritage pos next =>
      rw [drop_of_getElem?_none next]
      rfl
  | case2 clause heritage pos next =>
      rw [drop_of_getElem? next, SourceFile.readHeader, if_pos rfl, placed,
        place_drop (lt_of_getElem? next)]
  | case3 clause heritage pos word next extending ih =>
      rw [ih, drop_of_getElem? next, SourceFile.readHeader, if_pos extending]
  | case4 clause heritage pos word next notExtending implementing ih =>
      rw [ih, drop_of_getElem? next, SourceFile.readHeader,
        if_neg notExtending, if_pos implementing]
  | case5 clause heritage pos word next notExtending notImplementing ih =>
      rw [ih, drop_of_getElem? next, SourceFile.readHeader,
        if_neg notExtending, if_neg notImplementing]
  | case6 clause heritage pos t noBrace noName next ih =>
      rw [ih, drop_of_getElem? next]
      cases t with
      | name word => exact absurd rfl (noName word)
      | punct c =>
          rw [SourceFile.readHeader,
            if_neg fun brace => noBrace (congrArg Token.punct brace)]
      | _ => rfl

theorem readDeclaration_eq
    (origin : Origin) (pending : Pending) (kind : TypeKind) (short : String)
    (pos : Nat) :
    readDeclaration tokens scope origin pending kind short pos =
      placed tokens (SourceFile.readDeclaration origin scope pending kind short
        (tokens.drop pos)) := by
  rw [readDeclaration, SourceFile.readDeclaration, readHeader_eq]
  dsimp only
  cases header : SourceFile.readHeader scope kind
      (Declaration.named (scope.qualify short) kind).name .none {}
      (tokens.drop pos) with
  | error fault => rfl
  | ok read =>
      obtain ⟨heritage, body⟩ := read
      have later := SourceFile.isSuffix_of_readHeader header
      change (readBody tokens scope _ (place tokens body) >>= _) = _
      rw [readBody_eq, drop_place later]
      dsimp only
      cases Body.read scope _ body <;> rfl

theorem exists_of_closeBracket
    {opener closer : Char} {inner : List Token} {stop : Nat}
    (done : closeBracket tokens opener closer pos = .ok (inner, stop)) :
    ∃ rest,
      Php.closeBracket opener closer (tokens.drop pos) = .ok (inner, rest) ∧
        stop = place tokens rest ∧ rest <:+ tokens.drop pos := by
  rw [closeBracket_eq] at done
  obtain ⟨rest, closed, same⟩ := exists_of_placed done
  exact ⟨rest, closed, same, isSuffix_of_closeBracket closed⟩

theorem skipFunctionBody_eq (inside : pos ≤ tokens.length) :
    skipFunctionBody tokens pos =
      placedRest tokens (SourceFile.skipFunctionBody (tokens.drop pos)) := by
  fun_induction skipFunctionBody tokens pos with
  | case1 pos next =>
      rw [drop_of_getElem?_none next, SourceFile.skipFunctionBody]
      exact congrArg Except.ok (eq_place_nil inside next)
  | case2 pos next within =>
      rw [drop_of_getElem? next, SourceFile.skipFunctionBody, closeBracket_eq]
      cases Php.closeBracket '{' '}' (tokens.drop (pos + 1)) <;> rfl
  | case3 pos next within other =>
      rw [drop_of_getElem? next, SourceFile.skipFunctionBody,
        ← drop_of_getElem? next, placedRest, place_drop inside]
  | case4 pos stop failed next within =>
      rw [closeBracket_eq] at failed
      obtain ⟨fault, unclosed, rfl⟩ := exists_of_placed_eq_error failed
      rw [drop_of_getElem? next, SourceFile.skipFunctionBody_of_unclosed unclosed]
      rfl
  | case5 pos inner stop done ahead next within _ _ ih =>
      obtain ⟨rest, closed, rfl, later⟩ := exists_of_closeBracket done
      rw [ih (place_le _ _), drop_place later, drop_of_getElem? next,
        SourceFile.skipFunctionBody_of_closed closed]
  | case6 pos inner stop done still next within =>
      obtain ⟨rest, closed, rfl, later⟩ := exists_of_closeBracket done
      exact absurd (lt_place within later) still
  | case7 pos t next within noBrace noEnd noParenthesis ih =>
      rw [ih within, drop_of_getElem? next, SourceFile.skipFunctionBody]
        <;> assumption

theorem skipFunction_eq (inside : pos ≤ tokens.length) :
    skipFunction tokens pos =
      placedRest tokens (SourceFile.skipFunction (tokens.drop pos)) := by
  rw [skipFunction, SourceFile.skipFunction, ← drop_skipIf, ← drop_skipIf]
  have within := skipIf_le (fun t => match t with | .name _ => true | _ => false)
    (skipIf_le (· == .punct '&') inside)
  generalize skipIf tokens _ (skipIf tokens _ pos) = named at *
  split
  · rename_i parenthesis
    have listed := drop_of_getElem? parenthesis
    split
    · rename_i parameters opened
      obtain rfl : tokens.drop (named + 1) = parameters :=
        (List.cons.inj (listed.symm.trans opened)).2
      rw [closeBracket_eq]
      cases closed : Php.closeBracket '(' ')' (tokens.drop (named + 1)) with
      | error fault => rfl
      | ok split =>
          obtain ⟨inner, rest⟩ := split
          change skipFunctionBody tokens (place tokens rest) = _
          rw [skipFunctionBody_eq (place_le _ _),
            drop_place (isSuffix_of_closeBracket closed)]
    · rename_i other
      exact absurd listed (other _)
  · rename_i noParenthesis
    split
    · rename_i rest left
      exact absurd (getElem?_of_drop left) noParenthesis
    · exact congrArg Except.ok (place_drop within).symm

end Declarations

/-! ## Files -/

/-- What the tokens of a file start with, and where it ends. -/
inductive FileItem where
  | declaration (d : Declaration) (stop : Nat)
  | other (scope : Scope) (pending : Pending) (stop : Nat)

section Files

variable (tokens : List Token) (origin : Origin)

/-- The item of a file with the place behind it. -/
def FileItem.ofItem : SourceFile.Item → FileItem
  | .declaration d rest => .declaration d (place tokens rest)
  | .other scope pending rest => .other scope pending (place tokens rest)

/-- The token before a position.  Before the first one there is none. -/
def previous (pos : Nat) : Option Token :=
  if 1 ≤ pos then tokens[pos - 1]? else none

/-- Reads what starts with a name, which stands before the position. -/
def readWord (scope : Scope) (pending : Pending) (before : Option Token)
    (word : String) (pos : Nat) : Except Stop FileItem :=
  match word with
  | "abstract" | "final" | "readonly" => .ok (.other scope pending pos)
  | "namespace" =>
    let (name, stop) := readNamespace tokens pos
    .ok (.other (Scope.enter name) {} stop)
  | "use" =>
    match tokens[pos]? with
    | some (.name _) =>
      (readUse tokens scope pos).map fun (scope, stop) =>
        .other scope {} stop
    | _ => .ok (.other scope {} pos)
  | "function" => (skipFunction tokens pos).map (.other scope {})
  | word =>
    match TypeKind.ofKeyword? word, tokens[pos]? with
    | some kind, some (.name short) =>
      if opensDeclaration before then
        (readDeclaration tokens scope origin pending kind short (pos + 1)).map
          fun (d, stop) => .declaration d stop
      else .ok (.other scope {} pos)
    | _, _ => .ok (.other scope {} pos)

/-- Reads the item that starts with the token `t`, which stands before the
position. -/
def readFileItem (scope : Scope) (pending : Pending) (before : Option Token)
    (t : Token) (pos : Nat) : Except Stop FileItem :=
  match t with
  | .docComment text =>
    .ok (.other scope { pending with doc := some text } pos)
  | .attributeOpen =>
    (readAttributes tokens scope pos).map fun (names, stop) =>
      .other scope { pending with attributes := pending.attributes ++ names }
        stop
  | .name word => readWord tokens origin scope pending before word.toLower pos
  | _ => .ok (.other scope {} pos)

/-- Reads the declarations of a file from a position on.  An item has to end
behind its first token. -/
def readFileFrom (scope : Scope) (pending : Pending) (pos : Nat) :
    Except Stop (List Declaration) :=
  match next : tokens[pos]? with
  | none => .ok []
  | some t =>
    have := lt_of_getElem? next
    match readFileItem tokens origin scope pending (previous tokens pos) t
      (pos + 1) with
    | .error stop => .error stop
    | .ok (.declaration d stop) =>
      if pos < stop then (readFileFrom scope {} stop).map (d :: ·)
      else .error (.defect .standstill)
    | .ok (.other scope pending stop) =>
      if pos < stop then readFileFrom scope pending stop
      else .error (.defect .standstill)
  termination_by tokens.length - pos

variable {tokens} {origin} {pos : Nat} {scope : Scope} {pending : Pending}

theorem FileItem.ofItem_other (inside : pos ≤ tokens.length) :
    ofItem tokens (.other scope pending (tokens.drop pos)) =
      .other scope pending pos :=
  congrArg (FileItem.other scope pending) (place_drop inside)

/-- The outcome of a reader of items, by places. -/
def placedItem (tokens : List Token) :
    Except Fault SourceFile.Item → Except Stop FileItem
  | .error fault => .error (.fault fault)
  | .ok item => .ok (.ofItem tokens item)

/-- An item of one token ends at the place behind it. -/
theorem placedItem_other
    (inside : pos ≤ tokens.length) (scope : Scope) (pending : Pending) :
    Except.ok (FileItem.other scope pending pos) =
      placedItem tokens (.ok (.other scope pending (tokens.drop pos))) :=
  congrArg Except.ok (FileItem.ofItem_other inside).symm

theorem readWord_eq
    (before : Option Token) (word : String) (inside : pos ≤ tokens.length) :
    readWord tokens origin scope pending before word pos =
      placedItem tokens (SourceFile.readWord origin scope pending before word
        (tokens.drop pos)) := by
  unfold readWord
  split
  · exact placedItem_other inside scope pending
  · exact placedItem_other inside scope pending
  · exact placedItem_other inside scope pending
  · rw [readNamespace_eq inside]
    rfl
  · split
    · rename_i name next
      rw [readUse_eq scope inside, drop_of_getElem? next]
      rfl
    · rename_i noName
      rw [SourceFile.readWord]
      · exact placedItem_other inside scope {}
      · exact fun name rest left => noName name (getElem?_of_drop left)
  · rw [skipFunction_eq inside]
    change _ = placedItem tokens ((SourceFile.skipFunction _).map _)
    cases SourceFile.skipFunction (tokens.drop pos) <;> rfl
  · rename_i notAbstract notFinal notReadonly notNamespace notUse notFunction
    split
    · rename_i kind short declares next
      have listed := drop_of_getElem? next
      have declaring : SourceFile.readWord origin scope pending before word
          (.name short :: tokens.drop (pos + 1)) =
          if opensDeclaration before then
            (SourceFile.readDeclaration origin scope pending kind short
              (tokens.drop (pos + 1))).map
                fun read => .declaration read.1 read.2
          else .ok (.other scope {} (.name short :: tokens.drop (pos + 1))) := by
        rw [SourceFile.readWord] <;> assumption
      rw [listed, declaring]
      split
      · rw [readDeclaration_eq]
        cases SourceFile.readDeclaration origin scope pending kind short
          (tokens.drop (pos + 1)) <;> rfl
      · rw [← listed]
        exact placedItem_other inside scope {}
    · rename_i noDeclaration
      rw [SourceFile.readWord]
      all_goals try assumption
      · exact placedItem_other inside scope {}
      · exact fun kind short rest declares left =>
          noDeclaration kind short declares (getElem?_of_drop left)

theorem readFileItem_eq
    (before : Option Token) (t : Token) (inside : pos ≤ tokens.length) :
    readFileItem tokens origin scope pending before t pos =
      placedItem tokens (SourceFile.readItem origin scope pending before t
        (tokens.drop pos)) := by
  cases t with
  | docComment text => exact placedItem_other inside scope _
  | attributeOpen =>
      rw [readFileItem, readAttributes_eq inside]
      rfl
  | name word => exact readWord_eq before word.toLower inside
  | _ => exact placedItem_other inside scope {}

/-- The item is the one that a reader of lists has given, and it ends among the
tokens and behind the position. -/
def FileItem.EndsBehind
    (tokens : List Token) (pos : Nat) (read : Except Fault SourceFile.Item) :
    FileItem → Prop
  | .declaration d stop =>
      (pos < stop ∧ stop ≤ tokens.length) ∧
        read = .ok (.declaration d (tokens.drop stop))
  | .other scope pending stop =>
      (pos < stop ∧ stop ≤ tokens.length) ∧
        read = .ok (.other scope pending (tokens.drop stop))

/-- Every item that is read ends behind its first token. -/
theorem endsBehind_of_readFileItem
    {before : Option Token} {t : Token} {item : FileItem}
    (inside : pos < tokens.length)
    (done :
      readFileItem tokens origin scope pending before t (pos + 1) =
        .ok item) :
    item.EndsBehind tokens pos
      (SourceFile.readItem origin scope pending before t
        (tokens.drop (pos + 1))) := by
  rw [readFileItem_eq before t inside] at done
  cases read : SourceFile.readItem origin scope pending before t
      (tokens.drop (pos + 1)) with
  | error fault =>
      rw [read] at done
      cases done
  | ok listed =>
      rw [read] at done
      have later := SourceFile.isSuffix_of_readItem read
      have ahead := lt_place inside later
      have left := (drop_place later).symm
      obtain rfl := Except.ok.inj done
      cases listed with
      | declaration d rest =>
          exact ⟨⟨ahead, place_le _ _⟩,
            congrArg (Except.ok ∘ SourceFile.Item.declaration d) left⟩
      | other scope' pending' rest =>
          exact ⟨⟨ahead, place_le _ _⟩,
            congrArg (Except.ok ∘ SourceFile.Item.other scope' pending') left⟩

/-- The last token of what was taken is the one before the place behind it. -/
theorem lastBefore_eq_previous
    {t : Token} {stop : Nat} (next : tokens[pos]? = some t)
    (ahead : pos < stop) (within : stop ≤ tokens.length) :
    SourceFile.lastBefore (t :: tokens.drop (pos + 1)) (tokens.drop stop) =
      previous tokens stop := by
  have width : (tokens.drop pos).length - (tokens.drop stop).length =
      stop - pos := by
    rw [List.length_drop, List.length_drop]
    omega
  have last : (stop - pos - 1) + pos = stop - 1 := by omega
  rw [← drop_of_getElem? next, SourceFile.lastBefore, width, previous,
    if_pos (by omega), List.getLast?_take, if_neg (by omega),
    List.getElem?_drop, Nat.add_comm, last]
  have inside : stop - 1 < tokens.length := by omega
  rw [List.getElem?_eq_getElem inside, Option.some_or]

theorem readFileFrom_eq :
    readFileFrom tokens origin scope pending pos =
      (SourceFile.readFrom origin scope pending (previous tokens pos)
        (tokens.drop pos)).mapError .fault := by
  fun_induction readFileFrom tokens origin scope pending pos with
  | case1 scope pending pos next =>
      rw [drop_of_getElem?_none next, SourceFile.readFrom]
      rfl
  | case2 scope pending pos t next inside stop failed =>
      rw [readFileItem_eq _ _ inside] at failed
      rw [drop_of_getElem? next, SourceFile.readFrom_cons]
      cases read : SourceFile.readItem origin scope pending
          (previous tokens pos) t (tokens.drop (pos + 1)) with
      | error fault =>
          rw [read] at failed
          cases failed
          rfl
      | ok listed =>
          rw [read] at failed
          cases failed
  | case3 scope pending pos t next inside d stop done ahead ih =>
      obtain ⟨⟨-, within⟩, read⟩ := endsBehind_of_readFileItem inside done
      rw [ih, drop_of_getElem? next, SourceFile.readFrom_cons, read]
      dsimp only
      rw [lastBefore_eq_previous next ahead within]
      cases SourceFile.readFrom origin scope {} _ (tokens.drop stop) <;> rfl
  | case4 scope pending pos t next inside d stop done still =>
      exact absurd (endsBehind_of_readFileItem inside done).1.1 still
  | case5 scope pending pos t next inside scope' pending' stop done ahead ih =>
      obtain ⟨⟨-, within⟩, read⟩ := endsBehind_of_readFileItem inside done
      rw [ih, drop_of_getElem? next, SourceFile.readFrom_cons, read]
      dsimp only
      rw [lastBefore_eq_previous next ahead within]
  | case6 scope pending pos t next inside scope' pending' stop done still =>
      exact absurd (endsBehind_of_readFileItem inside done).1.1 still

/-- The declarations of a source text, read by positions only. -/
def readFile (source : String) (path : Option Files.FilePath) :
    Except Stop (List Declaration) := do
  let tokens ← readTokens source.toList
  readFileFrom tokens { path, source } {} {} 0

theorem readFile_eq (source : String) (path : Option Files.FilePath) :
    readFile source path = (SourceFile.read source path).mapError .fault := by
  rw [readFile, readTokens_eq, SourceFile.read]
  cases Token.read source with
  | error fault => rfl
  | ok tokens => exact readFileFrom_eq

end Files

/--
Reading a source text by positions gives the tokens, the declarations and the
faults of the text, and never ends with a defect: every stretch that it takes
lies in the text or among the tokens, no number of open brackets is lowered
below zero, and every turn of the loop over the text moves the cursor on without
leaving the text, also where three arrows turn out to open no heredoc.
-/
theorem reads_without_defect (source : String) (path : Option Files.FilePath) :
    readTokens source.toList =
        (Token.read source).mapError (fun fault => .fault (.lexical fault)) ∧
      readFile source path = (SourceFile.read source path).mapError .fault ∧
      (∀ defect, readTokens source.toList ≠ .error (.defect defect)) ∧
      (∀ defect, readFile source path ≠ .error (.defect defect)) ∧
      ∀ (here there : Cursor) (c : Char) (token : Option Token),
        here.peek source.toList 0 = some c →
        step source.toList c here = .ok (there, token) →
        here.pos < there.pos ∧ there.pos ≤ source.toList.length := by
  refine ⟨readTokens_eq source, readFile_eq source path, fun defect => ?_,
    fun defect => ?_, fun here there c token => pos_lt_of_step⟩
  · rw [readTokens_eq]
    cases Token.read source <;> nofun
  · rw [readFile_eq]
    cases SourceFile.read source path <;> nofun

/-- A text with three arrows that open no heredoc and with a string that ends in
the middle of an escape. -/
def danglingText : String := "1<<<(2);'\\"

theorem reads_without_defect_danglingText :
    readFile danglingText none =
        .error (.fault (.lexical ⟨.string, 1⟩)) ∧
      step danglingText.toList '<' ⟨1, 1⟩ =
        .ok (⟨2, 1⟩, some (.punct '<')) ∧
      1 < 2 ∧ 2 ≤ danglingText.toList.length := by
  obtain ⟨-, file, -, -, turns⟩ := reads_without_defect danglingText none
  have next : Cursor.peek danglingText.toList ⟨1, 1⟩ 0 = some '<' := rfl
  have turn : step danglingText.toList '<' ⟨1, 1⟩ =
      .ok (⟨2, 1⟩, some (.punct '<')) :=
    (step_eq next).trans rfl
  refine ⟨?_, turn, turns _ _ _ _ next turn⟩
  have fails : SourceFile.read danglingText none =
      .error (.lexical ⟨.string, 1⟩) := by
    decide +kernel
  rw [file, fails]
  rfl

end BusReference.Php.Position
