import BusReference.Proofs.Php.Lexeme.Measures

/-!
# Segments of source texts

A source text that can be read is a sequence of segments.  Each of them is the
spelling of a token or a piece that is dropped: a blank, an ordinary comment, an
opening tag, or a closing tag with the text up to the next opening one.  The
tokens of the text are those of its segments in their order, so no character is
lost, repeated or moved.
-/

namespace BusReference.Php

open BusReference.Text.Blank (isBlank)
open Lexeme.Reading

/-- A piece of a source text that stands for no token, with the text after it. -/
inductive Dropped : List Char → List Char → Prop
  | blank {c : Char} {rest : List Char} (blank : isBlank c = true) :
      Dropped [c] rest
  | openTag {rest : List Char} : Dropped openTag rest
  /-- A closing tag and what stands before the next opening tag. -/
  | inlineText {body rest : List Char}
      (free : FreeOf body Lexeme.Reading.openTag rest)
      (ends : rest = [] ∨ Lexeme.Reading.openTag <+: rest) :
      Dropped ('?' :: '>' :: body) rest
  /-- A comment up to the end of its line. -/
  | lineComment {mark body rest : List Char}
      (marks : mark = ['/', '/'] ∨
        mark = ['#'] ∧ (body ++ rest).head? ≠ some '[')
      (line : '\n' ∉ body) (ends : rest = [] ∨ rest.head? = some '\n') :
      Dropped (mark ++ body) rest
  /-- A comment that ends at the first place where its end stands, and that is
  no doc comment. -/
  | blockComment {body rest : List Char}
      (free : FreeOf body commentEnd commentEnd)
      (ordinary : body.head? ≠ some '*') :
      Dropped (['/', '*'] ++ body ++ commentEnd) rest

/-- A token with a text that can stand for it in a source file. -/
inductive Token.Written : Token → Prop
  | docComment {body : List Char}
      (free : FreeOf body commentEnd commentEnd)
      (doc : body.head? = some '*') :
      Written (.docComment
        (String.ofList (['/', '*'] ++ body ++ commentEnd)))
  | name {cs : List Char}
      (named : cs ≠ [])
      (letters : ∀ c ∈ cs, isNameChar c = true ∨ c = '\\') :
      Written (.name (String.ofList cs))
  | dollar {c : Char} {cs : List Char}
      (starts : isNameStart c = true)
      (letters : ∀ c ∈ cs, isNameChar c = true) :
      Written (.variable (String.ofList (c :: cs)))
  /-- A quoted text ends at the first quote that is not escaped. -/
  | quoted {quote : Char} {body : List Char}
      (mark : IsQuote quote) (escaped : Escaped quote body) :
      Written (.literal (String.ofList (quote :: body ++ [quote])))
  /-- A heredoc starts and ends with its label. -/
  | heredoc {lead label body : List Char}
      (leads : HeredocLead lead) (labelled : label ≠ [])
      (letters : ∀ c ∈ label, isNameChar c = true) :
      Written (.literal (String.ofList
        (['<', '<', '<'] ++ (lead ++ label ++ body ++ label))))
  | number {c : Char} {cs : List Char}
      (starts : c.isDigit = true ∨ c = '.')
      (letters : ∀ c ∈ cs, isNumberChar c = true) :
      Written (.number (String.ofList (c :: cs)))
  | attributeOpen : Written .attributeOpen
  | ellipsis : Written .ellipsis
  | punct {c : Char} (visible : isBlank c = false) : Written (.punct c)

/-- A text that consists of the spellings of the tokens, in their order, and of
dropped pieces between them. -/
inductive Segments : List Char → List Token → Prop
  | nil : Segments [] []
  | token {t : Token} {rest : List Char} {ts : List Token}
      (written : t.Written) (later : Segments rest ts) :
      Segments (t.spelling.toList ++ rest) (t :: ts)
  | dropped {piece rest : List Char} {ts : List Token}
      (dropped : Dropped piece rest) (later : Segments rest ts) :
      Segments (piece ++ rest) ts

/-! ## Lexemes as segments -/

/-- The lexeme is a segment before the given text. -/
def Lexeme.IsSegment (x : Lexeme) (rest : List Char) : Prop :=
  match x.token? with
  | none => Dropped x.text rest
  | some t => t.Written ∧ t.spelling.toList = x.text

theorem not_mem_take_lineLength (cs : List Char) :
    '\n' ∉ cs.take (lineLength cs) := by
  intro inside
  have other := forall_mem_take_runLength (· != '\n') cs '\n' inside
  simp at other

theorem ends_drop_lineLength (cs : List Char) :
    cs.drop (lineLength cs) = [] ∨
      (cs.drop (lineLength cs)).head? = some '\n' := by
  rw [lineLength, drop_runLength]
  cases left : cs.dropWhile (· != '\n') with
  | nil => exact Or.inl rfl
  | cons c rest =>
      have stops := List.head?_dropWhile_not (· != '\n') cs
      rw [left] at stops
      exact Or.inr (by simpa using stops)

theorem Lexeme.isSegment_of_measured
    {c : Char} {cs : List Char} {shape : Shape} {n : Nat}
    (measured : Measured c cs shape n) :
    Lexeme.IsSegment ⟨shape, c :: cs.take n⟩ (cs.drop n) := by
  cases measured with
  | openTag opens =>
      obtain ⟨rest, text⟩ := opens
      obtain ⟨rfl, rfl⟩ := List.cons.inj text
      exact .openTag
  | @inlineText after closes text =>
      subst closes text
      obtain ⟨body, rest, rfl, length, ends, free⟩ := exists_of_inlineLength after
      rw [length, Nat.add_comm, List.take_succ_cons, List.drop_succ_cons,
        List.take_left, List.drop_left]
      exact .inlineText free ends
  | blank blank => exact .blank blank
  | slashes mark second =>
      subst mark
      obtain ⟨body, rfl⟩ := List.head?_eq_some_iff.mp second
      have length : lineLength ('/' :: body) = lineLength body + 1 := by
        rw [lineLength, runLength, List.takeWhile_cons_of_pos (by decide)]
        rfl
      rw [length, List.take_succ_cons, List.drop_succ_cons]
      exact .lineComment (Or.inl rfl) (not_mem_take_lineLength body)
        (ends_drop_lineLength body)
  | hash mark noAttribute =>
      subst mark
      exact .lineComment (Or.inr ⟨rfl, by rwa [List.take_append_drop]⟩)
        (not_mem_take_lineLength cs) (ends_drop_lineLength cs)
  | attributeOpen mark bracket =>
      subst mark
      obtain ⟨rest, rfl⟩ := List.head?_eq_some_iff.mp bracket
      exact ⟨.attributeOpen, rfl⟩
  | @comment after n mark text length =>
      subst mark text
      obtain ⟨body, rest, rfl, rfl, free⟩ := exists_of_commentLength length
      rw [List.take_succ_cons, List.drop_succ_cons,
        List.take_left' (by simp [commentEnd]),
        List.drop_left' (by simp [commentEnd])]
      split
      · rename_i doc
        refine ⟨.docComment free.of_append ?_, String.toList_ofList⟩
        cases body with
        | nil => cases doc
        | cons d body => simpa [isDocComment] using doc
      · rename_i ordinary
        refine Dropped.blockComment free.of_append ?_
        cases body with
        | nil =>
            intro starts
            cases starts
        | cons d body => simpa [isDocComment] using ordinary
  | @quoted n mark length =>
      obtain ⟨body, rest, rfl, rfl, escaped⟩ := exists_of_quotedLength length
      rw [List.append_cons, List.take_left' (by simp)]
      exact ⟨.quoted mark escaped, String.toList_ofList⟩
  | @heredoc after n mark text length =>
      subst mark text
      obtain ⟨lead, label, body, rest, rfl, rfl, leads, labelled, letters⟩ :=
        exists_of_heredocLength length
      rw [List.take_succ_cons, List.take_succ_cons, List.take_left]
      exact ⟨.heredoc leads labelled letters, String.toList_ofList⟩
  | dollar mark named =>
      subst mark
      obtain ⟨d, rest, rfl, starts⟩ := exists_cons_of_any_head? named
      have letter : isNameChar d = true := by simp [isNameChar, starts]
      rw [runLength, List.takeWhile_cons_of_pos letter, List.length_cons,
        List.take_succ_cons]
      refine ⟨.dollar starts (forall_mem_take_runLength isNameChar rest), ?_⟩
      rw [Token.spelling, String.toList_append]
      exact congrArg ('$' :: ·) String.toList_ofList
  | @ellipsis after mark text =>
      subst mark text
      exact ⟨.ellipsis, rfl⟩
  | number starts =>
      exact ⟨.number (starts.imp id And.left)
        (forall_mem_take_runLength isNumberChar cs), String.toList_ofList⟩
  | name starts =>
      exact ⟨.name (List.cons_ne_nil _ _) (letters_of_name starts),
        String.toList_ofList⟩
  | punct visible => exact ⟨.punct visible, by simp [Token.spelling]⟩

theorem Segments.cons_lexeme
    {x : Lexeme} {rest : List Char} {xs : List Lexeme}
    (segment : x.IsSegment rest)
    (later : Segments rest (xs.filterMap Lexeme.token?)) :
    Segments (x.text ++ rest) ((x :: xs).filterMap Lexeme.token?) := by
  rw [Lexeme.IsSegment] at segment
  split at segment
  · rename_i noToken
    rw [List.filterMap_cons_none noToken]
    exact .dropped segment later
  · rename_i t stands
    rw [List.filterMap_cons_some stands, ← segment.2]
    exact .token segment.1 later

theorem segments_of_readFrom
    {line : Nat} {cs : List Char} {lexemes : List Lexeme}
    (done : Lexeme.readFrom line cs = .ok lexemes) :
    Segments cs (lexemes.filterMap Lexeme.token?) := by
  fun_induction Lexeme.readFrom line cs generalizing lexemes with
  | case1 =>
      cases done
      exact .nil
  | case2 => cases done
  | case3 => cases done
  | case4 line c cs shape n measured text others later =>
      rename_i ih
      cases done
      have segments := Segments.cons_lexeme
        (Lexeme.isSegment_of_measured (measured_of_measure measured))
        (ih later)
      rwa [List.cons_append, List.take_append_drop] at segments

/--
A source text that can be read consists of the spellings of its tokens, in their
order, and of dropped pieces.
-/
theorem segments_of_read
    {source : String} {ts : List Token} (done : Token.read source = .ok ts) :
    Segments source.toList ts := by
  rw [Token.read] at done
  cases read : Lexeme.read source.toList with
  | error fault =>
      rw [read] at done
      cases done
  | ok lexemes =>
      rw [read] at done
      cases done
      exact segments_of_readFrom read

/-- A text with comments of all kinds, a heredoc that ends behind blanks, three
arrows that open none, and inline text at its end. -/
def assortedText : String :=
  "<?php # a?>\n#[A]/**/ /** b */ $c=...<<<'D'\nE D\n  D;1.5<<<(f\\G,'\\'') ?>h"

theorem segments_of_read_assortedText :
    ∃ ts, Token.read assortedText = .ok ts ∧
      ts.map Token.spelling =
        ["#[", "A", "]", "/** b */", "$c", "=", "...",
          "<<<'D'\nE D\n  D", ";", "1.5", "<", "<", "<", "(", "f\\G", ",",
          "'\\''", ")"] ∧
      Segments assortedText.toList ts := by
  have evaluated : (Token.read assortedText).toOption.map
      (·.map Token.spelling) =
        some ["#[", "A", "]", "/** b */", "$c", "=", "...",
          "<<<'D'\nE D\n  D", ";", "1.5", "<", "<", "<", "(", "f\\G", ",",
          "'\\''", ")"] := by
    decide +kernel
  cases read : Token.read assortedText with
  | error fault =>
      rw [read] at evaluated
      cases evaluated
  | ok ts =>
      rw [read] at evaluated
      exact ⟨ts, rfl, Option.some.inj evaluated, segments_of_read read⟩

end BusReference.Php
