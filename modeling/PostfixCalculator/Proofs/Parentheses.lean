import Mathlib.Logic.Relation
import PostfixCalculator.Proofs.Grammar

/-!
# Matched parentheses and their removal

Two parentheses match if the lexemes between them are balanced.  `RemovesPair` takes one matched
pair out of a sequence of lexemes, and its reflexive transitive closure any number of pairs, one
after the other; what matched before a removal matches after it, so that this is the same as
taking out any set of matched pairs.

Every removal takes away two parentheses.  Hence a sequence from which pairs were removed has
fewer parentheses than before, and nothing is changed if the number of parentheses is the same.
-/

namespace PostfixCalculator

open Relation

/-! ## Balanced lexemes -/

/-- The number of open groups behind a lexeme, if there are `depth` of them in front, and nothing if
the lexeme is a closing parenthesis that finds no open group. -/
def depthNext (depth : Nat) (x : Text) : Option Nat :=
  if x = ['('] then some (depth + 1)
  else if x = [')'] then
    match depth with
    | 0 => none
    | depth + 1 => some depth
  else some depth

/-- The number of open groups behind the lexemes, if there are `depth` of them in front. -/
def depthAfter (depth : Nat) (lexemes : List Text) : Option Nat := lexemes.foldlM depthNext depth

/-- Lexemes are balanced if every parenthesis among them has its partner among them. -/
def Balanced (lexemes : List Text) : Prop := depthAfter 0 lexemes = some 0

/-- Whether lexemes are balanced can be decided. -/
instance (lexemes : List Text) : Decidable (Balanced lexemes) :=
  inferInstanceAs (Decidable (depthAfter 0 lexemes = some 0))

/-- Without lexemes nothing is opened or closed. -/
@[simp] lemma depthAfter_nil (depth : Nat) : depthAfter depth [] = some depth := rfl

/-- An opening parenthesis opens a group. -/
@[simp] lemma depthAfter_opening (depth : Nat) (lexemes : List Text) :
    depthAfter depth (['('] :: lexemes) = depthAfter (depth + 1) lexemes := rfl

/-- A closing parenthesis closes a group. -/
@[simp] lemma depthAfter_closing (depth : Nat) (lexemes : List Text) :
    depthAfter (depth + 1) ([')'] :: lexemes) = depthAfter depth lexemes := rfl

/-- A lexeme that is no parenthesis opens and closes nothing. -/
lemma depthAfter_other {x : Text} (hopening : x ≠ ['(']) (hclosing : x ≠ [')']) (depth : Nat)
    (lexemes : List Text) : depthAfter depth (x :: lexemes) = depthAfter depth lexemes := by
  have hnext : depthNext depth x = some depth := by
    unfold depthNext
    rw [if_neg hopening, if_neg hclosing]
  rw [depthAfter, List.foldlM_cons, hnext]
  rfl

/-- The number of open groups is counted from the first lexeme on. -/
lemma depthAfter_cons (depth : Nat) (x : Text) (lexemes : List Text) :
    depthAfter depth (x :: lexemes) =
      (depthNext depth x).bind fun depth => depthAfter depth lexemes :=
  List.foldlM_cons

/-- The number of open groups is counted lexeme by lexeme. -/
lemma depthAfter_append (depth : Nat) (first second : List Text) :
    depthAfter depth (first ++ second) =
      (depthAfter depth first).bind fun depth => depthAfter depth second :=
  List.foldlM_append

/-- Derived lexemes leave the groups around them as they are. -/
lemma Derives.depthAfter_eq {n : Nonterminal} {lexemes : List Text} {tree : Expr}
    (h : Derives n lexemes tree) (depth : Nat) : depthAfter depth lexemes = some depth := by
  have hop (op : Operator) (depth : Nat) (lexemes : List Text) :
      depthAfter depth (op.lexeme :: lexemes) = depthAfter depth lexemes :=
    depthAfter_other op.lexeme_ne_opening op.lexeme_ne_closing depth lexemes
  induction h generalizing depth with
  | sum _ _ _ ihl ihr | product _ _ _ ihl ihr =>
    rw [depthAfter_append, ihl, Option.bind_some, hop, ihr]
  | ofProduct _ ih | ofFactor _ ih => exact ih depth
  | operand hx => rw [depthAfter_other hx.ne_opening hx.ne_closing, depthAfter_nil]
  | group _ ih =>
    rw [List.cons_append, depthAfter_opening, depthAfter_append, ih, Option.bind_some,
      depthAfter_closing, depthAfter_nil]

/-- Derived lexemes are balanced. -/
lemma Derives.balanced {n : Nonterminal} {lexemes : List Text} {tree : Expr}
    (h : Derives n lexemes tree) : Balanced lexemes :=
  h.depthAfter_eq 0

/-! ## Removal of a pair -/

/-- The second sequence is the first one without one matched pair of parentheses. -/
inductive RemovesPair : List Text → List Text → Prop
  /-- A pair may be removed from around balanced lexemes, wherever they stand. -/
  | intro (before : List Text) {inner : List Text} (after : List Text) (h : Balanced inner) :
      RemovesPair (before ++ ['('] :: (inner ++ [')'] :: after)) (before ++ (inner ++ after))

/-- A pair that can be removed can be removed in any context. -/
lemma RemovesPair.append {lexemes lexemes' : List Text} (h : RemovesPair lexemes lexemes')
    (before after : List Text) :
    RemovesPair (before ++ lexemes ++ after) (before ++ lexemes' ++ after) := by
  obtain ⟨before', after', hinner⟩ := h
  simpa using RemovesPair.intro (before ++ before') (after' ++ after) hinner

/-- Pairs that can be removed can be removed in any context. -/
lemma removesPairs_append {lexemes lexemes' : List Text}
    (h : ReflTransGen RemovesPair lexemes lexemes') (before after : List Text) :
    ReflTransGen RemovesPair (before ++ lexemes ++ after) (before ++ lexemes' ++ after) :=
  h.lift (fun l => before ++ l ++ after) fun _ _ hpair => hpair.append before after

/-! ## The number of parentheses -/

/-- The number of parentheses among the lexemes. -/
def parentheses (lexemes : List Text) : Nat := lexemes.count ['('] + lexemes.count [')']

/-- A removal takes two parentheses away. -/
lemma RemovesPair.parentheses_eq {lexemes lexemes' : List Text} (h : RemovesPair lexemes lexemes') :
    parentheses lexemes = parentheses lexemes' + 2 := by
  obtain ⟨before, after, -⟩ := h
  simp [parentheses]
  omega

/-- Removals take parentheses away. -/
lemma parentheses_lt_of_transGen {lexemes lexemes' : List Text}
    (h : TransGen RemovesPair lexemes lexemes') : parentheses lexemes' < parentheses lexemes := by
  induction h with
  | single h =>
    have htwo := h.parentheses_eq
    omega
  | tail _ h ih =>
    have htwo := h.parentheses_eq
    omega

/-- Where pairs are removed, either nothing is changed or there are fewer parentheses. -/
lemma eq_or_parentheses_lt {lexemes lexemes' : List Text}
    (h : ReflTransGen RemovesPair lexemes lexemes') :
    lexemes' = lexemes ∨ parentheses lexemes' < parentheses lexemes :=
  (reflTransGen_iff_eq_or_transGen.mp h).imp_right parentheses_lt_of_transGen

end PostfixCalculator
