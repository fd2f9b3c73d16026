import Mathlib.Order.Bounds.Basic
import PostfixCalculator.Proofs.Partners
import PostfixCalculator.Token

/-!
# Release points

A term of an expression is an operand or an operator.  The release point of a term is a matter of
the lexemes alone, whether or not they are grammatical.  An operand is released where it stands.  An
operator is released by the first lexeme behind it that is an operator of the same group and binds
no tighter, or the parenthesis that closes its group; and if there is none, by the end of the input.

Ordered by their release points, and those with the same release point from the last to the first,
the terms have one order only.  Since an operand is its own release point, the operands keep the
order of the lexemes in it.
-/

namespace PostfixCalculator

variable {lexemes : List Text} {x : Text} {i j k n : Nat} {op : Operator}

/-! ## Release points -/

/-- The innermost group around a lexeme is opened by the last unmatched parenthesis in front of
it. -/
def InnermostGroup (lexemes : List Text) (i k : Nat) : Prop :=
  IsGreatest {k | Unmatched (lexemes.take i) k} k

/-- Two lexemes stand in the same group if the innermost group around them is the same, or if there
is none around either. -/
def SameGroup (lexemes : List Text) (i j : Nat) : Prop :=
  ∀ k, InnermostGroup lexemes i k ↔ InnermostGroup lexemes j k

/-- The operator at `i` does not wait longer than up to the lexeme at `j`. -/
inductive Releases (lexemes : List Text) (op : Operator) (i j : Nat) : Prop
  /-- An operator of the same group that binds no tighter has come. -/
  | operator {op' : Operator} (hop : lexemes[j]? = some op'.lexeme)
      (hgroup : SameGroup lexemes i j) (hle : op'.precedence ≤ op.precedence)
  /-- The innermost group around it is closed. -/
  | closing {k : Nat} (hgroup : InnermostGroup lexemes i k) (hpartners : Partners lexemes k j)
  /-- The input has come to its end. -/
  | atEnd (hend : j = lexemes.length)

/-- The token of the lexeme at a position. -/
def tokenAt (lexemes : List Text) (i : Nat) : Token := .ofLexeme (lexemes.getD i [])

/-- The release point of an operator is the least position behind it that releases it, and that of
an operand is its own position. -/
def IsReleasePoint (lexemes : List Text) (i point : Nat) : Prop :=
  match tokenAt lexemes i with
  | .operator op => IsLeast {j | i < j ∧ Releases lexemes op i j} point
  | _ => point = i

/-- The token at a position, and where it is released. -/
@[ext]
structure Release where
  /-- Where the token stands. -/
  position : Nat
  /-- Where it is put out. -/
  point : Nat

/-- One release comes before another if its point does, or if it is the same point and its token
stands behind the other one. -/
def Release.Before (a b : Release) : Prop :=
  a.point < b.point ∨ a.point = b.point ∧ b.position < a.position

/-- Operands and operators are the terms of an expression; parentheses are none. -/
def Token.isTerm (token : Token) : Bool := token.isOperand || token.isOperator

/-- The positions of the terms among the first lexemes. -/
def termPositions (lexemes : List Text) (n : Nat) : List Nat :=
  (List.range n).filter fun i => (tokenAt lexemes i).isTerm

/-- All terms of the lexemes in the order in which they are released. -/
structure IsReleaseOrder (lexemes : List Text) (releases : List Release) : Prop where
  /-- Every token is released at its release point. -/
  isReleasePoint : ∀ r ∈ releases, IsReleasePoint lexemes r.position r.point
  /-- Every term is released once, and nothing else is. -/
  positions_perm : (releases.map Release.position).Perm (termPositions lexemes lexemes.length)
  /-- The releases are in order. -/
  pairwise : releases.Pairwise Release.Before

/-! ### What is at a position -/

/-- The innermost group is on top of the stack of unmatched parentheses. -/
lemma innermostGroup_iff :
    InnermostGroup lexemes i k ↔ (openings (lexemes.take i)).head? = some k :=
  isGreatest_unmatched_iff

/-- The innermost group around a lexeme is opened in front of it. -/
lemma InnermostGroup.lt (h : InnermostGroup lexemes i k) : k < i := by
  have hmem : k ∈ openings (lexemes.take i) := List.mem_of_head? (innermostGroup_iff.mp h)
  exact (lt_length_of_mem_openings hmem).trans_le (List.length_take_le _ _)

/-- Lexemes stand in the same group if the same parenthesis is on top in front of them. -/
lemma sameGroup_iff :
    SameGroup lexemes i j ↔
      (openings (lexemes.take i)).head? = (openings (lexemes.take j)).head? := by
  simp only [SameGroup, innermostGroup_iff]
  constructor
  · intro h
    exact Option.ext h
  · intro h k
    rw [h]

/-- The token at the position of a lexeme is read from it. -/
lemma tokenAt_eq (hx : lexemes[i]? = some x) : tokenAt lexemes i = .ofLexeme x := by
  rw [tokenAt, List.getD_eq_getElem?_getD, hx, Option.getD_some]

/-- A term has its position behind those of the terms in front of it. -/
lemma termPositions_succ_of_isTerm (h : (tokenAt lexemes n).isTerm = true) :
    termPositions lexemes (n + 1) = termPositions lexemes n ++ [n] := by
  simp [termPositions, List.range_succ, List.filter_append, h]

/-- A parenthesis has no position among those of the terms. -/
lemma termPositions_succ_of_not_isTerm (h : ¬ (tokenAt lexemes n).isTerm = true) :
    termPositions lexemes (n + 1) = termPositions lexemes n := by
  simp [termPositions, List.range_succ, List.filter_append, h]

/-! ## The order of release -/

/-- Between the same two lexemes there is one order only. -/
lemma Release.Before.asymm {a b : Release} (hab : a.Before b) : ¬ b.Before a := by
  intro hba
  rcases hab with hab | ⟨hpoint, hab⟩
  · rcases hba with hba | ⟨hpoint', -⟩ <;> omega
  · rcases hba with hba | ⟨-, hba⟩ <;> omega

/-- There is at most one release point. -/
lemma IsReleasePoint.unique (hj : IsReleasePoint lexemes i j) (hk : IsReleasePoint lexemes i k) :
    j = k := by
  unfold IsReleasePoint at hj hk
  cases htoken : tokenAt lexemes i with
  | operator op =>
    rw [htoken] at hj hk
    exact IsLeast.unique hj hk
  | operand | opening | closing =>
    rw [htoken] at hj hk
    exact hj.trans hk.symm

/-- An operand is its own release point. -/
lemma IsReleasePoint.eq_of_isOperand (h : IsReleasePoint lexemes i j)
    (hoperand : (tokenAt lexemes i).isOperand = true) : j = i := by
  unfold IsReleasePoint at h
  split at h
  · next htoken => simp [htoken, Token.isOperand] at hoperand
  · exact h

/-- The lexemes alone determine the order of release. -/
lemma IsReleaseOrder.unique {releases releases' : List Release}
    (h : IsReleaseOrder lexemes releases) (h' : IsReleaseOrder lexemes releases') :
    releases = releases' := by
  have hnodup {releases : List Release} (h : IsReleaseOrder lexemes releases) :
      releases.Nodup := h.pairwise.imp fun hab heq => (heq ▸ hab).asymm (heq ▸ hab)
  have hsubset {releases releases' : List Release} (h : IsReleaseOrder lexemes releases)
      (h' : IsReleaseOrder lexemes releases') : releases ⊆ releases' := by
    intro r hr
    have hposition : r.position ∈ releases'.map Release.position :=
      (h.positions_perm.trans h'.positions_perm.symm).subset (List.mem_map_of_mem hr)
    obtain ⟨r', hr', heq⟩ := List.mem_map.mp hposition
    have hpoint : r'.point = r.point :=
      (heq ▸ h'.isReleasePoint r' hr').unique (h.isReleasePoint r hr)
    exact Release.ext heq hpoint ▸ hr'
  have hperm : releases.Perm releases' :=
    (List.perm_ext_iff_of_nodup (hnodup h) (hnodup h')).mpr fun r =>
      ⟨fun hr => hsubset h h' hr, fun hr => hsubset h' h hr⟩
  exact hperm.eq_of_pairwise (fun a b _ _ hab hba => absurd hba hab.asymm) h.pairwise h'.pairwise

/-- The tokens at all positions are those of the lexemes. -/
lemma map_tokenAt_range (lexemes : List Text) :
    (List.range lexemes.length).map (tokenAt lexemes) = lexemes.map Token.ofLexeme := by
  refine List.ext_getElem (by simp) fun i hi hi' => ?_
  rw [List.getElem_map, List.getElem_map, List.getElem_range]
  exact tokenAt_eq (List.getElem?_eq_getElem _)

/-- The tokens at the positions of a kind of token are those of that kind. -/
lemma map_tokenAt_filter (lexemes : List Text) (p : Token → Bool) :
    ((List.range lexemes.length).filter fun i => p (tokenAt lexemes i)).map (tokenAt lexemes) =
      (lexemes.map Token.ofLexeme).filter p := by
  rw [← map_tokenAt_range, List.filter_map]
  rfl

variable {releases : List Release}

/-- The terms are put out, each of them once. -/
lemma IsReleaseOrder.tokens_perm (h : IsReleaseOrder lexemes releases) :
    (releases.map fun r => tokenAt lexemes r.position).Perm
      ((lexemes.map Token.ofLexeme).filter Token.isTerm) := by
  have hperm := h.positions_perm.map (tokenAt lexemes)
  rw [List.map_map] at hperm
  rw [← map_tokenAt_filter]
  exact hperm

/-- The operands are put out in the order in which they are read. -/
lemma IsReleaseOrder.operands_eq (h : IsReleaseOrder lexemes releases) :
    (releases.map fun r => tokenAt lexemes r.position).filter Token.isOperand =
      (lexemes.map Token.ofLexeme).filter Token.isOperand := by
  let q : Nat → Bool := fun i => (tokenAt lexemes i).isOperand
  have hpoint {r : Release} (hr : r ∈ releases.filter (q ∘ Release.position)) :
      r.point = r.position := by
    obtain ⟨hr, hoperand⟩ := List.mem_filter.mp hr
    exact (h.isReleasePoint r hr).eq_of_isOperand hoperand
  have hsorted : ((releases.map Release.position).filter q).Pairwise (· < ·) := by
    rw [List.filter_map, List.pairwise_map]
    refine (h.pairwise.filter (q ∘ Release.position)).imp_of_mem fun {a b} ha hb hab => ?_
    rw [Release.Before, hpoint ha, hpoint hb] at hab
    omega
  have hperm : ((releases.map Release.position).filter q).Perm
      ((List.range lexemes.length).filter q) := by
    have hperm := h.positions_perm.filter q
    have hterm (i : Nat) : (q i && (tokenAt lexemes i).isTerm) = q i := by
      simp only [q, Token.isTerm]
      cases (tokenAt lexemes i).isOperand <;> rfl
    simpa only [termPositions, List.filter_filter, hterm] using hperm
  have heq : (releases.map Release.position).filter q = (List.range lexemes.length).filter q :=
    hperm.eq_of_pairwise (fun a b _ _ hab hba => absurd hba hab.asymm) hsorted
      (List.pairwise_lt_range.filter q)
  rw [← map_tokenAt_filter, ← heq, List.filter_map, List.filter_map, List.map_map]
  rfl

end PostfixCalculator
