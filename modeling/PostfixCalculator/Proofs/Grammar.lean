import PostfixCalculator.Expr
import PostfixCalculator.Proofs.Legible

/-!
# The grammar of expressions in infix order

The grammar has three nonterminals.  A sum is a sum, an additive operator and a product, or a
product alone; a product is a product, a multiplicative operator and a factor, or a factor alone;
a factor is an operand or a sum in parentheses.  It is left recursive, so that operators of one
kind associate to the left, and the order of the nonterminals is the order of precedence.

`Derives` says that lexemes are derived from a nonterminal and which tree the derivation has, in
which parentheses leave no trace.
-/

namespace PostfixCalculator

/-- The nonterminals of the grammar. -/
inductive Nonterminal where
  /-- A sequence of products with additive operators in between. -/
  | sum
  /-- A sequence of factors with multiplicative operators in between. -/
  | product
  /-- An operand, or a sum in parentheses. -/
  | factor
deriving DecidableEq

/-- The lexemes are derived from the nonterminal, and the tree is that of the derivation. -/
inductive Derives : Nonterminal → List Text → Expr → Prop
  /-- A sum, an additive operator and a product are a sum. -/
  | sum {op : Operator} {left right : List Text} {a b : Expr} (additive : op = .add ∨ op = .sub)
      (hleft : Derives .sum left a) (hright : Derives .product right b) :
      Derives .sum (left ++ op.lexeme :: right) (.operation op a b)
  /-- A product is a sum. -/
  | ofProduct {lexemes : List Text} {tree : Expr} (h : Derives .product lexemes tree) :
      Derives .sum lexemes tree
  /-- A product, a multiplicative operator and a factor are a product. -/
  | product {op : Operator} {left right : List Text} {a b : Expr}
      (multiplicative : op = .mul ∨ op = .div)
      (hleft : Derives .product left a) (hright : Derives .factor right b) :
      Derives .product (left ++ op.lexeme :: right) (.operation op a b)
  /-- A factor is a product. -/
  | ofFactor {lexemes : List Text} {tree : Expr} (h : Derives .factor lexemes tree) :
      Derives .product lexemes tree
  /-- An operand is a factor. -/
  | operand {text : Text} (h : IsOperand text) : Derives .factor [text] (.operand text)
  /-- A sum in parentheses is a factor. -/
  | group {lexemes : List Text} {tree : Expr} (h : Derives .sum lexemes tree) :
      Derives .factor (['('] :: lexemes ++ [[')']]) tree

/-- Lexemes are grammatical if they are derived as a sum. -/
def Grammatical (lexemes : List Text) : Prop := ∃ tree, Derives .sum lexemes tree

/-! ## Levels of precedence -/

/-- The least precedence of an operation that the nonterminal produces without parentheses. -/
def Nonterminal.level : Nonterminal → Nat
  | sum => 1
  | product => 2
  | factor => 3

/-- Additive operators have the precedence of sums. -/
lemma Operator.precedence_of_additive {op : Operator} (h : op = .add ∨ op = .sub) :
    op.precedence = Nonterminal.sum.level := by
  rcases h with rfl | rfl <;> rfl

/-- Multiplicative operators have the precedence of products. -/
lemma Operator.precedence_of_multiplicative {op : Operator} (h : op = .mul ∨ op = .div) :
    op.precedence = Nonterminal.product.level := by
  rcases h with rfl | rfl <;> rfl

/-- Every operator is additive or multiplicative. -/
lemma Operator.additive_or_multiplicative (op : Operator) :
    (op = .add ∨ op = .sub) ∨ (op = .mul ∨ op = .div) := by
  cases op <;> simp

/-- A sum produces every operation without parentheses. -/
lemma Expr.level_sum_le_precedence (tree : Expr) : Nonterminal.sum.level ≤ tree.precedence := by
  rcases tree with text | ⟨op, left, right⟩
  · simp [precedence, Nonterminal.level]
  · cases op <;> simp [precedence, Operator.precedence, Nonterminal.level]

/-- What is derived from a nonterminal is derived from every weaker one. -/
lemma Derives.of_le {n m : Nonterminal} {lexemes : List Text} {tree : Expr}
    (h : Derives m lexemes tree) (hle : n.level ≤ m.level) : Derives n lexemes tree := by
  cases m with
  | sum =>
    cases n with
    | sum => exact h
    | product | factor => simp [Nonterminal.level] at hle
  | product =>
    cases n with
    | sum => exact .ofProduct h
    | product => exact h
    | factor => simp [Nonterminal.level] at hle
  | factor =>
    cases n with
    | sum => exact .ofProduct (.ofFactor h)
    | product => exact .ofFactor h
    | factor => exact h

/-- Factors are derived from every nonterminal. -/
lemma Derives.of_factor {n : Nonterminal} {lexemes : List Text} {tree : Expr}
    (h : Derives .factor lexemes tree) : Derives n lexemes tree :=
  h.of_le (by cases n <;> decide)

end PostfixCalculator
