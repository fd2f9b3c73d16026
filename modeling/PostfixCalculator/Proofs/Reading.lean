import PostfixCalculator.Proofs.Grammar
import PostfixCalculator.Proofs.Pending

/-!
# Reading a subexpression wherever it stands

While a subexpression is read, the output is a mixture of what stood before it and of its own
operands and operators, and some of its operators may still be pending when its last lexeme has
been read.  What is true of the two together is that releasing those operators completes its
postfix order.

`Grows` states this of two conversions, and `Reads` states of lexemes that they have this effect
on every conversion in which no operator on top would be put out by them.  There is one rule of
`Reads` for every production of the grammar, so that everything derived from it is read as the
postfix order of its tree; at the start of a conversion nothing is pending, so that this holds of
whole expressions in particular.
-/

namespace PostfixCalculator

namespace Conversion

variable {c c' : Conversion} {op : Operator} {token : Token} {tokens : List Token} {x : Text}
  {first second lexemes unread : List Text} {level : Nat}

/-! ## Reading single lexemes -/

/-- The lexeme of a legible token is read by taking the token. -/
lemma read_lexeme (token : Token) (h : token.Legible) : c.read token.lexeme = c.step token := by
  simp [read, Token.read_lexeme h, Except.bind]

/-- An operand is read by putting it out. -/
lemma read_operand (h : IsOperand x) :
    c.read x = .ok ⟨.operand x :: c.output, c.pending, c.position + 1⟩ :=
  read_lexeme (.operand x) h

/-- The lexeme of an operator is read by taking the operator. -/
lemma read_operator : c.read op.lexeme = c.step (.operator op) :=
  read_lexeme (.operator op) trivial

/-- An opening parenthesis is read by opening a group. -/
lemma read_opening :
    c.read ['('] = .ok ⟨c.output, .group c.position :: c.pending, c.position + 1⟩ :=
  read_lexeme .opening trivial

/-- A closing parenthesis is read by closing a group. -/
lemma read_closing : c.read [')'] = c.step .closing :=
  read_lexeme .closing trivial

/-! ## Reading several lexemes -/

/-- One lexeme that is read well is a run of its own. -/
lemma run_singleton (h : c.read x = .ok c') : c.run [x] = (.ok c', []) := by
  simp [run, h]

/-- After lexemes that are read well the run goes on from where they lead. -/
lemma run_append (h : c.run first = (.ok c', [])) :
    c.run (first ++ second) = c'.run second := by
  induction first generalizing c with
  | nil =>
    obtain rfl : c = c' := by simpa [run] using h
    rfl
  | cons x first ih =>
    rw [List.cons_append, run]
    cases hread : c.read x with
    | error error => simp [run, hread] at h
    | ok next => exact ih (by simpa [run, hread] using h)

/-! ## Growth -/

/-- From `c` to `c'` the tokens have been read, apart from operators that bind at least as tight as
the level: these are pending on top of what was pending before, and releasing them completes the
tokens in the output. -/
def Grows (level : Nat) (tokens : List Token) (c c' : Conversion) : Prop :=
  ∃ ops, (∀ entry ∈ ops, level ≤ entry.1.precedence) ∧ c'.pending = waiting ops ++ c.pending ∧
    released ops ++ c'.output = tokens.reverse ++ c.output

/-- The operators that are pending bind at least as tight as every lower level. -/
lemma Grows.of_le {level' : Nat} (h : Grows level tokens c c') (hle : level' ≤ level) :
    Grows level' tokens c c' := by
  obtain ⟨ops, hops, hpending, houtput⟩ := h
  exact ⟨ops, fun entry hentry => hle.trans (hops entry hentry), hpending, houtput⟩

/-- An operator that binds no tighter than the level completes the tokens and is then pending on
top of what was pending before them. -/
lemma Grows.read_operator (h : Grows op.precedence tokens c c')
    (hbelow : Below op.precedence c.pending) :
    c'.read op.lexeme = .ok ⟨tokens.reverse ++ c.output, .operator op c'.position :: c.pending,
      c'.position + 1⟩ := by
  obtain ⟨ops, hops, hpending, houtput⟩ := h
  have hrelease : release op c'.output c'.pending = (tokens.reverse ++ c.output, c.pending) := by
    rw [hpending, release_waiting hops, houtput, release_of_below hbelow]
  rw [Conversion.read_operator, step, hrelease]

/-- A closing parenthesis completes the tokens of the group and leaves what was pending before. -/
lemma Grows.read_closing {position : Nat} {pending : List Pending} (h : Grows level tokens c c')
    (hpending : c.pending = .group position :: pending) :
    c'.read [')'] = .ok ⟨tokens.reverse ++ c.output, pending, c'.position + 1⟩ := by
  obtain ⟨ops, -, hpending', houtput⟩ := h
  have hclose : closeGroup? c'.output c'.pending = some (tokens.reverse ++ c.output, pending) := by
    rw [hpending', closeGroup?_waiting, houtput, hpending, closeGroup?]
  rw [Conversion.read_closing, step, hclose]

/-- The end of the input completes the tokens if nothing was pending before them. -/
lemma Grows.finish (h : Grows level tokens {} c') : c'.finish = .ok tokens := by
  obtain ⟨ops, -, hpending, houtput⟩ := h
  have hrelease : releaseAll c'.output c'.pending = .ok tokens.reverse := by
    rw [hpending, releaseAll_waiting, houtput, List.append_nil]
    rfl
  rw [Conversion.finish, hrelease, Except.map, List.reverse_reverse]

/-! ## Reading in any context -/

/-- The lexemes are read as the tokens, up to pending operators, by every conversion in which no
operator on top binds as tight as the level. -/
def Reads (level : Nat) (lexemes : List Text) (tokens : List Token) : Prop :=
  ∀ c : Conversion, Below level c.pending →
    ∃ c', c.run lexemes = (.ok c', []) ∧ Grows level tokens c c'

/-- What is read as tokens at a level is read so at every lower one. -/
lemma Reads.of_le {level' : Nat} (h : Reads level lexemes tokens) (hle : level' ≤ level) :
    Reads level' lexemes tokens := by
  intro c hbelow
  obtain ⟨c', hrun, hgrows⟩ := h c (hbelow.of_le hle)
  exact ⟨c', hrun, hgrows.of_le hle⟩

/-- An operand is read as itself. -/
lemma reads_operand (h : IsOperand x) : Reads level [x] [.operand x] := by
  intro c _
  exact ⟨_, run_singleton (read_operand h), [], by simp, rfl, rfl⟩

/-- A group is read as what is read between its parentheses. -/
lemma Reads.group {level' : Nat} (h : Reads level lexemes tokens) :
    Reads level' (['('] :: lexemes ++ [[')']]) tokens := by
  intro c _
  let opened : Conversion := ⟨c.output, .group c.position :: c.pending, c.position + 1⟩
  have hopening : c.read ['('] = .ok opened := read_opening
  obtain ⟨c', hrun, hgrows⟩ := h opened below_group
  have hclosing := hgrows.read_closing rfl
  refine ⟨⟨tokens.reverse ++ c.output, c.pending, c'.position + 1⟩, ?_, [], by simp, rfl, rfl⟩
  rw [List.cons_append, run, hopening]
  exact (run_append hrun).trans (run_singleton hclosing)

/-- An operation is read as its left operand, its right operand and its operator, if its left
operand is read at the level of the operator and its right operand at the next one. -/
lemma Reads.operation {left right : List Text} {a b : List Token} (hop : op.precedence = level)
    (hleft : Reads level left a) (hright : Reads (level + 1) right b) :
    Reads level (left ++ op.lexeme :: right) (a ++ b ++ [.operator op]) := by
  subst hop
  intro c hbelow
  obtain ⟨c₁, hrun₁, hgrows₁⟩ := hleft c hbelow
  -- The operator completes the left operand and waits below the operators of the right one.
  let c₂ : Conversion :=
    ⟨a.reverse ++ c.output, .operator op c₁.position :: c.pending, c₁.position + 1⟩
  have hread : c₁.read op.lexeme = .ok c₂ := hgrows₁.read_operator hbelow
  obtain ⟨c₃, hrun₃, ops, hops, hpending, houtput⟩ := hright c₂ (Nat.lt_succ_self _)
  refine ⟨c₃, ?_, ops ++ [(op, c₁.position)], ?_, ?_, ?_⟩
  · rw [run_append hrun₁, run, hread]
    exact hrun₃
  · intro entry hentry
    rcases List.mem_append.mp hentry with hentry | hentry
    · exact (Nat.le_succ _).trans (hops entry hentry)
    · obtain rfl := List.mem_singleton.mp hentry
      exact le_rfl
  · rw [hpending]
    simp [c₂]
  · rw [released_append, List.append_assoc, houtput]
    simp [c₂]

/-- What is derived from a nonterminal is read at its level as the postfix order of its tree. -/
theorem reads_of_derives {n : Nonterminal} {tree : Expr} (h : Derives n lexemes tree) :
    Reads n.level lexemes tree.toPostfix := by
  induction h with
  | sum hop _ _ ihl ihr => exact Reads.operation (Operator.precedence_of_additive hop) ihl ihr
  | ofProduct _ ih => exact ih.of_le (by decide)
  | product hop _ _ ihl ihr =>
    exact Reads.operation (Operator.precedence_of_multiplicative hop) ihl ihr
  | ofFactor _ ih => exact ih.of_le (by decide)
  | operand hx => exact reads_operand hx
  | group _ ih => exact ih.group

/-! ## Whole expressions -/

/-- Lexemes that are read as tokens in any context are read so on their own. -/
lemma Reads.ofLexemes (h : Reads level lexemes tokens) :
    Postfix.ofLexemes lexemes = (.ok tokens, []) := by
  obtain ⟨c, hrun, hgrows⟩ := h {} below_nil
  simp only [Postfix.ofLexemes, hrun, Except.bind, hgrows.finish]

end Conversion

/-- **Conversion of grammatical expressions.**  Lexemes derived from the grammar are converted
without error and without a rest, and the result is the postfix order of the tree of their
derivation. -/
theorem Postfix.ofLexemes_of_derives {lexemes : List Text} {tree : Expr}
    (h : Derives .sum lexemes tree) : Postfix.ofLexemes lexemes = (.ok tree.toPostfix, []) :=
  (Conversion.reads_of_derives h).ofLexemes

/-- The expression `8 - ( 4 - x ) * 3 - 1`, in which operators of both kinds stand before, inside
and behind a group, is derived from the grammar and converted to `8 4 x - 3 * - 1 -`. -/
theorem Postfix.ofLexemes_differences :
    Derives .sum
        [['8'], ['-'], ['('], ['4'], ['-'], ['x'], [')'], ['*'], ['3'], ['-'], ['1']]
        (.operation .sub (.operation .sub (.operand ['8']) (.operation .mul
          (.operation .sub (.operand ['4']) (.operand ['x'])) (.operand ['3']))) (.operand ['1'])) ∧
      Postfix.ofLexemes
          [['8'], ['-'], ['('], ['4'], ['-'], ['x'], [')'], ['*'], ['3'], ['-'], ['1']] =
        (.ok [.operand ['8'], .operand ['4'], .operand ['x'], .operator .sub, .operand ['3'],
          .operator .mul, .operator .sub, .operand ['1'], .operator .sub], []) := by
  have hfactor (c : Char) (hc : IsOperand [c]) {n : Nonterminal} :
      Derives n [[c]] (.operand [c]) := .of_factor (.operand hc)
  have hinner : Derives .sum [['4'], ['-'], ['x']] _ :=
    .sum (.inr rfl) (hfactor '4' (by decide)) (hfactor 'x' (by decide))
  have hgroup : Derives .factor [['('], ['4'], ['-'], ['x'], [')']] _ := .group hinner
  have hproduct : Derives .product [['('], ['4'], ['-'], ['x'], [')'], ['*'], ['3']] _ :=
    .product (.inl rfl) (.of_factor hgroup) (hfactor '3' (by decide))
  have hfirst : Derives .sum
      [['8'], ['-'], ['('], ['4'], ['-'], ['x'], [')'], ['*'], ['3']] _ :=
    .sum (.inr rfl) (hfactor '8' (by decide)) hproduct
  have hsecond : Derives .sum
      [['8'], ['-'], ['('], ['4'], ['-'], ['x'], [')'], ['*'], ['3'], ['-'], ['1']] _ :=
    .sum (.inr rfl) hfirst (hfactor '1' (by decide))
  exact ⟨hsecond, Postfix.ofLexemes_of_derives hsecond⟩

end PostfixCalculator
