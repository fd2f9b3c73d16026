import PostfixCalculator.Proofs.Pending

/-!
# What a conversion puts out

A conversion puts out operands that it has read and operators, and nothing else.  This is said by
way of an arbitrary predicate on tokens: if it holds of every operator and of every operand among
the lexemes, then it holds of every token in the result.  One step of a conversion adds to the
output a stretch of operators from the stack and perhaps the operand that it takes, so the
predicate is kept by every step and by every run.
-/

namespace PostfixCalculator

namespace Conversion

variable {c c' : Conversion} {token : Token} {x : Text} {lexemes unread : List Text}
  {p : Token → Prop}

/-- A lexeme is read if it is not empty and its token can be taken. -/
lemma read_eq_ok_iff : c.read x = .ok c' ↔ x ≠ [] ∧ c.step (Token.ofLexeme x) = .ok c' := by
  unfold read Token.read
  cases x with
  | nil => simp [Except.bind]
  | cons d x => simp [Except.bind]

/-- What is true of operators is true of every token that a stretch of them adds to the output. -/
lemma forall_mem_released_append {ops : List (Operator × Nat)} {out : List Token}
    (hop : ∀ op, p (.operator op)) (hout : ∀ t ∈ out, p t) : ∀ t ∈ released ops ++ out, p t := by
  intro t ht
  rcases List.mem_append.mp ht with ht | ht
  · obtain ⟨op, rfl⟩ := exists_operator_of_mem_released ht
    exact hop op
  · exact hout t ht

/-- One step adds operators to the output, and the token itself if it is an operand. -/
lemma forall_mem_output_of_step (hop : ∀ op, p (.operator op))
    (htoken : ∀ text, token = .operand text → p token) (h : c.step token = .ok c')
    (hc : ∀ t ∈ c.output, p t) : ∀ t ∈ c'.output, p t := by
  cases token with
  | operand text =>
    obtain rfl := Except.ok.inj h
    intro t ht
    rcases List.mem_cons.mp ht with rfl | ht
    · exact htoken text rfl
    · exact hc t ht
  | operator op =>
    obtain ⟨ops, rest, -, -, -, hrelease⟩ := exists_release op c.output c.pending
    rw [step, hrelease] at h
    obtain rfl := Except.ok.inj h
    exact forall_mem_released_append hop hc
  | opening =>
    obtain rfl := Except.ok.inj h
    exact hc
  | closing =>
    rw [step] at h
    split at h
    · next out pending hclose =>
      obtain ⟨ops, position, -, rfl⟩ := closeGroup?_eq_some_iff.mp hclose
      obtain rfl := Except.ok.inj h
      exact forall_mem_released_append hop hc
    · simp at h

/-- A run adds operators to the output, and the operands among the lexemes. -/
lemma forall_mem_output_of_run (hop : ∀ op, p (.operator op))
    (hx : ∀ x ∈ lexemes, IsOperand x → p (.operand x)) (h : c.run lexemes = (.ok c', unread))
    (hc : ∀ t ∈ c.output, p t) : ∀ t ∈ c'.output, p t := by
  induction lexemes generalizing c with
  | nil =>
    obtain ⟨rfl, -⟩ : c = c' ∧ _ := by simpa [run] using h
    exact hc
  | cons x lexemes ih =>
    rw [run] at h
    split at h
    · next next hread =>
      obtain ⟨hne, hstep⟩ := read_eq_ok_iff.mp hread
      refine ih (fun y hy => hx y (List.mem_cons_of_mem _ hy)) h
        (forall_mem_output_of_step hop ?_ hstep hc)
      intro text htext
      have hoperand : IsOperand text := by
        have hlegible := Token.legible_ofLexeme hne
        rwa [htext] at hlegible
      obtain rfl : text = x :=
        (congrArg Token.lexeme htext).symm.trans (Token.lexeme_ofLexeme x)
      rw [htext]
      exact hx text List.mem_cons_self hoperand
    · simp at h

end Conversion

/-- Every token in the result of a conversion is an operator, or an operand among the lexemes. -/
theorem Postfix.forall_mem_ofLexemes {lexemes : List Text} {tokens : Postfix} {p : Token → Prop}
    (hop : ∀ op, p (.operator op)) (hx : ∀ x ∈ lexemes, IsOperand x → p (.operand x))
    (h : (Postfix.ofLexemes lexemes).1 = .ok tokens) : ∀ token ∈ tokens, p token := by
  rcases hrun : ({} : Conversion).run lexemes with ⟨_ | c, unread⟩
  · simp [ofLexemes, hrun, Except.bind] at h
  · simp only [ofLexemes, hrun, Except.bind, Conversion.finish] at h
    cases hrelease : Conversion.releaseAll c.output c.pending with
    | error error => simp [hrelease, Except.map] at h
    | ok out =>
      obtain rfl : out.reverse = tokens := by simpa [hrelease, Except.map] using h
      obtain ⟨ops, -, rfl⟩ := Conversion.releaseAll_eq_ok_iff.mp hrelease
      intro token htoken
      have hc : ∀ t ∈ c.output, p t :=
        Conversion.forall_mem_output_of_run hop hx hrun (by simp)
      exact Conversion.forall_mem_released_append hop hc token (List.mem_reverse.mp htoken)

end PostfixCalculator
