import PostfixCalculator.Proofs.Output
import PostfixCalculator.Proofs.Parentheses
import PostfixCalculator.Proofs.Reading

/-!
# The groups that are open during a conversion

Whether a conversion goes on does not depend on its operators.  The groups on its stack are the
opening parentheses that have no partner yet, one after the other, and a lexeme that is not empty
is refused only if it is a closing parenthesis and there is no such group.

So how far a conversion gets can be told from the parentheses alone: it reads lexemes that are not
empty as long as the number of open groups can be counted through them, and this number is that
of the groups on the stack.
-/

namespace PostfixCalculator

namespace Conversion

variable {c c' : Conversion} {out : List Token} {pending : List Pending} {error : Error}
  {ops : List (Operator × Nat)} {x : Text} {first second lexemes unread : List Text} {depth : Nat}

/-! ## Groups on the stack -/

/-- The positions of the open groups, the innermost first. -/
def openGroups : List Pending → List Nat
  | [] => []
  | .group position :: pending => position :: openGroups pending
  | .operator _ _ :: pending => openGroups pending

/-- Operators that wait open no groups. -/
@[simp] lemma openGroups_waiting_append :
    openGroups (waiting ops ++ pending) = openGroups pending := by
  induction ops with
  | nil => rfl
  | cons entry ops ih => exact ih

/-- An operator leaves the groups as they are. -/
lemma openGroups_release (op : Operator) (out : List Token) (pending : List Pending) :
    openGroups (release op out pending).2 = openGroups pending := by
  obtain ⟨ops, rest, hpending, -, -, hrelease⟩ := exists_release op out pending
  rw [hrelease, hpending, openGroups_waiting_append]

/-- A closing parenthesis is refused if no group is open. -/
lemma closeGroup?_eq_none (h : openGroups pending = []) : closeGroup? out pending = none := by
  induction pending generalizing out with
  | nil => rfl
  | cons entry pending ih =>
    cases entry with
    | group position => simp [openGroups] at h
    | operator op position => exact ih h

/-- A closing parenthesis closes the innermost group. -/
lemma exists_closeGroup? {position : Nat} {groups : List Nat} (out : List Token)
    (h : openGroups pending = position :: groups) :
    ∃ out' pending', closeGroup? out pending = some (out', pending') ∧
      openGroups pending' = groups := by
  induction pending generalizing out with
  | nil => simp [openGroups] at h
  | cons entry pending ih =>
    cases entry with
    | group position' =>
      obtain ⟨-, hgroups⟩ := List.cons.inj h
      exact ⟨out, pending, rfl, hgroups⟩
    | operator op position' => exact ih _ h

/-! ## Reading single lexemes -/

/-- A lexeme that is no parenthesis is read, unless it is empty, and leaves the groups as they
are. -/
lemma exists_read_other (hx : x ≠ []) (hopening : x ≠ ['(']) (hclosing : x ≠ [')']) :
    ∃ c', c.read x = .ok c' ∧ openGroups c'.pending = openGroups c.pending ∧
      c'.position = c.position + 1 := by
  have hlexeme : (Token.ofLexeme x).lexeme = x := Token.lexeme_ofLexeme x
  simp only [read_eq_ok_iff]
  cases hread : Token.ofLexeme x with
  | operand text => exact ⟨_, ⟨hx, rfl⟩, rfl, rfl⟩
  | operator op =>
    refine ⟨_, ⟨hx, rfl⟩, ?_, rfl⟩
    exact openGroups_release op c.output c.pending
  | opening => exact absurd (hlexeme.symm.trans (congrArg Token.lexeme hread)) hopening
  | closing => exact absurd (hlexeme.symm.trans (congrArg Token.lexeme hread)) hclosing

/-- A lexeme that is not empty is read if the number of open groups can be counted through it. -/
lemma exists_read_of_depthNext (hx : x ≠ [])
    (h : depthNext (openGroups c.pending).length x = some depth) :
    ∃ c', c.read x = .ok c' ∧ (openGroups c'.pending).length = depth ∧
      c'.position = c.position + 1 := by
  unfold depthNext at h
  by_cases hopening : x = ['(']
  · subst hopening
    obtain rfl : (openGroups c.pending).length + 1 = depth := by simpa using h
    exact ⟨_, read_opening, rfl, rfl⟩
  · by_cases hclosing : x = [')']
    · subst hclosing
      cases hgroups : openGroups c.pending with
      | nil => simp [hgroups] at h
      | cons position groups =>
        obtain rfl : groups.length = depth := by simpa [hgroups] using h
        obtain ⟨out', pending', hclose, hpending⟩ := exists_closeGroup? c.output hgroups
        refine ⟨⟨out', pending', c.position + 1⟩, ?_, congrArg List.length hpending, rfl⟩
        rw [read_closing, step, hclose]
    · obtain ⟨c', hread, hgroups, hposition⟩ := exists_read_other (c := c) hx hopening hclosing
      obtain rfl : (openGroups c.pending).length = depth := by simpa [hopening, hclosing] using h
      exact ⟨c', hread, congrArg List.length hgroups, hposition⟩

/-- A lexeme is refused if it is a closing parenthesis and no group is open. -/
lemma read_of_depthNext (h : depthNext (openGroups c.pending).length x = none) :
    c.read x = .error (.unmatchedParenthesis c.position) := by
  unfold depthNext at h
  by_cases hopening : x = ['(']
  · simp [hopening] at h
  · by_cases hclosing : x = [')']
    · subst hclosing
      cases hgroups : openGroups c.pending with
      | nil => rw [read_closing, step, closeGroup?_eq_none hgroups]
      | cons position groups => simp [hgroups] at h
    · simp [hopening, hclosing] at h

/-! ## Reading several lexemes -/

/-- Lexemes that are not empty are read if the number of open groups can be counted through them,
and this is the number of groups on the stack then. -/
lemma exists_run_of_depthAfter (hne : ∀ x ∈ lexemes, x ≠ [])
    (h : depthAfter (openGroups c.pending).length lexemes = some depth) :
    ∃ c', c.run lexemes = (.ok c', []) ∧ (openGroups c'.pending).length = depth ∧
      c'.position = c.position + lexemes.length := by
  induction lexemes generalizing c with
  | nil =>
    obtain rfl : _ = depth := by simpa using h
    exact ⟨c, rfl, rfl, rfl⟩
  | cons x lexemes ih =>
    have hx : x ≠ [] := hne x List.mem_cons_self
    rw [depthAfter_cons] at h
    cases hnext : depthNext (openGroups c.pending).length x with
    | none => simp [hnext] at h
    | some depth' =>
      obtain ⟨c₁, hread, rfl, hposition⟩ := exists_read_of_depthNext hx hnext
      have hrest : depthAfter (openGroups c₁.pending).length lexemes = some depth := by
        simpa [hnext] using h
      obtain ⟨c₂, hrun, hdepth, hposition'⟩ :=
        ih (fun y hy => hne y (List.mem_cons_of_mem _ hy)) hrest
      refine ⟨c₂, ?_, hdepth, ?_⟩
      · rw [run, hread]
        exact hrun
      · rw [hposition', hposition, List.length_cons]
        omega

/-- Lexemes that are not empty are refused at a closing parenthesis if the number of open groups
cannot be counted through them. -/
lemma run_of_depthAfter (hne : ∀ x ∈ lexemes, x ≠ [])
    (h : depthAfter (openGroups c.pending).length lexemes = none) :
    ∃ position unread, c.run lexemes = (.error (.unmatchedParenthesis position), unread) := by
  induction lexemes generalizing c with
  | nil => simp at h
  | cons x lexemes ih =>
    have hx : x ≠ [] := hne x List.mem_cons_self
    rw [depthAfter_cons] at h
    cases hnext : depthNext (openGroups c.pending).length x with
    | none =>
      refine ⟨c.position, lexemes, ?_⟩
      rw [run, read_of_depthNext hnext]
    | some depth' =>
      obtain ⟨c₁, hread, rfl, -⟩ := exists_read_of_depthNext hx hnext
      have hrest : depthAfter (openGroups c₁.pending).length lexemes = none := by
        simpa [hnext] using h
      obtain ⟨position, unread, hrun⟩ := ih (fun y hy => hne y (List.mem_cons_of_mem _ hy)) hrest
      refine ⟨position, unread, ?_⟩
      rw [run, hread]
      exact hrun

/-- After lexemes that are refused nothing more is read. -/
lemma run_append_of_error (h : c.run first = (.error error, unread)) :
    c.run (first ++ second) = (.error error, unread ++ second) := by
  induction first generalizing c with
  | nil => simp [run] at h
  | cons x first ih =>
    rw [List.cons_append, run]
    rw [run] at h
    cases hread : c.read x with
    | error error' =>
      obtain ⟨rfl, rfl⟩ : error' = error ∧ first = unread := by simpa [hread] using h
      rfl
    | ok next => exact ih (by simpa [hread] using h)

/-! ## The end of the input -/

/-- At the end of the input nothing is refused if no group is open. -/
lemma exists_finish (h : openGroups c.pending = []) : ∃ tokens, c.finish = .ok tokens := by
  have hrelease (out : List Token) {pending : List Pending} (h : openGroups pending = []) :
      ∃ out', releaseAll out pending = .ok out' := by
    induction pending generalizing out with
    | nil => exact ⟨out, rfl⟩
    | cons entry pending ih =>
      cases entry with
      | group position => simp [openGroups] at h
      | operator op position => exact ih _ h
  obtain ⟨out', hout⟩ := hrelease c.output h
  exact ⟨out'.reverse, by rw [finish, hout, Except.map]⟩

/-- At the end of the input the innermost open group is refused. -/
lemma finish_of_openGroups {position : Nat} {groups : List Nat}
    (h : openGroups c.pending = position :: groups) :
    c.finish = .error (.unmatchedParenthesis position) := by
  have hrelease (out : List Token) {pending : List Pending}
      (h : openGroups pending = position :: groups) :
      releaseAll out pending = .error (.unmatchedParenthesis position) := by
    induction pending generalizing out with
    | nil => simp [openGroups] at h
    | cons entry pending ih =>
      cases entry with
      | group position' =>
        obtain ⟨rfl, -⟩ := List.cons.inj h
        rfl
      | operator op position' => exact ih _ h
  rw [finish, hrelease c.output h, Except.map]

/-- At the end of the input only an open group is refused. -/
lemma exists_of_finish_eq_error (h : c.finish = .error error) :
    ∃ position, error = .unmatchedParenthesis position := by
  cases hgroups : openGroups c.pending with
  | nil =>
    obtain ⟨tokens, hok⟩ := exists_finish hgroups
    simp [hok] at h
  | cons position groups =>
    exact ⟨position, Except.error.inj (h.symm.trans (finish_of_openGroups hgroups))⟩

end Conversion

/-- If no lexeme is empty, then only a parenthesis without a partner is refused. -/
lemma Postfix.exists_of_ofLexemes_eq_error {lexemes : List Text} {error : Error}
    (hne : ∀ x ∈ lexemes, x ≠ []) (h : (Postfix.ofLexemes lexemes).1 = .error error) :
    ∃ position, error = .unmatchedParenthesis position := by
  cases hdepth : depthAfter (Conversion.openGroups ({} : Conversion).pending).length lexemes with
  | none =>
    obtain ⟨position, unread, hrun⟩ := Conversion.run_of_depthAfter hne hdepth
    obtain rfl : .unmatchedParenthesis position = error := by
      simpa [ofLexemes, hrun, Except.bind] using h
    exact ⟨position, rfl⟩
  | some depth =>
    obtain ⟨c, hrun, -, -⟩ := Conversion.exists_run_of_depthAfter hne hdepth
    have hfinish : c.finish = .error error := by simpa [ofLexemes, hrun, Except.bind] using h
    exact Conversion.exists_of_finish_eq_error hfinish

end PostfixCalculator
