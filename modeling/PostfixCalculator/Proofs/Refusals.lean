import PostfixCalculator.Proofs.Stack

/-!
# What a conversion refuses

A lexeme is refused if it is empty, or if it is a closing parenthesis and no opening one in front of
it is unmatched.  A conversion ends at the first such lexeme and leaves the lexemes behind it
unread.  If there is none, then it reads all lexemes and refuses at most an opening parenthesis, the
last one of those that are unmatched.

Both follow from the invariant of the stack: the groups on it are the unmatched opening parentheses
among the lexemes read, the last one on top.
-/

namespace PostfixCalculator

variable {lexemes rest : List Text} {x : Text} {i j : Nat} {error : Error}

/-- The lexeme at a position is refused, and the error says why. -/
inductive Refused (lexemes : List Text) (i : Nat) : Error → Prop
  /-- An empty lexeme is refused. -/
  | empty (hx : lexemes[i]? = some []) : Refused lexemes i (.emptyToken i)
  /-- A closing parenthesis is refused if there is nothing for it to close. -/
  | closing (hx : lexemes[i]? = some [')']) (hopen : ∀ k, ¬ Unmatched (lexemes.take i) k) :
      Refused lexemes i (.unmatchedParenthesis i)

/-- The lexeme at a position is the first one that is refused. -/
def FirstRefused (lexemes : List Text) (i : Nat) (error : Error) : Prop :=
  Refused lexemes i error ∧ ∀ j < i, ∀ error', ¬ Refused lexemes j error'

/-- Only a lexeme can be refused. -/
lemma Refused.lt_length (h : Refused lexemes i error) : i < lexemes.length := by
  cases h with
  | empty hx | closing hx => exact (List.getElem?_eq_some_iff.mp hx).1

namespace Conversion

variable {c : Conversion}

/-- A conversion refuses the lexeme at its position exactly if it is one that is refused. -/
lemma Tracks.read_eq_error_iff (h : Tracks lexemes c) (hx : lexemes[c.position]? = some x) :
    c.read x = .error error ↔ Refused lexemes c.position error := by
  have hgroups : openGroups c.pending = [] ↔ ∀ k, ¬ Unmatched (lexemes.take c.position) k := by
    rw [← h.openings_eq, openings_eq_nil_iff]
  constructor
  · intro hread
    by_cases hne : x = []
    · subst hne
      obtain rfl : .emptyToken c.position = error := Except.error.inj hread
      exact .empty hx
    · cases hnext : depthNext (openGroups c.pending).length x with
      | none =>
        obtain ⟨rfl, hlength⟩ := depthNext_eq_none_iff.mp hnext
        rw [read_of_depthNext hnext] at hread
        obtain rfl := Except.error.inj hread
        exact .closing hx (hgroups.mp (List.length_eq_zero_iff.mp hlength))
      | some depth =>
        obtain ⟨c', hok, -, -⟩ := exists_read_of_depthNext hne hnext
        simp [hok] at hread
  · intro hrefused
    cases hrefused with
    | empty hempty =>
      obtain rfl : x = [] := Option.some.inj (hx.symm.trans hempty)
      rfl
    | closing hclosing hopen =>
      obtain rfl : x = [')'] := Option.some.inj (hx.symm.trans hclosing)
      refine read_of_depthNext (depthNext_eq_none_iff.mpr ⟨rfl, ?_⟩)
      exact List.length_eq_zero_iff.mpr (hgroups.mpr hopen)

/-- A run ends at the first lexeme that is refused, with the lexemes behind it unread, or it reads
all lexemes and keeps track of them. -/
lemma Tracks.run (h : Tracks lexemes c) (hrest : lexemes.drop c.position = rest)
    (hbefore : ∀ j < c.position, ∀ error, ¬ Refused lexemes j error) :
    (∃ i error, FirstRefused lexemes i error ∧
        c.run rest = (.error error, lexemes.drop (i + 1))) ∨
      (∀ i error, ¬ Refused lexemes i error) ∧
        ∃ c', c.run rest = (.ok c', []) ∧ Tracks lexemes c' ∧ c'.position = lexemes.length := by
  induction rest generalizing c with
  | nil =>
    have hlength : c.position = lexemes.length :=
      Nat.le_antisymm h.position_le (List.drop_eq_nil_iff.mp hrest)
    refine .inr ⟨fun i error hrefused => ?_, c, rfl, h, hlength⟩
    exact hbefore i (hlength ▸ hrefused.lt_length) error hrefused
  | cons x rest ih =>
    obtain ⟨hx, hdrop⟩ := getElem?_of_drop hrest
    rw [Conversion.run]
    cases hread : c.read x with
    | error error =>
      have hrefused : Refused lexemes c.position error := (h.read_eq_error_iff hx).mp hread
      exact .inl ⟨c.position, error, ⟨hrefused, hbefore⟩, by rw [hdrop]⟩
    | ok c' =>
      have hadvances : Advances c x c' := advances_of_read hread
      rw [← hadvances.position_eq] at hdrop
      refine ih (h.advances hx hadvances) hdrop fun j hj error hrefused => ?_
      rw [hadvances.position_eq] at hj
      rcases Nat.lt_succ_iff_lt_or_eq.mp hj with hlt | rfl
      · exact hbefore j hlt error hrefused
      · simp [(h.read_eq_error_iff hx).mpr hrefused] at hread

end Conversion

/-- The lexeme at the position of an error is empty or a parenthesis, and in any case no operand. -/
lemma Postfix.exists_position_of_ofLexemes_eq_error (h : (ofLexemes lexemes).1 = .error error) :
    ∃ i x, (error = .emptyToken i ∨ error = .unmatchedParenthesis i) ∧
      lexemes[i]? = some x ∧ ¬ IsOperand x := by
  rw [ofLexemes] at h
  rcases (Conversion.tracks_start lexemes).run rfl (by simp) with
    ⟨i, error', ⟨hrefused, -⟩, hrun⟩ | ⟨-, c, hrun, htracks, hposition⟩
  · rw [List.drop_zero] at hrun
    obtain rfl : error' = error := by simpa [hrun, Except.bind] using h
    cases hrefused with
    | empty hx => exact ⟨i, [], .inl rfl, hx, fun hoperand => hoperand.ne_nil rfl⟩
    | closing hx hopen => exact ⟨i, [')'], .inr rfl, hx, fun hoperand => hoperand.ne_closing rfl⟩
  · rw [List.drop_zero] at hrun
    have hfinish : c.finish = .error error := by simpa [hrun, Except.bind] using h
    cases hgroups : Conversion.openGroups c.pending with
    | nil =>
      obtain ⟨tokens, hok⟩ := Conversion.exists_finish hgroups
      simp [hok] at hfinish
    | cons k groups =>
      obtain rfl : .unmatchedParenthesis k = error :=
        Except.error.inj ((Conversion.finish_of_openGroups hgroups).symm.trans hfinish)
      have hmem : k ∈ openings lexemes := by
        have hopenings := htracks.openings_eq
        rw [hposition, List.take_length, hgroups] at hopenings
        exact hopenings ▸ List.mem_cons_self
      exact ⟨k, ['('], .inr rfl, (mem_openings_iff.mp hmem).1,
        fun hoperand => hoperand.ne_opening rfl⟩

/-- **Refusals.**  A conversion refuses the first lexeme that is to be refused, and leaves those
behind it unread.  If there is none, then it reads all lexemes, and refuses the last unmatched
opening parenthesis; and if there is none of these either, then it succeeds. -/
theorem Postfix.ofLexemes_firstRefused_or_unmatched (lexemes : List Text) :
    (∃ i error, FirstRefused lexemes i error ∧
        ofLexemes lexemes = (.error error, lexemes.drop (i + 1))) ∨
      (∀ i error, ¬ Refused lexemes i error) ∧
        ((∃ k, IsGreatest {k | Unmatched lexemes k} k ∧
            ofLexemes lexemes = (.error (.unmatchedParenthesis k), [])) ∨
          (∀ k, ¬ Unmatched lexemes k) ∧ ∃ tokens, ofLexemes lexemes = (.ok tokens, [])) := by
  rw [ofLexemes]
  rcases (Conversion.tracks_start lexemes).run rfl (by simp) with
    ⟨i, error, hfirst, hrun⟩ | ⟨hnone, c, hrun, htracks, hposition⟩
  · rw [List.drop_zero] at hrun
    exact .inl ⟨i, error, hfirst, by rw [hrun]; rfl⟩
  · refine .inr ⟨hnone, ?_⟩
    rw [List.drop_zero] at hrun
    have hopenings : openings lexemes = Conversion.openGroups c.pending := by
      rw [← htracks.openings_eq, hposition, List.take_length]
    rw [hrun]
    cases hgroups : Conversion.openGroups c.pending with
    | nil =>
      obtain ⟨tokens, hfinish⟩ := Conversion.exists_finish hgroups
      refine .inr ⟨openings_eq_nil_iff.mp (hopenings.trans hgroups), tokens, ?_⟩
      simp only [Except.bind, hfinish]
    | cons k groups =>
      refine .inl ⟨k, isGreatest_unmatched_iff.mpr ?_, ?_⟩
      · rw [hopenings, hgroups, List.head?_cons]
      · simp only [Except.bind, Conversion.finish_of_openGroups hgroups]

/-- In `( 1 ) ) ( ( 2` the second closing parenthesis has nothing to close, and three lexemes are
left behind it; without it the last parenthesis is refused when all lexemes are read. -/
example :
    Postfix.ofLexemes [['('], ['1'], [')'], [')'], ['('], ['('], ['2']] =
        (.error (.unmatchedParenthesis 3), [['('], ['('], ['2']]) ∧
      Postfix.ofLexemes [['('], ['1'], [')'], ['('], ['('], ['2']] =
        (.error (.unmatchedParenthesis 4), []) := by
  constructor <;> rfl

end PostfixCalculator
