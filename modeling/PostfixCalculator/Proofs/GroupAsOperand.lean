import Mathlib.Logic.Function.Iterate
import PostfixCalculator.Proofs.Context
import PostfixCalculator.Proofs.Refusals

/-!
# A group in the place of an operand

A group of lexemes that can be converted on their own stands for one operand in whatever lexemes it
is put: they are converted as if an operand stood in its place, with the tokens of the group where
this operand would be put out, and they are refused under the same conditions.  None of the lexemes
need be grammatical, neither those around the group nor those in it.

Behind an operand and behind a group a conversion has the same stack.  So what comes then is the
same in both cases, within two contexts that differ in the tokens put out before and in the count of
the lexemes read.
-/

namespace PostfixCalculator

/-- Lexemes between parentheses. -/
def enclose (inner : List Text) : List Text := ['('] :: inner ++ [[')']]

namespace Conversion

variable {c c' : Conversion} {lexemes before middle after inner unread : List Text}
  {tokens : List Token} {x : Text} {level extra : Nat}

/-! ## A group in any context -/

/-- Lexemes that are converted on their own are read as the same tokens wherever no operator is on
top of the stack. -/
lemma reads_of_ofLexemes (h : (Postfix.ofLexemes lexemes).1 = .ok tokens) :
    Reads 0 lexemes tokens := by
  intro c hbelow
  rcases hrun : ({} : Conversion).run lexemes with ⟨_ | own, unread⟩
  · simp [Postfix.ofLexemes, hrun, Except.bind] at h
  · obtain ⟨rfl, -⟩ := end_of_run hrun
    have hfinish : own.finish = .ok tokens := by
      simpa [Postfix.ofLexemes, hrun, Except.bind] using h
    let context : Context := ⟨c.output, c.pending, (· + c.position)⟩
    have hclosed : context.Closed 0 := ⟨hbelow, fun p _ => Nat.add_right_comm p 1 c.position⟩
    have hstart : ({} : Conversion).within context = c := by
      simp [within, context]
    have hwithin := run_within hclosed (Nat.zero_le _) hrun
    rw [hstart] at hwithin
    refine ⟨own.within context, hwithin, ?_⟩
    cases hall : releaseAll own.output own.pending with
    | error error => simp [finish, hall, Except.map] at hfinish
    | ok out =>
      obtain rfl : out.reverse = tokens := by simpa [finish, hall, Except.map] using hfinish
      obtain ⟨ops, hops, rfl⟩ := releaseAll_eq_ok_iff.mp hall
      refine ⟨ops.map (Prod.map id context.move), fun _ _ => Nat.zero_le _, ?_, ?_⟩
      · simp [within, hops, map_move_waiting, context]
      · rw [released_map_position, List.reverse_reverse, List.append_assoc]
        rfl

/-- A group puts out the tokens of its lexemes and leaves the stack as it is. -/
lemma Reads.run_group (h : Reads level inner tokens) (c : Conversion) :
    c.run (enclose inner) =
      (.ok ⟨tokens.reverse ++ c.output, c.pending, c.position + 1 + (inner.length + 1)⟩, []) := by
  have htop (op : Operator) : op.precedence < 3 := by cases op <;> decide
  have hbelow : Below 3 c.pending := by
    match c.pending with
    | [] => trivial
    | .group _ :: _ => trivial
    | .operator op _ :: _ => exact htop op
  obtain ⟨c', hrun, ops, hops, hpending, houtput⟩ := h.group c hbelow
  -- No operator is left pending, since none binds as tight as the level of the group.
  obtain rfl : ops = [] := List.eq_nil_iff_forall_not_mem.mpr fun entry hentry =>
    Nat.not_le.mpr (htop entry.1) (hops entry hentry)
  have hposition : c'.position = c.position + 1 + (inner.length + 1) := by
    rw [(end_of_run hrun).2, List.length_append, List.length_cons, List.length_singleton]
    omega
  rw [enclose, hrun, ← houtput, ← hposition, ← List.nil_append c.pending]
  rw [waiting_nil] at hpending
  rw [← hpending]
  rfl

/-- A run puts out the operands among the lexemes and no other. -/
lemma countP_output_of_run (h : c.run lexemes = (.ok c', unread)) :
    c'.output.countP Token.isOperand =
      c.output.countP Token.isOperand + lexemes.countP fun x => decide (IsOperand x) := by
  have hreleased (ops : List (Operator × Nat)) : (released ops).countP Token.isOperand = 0 := by
    refine List.countP_eq_zero.mpr fun token htoken => ?_
    obtain ⟨op, rfl⟩ := exists_operator_of_mem_released htoken
    simp [Token.isOperand]
  induction lexemes generalizing c with
  | nil =>
    obtain ⟨rfl, -⟩ : c = c' ∧ _ := by simpa [run] using h
    rfl
  | cons x lexemes ih =>
    rw [run] at h
    cases hread : c.read x with
    | error error => simp [hread] at h
    | ok next =>
      rw [ih (by simpa [hread] using h)]
      cases advances_of_read hread with
      | operand hx =>
        simp only [List.countP_cons, hx, Token.isOperand, decide_true, if_true]
        omega
      | operator =>
        have hop (op : Operator) : ¬ IsOperand op.lexeme := fun hx => hx.ne_operator op rfl
        simp [hop, hreleased]
      | opening => simp [show ¬ IsOperand ['('] by decide]
      | closing => simp [show ¬ IsOperand [')'] by decide, hreleased]

/-! ## Behind the place of an operand -/

/-- The conversion behind one more lexeme that leaves the stack as it is, without any output. -/
def skip (c : Conversion) : Conversion := ⟨[], c.pending, c.position + 1⟩

/-- What lexemes lead to that stand behind one that leaves the stack as it is. -/
def continuation (c : Conversion) (after : List Text) : Except Error Postfix :=
  (c.skip.run after).1.bind finish

/-- The context behind lexemes that put out the tokens and leave the stack as it is.  There are as
many of them as `extra` says in addition to one. -/
def behind (c : Conversion) (tokens : List Token) (extra : Nat) : Context where
  output := tokens.reverse ++ c.output
  pending := []
  move := moveFrom c.position extra

/-- The context behind lexemes that leave the stack as it is is closed. -/
lemma closed_behind (c : Conversion) (tokens : List Token) (extra : Nat) :
    (c.behind tokens extra).Closed (c.position + 1) := by
  refine ⟨trivial, fun position hposition => ?_⟩
  have hle : c.position ≤ position := (Nat.le_succ _).trans hposition
  simp only [behind, moveFrom_of_le hle, moveFrom_of_le (Nat.le_succ_of_le hle)]
  omega

/-- Within that context nothing has changed on the stack. -/
lemma within_behind (h : ∀ entry ∈ c.pending, entry.position < c.position) :
    c.skip.within (c.behind tokens extra) =
      ⟨tokens.reverse ++ c.output, c.pending, c.position + 1 + extra⟩ := by
  have hpending : c.pending.map (Pending.move (c.behind tokens extra).move) = c.pending := by
    conv_rhs => rw [← List.map_id c.pending]
    exact List.map_congr_left fun entry hentry =>
      Pending.move_eq_self (moveFrom_of_lt (h entry hentry))
  have hposition : (c.behind tokens extra).move (c.position + 1) = c.position + 1 + extra :=
    moveFrom_of_le (Nat.le_succ c.position)
  simp only [within, skip, hpending, hposition]
  simp [behind]

/-- Lexemes that leave the stack as it is put their tokens in front of what comes then, and move the
errors in it by the count of the lexemes. -/
lemma ofLexemes_of_run_middle (hbefore : ({} : Conversion).run before = (.ok c, []))
    (hmiddle : c.run middle =
      (.ok ⟨tokens.reverse ++ c.output, c.pending, c.position + 1 + extra⟩, [])) :
    (Postfix.ofLexemes (before ++ (middle ++ after))).1 =
      match c.continuation after with
      | .ok rest => .ok (c.output.reverse ++ tokens ++ rest)
      | .error error => .error (error.move (c.behind tokens extra).move) := by
  obtain ⟨htracks, -⟩ := tracks_of_run hbefore
  have hrun : ({} : Conversion).run (before ++ (middle ++ after)) =
      (c.skip.within (c.behind tokens extra)).run after := by
    rw [run_append hbefore, run_append hmiddle, within_behind htracks.position_lt]
  have hclosed := closed_behind c tokens extra
  rw [Postfix.ofLexemes, hrun, continuation]
  rcases hrest : c.skip.run after with ⟨error | own, unread⟩
  · rw [run_within_of_error hclosed rfl le_rfl hrest]
    rfl
  · rw [run_within hclosed le_rfl hrest]
    change (own.within _).finish = match own.finish with | .ok rest => _ | .error error => _
    cases hfinish : own.finish with
    | error error => exact finish_within_of_error rfl hfinish
    | ok rest =>
      rw [finish_within rfl hfinish]
      simp [behind]

end Conversion

namespace Postfix

variable {lexemes inner before after : List Text} {tokens : Postfix} {x : Text}

/-! ## An operand or a group between lexemes -/

/-- A conversion that succeeds leaves no lexeme unread. -/
lemma ofLexemes_eq_of_ok (h : (ofLexemes lexemes).1 = .ok tokens) :
    ofLexemes lexemes = (.ok tokens, []) := by
  rcases hrun : ({} : Conversion).run lexemes with ⟨_ | c, unread⟩
  · simp [ofLexemes, hrun, Except.bind] at h
  · obtain ⟨rfl, -⟩ := Conversion.end_of_run hrun
    rw [ofLexemes, hrun] at h ⊢
    exact congrArg (·, []) h

/-- If the lexemes in front are refused, then nothing behind them matters.  Otherwise an operand and
a group are followed by the same tokens or the same error. -/
lemma ofLexemes_operand_and_group (hinner : (ofLexemes inner).1 = .ok tokens) (hx : IsOperand x)
    (before after : List Text) :
    (∃ error, (ofLexemes before).1 = .error error ∧
      (ofLexemes (before ++ x :: after)).1 = .error error ∧
      (ofLexemes (before ++ (enclose inner ++ after))).1 = .error error) ∨
    ∃ first : List Token,
      first.countP Token.isOperand = before.countP (fun y => decide (IsOperand y)) ∧
      ((∃ rest, (ofLexemes (before ++ x :: after)).1 = .ok (first ++ .operand x :: rest) ∧
          (ofLexemes (before ++ (enclose inner ++ after))).1 = .ok (first ++ tokens ++ rest)) ∨
        ∃ error, (ofLexemes (before ++ x :: after)).1 = .error error ∧
          (ofLexemes (before ++ (enclose inner ++ after))).1 =
            .error (error.move (moveFrom before.length (inner.length + 1)))) := by
  rcases hbefore : ({} : Conversion).run before with ⟨error | c, unread⟩
  · refine .inl ⟨error, ?_, ?_, ?_⟩
    · rw [ofLexemes, hbefore]
      rfl
    · rw [ofLexemes, Conversion.run_append_of_error hbefore]
      rfl
    · rw [ofLexemes, Conversion.run_append_of_error hbefore]
      rfl
  · obtain ⟨rfl, hposition⟩ := Conversion.end_of_run hbefore
    have hlength : c.position = before.length := by simpa using hposition
    have hcount := Conversion.countP_output_of_run hbefore
    have hread : c.run [x] =
        (.ok ⟨[.operand x].reverse ++ c.output, c.pending, c.position + 1 + 0⟩, []) :=
      Conversion.run_singleton (Conversion.read_operand hx)
    have hoperand : (ofLexemes (before ++ x :: after)).1 = _ :=
      Conversion.ofLexemes_of_run_middle hbefore hread
    have hgroup : (ofLexemes (before ++ (enclose inner ++ after))).1 = _ :=
      Conversion.ofLexemes_of_run_middle hbefore
        ((Conversion.reads_of_ofLexemes hinner).run_group c)
    refine .inr ⟨c.output.reverse, by simpa using hcount, ?_⟩
    cases hrest : c.continuation after with
    | ok rest =>
      rw [hrest] at hoperand hgroup
      refine .inl ⟨rest, ?_, hgroup⟩
      simpa using hoperand
    | error error =>
      rw [hrest] at hoperand hgroup
      have hstay : error.move (c.behind [.operand x] 0).move = error :=
        Error.move_eq_self (fun position => ite_self position) error
      refine .inr ⟨error, ?_, ?_⟩
      · rw [hoperand]
        exact congrArg Except.error hstay
      · simpa only [Conversion.behind, hlength] using hgroup

/-- Any number of parentheses may be put around lexemes that are converted on their own. -/
lemma ofLexemes_enclosed (hinner : (ofLexemes inner).1 = .ok tokens) (n : Nat) :
    ofLexemes (enclose^[n] inner) = (.ok tokens, []) := by
  have hreads : Conversion.Reads 0 (enclose^[n] inner) tokens := by
    induction n with
    | zero => exact Conversion.reads_of_ofLexemes hinner
    | succ n ih =>
      rw [Function.iterate_succ_apply']
      exact ih.group
  exact hreads.ofLexemes

/-- **Groups as operands.**  Lexemes are converted with a group in them as they are with an operand
in its place: the tokens of the group stand where the operand would, which is behind as many
operands as there are in front of it, and what is refused is the same, with its position moved if it
is behind the group.  In particular any number of parentheses may be put around the lexemes. -/
theorem ofLexemes_group_for_operand (hinner : (ofLexemes inner).1 = .ok tokens)
    (hx : IsOperand x) (before after : List Text) :
    let plain := before ++ x :: after
    let grouped := before ++ (enclose inner ++ after)
    (∀ result, (ofLexemes plain).1 = .ok result →
      ∃ first rest, result = first ++ .operand x :: rest ∧
        first.countP Token.isOperand = before.countP (fun y => decide (IsOperand y)) ∧
        ofLexemes grouped = (.ok (first ++ tokens ++ rest), [])) ∧
    (∀ error, (ofLexemes plain).1 = .error error →
      ∃ position, (error = .emptyToken position ∨ error = .unmatchedParenthesis position) ∧
        (position < before.length ∧ (ofLexemes grouped).1 = .error error ∨
          before.length < position ∧
            (ofLexemes grouped).1 = .error (error.move (· + (inner.length + 1))))) ∧
    ∀ n, ofLexemes (enclose^[n] inner) = (.ok tokens, []) := by
  refine ⟨fun result hresult => ?_, fun error herror => ?_, ofLexemes_enclosed hinner⟩
  · rcases ofLexemes_operand_and_group hinner hx before after with
      ⟨error, -, hplain, -⟩ | ⟨first, hcount, ⟨rest, hplain, hgrouped⟩ | ⟨error, hplain, -⟩⟩
    · simp [hplain] at hresult
    · obtain rfl : first ++ .operand x :: rest = result :=
        Except.ok.inj (hplain.symm.trans hresult)
      exact ⟨first, rest, rfl, hcount, ofLexemes_eq_of_ok hgrouped⟩
    · simp [hplain] at hresult
  · rcases ofLexemes_operand_and_group hinner hx before after with
      ⟨error', hbefore, hplain, hgrouped⟩ |
      ⟨first, -, ⟨rest, hplain, -⟩ | ⟨error', hplain, hgrouped⟩⟩
    · obtain rfl : error' = error := Except.error.inj (hplain.symm.trans herror)
      obtain ⟨position, y, hvariant, hy, -⟩ := exists_position_of_ofLexemes_eq_error hbefore
      exact ⟨position, hvariant, .inl ⟨(List.getElem?_eq_some_iff.mp hy).1, hgrouped⟩⟩
    · simp [hplain] at herror
    · obtain rfl : error' = error := Except.error.inj (hplain.symm.trans herror)
      obtain ⟨position, y, hvariant, hy, hnot⟩ := exists_position_of_ofLexemes_eq_error hplain
      refine ⟨position, hvariant, ?_⟩
      -- The operand itself is not refused.
      have hne : position ≠ before.length := by
        rintro rfl
        obtain rfl : x = y := by simpa using hy
        exact hnot hx
      rcases Nat.lt_or_gt_of_ne hne with hlt | hgt
      · have hmove : error'.move (moveFrom before.length (inner.length + 1)) = error'.move id :=
          Error.move_congr hvariant (moveFrom_of_lt hlt)
        rw [Error.move_eq_self (f := id) fun _ => rfl] at hmove
        exact .inl ⟨hlt, by rw [hgrouped, hmove]⟩
      · have hmove : error'.move (moveFrom before.length (inner.length + 1)) =
            error'.move (· + (inner.length + 1)) :=
          Error.move_congr hvariant (moveFrom_of_le hgt.le)
        exact .inr ⟨hgt, by rw [hgrouped, hmove]⟩

/-- The lexemes `- 3` are not grammatical, but they are converted.  So they may stand for the
operand of `2 * y + 4` as a group, and no number of parentheses around them makes a difference. -/
theorem ofLexemes_group_for_operand_ungrammatical :
    let inner : List Text := [['-'], ['3']]
    let tokens : Postfix := [.operand ['3'], .operator .sub]
    let before : List Text := [['2'], ['*']]
    let after : List Text := [['+'], ['4']]
    (ofLexemes inner).1 = .ok tokens ∧ IsOperand ['y'] ∧
      (ofLexemes (before ++ ['y'] :: after)).1 = .ok [.operand ['2'], .operand ['y'],
        .operator .mul, .operand ['4'], .operator .add] ∧
      (∃ first rest, [.operand ['2'], .operand ['y'], .operator .mul, .operand ['4'],
          .operator .add] = first ++ .operand ['y'] :: rest ∧
        first.countP Token.isOperand = before.countP (fun y => decide (IsOperand y)) ∧
        ofLexemes (before ++ (enclose inner ++ after)) = (.ok (first ++ tokens ++ rest), [])) ∧
      ∀ n, ofLexemes (enclose^[n] inner) = (.ok tokens, []) := by
  intro inner tokens before after
  have hinner : (ofLexemes inner).1 = .ok tokens := rfl
  have hoperand : IsOperand ['y'] := by decide
  obtain ⟨hok, -, henclosed⟩ := ofLexemes_group_for_operand hinner hoperand before after
  exact ⟨hinner, hoperand, rfl, hok _ rfl, henclosed⟩

/-- A parenthesis without a partner is refused behind the group as it is behind the operand, three
lexemes further on. -/
example :
    (ofLexemes [['2'], ['*'], ['y'], [')'], ['4']]).1 = .error (.unmatchedParenthesis 3) ∧
      (ofLexemes [['2'], ['*'], ['('], ['-'], ['3'], [')'], [')'], ['4']]).1 =
        .error (.unmatchedParenthesis 6) := by
  constructor <;> rfl

end Postfix

end PostfixCalculator
