import PostfixCalculator.Proofs.Stack

/-!
# Conversions in a context

A conversion that does not begin at the start finds a context: tokens in the output, entries on the
stack, and positions that are counted from elsewhere.  *Within* a context a conversion has its own
output and its own stack on top of those of the context, and its positions are moved.

If the uppermost entry of the context is no operator, then nothing that a conversion does on its own
reaches down to the context.  What it reads on its own it reads in the same way within the context.
Where the context has no stack, it also refuses the same lexemes and comes to the same end, with the
positions of errors moved.
-/

namespace PostfixCalculator

/-! ## Moved positions -/

/-- Positions from `start` on are moved by the count. -/
def moveFrom (start count position : Nat) : Nat :=
  if position < start then position else position + count

/-- A position in front of `start` is not moved. -/
lemma moveFrom_of_lt {start count position : Nat} (h : position < start) :
    moveFrom start count position = position :=
  if_pos h

/-- A position from `start` on is moved. -/
lemma moveFrom_of_le {start count position : Nat} (h : start ≤ position) :
    moveFrom start count position = position + count :=
  if_neg (Nat.not_lt.mpr h)

/-- What is pending, at a moved position. -/
def Pending.move (f : Nat → Nat) : Pending → Pending
  | operator op position => operator op (f position)
  | group position => group (f position)

/-- What is pending stays as it is if its position does. -/
lemma Pending.move_eq_self {entry : Pending} {f : Nat → Nat}
    (h : f entry.position = entry.position) : entry.move f = entry := by
  cases entry with
  | operator op position => exact congrArg (operator op) h
  | group position => exact congrArg group h

/-- The same error at a moved position, if it has one. -/
def Error.move (f : Nat → Nat) : Error → Error
  | notAnOperator lexeme => notAnOperator lexeme
  | notAnOperand lexeme => notAnOperand lexeme
  | unmatchedParenthesis position => unmatchedParenthesis (f position)
  | missingOperands op position => missingOperands op (f position)
  | nothingToEvaluate => nothingToEvaluate
  | severalValues count => severalValues count
  | emptyToken position => emptyToken (f position)

/-- An error stays as it is if no position is moved. -/
lemma Error.move_eq_self {f : Nat → Nat} (h : ∀ position, f position = position) (error : Error) :
    error.move f = error := by
  cases error with
  | unmatchedParenthesis position => exact congrArg unmatchedParenthesis (h position)
  | missingOperands op position => exact congrArg (missingOperands op) (h position)
  | emptyToken position => exact congrArg emptyToken (h position)
  | notAnOperator | notAnOperand | nothingToEvaluate | severalValues => rfl

/-- Where an error is moved depends only on its position. -/
lemma Error.move_congr {f g : Nat → Nat} {error : Error} {position : Nat}
    (herror : error = .emptyToken position ∨ error = .unmatchedParenthesis position)
    (h : f position = g position) : error.move f = error.move g := by
  rcases herror with rfl | rfl
  · exact congrArg emptyToken h
  · exact congrArg unmatchedParenthesis h

namespace Conversion

/-! ## Contexts -/

/-- What a conversion finds that does not begin at the start. -/
structure Context where
  /-- The tokens put out before, the newest first. -/
  output : List Token
  /-- What was pending before, the newest first. -/
  pending : List Pending
  /-- Where a position of the conversion on its own is in the context. -/
  move : Nat → Nat

/-- A conversion on top of what a context has. -/
def within (context : Context) (c : Conversion) : Conversion :=
  ⟨c.output ++ context.output, c.pending.map (Pending.move context.move) ++ context.pending,
    context.move c.position⟩

/-- A context is closed for the lexemes from a position on if no operator is on top of its stack and
consecutive positions stay so. -/
structure Context.Closed (context : Context) (start : Nat) : Prop where
  /-- The stack is empty or has an open group on top. -/
  below : Below 0 context.pending
  /-- The next position is moved to the next position. -/
  move_succ : ∀ position, start ≤ position →
    context.move (position + 1) = context.move position + 1

variable {context : Context} {c c' : Conversion} {ops : List (Operator × Nat)} {f : Nat → Nat}
  {pending below : List Pending} {out : List Token} {lexemes unread : List Text} {x : Text}
  {error : Error} {tokens : Postfix} {start level : Nat}

/-! ### Moved stacks -/

/-- A stretch of operators stays one when it is moved. -/
lemma map_move_waiting :
    (waiting ops).map (Pending.move f) = waiting (ops.map (Prod.map id f)) := by
  simp [waiting, Pending.move]

/-- Operators are put out without their positions. -/
lemma released_map_position : released (ops.map (Prod.map id f)) = released ops := by
  simp [released]

/-- What is on top of a stack decides what is below it, if no operator is on top of the rest. -/
lemma Below.map_move_append (h : Below level pending) (hbelow : Below 0 below) :
    Below level (pending.map (Pending.move f) ++ below) := by
  match pending, h with
  | [], _ => exact hbelow.of_le (Nat.zero_le level)
  | .group _ :: _, _ => trivial
  | .operator _ _ :: _, h => exact h

/-- Groups are moved with the stack. -/
lemma openGroups_map_move (pending : List Pending) :
    openGroups (pending.map (Pending.move f)) = (openGroups pending).map f := by
  induction pending with
  | nil => rfl
  | cons entry pending ih =>
    cases entry with
    | operator op position => exact ih
    | group position => exact congrArg (f position :: ·) ih

/-! ## Reading within a context -/

/-- What a conversion does on its own it does within a context. -/
lemma Advances.within (h : Advances c x c') (hclosed : context.Closed start)
    (hstart : start ≤ c.position) : Advances (c.within context) x (c'.within context) := by
  have hsucc : context.move (c.position + 1) = context.move c.position + 1 :=
    hclosed.move_succ c.position hstart
  cases h with
  | operand hx =>
    simp only [Conversion.within, hsucc]
    exact .operand hx
  | @operator op ops rest hpending htight hbelow =>
    let moved := ops.map (Prod.map id context.move)
    have hpending' : (c.within context).pending =
        waiting moved ++ (rest.map (Pending.move context.move) ++ context.pending) := by
      simp [Conversion.within, hpending, map_move_waiting, moved]
    have htight' : ∀ entry ∈ moved, op.precedence ≤ entry.1.precedence := by
      intro entry hentry
      obtain ⟨entry', hentry', rfl⟩ := List.mem_map.mp hentry
      exact htight entry' hentry'
    have hadvances := Advances.operator hpending' htight' (hbelow.map_move_append hclosed.below)
    simpa [Conversion.within, hsucc, moved, released_map_position, Pending.move] using hadvances
  | opening =>
    simp only [Conversion.within, hsucc]
    exact .opening
  | @closing ops position rest hpending =>
    let moved := ops.map (Prod.map id context.move)
    have hpending' : (c.within context).pending = waiting moved ++
        .group (context.move position) ::
          (rest.map (Pending.move context.move) ++ context.pending) := by
      simp [Conversion.within, hpending, map_move_waiting, moved, Pending.move]
    have hadvances := Advances.closing hpending'
    simpa [Conversion.within, hsucc, moved, released_map_position] using hadvances

/-- What a conversion reads on its own it reads within a context. -/
lemma run_within (hclosed : context.Closed start) (hstart : start ≤ c.position)
    (h : c.run lexemes = (.ok c', unread)) :
    (c.within context).run lexemes = (.ok (c'.within context), unread) := by
  induction lexemes generalizing c with
  | nil =>
    obtain ⟨rfl, rfl⟩ : c = c' ∧ [] = unread := by simpa [run] using h
    rfl
  | cons x lexemes ih =>
    rw [run] at h
    cases hread : c.read x with
    | error error => simp [hread] at h
    | ok next =>
      have hadvances : Advances c x next := advances_of_read hread
      have hnext : start ≤ next.position := by
        rw [hadvances.position_eq]
        exact Nat.le_succ_of_le hstart
      rw [run, (hadvances.within hclosed hstart).read_eq]
      exact ih hnext (by simpa [hread] using h)

/-! ## Errors within a context without a stack -/

/-- A lexeme that a conversion refuses on its own is refused within a context without a stack. -/
lemma read_within_of_error (hpending : context.pending = []) (h : c.read x = .error error) :
    (c.within context).read x = .error (error.move context.move) := by
  by_cases hx : x = []
  · subst hx
    obtain rfl : .emptyToken c.position = error := Except.error.inj h
    rfl
  · cases hnext : depthNext (openGroups c.pending).length x with
    | some depth =>
      obtain ⟨c', hread, -, -⟩ := exists_read_of_depthNext hx hnext
      simp [hread] at h
    | none =>
      rw [read_of_depthNext hnext] at h
      obtain rfl := Except.error.inj h
      refine read_of_depthNext ?_
      rwa [within, hpending, List.append_nil, openGroups_map_move, List.length_map]

/-- Where a conversion ends on its own it ends within a context without a stack. -/
lemma run_within_of_error (hclosed : context.Closed start) (hpending : context.pending = [])
    (hstart : start ≤ c.position) (h : c.run lexemes = (.error error, unread)) :
    (c.within context).run lexemes = (.error (error.move context.move), unread) := by
  induction lexemes generalizing c with
  | nil => simp [run] at h
  | cons x lexemes ih =>
    rw [run] at h
    cases hread : c.read x with
    | error error' =>
      obtain ⟨rfl, rfl⟩ : error' = error ∧ lexemes = unread := by simpa [hread] using h
      rw [run, read_within_of_error hpending hread]
    | ok next =>
      have hadvances : Advances c x next := advances_of_read hread
      have hnext : start ≤ next.position := by
        rw [hadvances.position_eq]
        exact Nat.le_succ_of_le hstart
      rw [run, (hadvances.within hclosed hstart).read_eq]
      exact ih hnext (by simpa [hread] using h)

/-- The end of the input has the same effect within a context without a stack, where the tokens of
the context come first. -/
lemma finish_within (hpending : context.pending = []) (h : c.finish = .ok tokens) :
    (c.within context).finish = .ok (context.output.reverse ++ tokens) := by
  cases hall : releaseAll c.output c.pending with
  | error error => simp [finish, hall, Except.map] at h
  | ok out =>
    obtain rfl : out.reverse = tokens := by simpa [finish, hall, Except.map] using h
    obtain ⟨ops, hops, rfl⟩ := releaseAll_eq_ok_iff.mp hall
    have hall' : releaseAll (c.within context).output (c.within context).pending =
        .ok (released ops ++ (c.output ++ context.output)) := by
      refine releaseAll_eq_ok_iff.mpr ⟨ops.map (Prod.map id context.move), ?_, ?_⟩
      · simp [within, hops, hpending, map_move_waiting]
      · rw [released_map_position]
        rfl
    rw [finish, hall', Except.map]
    simp

/-- A group that is open at the end of the input is refused within a context without a stack. -/
lemma finish_within_of_error (hpending : context.pending = []) (h : c.finish = .error error) :
    (c.within context).finish = .error (error.move context.move) := by
  cases hgroups : openGroups c.pending with
  | nil =>
    obtain ⟨tokens, hok⟩ := exists_finish hgroups
    simp [hok] at h
  | cons position groups =>
    obtain rfl : .unmatchedParenthesis position = error :=
      Except.error.inj ((finish_of_openGroups hgroups).symm.trans h)
    have hmoved : openGroups (c.within context).pending =
        context.move position :: groups.map context.move := by
      rw [within, hpending, List.append_nil, openGroups_map_move, hgroups, List.map_cons]
    exact finish_of_openGroups hmoved

end Conversion

end PostfixCalculator
