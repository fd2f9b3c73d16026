import PostfixCalculator.Conversion
import PostfixCalculator.Proofs.Legible

/-!
# What waits during a conversion

The stack of a conversion is a sequence of operators, cut into stretches by the groups that are
open.  Each of the three ways in which operators leave the stack takes a stretch from its top and
puts it out, the newest operator first: an operator takes those of its group that bind at least
as tight, a closing parenthesis all of its group, and the end of the input all that are left.

`waiting` is a stretch as it stands on the stack and `released` the same stretch put out.  The
lemmas say of each of the three ways which stretch it takes, and under what condition on the
stack; nothing else needs to unfold them.
-/

namespace PostfixCalculator

namespace Conversion

variable {op : Operator} {out out' : List Token} {pending pending' : List Pending}
  {ops : List (Operator × Nat)} {level : Nat}

/-! ## Stretches of operators -/

/-- Operators with their positions as they are pending, the newest first. -/
def waiting (ops : List (Operator × Nat)) : List Pending :=
  ops.map fun entry => .operator entry.1 entry.2

/-- The same operators in the output after the newest was put out first. -/
def released (ops : List (Operator × Nat)) : List Token :=
  (ops.map fun entry => Token.operator entry.1).reverse

/-- No operator is pending. -/
@[simp] lemma waiting_nil : waiting [] = [] := rfl

/-- The newest operator is pending on top of the others. -/
@[simp] lemma waiting_cons (entry : Operator × Nat) (ops : List (Operator × Nat)) :
    waiting (entry :: ops) = .operator entry.1 entry.2 :: waiting ops := rfl

/-- Two stretches one on top of the other are one stretch. -/
@[simp] lemma waiting_append (first second : List (Operator × Nat)) :
    waiting (first ++ second) = waiting first ++ waiting second := List.map_append

/-- No operator is put out. -/
@[simp] lemma released_nil : released [] = [] := rfl

/-- The newest operator is put out before the others. -/
@[simp] lemma released_cons (entry : Operator × Nat) (ops : List (Operator × Nat)) :
    released (entry :: ops) = released ops ++ [.operator entry.1] := by
  simp [released]

/-- The upper one of two stretches is put out before the lower one. -/
@[simp] lemma released_append (first second : List (Operator × Nat)) :
    released (first ++ second) = released second ++ released first := by
  simp [released]

/-- Only operators are put out. -/
lemma exists_operator_of_mem_released {token : Token} (h : token ∈ released ops) :
    ∃ op, token = .operator op := by
  simp only [released, List.mem_reverse, List.mem_map] at h
  obtain ⟨entry, -, rfl⟩ := h
  exact ⟨entry.1, rfl⟩

/-! ## Before an operator -/

/-- The uppermost entry is no operator that binds as tight as the level, or tighter. -/
def Below (level : Nat) : List Pending → Prop
  | .operator top _ :: _ => top.precedence < level
  | _ => True

/-- Nothing is pending. -/
@[simp] lemma below_nil : Below level [] := trivial

/-- An operator that has to wait in a group just opened finds nothing to put out. -/
@[simp] lemma below_group {position : Nat} : Below level (.group position :: pending) := trivial

/-- What is below a level is below every higher one. -/
lemma Below.of_le {level' : Nat} (h : Below level pending) (hle : level ≤ level') :
    Below level' pending := by
  match pending, h with
  | [], _ => trivial
  | .group _ :: _, _ => trivial
  | .operator _ _ :: _, h => exact Nat.lt_of_lt_of_le h hle

/-- An operator puts out nothing if the uppermost one binds less tightly. -/
lemma release_of_below (h : Below op.precedence pending) :
    release op out pending = (out, pending) := by
  match pending, h with
  | [], _ => rfl
  | .group _ :: _, _ => rfl
  | .operator _ _ :: _, h => rw [release, if_neg (Nat.not_le.mpr h)]

/-- An operator puts out those on top that bind at least as tight. -/
lemma release_waiting (h : ∀ entry ∈ ops, op.precedence ≤ entry.1.precedence) :
    release op out (waiting ops ++ pending) = release op (released ops ++ out) pending := by
  induction ops generalizing out with
  | nil => rfl
  | cons entry ops ih =>
    have hentry : op.precedence ≤ entry.1.precedence := h entry List.mem_cons_self
    rw [waiting_cons, List.cons_append, release, if_pos hentry,
      ih fun e he => h e (List.mem_cons_of_mem _ he)]
    simp

/-- An operator puts out a stretch from the top of the stack: the operators that bind at least as
tight, up to a group or an operator that binds less tightly. -/
lemma exists_release (op : Operator) (out : List Token) (pending : List Pending) :
    ∃ ops rest, pending = waiting ops ++ rest ∧
      (∀ entry ∈ ops, op.precedence ≤ entry.1.precedence) ∧ Below op.precedence rest ∧
      release op out pending = (released ops ++ out, rest) := by
  fun_induction release op out pending with
  | case1 out top position pending hle ih =>
    obtain ⟨ops, rest, hpending, hops, hrest, hrelease⟩ := ih
    refine ⟨(top, position) :: ops, rest, by simp [hpending], ?_, hrest, ?_⟩
    · intro entry hentry
      rcases List.mem_cons.mp hentry with rfl | hentry
      · exact hle
      · exact hops entry hentry
    · simp [hrelease]
  | case2 out top position pending hlt =>
    exact ⟨[], _, rfl, by simp, Nat.not_le.mp hlt, rfl⟩
  | case3 out pending hpending =>
    refine ⟨[], pending, rfl, by simp, ?_, rfl⟩
    match pending with
    | [] => trivial
    | .group _ :: _ => trivial
    | .operator top position :: pending => exact absurd rfl (hpending top position pending)

/-! ## At the end of a group -/

/-- A closing parenthesis puts out the operators on top. -/
lemma closeGroup?_waiting :
    closeGroup? out (waiting ops ++ pending) = closeGroup? (released ops ++ out) pending := by
  induction ops generalizing out with
  | nil => rfl
  | cons entry ops ih =>
    rw [waiting_cons, List.cons_append, closeGroup?, ih]
    simp

/-- A closing parenthesis puts out exactly the operators of the innermost group. -/
lemma closeGroup?_eq_some_iff : closeGroup? out pending = some (out', pending') ↔
    ∃ ops position, pending = waiting ops ++ .group position :: pending' ∧
      out' = released ops ++ out := by
  constructor
  · intro h
    induction pending generalizing out with
    | nil => simp [closeGroup?] at h
    | cons entry pending ih =>
      cases entry with
      | group position =>
        obtain ⟨rfl, rfl⟩ : out = out' ∧ pending = pending' := by simpa [closeGroup?] using h
        exact ⟨[], position, rfl, rfl⟩
      | operator op position =>
        obtain ⟨ops, position', rfl, rfl⟩ := ih (by simpa [closeGroup?] using h)
        exact ⟨(op, position) :: ops, position', by simp, by simp⟩
  · rintro ⟨ops, position, rfl, rfl⟩
    rw [closeGroup?_waiting, closeGroup?]

/-! ## At the end of the input -/

/-- The end of the input puts out the operators on top. -/
lemma releaseAll_waiting :
    releaseAll out (waiting ops ++ pending) = releaseAll (released ops ++ out) pending := by
  induction ops generalizing out with
  | nil => rfl
  | cons entry ops ih =>
    rw [waiting_cons, List.cons_append, releaseAll, ih]
    simp

/-- The end of the input puts out all that is pending if no group is open. -/
lemma releaseAll_eq_ok_iff : releaseAll out pending = .ok out' ↔
    ∃ ops, pending = waiting ops ∧ out' = released ops ++ out := by
  constructor
  · intro h
    induction pending generalizing out with
    | nil =>
      obtain rfl : out = out' := by simpa [releaseAll] using h
      exact ⟨[], rfl, rfl⟩
    | cons entry pending ih =>
      cases entry with
      | group position => simp [releaseAll] at h
      | operator op position =>
        obtain ⟨ops, rfl, rfl⟩ := ih (by simpa [releaseAll] using h)
        exact ⟨(op, position) :: ops, by simp, by simp⟩
  · rintro ⟨ops, rfl, rfl⟩
    rw [← List.append_nil (waiting ops), releaseAll_waiting, releaseAll]

end Conversion

end PostfixCalculator
