import PostfixCalculator.Proofs.OpenGroups
import PostfixCalculator.Proofs.Partners

/-!
# The stack of a conversion

`Advances` says once what reading a lexeme can do to a conversion, and everything that a run of
lexemes preserves is proved by its four cases.

What is preserved of the stack is stated about the whole sequence of lexemes and the number of those
read.  Every entry has the position of the lexeme that put it there, the positions decrease from the
top, and between two open groups the precedences do as well.  The groups below an entry are those
that are open in front of its lexeme, and the groups on the whole stack those that are open behind
the lexemes read.
-/

namespace PostfixCalculator

namespace Pending

/-- The position of the lexeme that is pending. -/
def position : Pending → Nat
  | operator _ position => position
  | group position => position

/-- The lexeme that is pending. -/
def lexeme : Pending → Text
  | operator op _ => op.lexeme
  | group _ => ['(']

end Pending

namespace Conversion

variable {c c' : Conversion} {lexemes rest unread : List Text} {x : Text}
  {pending above below : List Pending} {entry : Pending} {ops : List (Operator × Nat)}
  {op : Operator} {i : Nat}

/-! ## Reading a lexeme -/

/-- The four ways in which a conversion goes on with a lexeme. -/
inductive Advances (c : Conversion) : Text → Conversion → Prop
  /-- An operand is put out. -/
  | operand {x : Text} (hx : IsOperand x) :
      Advances c x ⟨.operand x :: c.output, c.pending, c.position + 1⟩
  /-- An operator puts out those on top that bind at least as tight, and waits. -/
  | operator {op : Operator} {ops : List (Operator × Nat)} {rest : List Pending}
      (hpending : c.pending = waiting ops ++ rest)
      (htight : ∀ entry ∈ ops, op.precedence ≤ entry.1.precedence)
      (hbelow : Below op.precedence rest) :
      Advances c op.lexeme
        ⟨released ops ++ c.output, .operator op c.position :: rest, c.position + 1⟩
  /-- An opening parenthesis opens a group. -/
  | opening : Advances c ['('] ⟨c.output, .group c.position :: c.pending, c.position + 1⟩
  /-- A closing parenthesis puts out the operators of the innermost group and closes it. -/
  | closing {ops : List (Operator × Nat)} {position : Nat} {rest : List Pending}
      (hpending : c.pending = waiting ops ++ .group position :: rest) :
      Advances c [')'] ⟨released ops ++ c.output, rest, c.position + 1⟩

/-- Reading a lexeme does one of the four. -/
lemma advances_of_read (h : c.read x = .ok c') : Advances c x c' := by
  obtain ⟨hne, -⟩ := read_eq_ok_iff.mp h
  obtain ⟨token, hlegible, rfl⟩ : ∃ token : Token, token.Legible ∧ token.lexeme = x :=
    ⟨.ofLexeme x, Token.legible_ofLexeme hne, Token.lexeme_ofLexeme x⟩
  rw [read_lexeme token hlegible] at h
  cases token with
  | operand text =>
    obtain rfl := Except.ok.inj h
    exact .operand hlegible
  | operator op =>
    obtain ⟨ops, rest, hpending, htight, hbelow, hrelease⟩ := exists_release op c.output c.pending
    rw [step, hrelease] at h
    obtain rfl := Except.ok.inj h
    exact .operator hpending htight hbelow
  | opening =>
    obtain rfl := Except.ok.inj h
    exact .opening
  | closing =>
    rw [step] at h
    split at h
    · next hclose =>
      obtain ⟨ops, position, hpending, rfl⟩ := closeGroup?_eq_some_iff.mp hclose
      obtain rfl := Except.ok.inj h
      exact .closing hpending
    · simp at h

/-- Whatever a conversion can do with a lexeme, it does when it reads it. -/
lemma Advances.read_eq (h : Advances c x c') : c.read x = .ok c' := by
  cases h with
  | operand hx => exact read_operand hx
  | @operator op ops rest hpending htight hbelow =>
    have hrelease : release op c.output c.pending = (released ops ++ c.output, rest) := by
      rw [hpending, release_waiting htight, release_of_below hbelow]
    rw [read_operator, step, hrelease]
  | opening => exact read_opening
  | @closing ops position rest hpending =>
    have hclose : closeGroup? c.output c.pending = some (released ops ++ c.output, rest) :=
      closeGroup?_eq_some_iff.mpr ⟨ops, position, hpending, rfl⟩
    rw [read_closing, step, hclose]

/-- The position is the number of lexemes read. -/
lemma Advances.position_eq (h : Advances c x c') : c'.position = c.position + 1 := by
  cases h <;> rfl

/-- A run that succeeds leaves no lexeme unread, and its position moves over all of them. -/
lemma end_of_run (h : c.run lexemes = (.ok c', unread)) :
    unread = [] ∧ c'.position = c.position + lexemes.length := by
  induction lexemes generalizing c with
  | nil =>
    obtain ⟨rfl, rfl⟩ : c = c' ∧ [] = unread := by simpa [run] using h
    exact ⟨rfl, rfl⟩
  | cons x lexemes ih =>
    rw [run] at h
    cases hread : c.read x with
    | error error => simp [hread] at h
    | ok next =>
      obtain ⟨hunread, hposition⟩ := ih (by simpa [hread] using h)
      refine ⟨hunread, ?_⟩
      rw [hposition, (advances_of_read hread).position_eq, List.length_cons]
      omega

/-- In front of the lexemes that are left stands the one at the position. -/
lemma getElem?_of_drop (h : lexemes.drop i = x :: rest) :
    lexemes[i]? = some x ∧ lexemes.drop (i + 1) = rest := by
  constructor
  · rw [← Nat.add_zero i, ← List.getElem?_drop, h, List.getElem?_cons_zero]
  · rw [← List.drop_drop, h, List.drop_one, List.tail_cons]

/-- What every lexeme preserves is preserved by a run over the lexemes that are left. -/
lemma invariant_of_run {p : Conversion → Prop}
    (hstep : ∀ c x c', p c → lexemes[c.position]? = some x → Advances c x c' → p c') (hc : p c)
    (hrest : lexemes.drop c.position = rest) (h : c.run rest = (.ok c', unread)) :
    p c' ∧ lexemes.length ≤ c'.position := by
  induction rest generalizing c with
  | nil =>
    obtain ⟨rfl, -⟩ : c = c' ∧ _ := by simpa [run] using h
    exact ⟨hc, List.drop_eq_nil_iff.mp hrest⟩
  | cons x rest ih =>
    obtain ⟨hx, hdrop⟩ := getElem?_of_drop hrest
    rw [run] at h
    cases hread : c.read x with
    | error error => simp [hread] at h
    | ok next =>
      have hadvances : Advances c x next := advances_of_read hread
      rw [← hadvances.position_eq] at hdrop
      exact ih (hstep c x next hc hx hadvances) hdrop (by simpa [hread] using h)

/-! ## Entries of the stack -/

/-- An entry sits on the entries below it where its lexeme put it. -/
structure Sits (lexemes : List Text) (entry : Pending) (below : List Pending) : Prop where
  /-- The entry is pending for the lexeme at its position. -/
  lexeme_eq : lexemes[entry.position]? = some entry.lexeme
  /-- The groups below it are those that are open in front of its lexeme. -/
  openings_eq : openings (lexemes.take entry.position) = openGroups below
  /-- The entries below it are older. -/
  position_lt : ∀ e ∈ below, e.position < entry.position
  /-- An operator binds tighter than the one below it in its group. -/
  below_precedence : ∀ op position, entry = .operator op position → Below op.precedence below

/-- Every entry of the stack sits on those below it. -/
def Stacked (lexemes : List Text) : List Pending → Prop
  | [] => True
  | entry :: below => Sits lexemes entry below ∧ Stacked lexemes below

/-- What is left when entries are taken from the top is still a stack. -/
lemma Stacked.of_append (h : Stacked lexemes (above ++ below)) : Stacked lexemes below := by
  induction above with
  | nil => exact h
  | cons entry above ih => exact ih h.2

/-- Every entry is pending for the lexeme at its position. -/
lemma Stacked.lexeme_eq (h : Stacked lexemes pending) (hentry : entry ∈ pending) :
    lexemes[entry.position]? = some entry.lexeme := by
  obtain ⟨above, below, rfl⟩ := List.append_of_mem hentry
  exact h.of_append.1.lexeme_eq

/-- The positions decrease from the top. -/
lemma Stacked.pairwise (h : Stacked lexemes pending) :
    pending.Pairwise fun a b => b.position < a.position := by
  induction pending with
  | nil => exact .nil
  | cons entry pending ih => exact .cons h.1.position_lt (ih h.2)

/-- The operators on top are in the group that is open below them. -/
lemma Stacked.openings_of_mem (h : Stacked lexemes (waiting ops ++ below))
    {entry : Operator × Nat} (hentry : entry ∈ ops) :
    openings (lexemes.take entry.2) = openGroups below := by
  obtain ⟨first, second, rfl⟩ := List.append_of_mem hentry
  rw [waiting_append, waiting_cons, List.append_assoc, List.cons_append] at h
  have hopenings := h.of_append.1.openings_eq
  rwa [openGroups_waiting_append] at hopenings

/-- Within a group the precedences decrease from the top. -/
lemma Stacked.pairwise_precedence (h : Stacked lexemes (waiting ops ++ below)) :
    ops.Pairwise fun upper lower => lower.1.precedence < upper.1.precedence := by
  induction ops with
  | nil => exact .nil
  | cons upper ops ih =>
    obtain ⟨hsits, hstacked⟩ := h
    have hpairwise := ih hstacked
    refine .cons (fun lower hlower => ?_) hpairwise
    -- The next operator binds less tightly than the upper one, and the others less than the next.
    have hnext : Below upper.1.precedence (waiting ops ++ below) :=
      hsits.below_precedence upper.1 upper.2 rfl
    cases ops with
    | nil => simp at hlower
    | cons next ops =>
      have hlt : next.1.precedence < upper.1.precedence := hnext
      rcases List.mem_cons.mp hlower with rfl | hlower
      · exact hlt
      · exact (List.rel_of_pairwise_cons hpairwise hlower).trans hlt

/-- Since operators bind on two levels only, no more than two of them are pending in a group. -/
lemma length_le_two_of_pairwise_precedence
    (h : ops.Pairwise fun upper lower => lower.1.precedence < upper.1.precedence) :
    ops.length ≤ 2 := by
  match ops, h with
  | [], _ | [_], _ | [_, _], _ => simp
  | first :: second :: third :: ops, h =>
    have hsecond : second.1.precedence < first.1.precedence :=
      List.rel_of_pairwise_cons h List.mem_cons_self
    have hthird : third.1.precedence < second.1.precedence :=
      List.rel_of_pairwise_cons h.of_cons List.mem_cons_self
    have hlow : 1 ≤ third.1.precedence := by cases third.1 <;> decide
    have hhigh : first.1.precedence ≤ 2 := by cases first.1 <;> decide
    omega

/-! ## The stack and the lexemes read -/

/-- The stack is that of a conversion that has read the lexemes in front of its position. -/
structure Tracks (lexemes : List Text) (c : Conversion) : Prop where
  /-- Every entry sits where its lexeme put it. -/
  stacked : Stacked lexemes c.pending
  /-- The groups on the stack are those that are open behind the lexemes read. -/
  openings_eq : openings (lexemes.take c.position) = openGroups c.pending
  /-- Every entry is pending for a lexeme read. -/
  position_lt : ∀ entry ∈ c.pending, entry.position < c.position
  /-- No more lexemes are read than there are. -/
  position_le : c.position ≤ lexemes.length

/-- At the start nothing is pending. -/
lemma tracks_start (lexemes : List Text) : Tracks lexemes {} :=
  ⟨trivial, rfl, by simp, Nat.zero_le _⟩

/-- Reading the lexeme at its position, the conversion keeps track of the lexemes. -/
lemma Tracks.advances (h : Tracks lexemes c) (hx : lexemes[c.position]? = some x)
    (hc : Advances c x c') : Tracks lexemes c' := by
  have htake : lexemes.take (c.position + 1) = lexemes.take c.position ++ [x] := by
    rw [List.take_add_one, hx, Option.toList_some]
  have hle : c.position + 1 ≤ lexemes.length := (List.getElem?_eq_some_iff.mp hx).1
  -- What is left of the stack was there before.
  have hbefore {above rest : List Pending} (hpending : c.pending = above ++ rest) :
      Stacked lexemes rest ∧ ∀ entry ∈ rest, entry.position < c.position := by
    refine ⟨(hpending ▸ h.stacked).of_append, fun entry hentry => h.position_lt entry ?_⟩
    exact hpending ▸ List.mem_append_right _ hentry
  cases hc with
  | operand hx =>
    refine ⟨h.stacked, ?_, fun entry hentry => ?_, hle⟩
    · rw [htake, openings_concat_other hx.ne_opening hx.ne_closing]
      exact h.openings_eq
    · exact Nat.lt_succ_of_lt (h.position_lt entry hentry)
  | @operator op ops rest hpending htight hbelow =>
    obtain ⟨hrest, hlt⟩ := hbefore hpending
    have hgroups : openings (lexemes.take c.position) = openGroups rest := by
      rw [h.openings_eq, hpending, openGroups_waiting_append]
    refine ⟨⟨⟨hx, hgroups, hlt, ?_⟩, hrest⟩, ?_, ?_, hle⟩
    · rintro _ _ ⟨⟩
      exact hbelow
    · rw [htake, openings_concat_other op.lexeme_ne_opening op.lexeme_ne_closing]
      exact hgroups
    · exact List.forall_mem_cons.mpr
        ⟨Nat.lt_succ_self _, fun entry hentry => Nat.lt_succ_of_lt (hlt entry hentry)⟩
  | opening =>
    refine ⟨⟨⟨hx, h.openings_eq, h.position_lt, by simp⟩, h.stacked⟩, ?_, ?_, hle⟩
    · rw [htake, openings_concat_opening, List.length_take_of_le h.position_le, h.openings_eq]
      rfl
    · exact List.forall_mem_cons.mpr
        ⟨Nat.lt_succ_self _, fun entry hentry => Nat.lt_succ_of_lt (h.position_lt entry hentry)⟩
  | @closing ops position rest hpending =>
    have hsplit : c.pending = (waiting ops ++ [.group position]) ++ rest := by simp [hpending]
    obtain ⟨hrest, hlt⟩ := hbefore hsplit
    refine ⟨hrest, ?_, fun entry hentry => Nat.lt_succ_of_lt (hlt entry hentry), hle⟩
    rw [htake, openings_concat_closing, h.openings_eq, hpending, openGroups_waiting_append]
    rfl

/-- The groups on a stack are its open groups. -/
lemma group_mem_iff {k : Nat} : .group k ∈ pending ↔ k ∈ openGroups pending := by
  induction pending with
  | nil => simp [openGroups]
  | cons entry pending ih => cases entry <;> simp [openGroups, ih]

/-- A run over the lexemes from the start keeps track of them. -/
lemma tracks_of_run (h : ({} : Conversion).run lexemes = (.ok c, unread)) :
    Tracks lexemes c ∧ c.position = lexemes.length := by
  have hposition : c.position = lexemes.length := by simpa using (end_of_run h).2
  exact ⟨(invariant_of_run (fun _ _ _ htracks hx hadvances => htracks.advances hx hadvances)
    (tracks_start lexemes) rfl h).1, hposition⟩

/-- The lexeme of an entry is read as an operator or as an opening parenthesis. -/
lemma ofLexeme_lexeme_of_pending (entry : Pending) :
    (∃ op, Token.ofLexeme entry.lexeme = .operator op) ∨
      Token.ofLexeme entry.lexeme = .opening := by
  cases entry with
  | operator op position => exact .inl ⟨op, Token.ofLexeme_operator op⟩
  | group position => exact .inr rfl

/-- **The invariant of the stack.**  Let a conversion have read some lexemes, whatever follows them.
Every entry of its stack is at the position of its own lexeme, which is an operator or an opening
parenthesis, and the positions increase from the bottom to the top.  The groups on the stack are the
opening parentheses that have no partner yet.  Within a group the precedences increase from the
bottom to the top, so that at most two operators are pending in it. -/
theorem stack_of_run {done : List Text} (h : ({} : Conversion).run done = (.ok c, unread)) :
    (∀ rest, ({} : Conversion).run (done ++ rest) = c.run rest) ∧
    (∀ entry ∈ c.pending, done[entry.position]? = some entry.lexeme ∧
      ((∃ op, Token.ofLexeme entry.lexeme = .operator op) ∨
        Token.ofLexeme entry.lexeme = .opening)) ∧
    (c.pending.Pairwise fun upper lower => lower.position < upper.position) ∧
    (∀ k, .group k ∈ c.pending ↔ Unmatched done k) ∧
    ∀ above ops below, c.pending = above ++ waiting ops ++ below →
      (ops.Pairwise fun upper lower => lower.1.precedence < upper.1.precedence) ∧
        ops.length ≤ 2 := by
  obtain ⟨htracks, hposition⟩ := tracks_of_run h
  refine ⟨fun rest => ?_, fun entry hentry => ?_, htracks.stacked.pairwise, fun k => ?_, ?_⟩
  · obtain ⟨rfl, -⟩ := end_of_run h
    exact run_append h
  · exact ⟨htracks.stacked.lexeme_eq hentry, ofLexeme_lexeme_of_pending entry⟩
  · rw [group_mem_iff, ← htracks.openings_eq, hposition, List.take_length, mem_openings_iff]
  · intro above ops below hpending
    have hstacked := htracks.stacked
    rw [hpending, List.append_assoc] at hstacked
    have hpairwise := hstacked.of_append.pairwise_precedence
    exact ⟨hpairwise, length_le_two_of_pairwise_precedence hpairwise⟩

/-- Behind `( 1 + 2 * ( 3 -` two operators are pending in the outer group and one in the inner
group. -/
theorem stack_of_run_nested :
    ({} : Conversion).run (["(", "1", "+", "2", "*", "(", "3", "-"].map String.toList) =
      (.ok ⟨["3", "2", "1"].map (Token.operand ∘ String.toList),
        [.operator .sub 7, .group 5, .operator .mul 4, .operator .add 2, .group 0], 8⟩, []) ∧
    ∀ k, .group k ∈ [Pending.operator .sub 7, .group 5, .operator .mul 4, .operator .add 2,
      .group 0] ↔ Unmatched (["(", "1", "+", "2", "*", "(", "3", "-"].map String.toList) k := by
  have hrun : ({} : Conversion).run (["(", "1", "+", "2", "*", "(", "3", "-"].map String.toList) =
      (.ok ⟨["3", "2", "1"].map (Token.operand ∘ String.toList),
        [.operator .sub 7, .group 5, .operator .mul 4, .operator .add 2, .group 0], 8⟩, []) := by
    rfl
  exact ⟨hrun, (stack_of_run hrun).2.2.2.1⟩

end Conversion

end PostfixCalculator
