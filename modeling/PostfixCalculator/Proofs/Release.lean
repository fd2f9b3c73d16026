import PostfixCalculator.Proofs.ReleaseOrder
import PostfixCalculator.Proofs.Stack

/-!
# The order in which a conversion puts out its tokens

The result of a conversion lists the terms of the lexemes in the order in which they are released.
This holds of everything that is converted, whether or not it is grammatical.

A conversion never computes a release point.  It keeps the operators that are not yet released on
its stack, and what rests on the invariant of the stack is that those which a lexeme releases are
exactly the ones that it takes from the top.  Within a group the precedences decrease from the top,
so the operators that bind at least as tight as one that has come are on top.  The parenthesis that
closes a group has its partner below them, and the operators below that one are not in the group.
-/

namespace PostfixCalculator

variable {lexemes : List Text} {x : Text} {i j k n : Nat} {op : Operator}

/-! ## What a lexeme releases -/

namespace Conversion

variable {c c' : Conversion} {pending below : List Pending} {ops : List (Operator × Nat)}
  {level : Nat}

/-- An operator in the innermost group on a stack binds less tightly than everything that the
uppermost entry is below of. -/
lemma Stacked.precedence_lt (h : Stacked lexemes pending) (hbelow : Below level pending)
    (hmem : .operator op i ∈ pending)
    (hgroup : (openings (lexemes.take i)).head? = (openGroups pending).head?) :
    op.precedence < level := by
  induction pending generalizing level with
  | nil => simp at hmem
  | cons entry pending ih =>
    obtain ⟨hsits, hstacked⟩ := h
    cases entry with
    | group k =>
      -- The operator stands in front of the group on top, so it is not in it.
      have hpending : .operator op i ∈ pending := by simpa using hmem
      have hlt : i < k := hsits.position_lt _ hpending
      have hin : InnermostGroup lexemes i k := innermostGroup_iff.mpr hgroup
      exact absurd hin.lt (Nat.lt_asymm hlt)
    | operator top position =>
      have htop : top.precedence < level := hbelow
      rcases List.mem_cons.mp hmem with heq | hpending
      · obtain ⟨rfl, -⟩ := Pending.operator.inj heq
        exact htop
      · have hnext : Below top.precedence pending := hsits.below_precedence top position rfl
        exact (ih hstacked hnext hpending hgroup).trans htop

/-- An operator that has come releases those of its group on top that bind at least as tight. -/
lemma Tracks.releases_of_operator {op' : Operator} (h : Tracks lexemes c)
    (hop : lexemes[c.position]? = some op'.lexeme) (hpending : c.pending = waiting ops ++ below)
    (htight : ∀ entry ∈ ops, op'.precedence ≤ entry.1.precedence) :
    ∀ entry ∈ ops, Releases lexemes entry.1 entry.2 c.position := by
  have hstacked : Stacked lexemes (waiting ops ++ below) := hpending ▸ h.stacked
  intro entry hentry
  have hgroups : openings (lexemes.take entry.2) = openings (lexemes.take c.position) := by
    rw [hstacked.openings_of_mem hentry, h.openings_eq, hpending, openGroups_waiting_append]
  exact .operator hop (sameGroup_iff.mpr (by rw [hgroups])) (htight entry hentry)

/-- An operator that has come does not release what is left on the stack. -/
lemma Tracks.not_releases_of_operator {op' : Operator} (h : Tracks lexemes c)
    (hop : lexemes[c.position]? = some op'.lexeme) (hpending : c.pending = waiting ops ++ below)
    (hbelow : Below op'.precedence below) (hmem : .operator op i ∈ below) :
    ¬ Releases lexemes op i c.position := by
  intro hreleases
  cases hreleases with
  | @operator op'' hop'' hgroup hle =>
    obtain rfl : op' = op'' := by
      have hlexeme : op'.lexeme = op''.lexeme := Option.some.inj (hop.symm.trans hop'')
      have hread := Operator.ofLexeme?_lexeme op'
      rw [hlexeme, Operator.ofLexeme?_lexeme] at hread
      exact (Option.some.inj hread).symm
    have hhead : (openings (lexemes.take i)).head? = (openGroups below).head? := by
      rw [sameGroup_iff.mp hgroup, h.openings_eq, hpending, openGroups_waiting_append]
    have hlt := (hpending ▸ h.stacked).of_append.precedence_lt hbelow hmem hhead
    omega
  | closing hgroup hpartners =>
    exact op'.lexeme_ne_closing (Option.some.inj (hop.symm.trans hpartners.closing))
  | atEnd hend =>
    have hlt := (List.getElem?_eq_some_iff.mp hop).1
    omega

/-- The end of a group releases the operators in it. -/
lemma Tracks.releases_of_closing (h : Tracks lexemes c)
    (hclosing : lexemes[c.position]? = some [')'])
    (hpending : c.pending = waiting ops ++ .group k :: below) :
    ∀ entry ∈ ops, Releases lexemes entry.1 entry.2 c.position := by
  have hstacked : Stacked lexemes (waiting ops ++ .group k :: below) := hpending ▸ h.stacked
  intro entry hentry
  have hpartners : Partners lexemes k c.position := by
    refine partners_iff.mpr ⟨hclosing, ?_⟩
    rw [h.openings_eq, hpending, openGroups_waiting_append]
    rfl
  refine .closing (innermostGroup_iff.mpr ?_) hpartners
  rw [hstacked.openings_of_mem hentry]
  rfl

/-- The end of a group does not release the operators outside of it. -/
lemma Tracks.not_releases_of_closing (h : Tracks lexemes c)
    (hclosing : lexemes[c.position]? = some [')'])
    (hpending : c.pending = waiting ops ++ .group k :: below) (hmem : .operator op i ∈ below) :
    ¬ Releases lexemes op i c.position := by
  intro hreleases
  cases hreleases with
  | operator hop => exact Operator.lexeme_ne_closing _ (Option.some.inj (hop.symm.trans hclosing))
  | @closing k' hgroup hpartners =>
    have hhead : (openGroups c.pending).head? = some k' :=
      h.openings_eq ▸ (partners_iff.mp hpartners).2
    obtain rfl : k = k' := by
      rw [hpending, openGroups_waiting_append] at hhead
      exact Option.some.inj hhead
    -- The operator stands in front of the parenthesis that opens the group.
    have hlt : i < k := (hpending ▸ h.stacked).of_append.1.position_lt _ hmem
    exact absurd hgroup.lt (Nat.lt_asymm hlt)
  | atEnd hend =>
    have hlt := (List.getElem?_eq_some_iff.mp hclosing).1
    omega

/-- Neither an operand nor an opening parenthesis releases an operator. -/
lemma not_releases_of_other (hx : lexemes[j]? = some x) (hop : ∀ op : Operator, x ≠ op.lexeme)
    (hclosing : x ≠ [')']) : ¬ Releases lexemes op i j := by
  intro hreleases
  cases hreleases with
  | operator hop' => exact hop _ (Option.some.inj (hx.symm.trans hop'))
  | closing _ hpartners => exact hclosing (Option.some.inj (hx.symm.trans hpartners.closing))
  | atEnd hend =>
    have hlt := (List.getElem?_eq_some_iff.mp hx).1
    omega

/-! ## Releases so far -/

/-- The positions of the operators that wait. -/
def waitingPositions (pending : List Pending) : List Nat :=
  pending.filterMap fun
    | .operator _ position => some position
    | .group _ => none

/-- The positions of operators on top are found first. -/
lemma waitingPositions_append (ops : List (Operator × Nat)) (below : List Pending) :
    waitingPositions (waiting ops ++ below) = ops.map Prod.snd ++ waitingPositions below := by
  induction ops with
  | nil => rfl
  | cons entry ops ih => simpa [waitingPositions] using ih

/-- The releases of operators at a point, in the order of the stack. -/
def releasesAt (point : Nat) (ops : List (Operator × Nat)) : List Release :=
  ops.map fun entry => ⟨entry.2, point⟩

/-- The positions of releases at a point are those of the operators. -/
lemma map_position_releasesAt : (releasesAt n ops).map Release.position = ops.map Prod.snd := by
  rw [releasesAt, List.map_map]
  rfl

/-- The token at the position of an operator on the stack is this operator. -/
lemma Stacked.tokenAt_eq (h : Stacked lexemes (waiting ops ++ below)) {entry : Operator × Nat}
    (hentry : entry ∈ ops) : tokenAt lexemes entry.2 = .operator entry.1 := by
  have hmem : .operator entry.1 entry.2 ∈ waiting ops ++ below :=
    List.mem_append_left _ (List.mem_map_of_mem hentry)
  have hx : lexemes[entry.2]? = some entry.1.lexeme := h.lexeme_eq hmem
  rw [PostfixCalculator.tokenAt_eq hx, Token.ofLexeme_operator]

/-- Operators on top of the stack are released in order, since their positions decrease. -/
lemma Stacked.pairwise_releasesAt (h : Stacked lexemes (waiting ops ++ below)) (n : Nat) :
    (releasesAt n ops).Pairwise Release.Before := by
  have hpositions : ops.Pairwise fun a b => b.2 < a.2 :=
    List.pairwise_map.mp (List.pairwise_append.mp h.pairwise).1
  exact List.pairwise_map.mpr (hpositions.imp fun hab => .inr ⟨rfl, hab⟩)

/-- The tokens in the output are those of the releases, whose points are in front of a position in
the input, and the operators that are pending are not released in front of it. -/
structure Orders (lexemes : List Text) (n : Nat) (output : List Token) (pending : List Pending)
    (positions : List Nat) (releases : List Release) : Prop where
  /-- The output lists the releases. -/
  output_eq : output = (releases.map fun r => tokenAt lexemes r.position).reverse
  /-- Every token is released where its release point is. -/
  isReleasePoint : ∀ r ∈ releases, IsReleasePoint lexemes r.position r.point
  /-- The releases are in front of the position. -/
  point_lt : ∀ r ∈ releases, r.point < n
  /-- The releases are in order. -/
  pairwise : releases.Pairwise Release.Before
  /-- What is pending is not released in front of the position. -/
  waits : ∀ op i, .operator op i ∈ pending → ∀ j, i < j → j < n → ¬ Releases lexemes op i j
  /-- Each of the given positions is that of a token in the output or of one that is pending. -/
  positions_perm : (releases.map Release.position ++ waitingPositions pending).Perm positions

/-- What a conversion has put out are the releases in front of its position. -/
def InOrder (lexemes : List Text) (c : Conversion) : Prop :=
  ∃ releases, Orders lexemes c.position c.output c.pending (termPositions lexemes c.position) releases

variable {output : List Token} {positions : List Nat} {releases : List Release}

/-- At the start there are no releases. -/
lemma orders_nil (lexemes : List Text) : Orders lexemes 0 [] [] [] [] :=
  ⟨rfl, by simp, by simp, .nil, by simp, .refl _⟩

/-- Operators that are released at a position are released in the order of the stack. -/
lemma Orders.release (h : Orders lexemes n output pending positions releases)
    (hpending : pending = waiting ops ++ below) (hstacked : Stacked lexemes pending)
    (hlt : ∀ entry ∈ pending, entry.position < n)
    (hreleases : ∀ entry ∈ ops, Releases lexemes entry.1 entry.2 n)
    (hwaits : ∀ op i, .operator op i ∈ below → ¬ Releases lexemes op i n) :
    Orders lexemes (n + 1) (released ops ++ output) below positions
      (releases ++ releasesAt n ops) := by
  subst hpending
  have hmem {entry : Operator × Nat} (hentry : entry ∈ ops) :
      .operator entry.1 entry.2 ∈ waiting ops ++ below :=
    List.mem_append_left _ (List.mem_map_of_mem hentry)
  have htokens : (releasesAt n ops).map (fun r => tokenAt lexemes r.position) =
      ops.map fun entry => .operator entry.1 := by
    rw [releasesAt, List.map_map]
    exact List.map_congr_left fun entry hentry => hstacked.tokenAt_eq hentry
  refine ⟨?_, ?_, ?_, ?_, ?_, ?_⟩
  · rw [List.map_append, htokens, List.reverse_append, h.output_eq, released]
  · intro r hr
    rcases List.mem_append.mp hr with hr | hr
    · exact h.isReleasePoint r hr
    · obtain ⟨entry, hentry, rfl⟩ := List.mem_map.mp hr
      rw [IsReleasePoint, hstacked.tokenAt_eq hentry]
      refine ⟨⟨hlt _ (hmem hentry), hreleases entry hentry⟩, ?_⟩
      rintro j ⟨hij, hj⟩
      by_contra hjn
      exact h.waits entry.1 entry.2 (hmem hentry) j hij (not_le.mp hjn) hj
  · intro r hr
    rcases List.mem_append.mp hr with hr | hr
    · exact Nat.lt_succ_of_lt (h.point_lt r hr)
    · obtain ⟨entry, -, rfl⟩ := List.mem_map.mp hr
      exact Nat.lt_succ_self n
  · refine List.pairwise_append.mpr ⟨h.pairwise, hstacked.pairwise_releasesAt n, ?_⟩
    intro a ha b hb
    obtain ⟨entry, -, rfl⟩ := List.mem_map.mp hb
    exact .inl (h.point_lt a ha)
  · intro op i hpending j hij hj
    rcases Nat.lt_succ_iff_lt_or_eq.mp hj with hj | rfl
    · exact h.waits op i (List.mem_append_right _ hpending) j hij hj
    · exact hwaits op i hpending
  · rw [List.map_append, map_position_releasesAt, List.append_assoc, ← waitingPositions_append]
    exact h.positions_perm

/-- The position of one more term is found behind those of the others. -/
lemma Orders.positions_perm_concat (h : Orders lexemes k output pending positions releases)
    (n : Nat) : (n :: (releases.map Release.position ++ waitingPositions pending)).Perm
      (positions ++ [n]) :=
  (h.positions_perm.cons n).trans (List.perm_append_singleton n positions).symm

/-- An operator that comes waits on top of the others. -/
lemma Orders.wait (h : Orders lexemes (n + 1) output pending positions releases)
    (op : Operator) :
    Orders lexemes (n + 1) output (.operator op n :: pending) (positions ++ [n]) releases := by
  refine ⟨h.output_eq, h.isReleasePoint, h.point_lt, h.pairwise, ?_, ?_⟩
  · intro op' i hmem j hij hj
    rcases List.mem_cons.mp hmem with heq | hmem
    · obtain ⟨-, rfl⟩ := Pending.operator.inj heq
      omega
    · exact h.waits op' i hmem j hij hj
  · exact List.perm_middle.trans (h.positions_perm_concat n)

/-- A group that is opened does not wait to be put out. -/
lemma Orders.openGroup (h : Orders lexemes n output pending positions releases) (k : Nat) :
    Orders lexemes n output (.group k :: pending) positions releases :=
  ⟨h.output_eq, h.isReleasePoint, h.point_lt, h.pairwise,
    fun op i hmem => h.waits op i (by simpa using hmem), h.positions_perm⟩

/-- A group that is closed does not wait to be put out. -/
lemma Orders.closeGroup (h : Orders lexemes n output (.group k :: pending) positions releases) :
    Orders lexemes n output pending positions releases :=
  ⟨h.output_eq, h.isReleasePoint, h.point_lt, h.pairwise,
    fun op i hmem => h.waits op i (List.mem_cons_of_mem _ hmem), h.positions_perm⟩

/-- An operand is put out at once. -/
lemma Orders.putOut (h : Orders lexemes (n + 1) output pending positions releases)
    (hpoint : ∀ r ∈ releases, r.point < n) {text : Text}
    (htoken : tokenAt lexemes n = .operand text) :
    Orders lexemes (n + 1) (.operand text :: output) pending (positions ++ [n])
      (releases ++ [⟨n, n⟩]) := by
  refine ⟨?_, ?_, ?_, ?_, h.waits, ?_⟩
  · rw [List.map_append, List.map_singleton, htoken, List.reverse_append, h.output_eq]
    rfl
  · intro r hr
    rcases List.mem_append.mp hr with hr | hr
    · exact h.isReleasePoint r hr
    · obtain rfl := List.mem_singleton.mp hr
      rw [IsReleasePoint, htoken]
  · intro r hr
    rcases List.mem_append.mp hr with hr | hr
    · exact h.point_lt r hr
    · obtain rfl := List.mem_singleton.mp hr
      exact Nat.lt_succ_self n
  · refine List.pairwise_append.mpr ⟨h.pairwise, List.pairwise_singleton _ _, ?_⟩
    intro a ha b hb
    obtain rfl := List.mem_singleton.mp hb
    exact .inl (hpoint a ha)
  · rw [List.map_append, List.map_singleton, List.append_assoc]
    exact List.perm_middle.trans (h.positions_perm_concat n)

/-- The releases go on with a lexeme that releases no operator. -/
lemma Orders.pass (h : Orders lexemes n output pending positions releases)
    (hnone : ∀ op i, ¬ Releases lexemes op i n) :
    Orders lexemes (n + 1) output pending positions releases := by
  refine ⟨h.output_eq, h.isReleasePoint, fun r hr => Nat.lt_succ_of_lt (h.point_lt r hr),
    h.pairwise, fun op i hmem j hij hj => ?_, h.positions_perm⟩
  rcases Nat.lt_succ_iff_lt_or_eq.mp hj with hj | rfl
  · exact h.waits op i hmem j hij hj
  · exact hnone op i

/-- The releases go on with the lexeme at the position of a conversion. -/
lemma InOrder.advances (h : InOrder lexemes c) (htracks : Tracks lexemes c)
    (hx : lexemes[c.position]? = some x) (hc : Advances c x c') : InOrder lexemes c' := by
  obtain ⟨releases, h⟩ := h
  have htoken : tokenAt lexemes c.position = .ofLexeme x := tokenAt_eq hx
  cases hc with
  | operand hoperand =>
    rw [Token.ofLexeme_of_isOperand hoperand] at htoken
    have hnone (op : Operator) (i : Nat) : ¬ Releases lexemes op i c.position :=
      not_releases_of_other hx hoperand.ne_operator hoperand.ne_closing
    refine ⟨releases ++ [⟨c.position, c.position⟩], ?_⟩
    rw [termPositions_succ_of_isTerm (by rw [htoken]; rfl)]
    exact (h.pass hnone).putOut h.point_lt htoken
  | @operator op ops below hpending htight hbelow =>
    rw [Token.ofLexeme_operator] at htoken
    have hreleased := h.release hpending htracks.stacked htracks.position_lt
      (htracks.releases_of_operator hx hpending htight)
      fun _ _ => htracks.not_releases_of_operator hx hpending hbelow
    refine ⟨releases ++ releasesAt c.position ops, ?_⟩
    rw [termPositions_succ_of_isTerm (by rw [htoken]; rfl)]
    exact hreleased.wait op
  | opening =>
    have hnone (op : Operator) (i : Nat) : ¬ Releases lexemes op i c.position :=
      not_releases_of_other hx (fun op => op.lexeme_ne_opening.symm) (by decide)
    refine ⟨releases, ?_⟩
    rw [termPositions_succ_of_not_isTerm (by rw [htoken]; decide)]
    exact (h.pass hnone).openGroup c.position
  | @closing ops k below hpending =>
    have hreleased := h.release hpending htracks.stacked htracks.position_lt
      (htracks.releases_of_closing hx hpending)
      fun _ _ hmem => htracks.not_releases_of_closing hx hpending (by simpa using hmem)
    refine ⟨releases ++ releasesAt c.position ops, ?_⟩
    rw [termPositions_succ_of_not_isTerm (by rw [htoken]; decide)]
    exact hreleased.closeGroup

/-- When a conversion is finished, its releases are those of all terms. -/
lemma InOrder.finish {tokens : Postfix} (h : InOrder lexemes c) (htracks : Tracks lexemes c)
    (hend : lexemes.length ≤ c.position) (hfinish : c.finish = .ok tokens) :
    ∃ releases, IsReleaseOrder lexemes releases ∧
      tokens = releases.map fun r => tokenAt lexemes r.position := by
  obtain ⟨releases, h⟩ := h
  have hposition : c.position = lexemes.length := Nat.le_antisymm htracks.position_le hend
  cases hall : releaseAll c.output c.pending with
  | error error => simp [Conversion.finish, hall, Except.map] at hfinish
  | ok output =>
    obtain rfl : output.reverse = tokens := by
      simpa [Conversion.finish, hall, Except.map] using hfinish
    obtain ⟨ops, hpending, rfl⟩ := releaseAll_eq_ok_iff.mp hall
    rw [← List.append_nil (waiting ops)] at hpending
    have hreleased := h.release hpending htracks.stacked htracks.position_lt
      (fun _ _ => .atEnd hposition) (by simp)
    refine ⟨releases ++ releasesAt c.position ops,
      ⟨hreleased.isReleasePoint, ?_, hreleased.pairwise⟩, ?_⟩
    · have hperm := hreleased.positions_perm
      rw [hposition] at hperm ⊢
      rwa [waitingPositions, List.filterMap_nil, List.append_nil] at hperm
    · rw [hreleased.output_eq, List.reverse_reverse]

end Conversion

/-- **Order of release.**  The terms of the lexemes have exactly one order of release, and the result
of a conversion lists them in it.  In particular it has each of them once, and the operands as they
follow each other in the lexemes. -/
theorem Postfix.ofLexemes_in_order_of_release {tokens : Postfix}
    (h : (ofLexemes lexemes).1 = .ok tokens) :
    (∃! releases, IsReleaseOrder lexemes releases) ∧
      (∀ releases, IsReleaseOrder lexemes releases →
        tokens = releases.map fun r => tokenAt lexemes r.position) ∧
      tokens.Perm ((lexemes.map Token.ofLexeme).filter Token.isTerm) ∧
      tokens.filter Token.isOperand = (lexemes.map Token.ofLexeme).filter Token.isOperand := by
  cases hrun : ({} : Conversion).run lexemes with
  | mk result unread =>
    cases result with
    | error error => simp [ofLexemes, hrun, Except.bind] at h
    | ok c =>
      have hfinish : c.finish = .ok tokens := by simpa [ofLexemes, hrun, Except.bind] using h
      obtain ⟨⟨htracks, horder⟩, hend⟩ := Conversion.invariant_of_run
        (p := fun c => Conversion.Tracks lexemes c ∧ Conversion.InOrder lexemes c)
        (fun c x c' h hx hc => ⟨h.1.advances hx hc, h.2.advances h.1 hx hc⟩)
        ⟨Conversion.tracks_start lexemes, [], Conversion.orders_nil lexemes⟩ rfl hrun
      obtain ⟨releases, hreleases, rfl⟩ := horder.finish htracks hend hfinish
      refine ⟨⟨releases, hreleases, fun _ h => h.unique hreleases⟩, fun releases' h => ?_,
        hreleases.tokens_perm, hreleases.operands_eq⟩
      rw [h.unique hreleases]

/-- In `* 2 ( 3 - 4 + ) 5` operands and operators do not alternate.  Still the `-` is released by the
`+`, the `+` by the end of its group and the `*` by the end of the input. -/
theorem Postfix.ofLexemes_in_order_of_release_ungrammatical :
    let lexemes : List Text := [['*'], ['2'], ['('], ['3'], ['-'], ['4'], ['+'], [')'], ['5']]
    let tokens : Postfix := [.operand ['2'], .operand ['3'], .operand ['4'], .operator .sub,
      .operator .add, .operand ['5'], .operator .mul]
    (ofLexemes lexemes).1 = .ok tokens ∧
      (∃! releases, IsReleaseOrder lexemes releases) ∧
      ∀ releases, IsReleaseOrder lexemes releases →
        tokens = releases.map fun r => tokenAt lexemes r.position :=
  let h := ofLexemes_in_order_of_release rfl
  ⟨rfl, h.1, h.2.1⟩

end PostfixCalculator
