import Mathlib.Data.List.Induction
import Mathlib.Order.Bounds.Defs
import PostfixCalculator.Proofs.Parentheses

/-!
# Parentheses and their partners

Two parentheses are partners if the second one closes what the first one opens: the lexemes between
them are balanced.  An opening parenthesis is unmatched if it has no partner.

`openings` finds the unmatched opening parentheses in one pass from the left, as a stack of
positions.  What ties it to the definition is the count of open groups.  Behind an opening
parenthesis the count fails first at its partner, so the parenthesis is unmatched if the count goes
through to the end; and there it is the number of openings on top of that one on the stack.
-/

namespace PostfixCalculator

variable {lexemes : List Text} {x : Text} {i j k : Nat}

/-- The parentheses at two positions are partners: what is opened between them is closed between
them, and the other way round. -/
structure Partners (lexemes : List Text) (i j : Nat) : Prop where
  /-- The first one opens a group. -/
  opening : lexemes[i]? = some ['(']
  /-- The second one closes a group. -/
  closing : lexemes[j]? = some [')']
  /-- The opening one stands in front. -/
  lt : i < j
  /-- It is the same group. -/
  balanced : Balanced ((lexemes.take j).drop (i + 1))

/-- The parenthesis at a position opens a group and has no partner. -/
def Unmatched (lexemes : List Text) (i : Nat) : Prop :=
  lexemes[i]? = some ['('] ∧ ∀ j, ¬ Partners lexemes i j

/-! ## Where the count of open groups fails -/

/-- Only a closing parenthesis without an open group cannot be counted. -/
lemma depthNext_eq_none_iff {depth : Nat} : depthNext depth x = none ↔ x = [')'] ∧ depth = 0 := by
  unfold depthNext
  by_cases hopening : x = ['(']
  · simp [hopening]
  · by_cases hclosing : x = [')']
    · cases depth <;> simp [hclosing]
    · simp [hopening, hclosing]

/-- The last lexeme is counted last. -/
lemma depthAfter_concat (depth : Nat) (lexemes : List Text) (x : Text) :
    depthAfter depth (lexemes ++ [x]) =
      (depthAfter depth lexemes).bind fun depth => depthNext depth x := by
  rw [depthAfter_append]
  refine congrArg _ (funext fun depth => ?_)
  rw [depthAfter_cons]
  cases depthNext depth x <;> rfl

/-- The count of open groups fails if some closing parenthesis has only balanced lexemes in front of
it, and only then. -/
lemma depthAfter_eq_none_iff :
    depthAfter 0 lexemes = none ↔
      ∃ j, lexemes[j]? = some [')'] ∧ Balanced (lexemes.take j) := by
  constructor
  · intro h
    induction lexemes using List.reverseRecOn with
    | nil => simp at h
    | append_singleton lexemes x ih =>
      rw [depthAfter_concat] at h
      cases hdepth : depthAfter 0 lexemes with
      | none =>
        obtain ⟨j, hj, hbalanced⟩ := ih hdepth
        have hlt : j < lexemes.length := (List.getElem?_eq_some_iff.mp hj).1
        refine ⟨j, ?_, ?_⟩
        · rwa [List.getElem?_append_left hlt]
        · rwa [List.take_append_of_le_length hlt.le]
      | some depth =>
        obtain ⟨rfl, rfl⟩ := depthNext_eq_none_iff.mp (by simpa [hdepth] using h)
        refine ⟨lexemes.length, by simp, ?_⟩
        rwa [List.take_left]
  · rintro ⟨j, hj, hbalanced⟩
    obtain ⟨hlt, hclosing⟩ := List.getElem?_eq_some_iff.mp hj
    have hsplit : lexemes.take j ++ [')'] :: lexemes.drop (j + 1) = lexemes := by
      rw [← hclosing, ← List.drop_eq_getElem_cons, List.take_append_drop]
    rw [← hsplit, depthAfter_append, hbalanced]
    rfl

/-- An opening parenthesis is unmatched if the open groups can be counted from it to the end. -/
lemma unmatched_iff :
    Unmatched lexemes i ↔
      lexemes[i]? = some ['('] ∧ depthAfter 0 (lexemes.drop (i + 1)) ≠ none := by
  refine and_congr_right fun hopening => ?_
  rw [ne_eq, depthAfter_eq_none_iff, not_exists]
  constructor
  · rintro h j ⟨hclosing, hbalanced⟩
    refine h (i + 1 + j) ⟨hopening, ?_, by omega, ?_⟩
    · rwa [List.getElem?_drop] at hclosing
    · rwa [List.drop_take, Nat.add_sub_cancel_left]
  · intro h j hpartners
    have hlt : i + 1 ≤ j := hpartners.lt
    refine h (j - (i + 1)) ⟨?_, ?_⟩
    · rw [List.getElem?_drop, Nat.add_sub_cancel' hlt]
      exact hpartners.closing
    · rw [← List.drop_take]
      exact hpartners.balanced

/-! ## The unmatched parentheses from the left to the right -/

/-- The open groups behind a lexeme, the last one first: an opening parenthesis is put on top, and a
closing one takes away what is on top. -/
def openingsNext (groups : List Nat) (entry : Text × Nat) : List Nat :=
  if entry.1 = ['('] then entry.2 :: groups
  else if entry.1 = [')'] then groups.tail
  else groups

/-- The positions of the unmatched opening parentheses, the last one first. -/
def openings (lexemes : List Text) : List Nat := lexemes.zipIdx.foldl openingsNext []

/-- Without lexemes no group is open. -/
@[simp] lemma openings_nil : openings [] = [] := rfl

/-- The last lexeme is taken last. -/
lemma openings_concat (lexemes : List Text) (x : Text) :
    openings (lexemes ++ [x]) = openingsNext (openings lexemes) (x, lexemes.length) := by
  simp [openings, List.zipIdx_append]

/-- An opening parenthesis opens a group. -/
@[simp] lemma openings_concat_opening (lexemes : List Text) :
    openings (lexemes ++ [['(']]) = lexemes.length :: openings lexemes :=
  openings_concat lexemes ['(']

/-- A closing parenthesis closes the innermost group. -/
@[simp] lemma openings_concat_closing (lexemes : List Text) :
    openings (lexemes ++ [[')']]) = (openings lexemes).tail :=
  openings_concat lexemes [')']

/-- A lexeme that is no parenthesis opens and closes nothing. -/
lemma openings_concat_other (hopening : x ≠ ['(']) (hclosing : x ≠ [')']) :
    openings (lexemes ++ [x]) = openings lexemes := by
  simp [openings_concat, openingsNext, hopening, hclosing]

/-- From an opening on the stack the open groups can be counted to the end, where they are those on
top of it. -/
lemma depthAfter_of_openings {inner outer : List Nat} (h : openings lexemes = inner ++ k :: outer) :
    lexemes[k]? = some ['('] ∧ depthAfter 0 (lexemes.drop (k + 1)) = some inner.length := by
  induction lexemes using List.reverseRecOn generalizing inner with
  | nil => simp at h
  | append_singleton lexemes x ih =>
    -- Unless the parenthesis is the last lexeme, the last lexeme is counted behind the others.
    have hlast {depth : Nat} (hopening : lexemes[k]? = some ['('])
        (hdepth : depthAfter 0 (lexemes.drop (k + 1)) = some depth)
        (hnext : depthNext depth x = some inner.length) :
        (lexemes ++ [x])[k]? = some ['('] ∧
          depthAfter 0 ((lexemes ++ [x]).drop (k + 1)) = some inner.length := by
      have hlt : k < lexemes.length := (List.getElem?_eq_some_iff.mp hopening).1
      refine ⟨by rwa [List.getElem?_append_left hlt], ?_⟩
      rw [List.drop_append_of_le_length hlt, depthAfter_concat, hdepth, Option.bind_some, hnext]
    by_cases hopening : x = ['(']
    · subst hopening
      rw [openings_concat_opening] at h
      cases inner with
      | nil =>
        obtain ⟨rfl, -⟩ := List.cons.inj h
        simp
      | cons _ inner =>
        obtain ⟨hk, hdepth⟩ := ih (List.cons.inj h).2
        exact hlast hk hdepth rfl
    · by_cases hclosing : x = [')']
      · subst hclosing
        rw [openings_concat_closing] at h
        cases hgroups : openings lexemes with
        | nil => simp [hgroups] at h
        | cons group groups =>
          rw [hgroups, List.tail_cons] at h
          have hcons : openings lexemes = (group :: inner) ++ k :: outer := by
            rw [hgroups, h, List.cons_append]
          obtain ⟨hk, hdepth⟩ := ih hcons
          exact hlast hk hdepth rfl
      · rw [openings_concat_other hopening hclosing] at h
        obtain ⟨hk, hdepth⟩ := ih h
        exact hlast hk hdepth (by simp [depthNext, hopening, hclosing])

/-- The stack holds the unmatched opening parentheses. -/
lemma mem_openings_iff : k ∈ openings lexemes ↔ Unmatched lexemes k := by
  constructor
  · intro h
    obtain ⟨inner, outer, hsplit⟩ := List.append_of_mem h
    obtain ⟨hopening, hdepth⟩ := depthAfter_of_openings hsplit
    exact unmatched_iff.mpr ⟨hopening, by simp [hdepth]⟩
  · rw [unmatched_iff]
    rintro ⟨hk, hdepth⟩
    induction lexemes using List.reverseRecOn with
    | nil => simp at hk
    | append_singleton lexemes x ih =>
      rcases Nat.lt_or_ge k lexemes.length with hlt | hge
      · rw [List.getElem?_append_left hlt] at hk
        rw [List.drop_append_of_le_length hlt, depthAfter_concat] at hdepth
        have hmem : k ∈ openings lexemes := by
          refine ih hk fun hnone => hdepth ?_
          rw [hnone, Option.bind_none]
        by_cases hopening : x = ['(']
        · subst hopening
          rw [openings_concat_opening]
          exact List.mem_cons_of_mem _ hmem
        · by_cases hclosing : x = [')']
          · -- The parenthesis is not on top of the stack, since there it would find its partner.
            subst hclosing
            obtain ⟨inner, outer, hsplit⟩ := List.append_of_mem hmem
            rw [(depthAfter_of_openings hsplit).2, Option.bind_some] at hdepth
            rw [openings_concat_closing, hsplit]
            cases inner with
            | nil => exact absurd rfl hdepth
            | cons group inner => simp
          · rwa [openings_concat_other hopening hclosing]
      · have hlength : k < (lexemes ++ [x]).length := (List.getElem?_eq_some_iff.mp hk).1
        obtain rfl : k = lexemes.length := by
          simp at hlength
          omega
        obtain rfl : x = ['('] := by simpa using hk
        simp

/-- An unmatched parenthesis stands at some position. -/
lemma lt_length_of_mem_openings (h : k ∈ openings lexemes) : k < lexemes.length :=
  (List.getElem?_eq_some_iff.mp (mem_openings_iff.mp h).1).1

/-- The last unmatched opening parenthesis is on top of the stack. -/
lemma pairwise_openings (lexemes : List Text) : (openings lexemes).Pairwise (· > ·) := by
  induction lexemes using List.reverseRecOn with
  | nil => exact List.Pairwise.nil
  | append_singleton lexemes x ih =>
    rw [openings_concat, openingsNext]
    split
    · exact List.pairwise_cons.mpr ⟨fun k hk => lt_length_of_mem_openings hk, ih⟩
    · split
      · exact ih.tail
      · exact ih

/-- The last unmatched opening parenthesis is the one on top of the stack. -/
lemma isGreatest_unmatched_iff :
    IsGreatest {k | Unmatched lexemes k} k ↔ (openings lexemes).head? = some k := by
  simp only [← mem_openings_iff]
  have hsorted : (openings lexemes).Pairwise (· > ·) := pairwise_openings lexemes
  generalize openings lexemes = groups at hsorted
  constructor
  · rintro ⟨hmem, hgreatest⟩
    cases groups with
    | nil => exact absurd hmem List.not_mem_nil
    | cons group groups =>
      have hle : group ≤ k := hgreatest List.mem_cons_self
      rcases List.mem_cons.mp hmem with rfl | hmem
      · rfl
      · have hlt : k < group := List.rel_of_pairwise_cons hsorted hmem
        omega
  · intro h
    obtain ⟨groups, rfl⟩ := List.head?_eq_some_iff.mp h
    refine ⟨List.mem_cons_self, fun group hgroup => ?_⟩
    rcases List.mem_cons.mp hgroup with rfl | hgroup
    · exact le_rfl
    · exact (List.rel_of_pairwise_cons hsorted hgroup).le

/-- No opening parenthesis is unmatched if the stack is empty. -/
lemma openings_eq_nil_iff : openings lexemes = [] ↔ ∀ k, ¬ Unmatched lexemes k := by
  simp only [← mem_openings_iff, List.eq_nil_iff_forall_not_mem]

/-- The partner of a closing parenthesis is the one on top of the stack in front of it. -/
lemma partners_iff :
    Partners lexemes k j ↔
      lexemes[j]? = some [')'] ∧ (openings (lexemes.take j)).head? = some k := by
  constructor
  · intro h
    have hopening : (lexemes.take j)[k]? = some ['('] := by
      rw [List.getElem?_take_of_lt h.lt]
      exact h.opening
    have hdepth : depthAfter 0 ((lexemes.take j).drop (k + 1)) = some 0 := h.balanced
    have hmem : k ∈ openings (lexemes.take j) :=
      mem_openings_iff.mpr (unmatched_iff.mpr ⟨hopening, by simp [hdepth]⟩)
    obtain ⟨inner, outer, hsplit⟩ := List.append_of_mem hmem
    have hinner : inner.length = 0 :=
      Option.some.inj ((depthAfter_of_openings hsplit).2.symm.trans hdepth)
    obtain rfl := List.length_eq_zero_iff.mp hinner
    exact ⟨h.closing, by simp [hsplit]⟩
  · rintro ⟨hclosing, hhead⟩
    obtain ⟨outer, hsplit⟩ : ∃ outer, openings (lexemes.take j) = [] ++ k :: outer :=
      List.head?_eq_some_iff.mp hhead
    obtain ⟨hopening, hdepth⟩ := depthAfter_of_openings hsplit
    have hlt : k < j :=
      (lt_length_of_mem_openings (List.mem_of_head? hhead)).trans_le (List.length_take_le _ _)
    rw [List.getElem?_take_of_lt hlt] at hopening
    exact ⟨hopening, hclosing, hlt, hdepth⟩

end PostfixCalculator
