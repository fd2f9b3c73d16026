import PostfixCalculator.Text.Cluster.Table

/-!
# Clusters: what a reader takes for one character

A letter with its accents, a syllable of several letters, a flag and a family of pictographs are
each written with several characters, and a reader takes each of them for one.  An extended
grapheme cluster of the Unicode standard is such a group.

The standard decides between every two neighbouring characters whether a cluster ends there.  The
decision depends on the properties of both and on three facts about the text in front: whether it
ends in an odd number of regional indicators, in a pictograph with its marks, or in a consonant
with a linking mark.  A `Context` holds exactly these facts, so that one walk over the text finds
all clusters.
-/

namespace PostfixCalculator

namespace Text.Cluster

/-! ### Classes of characters -/

/-- What the decision depends on in a single character. -/
inductive BreakClass where
  | carriageReturn
  | lineFeed
  | control
  | extending
  | linking
  | nonJoiner
  | joiner
  | spacing
  | prepended
  | consonant
  | pictograph
  | regional
  | leadingJamo
  | vowelJamo
  | trailingJamo
  | openSyllable
  | closedSyllable
  | other
deriving DecidableEq

namespace BreakClass

/-- The sets of characters that make up the classes, apart from the Hangul syllables, which are
told apart by a rule. -/
def sets : List (CodePoints × BreakClass) :=
  [(⟨[(0x0D, 0x0D)], by decide⟩, carriageReturn), (⟨[(0x0A, 0x0A)], by decide⟩, lineFeed),
    (Cluster.control, control), (Cluster.extending, extending), (Cluster.linking, linking),
    (⟨[(0x200C, 0x200C)], by decide⟩, nonJoiner), (⟨[(0x200D, 0x200D)], by decide⟩, joiner),
    (Cluster.spacing, spacing), (Cluster.prepended, prepended), (Cluster.consonant, consonant),
    (Cluster.pictograph, pictograph), (⟨[(0x1F1E6, 0x1F1FF)], by decide⟩, regional),
    (⟨[(0x1100, 0x115F), (0xA960, 0xA97C)], by decide⟩, leadingJamo),
    (⟨[(0x1160, 0x11A7), (0xD7B0, 0xD7C6), (0x16D63, 0x16D63), (0x16D67, 0x16D6A)], by decide⟩,
      vowelJamo),
    (⟨[(0x11A8, 0x11FF), (0xD7CB, 0xD7FB)], by decide⟩, trailingJamo)]

/-- The class of a character.  Every 28th Hangul syllable has no trailing consonant. -/
def ofChar (c : Char) : BreakClass :=
  let n := c.toNat
  if 0xAC00 ≤ n && n ≤ 0xD7A3 then
    if (n - 0xAC00) % 28 = 0 then openSyllable else closedSyllable
  else
    match sets.find? (·.1.contains n) with
    | some (_, breakClass) => breakClass
    | none => other

/-- A cluster ends before and after these. -/
def isControl : BreakClass → Bool
  | carriageReturn | lineFeed | control => true
  | _ => false

/-- Marks without a width of their own, apart from the joiner. -/
def isExtending : BreakClass → Bool
  | extending | linking | nonJoiner => true
  | _ => false

end BreakClass

/-! ### The text in front -/

/-- Whether a text ends in a consonant that waits for a linking mark, or has one. -/
inductive Conjunct where
  | none
  | consonant
  | linked
deriving DecidableEq

/-- What the decision depends on in the text in front. -/
structure Context where
  /-- The class of the last character. -/
  last : BreakClass
  /-- The text ends in an odd number of regional indicators. -/
  oddRegionals : Bool
  /-- The text ends in a pictograph and its marks. -/
  pictograph : Bool
  /-- The text ends in a pictograph, its marks and a joiner. -/
  joinedPictograph : Bool
  /-- The text ends in a consonant and its marks. -/
  conjunct : Conjunct
deriving DecidableEq

namespace Context

/-- The conjunct at the end of a text when a character of the given class is added. -/
def nextConjunct (conjunct : Conjunct) : BreakClass → Conjunct
  | .consonant => .consonant
  | .linking => if conjunct = .none then .none else .linked
  | .extending | .joiner => conjunct
  | _ => .none

/-- The context behind one more character. -/
def push (context : Context) (next : BreakClass) : Context where
  last := next
  oddRegionals := next = .regional && !context.oddRegionals
  pictograph := next = .pictograph || next.isExtending && context.pictograph
  joinedPictograph := next = .joiner && context.pictograph
  conjunct := nextConjunct context.conjunct next

/-- The context at the start of a text, where no rule joins anything to what is in front. -/
def start : Context := ⟨.control, false, false, false, .none⟩

/-- Whether a character of the given class belongs to the same cluster as the text in front.  The
first rule that applies decides. -/
def joins (context : Context) (next : BreakClass) : Bool :=
  match context.last, next with
  | .carriageReturn, .lineFeed => true
  | last, next =>
    if last.isControl || next.isControl then false
    else if next.isExtending || next = .joiner || next = .spacing || last = .prepended then true
    else
      match last, next with
      | .leadingJamo, .leadingJamo | .leadingJamo, .vowelJamo => true
      | .leadingJamo, .openSyllable | .leadingJamo, .closedSyllable => true
      | .openSyllable, .vowelJamo | .openSyllable, .trailingJamo => true
      | .vowelJamo, .vowelJamo | .vowelJamo, .trailingJamo => true
      | .closedSyllable, .trailingJamo | .trailingJamo, .trailingJamo => true
      | _, .consonant => context.conjunct = .linked
      | .joiner, .pictograph => context.joinedPictograph
      | .regional, .regional => context.oddRegionals
      | _, _ => false

end Context

/-! ### Division into clusters -/

/-- The clusters of a text that stands behind the given context, the first of which goes on with
the given characters, the newest first. -/
def divide (context : Context) (current : Text) : Text → List Text
  | [] => [current.reverse]
  | c :: text =>
    let next := BreakClass.ofChar c
    if context.joins next then divide (context.push next) (c :: current) text
    else current.reverse :: divide (context.push next) [c] text

theorem flatten_divide (context : Context) (current text : Text) :
    (divide context current text).flatten = current.reverse ++ text := by
  induction text generalizing context current with
  | nil => simp [divide]
  | cons c text ih =>
    simp only [divide]
    split <;> simp [ih]

end Text.Cluster

/-- The clusters of a text in order. -/
def Text.clusters : Text → List Text
  | [] => []
  | c :: text =>
    Cluster.divide (Cluster.Context.start.push (Cluster.BreakClass.ofChar c)) [c] text

/-- The clusters of a text make up the text. -/
@[simp] theorem Text.flatten_clusters (text : Text) : text.clusters.flatten = text := by
  cases text with
  | nil => rfl
  | cons c text => exact Cluster.flatten_divide _ [c] text

end PostfixCalculator
