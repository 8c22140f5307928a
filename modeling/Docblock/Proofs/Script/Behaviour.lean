import Mathlib.Data.List.Forall2

/-! The events that statements of control flow make, one after another, and how statements end. -/
namespace Docblock.Flow

/-- How a statement ends: behind its last part, within a round of a loop, or not at all as long as
loops make only so many rounds. -/
inductive Exit where
  | atEnd | byBreak | byContinue | unfinished
  deriving DecidableEq

structure Behaviour (E : Type) where
  events : List E
  exit : Exit

/-- What a statement does when a number of events has come before it. -/
abbrev Meaning (E : Type) := Nat → Behaviour E

/-- What the truth of an expression is: that of a literal, which makes no event, or the answer to
an event, as it is or negated. -/
inductive Verdict (E : Type) where
  | known (b : Bool)
  | asked (event : E) (negated : Bool)

variable {E E' : Type}

def Verdict.negate : Verdict E → Verdict E
  | .known b => .known !b
  | .asked e negated => .asked e !negated

/-- The truth that does not depend on an answer. -/
def Verdict.truth? : Verdict E → Option Bool
  | .known b => some b
  | .asked _ _ => none

namespace Meaning

/-- Makes no event and ends. -/
def leave (x : Exit) : Meaning E := fun _ => ⟨[], x⟩

def skip : Meaning E := leave .atEnd

/-- Some events come first. -/
def after (es : List E) (m : Meaning E) : Meaning E := fun k =>
  ⟨es ++ (m (k + es.length)).events, (m (k + es.length)).exit⟩

def andThen (m m' : Meaning E) : Meaning E := fun k =>
  if (m k).exit = .atEnd then m'.after (m k).events k else m k

/-- A round that is broken off for the next one counts as ended. -/
def resume (m : Meaning E) : Meaning E := fun k =>
  if (m k).exit = .byContinue then ⟨(m k).events, .atEnd⟩ else m k

/-- Round after round, but no more than a number of them. -/
def loop (round : Meaning E) : Nat → Meaning E
  | 0 => leave .unfinished
  | n + 1 => fun k =>
    match (round k).exit with
    | .atEnd | .byContinue => (loop round n).after (round k).events k
    | .byBreak => ⟨(round k).events, .atEnd⟩
    | .unfinished => round k

/-- Evaluates an expression whose truth does not matter. -/
def evaluate : Verdict E → Meaning E
  | .known _ => skip
  | .asked e _ => skip.after [e]

/-- Goes on by the truth of an expression. The answers are those to the events in their order. -/
def branch (answers : Nat → Bool) (v : Verdict E) (yes no : Meaning E) : Meaning E :=
  match v with
  | .known b => if b then yes else no
  | .asked e negated => fun k => (if answers k != negated then yes else no).after [e] k

variable {m m' m'' : Meaning E}

theorem andThen_skip (m : Meaning E) : m.andThen skip = m := by
  funext k
  rw [andThen]
  split
  · rename_i h
    simp [after, skip, leave, ← h]
  · rfl

theorem andThen_assoc (m m' m'' : Meaning E) :
    (m.andThen m').andThen m'' = m.andThen (m'.andThen m'') := by
  funext k
  by_cases h : (m k).exit = .atEnd
  · by_cases h' : (m' (k + (m k).events.length)).exit = .atEnd
    · simp [andThen, after, h, h', Nat.add_assoc]
    · simp [andThen, after, h, h']
  · simp [andThen, h]

theorem branch_negate (answers : Nat → Bool) (v : Verdict E) (yes no : Meaning E) :
    branch answers v.negate yes no = branch answers v no yes := by
  cases v with
  | known b => cases b <;> rfl
  | asked e negated =>
    funext k
    simp only [Verdict.negate, branch]
    cases answers k <;> cases negated <;> rfl

/-- A loop goes on with the next round either way. -/
theorem loop_resume (m : Meaning E) (n : Nat) : loop m.resume n = loop m n := by
  induction n with
  | zero => rfl
  | succ n ih =>
    funext k
    cases h : (m k).exit <;> simp [loop, resume, ih, h]

theorem resume_after (m : Meaning E) (es : List E) : (m.after es).resume = m.resume.after es := by
  funext k
  by_cases h : (m (k + es.length)).exit = .byContinue
  · simp [resume, after, h]
  · simp [resume, after, h]

theorem resume_branch (answers : Nat → Bool) (v : Verdict E) (yes no : Meaning E) :
    (branch answers v yes no).resume = branch answers v yes.resume no.resume := by
  cases v with
  | known b => cases b <;> rfl
  | asked e negated =>
    funext k
    by_cases h : (answers k != negated) = true
    · simpa [branch, resume, h] using congrFun (resume_after yes [e]) k
    · simpa [branch, resume, h] using congrFun (resume_after no [e]) k

/-- No round of a loop around it is broken off for the next one. -/
def Staying (m : Meaning E) : Prop := ∀ k, (m k).exit ≠ .byContinue

theorem resume_staying (h : m.Staying) : m.resume = m := by
  funext k
  exact if_neg (h k)

theorem staying_leave {x : Exit} (h : x ≠ .byContinue) : (leave x : Meaning E).Staying :=
  fun _ => h

theorem Staying.after (h : m.Staying) (es : List E) : (m.after es).Staying :=
  fun k => h (k + es.length)

theorem Staying.andThen (h : m.Staying) (h' : m'.Staying) : (m.andThen m').Staying := by
  intro k
  rw [Meaning.andThen]
  split
  · exact h'.after _ k
  · exact h k

theorem Staying.branch {answers : Nat → Bool} {v : Verdict E} (h : m.Staying)
    (h' : m'.Staying) : (branch answers v m m').Staying := by
  cases v with
  | known b => cases b <;> assumption
  | asked e negated =>
    intro k
    simp only [Meaning.branch]
    split
    · exact h.after [e] k
    · exact h'.after [e] k

theorem staying_evaluate (v : Verdict E) : (evaluate v).Staying := by
  cases v with
  | known b => exact staying_leave (by decide)
  | asked e negated => exact (staying_leave (by decide)).after [e]

theorem staying_loop (round : Meaning E) (n : Nat) : (loop round n).Staying := by
  induction n with
  | zero => exact staying_leave (by decide)
  | succ n ih =>
    intro k
    simp only [loop]
    split
    · exact ih.after _ k
    · exact ih.after _ k
    · simp
    · rename_i hexit
      rw [hexit]
      decide

end Meaning

/-- Events of one kind correspond to events of another kind. -/
inductive Verdict.Matches (R : E → E' → Prop) : Verdict E → Verdict E' → Prop
  | known (b b' : Bool) : Matches R (.known b) (.known b')
  | asked {e : E} {e' : E'} (h : R e e') (negated : Bool) :
      Matches R (.asked e negated) (.asked e' negated)

theorem Verdict.Matches.negate {R : E → E' → Prop} {v : Verdict E} {v' : Verdict E'}
    (h : v.Matches R v') : v.negate.Matches R v'.negate := by
  cases h with
  | known b b' => exact .known _ _
  | asked h negated => exact .asked h _

namespace Meaning

variable {R : E → E' → Prop} {m n : Meaning E} {m' n' : Meaning E'} {v : Verdict E}
  {v' : Verdict E'}

/-- The same events up to their kind, and the same end. -/
def Matches (R : E → E' → Prop) (m : Meaning E) (m' : Meaning E') : Prop :=
  ∀ k, List.Forall₂ R (m k).events (m' k).events ∧ (m k).exit = (m' k).exit

theorem matches_leave (x : Exit) : (leave x).Matches R (leave x) := fun _ => ⟨.nil, rfl⟩

theorem Matches.after {es : List E} {es' : List E'} (h : m.Matches R m')
    (he : List.Forall₂ R es es') : (m.after es).Matches R (m'.after es') := by
  intro k
  obtain ⟨hevents, hexit⟩ := h (k + es.length)
  rw [he.length_eq] at hevents hexit
  simp only [Meaning.after, he.length_eq]
  exact ⟨List.rel_append he hevents, hexit⟩

theorem Matches.andThen (h : m.Matches R m') (hn : n.Matches R n') :
    (m.andThen n).Matches R (m'.andThen n') := by
  intro k
  obtain ⟨hevents, hexit⟩ := h k
  simp only [Meaning.andThen, ← hexit]
  split
  · exact hn.after hevents k
  · exact ⟨hevents, hexit⟩

theorem Matches.loop (h : m.Matches R m') (rounds : Nat) :
    (loop m rounds).Matches R (loop m' rounds) := by
  induction rounds with
  | zero => exact matches_leave _
  | succ rounds ih =>
    intro k
    obtain ⟨hevents, hexit⟩ := h k
    simp only [Meaning.loop, ← hexit]
    split
    · exact ih.after hevents k
    · exact ih.after hevents k
    · exact ⟨hevents, rfl⟩
    · exact ⟨hevents, hexit⟩

theorem Matches.branch {answers : Nat → Bool} (hv : v.Matches R v') (ht : v.truth? = v'.truth?)
    (h : m.Matches R m') (hn : n.Matches R n') :
    (branch answers v m n).Matches R (branch answers v' m' n') := by
  cases hv with
  | known b b' =>
    obtain rfl : b = b' := Option.some.inj ht
    cases b <;> assumption
  | asked he negated =>
    intro k
    simp only [Meaning.branch]
    split
    · exact h.after (.cons he .nil) k
    · exact hn.after (.cons he .nil) k

theorem matches_evaluate (hv : v.Matches R v') : (evaluate v).Matches R (evaluate v') := by
  cases hv with
  | known b b' => exact matches_leave _
  | asked he negated => exact (matches_leave _).after (.cons he .nil)

end Meaning
end Docblock.Flow
