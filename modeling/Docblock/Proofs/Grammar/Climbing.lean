import Docblock.Grammar.Precedence

/-! Operators between operands, grouped by climbing the levels of precedence. -/
namespace Docblock.Grammar

/-- Operators, each with the operand behind it. -/
abbrev Tail := List (Token × Token)

namespace Tail

def tokens (tail : Tail) : List Token := tail.flatMap fun p => [p.1, p.2]

def operators (tail : Tail) : List Token := tail.map (·.1)

end Tail

/-- Operands in order with operators between them, and which belong together. -/
inductive Grouping where
  | operand (v : Token)
  | operation (op : Token) (left right : Grouping)

namespace Grouping

def tokens : Grouping → List Token
  | operand v => [v]
  | operation op left right => left.tokens ++ op :: right.tokens

def operators : Grouping → List Token
  | operand _ => []
  | operation op left right => left.operators ++ op :: right.operators

/-- The tree of variables with operators between them. -/
def tree : Grouping → Tree
  | operand v => node v.line .var [.text v.text]
  | operation op left right =>
    node op.line .binaryOp [.text (lower op.text), left.tree, right.tree]

end Grouping

def level (op : Token) : Nat := (precedence op.kind).level

def associativity (op : Token) : Associativity := (precedence op.kind).associativity

/-- Whether one operator is grouped before an other one that stands to the right of it. -/
def GroupsFirst (op next : Token) : Prop :=
  level next < level op ∨ level next = level op ∧ associativity op = .left

instance (op next : Token) : Decidable (GroupsFirst op next) :=
  inferInstanceAs (Decidable (_ ∨ _))

/-- Whether an operator waits for one that stands to the right of it. -/
def Waits (op next : Token) : Prop :=
  level op < level next ∨ level op = level next ∧ associativity op = .right

instance (op next : Token) : Decidable (Waits op next) :=
  inferInstanceAs (Decidable (_ ∨ _))

/-- Every operation is made after those on its left and on its right. -/
def Grouping.Grouped : Grouping → Prop
  | operand _ => True
  | operation op left right => left.Grouped ∧ right.Grouped ∧
      (∀ o ∈ left.operators, GroupsFirst o op) ∧ ∀ o ∈ right.operators, Waits op o

instance Grouping.decidableGrouped : (g : Grouping) → Decidable g.Grouped
  | operand _ => isTrue trivial
  | operation _ left right =>
    have := left.decidableGrouped
    have := right.decidableGrouped
    inferInstanceAs (Decidable (_ ∧ _ ∧ _ ∧ _))

/-- The lowest level that belongs to the right side of an operator. -/
def rightLevel (op : Token) : Nat :=
  match associativity op with
  | .right => level op
  | _ => level op + 1

/-- The first of the operators to come, if it is of the level of one that does not group with its
own level. -/
def clash? (op : Token) : Tail → Option Token
  | [] => none
  | (next, _) :: _ => if associativity op = .none ∧ level next = level op then some next else none

/-- Takes the operators from a level on into a grouping, each with all of its right side; what is
left starts with an operator below the level. Fails at an operator that would have to be grouped
with another one of a level that does not group. -/
def climb (least : Nat) (left : Grouping) (tail : Tail) :
    Except Token (Grouping × { rest : Tail // rest.length ≤ tail.length }) :=
  match tail with
  | [] => .ok (left, ⟨[], Nat.le_refl 0⟩)
  | (op, v) :: tail =>
    if level op < least then .ok (left, ⟨(op, v) :: tail, Nat.le_refl _⟩)
    else
      match climb (rightLevel op) (.operand v) tail with
      | .error e => .error e
      | .ok (right, ⟨rest, h⟩) =>
        match clash? op rest with
        | some e => .error e
        | none =>
          match climb least (.operation op left right) rest with
          | .error e => .error e
          | .ok (g, ⟨rest', h'⟩) =>
            .ok (g, ⟨rest', Nat.le_trans h' (Nat.le_succ_of_le h)⟩)
termination_by tail.length

/-- How operators are taken into a grouping, with what is left of them, or the operator that
clashes. -/
inductive Climbs : Nat → Grouping → Tail → Except Token (Grouping × Tail) → Prop
  | done {least : Nat} {g : Grouping} : Climbs least g [] (.ok (g, []))
  | loose {least : Nat} {g : Grouping} {op v : Token} {tail : Tail} (h : level op < least) :
      Climbs least g ((op, v) :: tail) (.ok (g, (op, v) :: tail))
  | inner {least : Nat} {g : Grouping} {op v e : Token} {tail : Tail} (h : least ≤ level op)
      (hr : Climbs (rightLevel op) (.operand v) tail (.error e)) :
      Climbs least g ((op, v) :: tail) (.error e)
  | clash {least : Nat} {g right : Grouping} {op v e : Token} {tail rest : Tail}
      (h : least ≤ level op) (hr : Climbs (rightLevel op) (.operand v) tail (.ok (right, rest)))
      (hc : clash? op rest = some e) : Climbs least g ((op, v) :: tail) (.error e)
  | more {least : Nat} {g right : Grouping} {op v : Token} {tail rest : Tail}
      {result : Except Token (Grouping × Tail)} (h : least ≤ level op)
      (hr : Climbs (rightLevel op) (.operand v) tail (.ok (right, rest)))
      (hc : clash? op rest = none) (hm : Climbs least (.operation op g right) rest result) :
      Climbs least g ((op, v) :: tail) result

theorem climb_climbs (least : Nat) (left : Grouping) (tail : Tail) :
    Climbs least left tail ((climb least left tail).map fun p => (p.1, p.2.1)) := by
  fun_induction climb least left tail with
  | case1 => exact .done
  | case2 _ _ _ _ _ h => exact .loose h
  | case3 _ _ _ _ _ h e he ih =>
    rw [he] at ih
    exact .inner (Nat.le_of_not_lt h) ih
  | case4 _ _ _ _ _ h right rest hle he e hc ih =>
    rw [he] at ih
    exact .clash (Nat.le_of_not_lt h) ih hc
  | case5 _ _ _ _ _ h right rest hle he hc e hm ih ih' =>
    rw [he] at ih
    rw [hm] at ih'
    exact .more (Nat.le_of_not_lt h) ih hc ih'
  | case6 _ _ _ _ _ h right rest hle he hc g rest' hle' hm ih ih' =>
    rw [he] at ih
    rw [hm] at ih'
    exact .more (Nat.le_of_not_lt h) ih hc ih'

variable {least : Nat} {g g' : Grouping} {tail rest : Tail} {op next o e : Token}

theorem GroupsFirst.trans (h : GroupsFirst o op) (h' : GroupsFirst op next) :
    GroupsFirst o next := by
  obtain h | ⟨h, ha⟩ := h <;> obtain h' | ⟨h', -⟩ := h'
  · exact Or.inl (Nat.lt_trans h' h)
  · exact Or.inl (h' ▸ h)
  · exact Or.inl (h ▸ h')
  · exact Or.inr ⟨h'.trans h, ha⟩

theorem level_le_rightLevel (op : Token) : level op ≤ rightLevel op := by
  rw [rightLevel]
  split <;> omega

theorem waits_of_rightLevel_le (h : rightLevel op ≤ level o) : Waits op o := by
  rw [rightLevel] at h
  split at h
  · rename_i ha
    obtain hlt | heq := Nat.lt_or_eq_of_le h
    · exact Or.inl hlt
    · exact Or.inr ⟨heq, ha⟩
  · exact Or.inl h

/-- What is left behind the right side of an operator, and does not clash with it, comes later. -/
theorem groupsFirst_of_clash? {v : Token} (hlt : level next < rightLevel op)
    (hc : clash? op ((next, v) :: rest) = none) : GroupsFirst op next := by
  simp only [clash?, ite_eq_right_iff, reduceCtorEq, imp_false, not_and] at hc
  rw [rightLevel] at hlt
  cases ha : associativity op with
  | left =>
    rw [ha] at hlt
    obtain h | h := Nat.lt_or_eq_of_le (Nat.le_of_lt_succ hlt)
    · exact Or.inl h
    · exact Or.inr ⟨h, ha⟩
  | right =>
    rw [ha] at hlt
    exact Or.inl hlt
  | none =>
    rw [ha] at hlt
    exact Or.inl (Nat.lt_of_le_of_ne (Nat.le_of_lt_succ hlt) (hc ha))

theorem GroupsFirst.of_waits (h : GroupsFirst op next) (hlt : level next < rightLevel op)
    (hw : Waits op o) : GroupsFirst o next := by
  obtain hw | ⟨heq, ha⟩ := hw
  · obtain h | ⟨h, -⟩ := h <;> exact Or.inl (by omega)
  · rw [rightLevel, ha] at hlt
    exact Or.inl (heq ▸ hlt)

/-- What has been taken in is a start of the operators, none of it below the level, and the first
of what is left is below it. -/
theorem Climbs.taken (h : Climbs least g tail (.ok (g', rest))) :
    ∃ used, tail = used ++ rest ∧ g'.tokens = g.tokens ++ used.tokens ∧
      g'.operators = g.operators ++ used.operators ∧ (∀ o ∈ used.operators, least ≤ level o) ∧
      ∀ p ∈ rest.head?, level p.1 < least := by
  generalize hres : Except.ok (g', rest) = res at h
  induction h generalizing g' rest with
  | done =>
    cases hres
    exact ⟨[], rfl, by simp [Tail.tokens], by simp [Tail.operators], by simp [Tail.operators],
      by simp⟩
  | loose h =>
    cases hres
    exact ⟨[], rfl, by simp [Tail.tokens], by simp [Tail.operators], by simp [Tail.operators],
      by simpa using h⟩
  | inner | clash => cases hres
  | @more least g right op v tail mid res h _ _ _ ihr ihm =>
    obtain ⟨inside, rfl, hrt, hro, hrl, -⟩ := ihr rfl
    obtain ⟨used, rfl, hgt, hgo, hgl, hlast⟩ := ihm hres
    refine ⟨(op, v) :: (inside ++ used), by simp, ?_, ?_, ?_, hlast⟩
    · simp [hgt, hrt, Grouping.tokens, Tail.tokens]
    · simp [hgo, hro, Grouping.operators, Tail.operators]
    · simp only [Tail.operators, List.map_cons, List.map_append, List.forall_mem_cons,
        List.forall_mem_append] at hrl hgl ⊢
      refine ⟨h, fun o ho => ?_, hgl⟩
      have := hrl o ho
      have := level_le_rightLevel op
      omega

theorem Climbs.grouped (h : Climbs least g tail (.ok (g', rest))) (hg : g.Grouped)
    (hf : ∀ p ∈ tail.head?, ∀ o ∈ g.operators, GroupsFirst o p.1) : g'.Grouped := by
  generalize hres : Except.ok (g', rest) = res at h
  induction h generalizing g' rest with
  | done | loose =>
    cases hres
    exact hg
  | inner | clash => cases hres
  | @more least g right op v tail mid res h hr hc _ ihr ihm =>
    have hright : right.Grouped := ihr trivial (by simp [Grouping.operators]) rfl
    obtain ⟨inside, -, -, hro, hrl, hmid⟩ := hr.taken
    have hleft : ∀ o ∈ g.operators, GroupsFirst o op := by simpa using hf
    have hwaits : ∀ o ∈ right.operators, Waits op o := by
      rw [hro]
      exact fun o ho => waits_of_rightLevel_le (hrl o (by simpa [Grouping.operators] using ho))
    refine ihm ⟨hg, hright, hleft, hwaits⟩ ?_ hres
    -- The operator that comes next is grouped after all that has been taken in.
    rintro ⟨next, w⟩ hp
    cases mid with
    | nil => simp at hp
    | cons p mid =>
      cases Option.mem_some_iff.mp hp
      have hlt := hmid _ hp
      have hfirst := groupsFirst_of_clash? hlt hc
      simp only [Grouping.operators, List.forall_mem_append, List.forall_mem_cons]
      exact ⟨fun o ho => (hleft o ho).trans hfirst, hfirst,
        fun o ho => hfirst.of_waits hlt (hwaits o ho)⟩

/-- Two operators of a level that does not group would have to be grouped with each other: all that
stand between them are of higher levels. -/
def Clashes (ops : List Token) : Prop :=
  ∃ before op between next after, ops = before ++ op :: (between ++ next :: after) ∧
    associativity op = .none ∧ level next = level op ∧ ∀ o ∈ between, level op < level o

theorem Clashes.append {ops : List Token} (h : Clashes ops) (first : List Token) :
    Clashes (first ++ ops) := by
  obtain ⟨before, op, between, next, after, rfl, h⟩ := h
  exact ⟨first ++ before, op, between, next, after, by simp, h⟩

theorem Climbs.clashes (h : Climbs least g tail (.error e)) : Clashes tail.operators := by
  generalize hres : Except.error e = res at h
  induction h with
  | done | loose => cases hres
  | @inner least g op v _ tail h hr ih => exact (ih hres).append [op]
  | @clash least g right op v _ tail mid h hr hc _ =>
    obtain ⟨inside, rfl, -, -, hlevel, -⟩ := hr.taken
    cases mid with
    | nil => cases hc
    | cons p mid =>
      simp only [clash?, Option.ite_none_right_eq_some] at hc
      obtain ⟨⟨hnone, heq⟩, -⟩ := hc
      refine ⟨[], op, inside.operators, p.1, mid.map (·.1), by simp [Tail.operators], hnone, heq,
        fun o ho => ?_⟩
      have := hlevel o ho
      rw [rightLevel, hnone] at this
      exact this
  | @more least g right op v tail mid res h hr _ _ _ ihm =>
    obtain ⟨inside, rfl, -⟩ := hr.taken
    simpa [Tail.operators] using (ihm hres).append (op :: inside.operators)

theorem GroupsFirst.lt_of_none (h : GroupsFirst o op) (ha : associativity o = .none) :
    level op < level o := by
  obtain h | ⟨-, hl⟩ := h
  · exact h
  · cases ha.symm.trans hl

theorem Waits.lt_of_none (h : Waits op o) (ha : associativity op = .none) :
    level op < level o := by
  obtain h | ⟨-, hr⟩ := h
  · exact h
  · cases ha.symm.trans hr

/-- An operator would have to be grouped with one of its level, behind others of higher levels. -/
def Meets (op : Token) (ops : List Token) : Prop :=
  ∃ between next after, ops = between ++ next :: after ∧ level next = level op ∧
    ∀ o ∈ between, level op < level o

theorem Clashes.cons {ops : List Token} (h : Clashes (op :: ops)) :
    associativity op = .none ∧ Meets op ops ∨ Clashes ops := by
  obtain ⟨before, o, between, next, after, hops, hnone, heq, hbetween⟩ := h
  cases before with
  | nil =>
    cases hops
    exact Or.inl ⟨hnone, between, next, after, rfl, heq, hbetween⟩
  | cons b before =>
    cases hops
    exact Or.inr ⟨before, o, between, next, after, rfl, hnone, heq, hbetween⟩

/-- What an operator meets stands before any operator that is lower. -/
theorem Meets.append {ops more : List Token} (h : Meets op (ops ++ o :: more)) :
    Meets op ops ∨ level op ≤ level o := by
  obtain ⟨between, next, after, hops, heq, hbetween⟩ := h
  obtain ⟨as, rfl, hmore⟩ | ⟨bs, rfl, hmore⟩ := List.append_eq_append_iff.mp hops
  · cases as with
    | nil =>
      cases hmore
      exact Or.inr (Nat.le_of_eq heq.symm)
    | cons a as =>
      cases hmore
      exact Or.inr (Nat.le_of_lt (hbetween o (by simp)))
  · cases bs with
    | nil =>
      cases hmore
      exact Or.inr (Nat.le_of_eq heq.symm)
    | cons b bs =>
      cases hmore
      exact Or.inl ⟨between, next, bs, rfl, heq, hbetween⟩

/-- Operators that clash are both on one side of an operator, or it is one of them, or it is not
lower than the first of them. -/
theorem Clashes.split {left right : List Token} (h : Clashes (left ++ op :: right)) :
    Clashes left ∨ Clashes right ∨
      (associativity op = .none ∧ ∃ next ∈ right, level next = level op) ∨
      ∃ o ∈ left, associativity o = .none ∧ level o ≤ level op := by
  induction left with
  | nil =>
    obtain ⟨hnone, between, next, after, rfl, heq, -⟩ | hright := h.cons
    · exact Or.inr (Or.inr (Or.inl ⟨hnone, next, by simp, heq⟩))
    · exact Or.inr (Or.inl hright)
  | cons o left ih =>
    obtain ⟨hnone, hmeets⟩ | hrest := h.cons
    · obtain ⟨between, next, after, rfl, hnext⟩ | hle := hmeets.append
      · exact Or.inl ⟨[], o, between, next, after, rfl, hnone, hnext⟩
      · exact Or.inr (Or.inr (Or.inr ⟨o, by simp, hnone, hle⟩))
    · obtain hleft | hright | hop | ⟨o', ho', hle⟩ := ih hrest
      · exact Or.inl (hleft.append [o])
      · exact Or.inr (Or.inl hright)
      · exact Or.inr (Or.inr (Or.inl hop))
      · exact Or.inr (Or.inr (Or.inr ⟨o', List.mem_cons_of_mem o ho', hle⟩))

/-- In what is grouped, nothing would have to be grouped with its own level. -/
theorem Grouping.Grouped.not_clashes (h : g.Grouped) : ¬ Clashes g.operators := by
  induction g with
  | operand v =>
    rintro ⟨before, op, between, next, after, hops, -⟩
    simp [operators] at hops
  | operation op left right ihl ihr =>
    obtain ⟨hl, hr, hleft, hright⟩ := h
    intro hclash
    obtain hclash | hclash | ⟨hnone, next, hnext, heq⟩ | ⟨o, ho, hnone, hle⟩ := hclash.split
    · exact ihl hl hclash
    · exact ihr hr hclash
    · have hlt := (hright next hnext).lt_of_none hnone
      omega
    · have hlt := (hleft o ho).lt_of_none hnone
      omega

/-- All the operators behind an operand, grouped. -/
def climbAll (first : Token) (tail : Tail) : Except Token Grouping :=
  (climb 0 (.operand first) tail).map (·.1)

theorem climbAll_ok {first : Token} (h : climbAll first tail = .ok g) :
    Climbs 0 (.operand first) tail (.ok (g, [])) := by
  have hc := climb_climbs 0 (.operand first) tail
  rw [climbAll] at h
  cases hr : climb 0 (.operand first) tail with
  | error e =>
    rw [hr] at h
    cases h
  | ok p =>
    obtain ⟨g', rest, hle⟩ := p
    rw [hr] at h hc
    cases h
    obtain ⟨-, -, -, -, -, hlast⟩ := hc.taken
    cases rest with
    | nil => exact hc
    | cons p rest => exact absurd (hlast p rfl) (Nat.not_lt_zero _)

theorem climbAll_error {first : Token} (h : climbAll first tail = .error e) :
    Climbs 0 (.operand first) tail (.error e) := by
  have hc := climb_climbs 0 (.operand first) tail
  rw [climbAll] at h
  cases hr : climb 0 (.operand first) tail with
  | error e' =>
    rw [hr] at h hc
    cases h
    exact hc
  | ok p =>
    rw [hr] at h
    cases h

/-- The operators can be grouped, or some clash. If they can, every operation comes after those on
its left and on its right. -/
theorem climbAll_grouped {first : Token} (h : climbAll first tail = .ok g) :
    g.tokens = first :: tail.tokens ∧ g.Grouped := by
  have hc := climbAll_ok h
  obtain ⟨used, rfl, htokens, -⟩ := hc.taken
  refine ⟨by simpa [Grouping.tokens] using htokens, hc.grouped trivial ?_⟩
  simp [Grouping.operators]

theorem climbAll_error_iff (first : Token) (tail : Tail) :
    (∃ e, climbAll first tail = .error e) ↔ Clashes tail.operators := by
  constructor
  · rintro ⟨e, he⟩
    exact (climbAll_error he).clashes
  · intro hclash
    cases h : climbAll first tail with
    | error e => exact ⟨e, rfl⟩
    | ok g =>
      obtain ⟨used, rfl, -, hops, -⟩ := (climbAll_ok h).taken
      refine absurd ?_ (climbAll_grouped h).2.not_clashes
      simpa [hops, Grouping.operators] using hclash

end Docblock.Grammar
