import Docblock.Proofs.Grammar.Derivation

/-! What the tokens of a derivation are read as, and the brackets among them. -/
namespace Docblock.Grammar

variable {file : Option String} {v : Nonterminal} {ss : List Symbol} {α β : Type}

/-- Some tokens are read as a value of a nonterminal. -/
def ReadAs (file : Option String) (v : Nonterminal) (ts : List Token) (x : v.Value) : Prop :=
  ∃ d : Derivation v, d.yield = ts ∧ d.result file = .ok x

/-- The derivations that a forest is made of. -/
inductive Forest.Contains :
    {ss : List Symbol} → Forest ss → {v : Nonterminal} → Derivation v → Prop
  | first (p : Production) (hp : p ∈ productions) (children : Forest p.rhs) {ss : List Symbol}
      (rest : Forest ss) : Contains (.node p hp children rest) (.node p hp children .nil)
  | child {p : Production} {hp : p ∈ productions} {children : Forest p.rhs} {ss : List Symbol}
      {rest : Forest ss} {v : Nonterminal} {c : Derivation v} (h : children.Contains c) :
      Contains (.node p hp children rest) c
  | later {p : Production} {hp : p ∈ productions} {children : Forest p.rhs} {ss : List Symbol}
      {rest : Forest ss} {v : Nonterminal} {c : Derivation v} (h : rest.Contains c) :
      Contains (.node p hp children rest) c
  | behind {t : Token} {ss : List Symbol} {rest : Forest ss} {v : Nonterminal} {c : Derivation v}
      (h : rest.Contains c) : Contains (.token t rest) c

/-- What the value of a production is made of. -/
theorem Forest.value_node {p : Production} {hp : p ∈ productions} {children : Forest p.rhs}
    {rest : Forest ss} {x : p.lhs.Value} {xs : Values ss}
    (h : (Forest.node p hp children rest).value file = .ok (x, xs)) :
    ∃ ys, children.value file = .ok ys ∧ (p.action file).apply ys = .ok x ∧
      rest.value file = .ok xs := by
  simp only [value] at h
  split at h
  · cases h
  · rename_i ys hc
    split at h
    · cases h
    · rename_i y ha
      obtain ⟨zs, hr, heq⟩ := ok_of_map h
      cases heq
      exact ⟨ys, hc, ha, hr⟩

theorem Derivation.result_of_value {d : Derivation v} {x : v.Value}
    (h : d.value file = .ok (x, ())) : d.result file = .ok x := by
  rw [result, h]
  rfl

theorem readAs_node {p : Production} (hp : p ∈ productions) {children : Forest p.rhs}
    {ys : Values p.rhs} {x : p.lhs.Value} (hc : children.value file = .ok ys)
    (ha : (p.action file).apply ys = .ok x) : ReadAs file p.lhs children.yield x := by
  refine ⟨.node p hp children .nil, by simp [Forest.yield], Derivation.result_of_value ?_⟩
  simp [Forest.value, hc, ha, Except.map]

/-- Where a forest has values, so has every derivation in it. -/
theorem Forest.Contains.exists_result {forest : Forest ss} {c : Derivation v}
    (h : forest.Contains c) {xs : Values ss} (hv : forest.value file = .ok xs) :
    ∃ x, c.result file = .ok x := by
  induction h with
  | first p hp children rest =>
    obtain ⟨x, xs⟩ := xs
    obtain ⟨ys, hc, ha, -⟩ := value_node hv
    refine ⟨x, Derivation.result_of_value ?_⟩
    simp [value, hc, ha, Except.map]
  | child _ ih =>
    obtain ⟨x, xs⟩ := xs
    obtain ⟨ys, hc, -⟩ := value_node hv
    exact ih hc
  | later _ ih =>
    obtain ⟨x, xs⟩ := xs
    obtain ⟨-, -, -, hr⟩ := value_node hv
    exact ih hr
  | behind _ ih =>
    obtain ⟨ys, hr, -⟩ := ok_of_map hv
    exact ih hr

/-- Whatever tokens and values with a property a function is given for some symbols, `Q` holds of
all the tokens and of its result. -/
def Spells (I : (v : Nonterminal) → List Token → v.Value → Prop) :
    (ss : List Symbol) → (Q : List Token → α → Prop) → Curried ss α → Prop
  | [], Q, f => Q [] f
  | .t k :: ss, Q, f => ∀ t : Token, t.kind = k → Spells I ss (fun ts => Q (t :: ts)) (f t)
  | .n v :: ss, Q, f => ∀ ts x, I v ts x → Spells I ss (fun us => Q (ts ++ us)) (f x)

variable {I J : (v : Nonterminal) → List Token → v.Value → Prop}

/-- From tokens that are read as values with a property, a production makes tokens and a value
with the property. -/
def Production.Spells (file : Option String) (J : (v : Nonterminal) → List Token → v.Value → Prop)
    (p : Production) : Prop :=
  Grammar.Spells (fun v ts x => ReadAs file v ts x ∧ J v ts x) p.rhs
    (fun ts r => ∀ x, r = .ok x → J p.lhs ts x) (p.action file)

theorem Spells.map {Q : List Token → β → Prop} {g : α → β} {f : Curried ss α}
    (h : Spells I ss (fun ts a => Q ts (g a)) f) : Spells I ss Q (f.map g) := by
  induction ss generalizing Q with
  | nil => exact h
  | cons s ss ih =>
    cases s with
    | t k => exact fun t ht => ih (h t ht)
    | n v => exact fun ts x hx => ih (h ts x hx)

theorem Spells.imp {P Q : List Token → α → Prop} {f : Curried ss α} (h : Spells I ss P f)
    (hi : ∀ ts a, P ts a → Q ts a) : Spells I ss Q f := by
  induction ss generalizing P Q with
  | nil => exact hi [] f h
  | cons s ss ih =>
    cases s with
    | t k => exact fun t ht => ih (h t ht) fun ts => hi (t :: ts)
    | n v => exact fun ts x hx => ih (h ts x hx) fun us => hi (ts ++ us)

theorem spells_rule {lhs : Nonterminal} {f : Curried ss lhs.Value}
    (h : Spells (fun v ts x => ReadAs file v ts x ∧ J v ts x) ss (J lhs) f) :
    (rule lhs ss f).Spells file J := by
  refine Spells.map (h.imp ?_)
  rintro ts x hx y ⟨⟩
  exact hx

theorem spells_of_forall {p : Production} (h : ∀ ts x, J p.lhs ts x) : p.Spells file J := by
  have hall : ∀ (ss : List Symbol) (Q : List Token → Except Fault p.lhs.Value → Prop)
      (f : Curried ss (Except Fault p.lhs.Value)), (∀ ts r, Q ts r) →
        Spells (fun v ts x => ReadAs file v ts x ∧ J v ts x) ss Q f := by
    intro ss
    induction ss with
    | nil => exact fun Q f hQ => hQ [] f
    | cons s ss ih =>
      intro Q f hQ
      cases s with
      | t k => exact fun t _ => ih _ _ fun ts => hQ (t :: ts)
      | n v => exact fun ts x _ => ih _ _ fun us => hQ (ts ++ us)
  exact hall _ _ _ fun ts r x _ => h ts x

/-- Of the other nonterminals, the property says nothing. -/
theorem spells_outside {vs : List Nonterminal} (hJ : ∀ v, v ∉ vs → ∀ ts x, J v ts x)
    {rules : List Production} (h : (rules.all fun p => decide (p.lhs ∉ vs)) = true) :
    ∀ p ∈ rules, p.Spells file J := by
  intro p hp
  exact spells_of_forall (hJ p.lhs (by simpa using List.all_eq_true.mp h p hp))

theorem Forest.spelled (hJ : ∀ p ∈ productions, p.Spells file J) (forest : Forest ss)
    {xs : Values ss} (hv : forest.value file = .ok xs) {Q : List Token → α → Prop}
    {f : Curried ss α}
    (h : Spells (fun v ts x => ReadAs file v ts x ∧ J v ts x) ss Q f) :
    Q forest.yield (f.apply xs) := by
  induction forest generalizing α Q with
  | nil => exact h
  | token t rest ih =>
    obtain ⟨ys, hr, rfl⟩ := ok_of_map hv
    exact ih hr (h t rfl)
  | node p hp children rest ihc ihr =>
    obtain ⟨x, xs⟩ := xs
    obtain ⟨ys, hc, ha, hr⟩ := value_node hv
    exact ihr hr (h _ x ⟨readAs_node hp hc ha, ihc hc (hJ p hp) x ha⟩)

/-- What all productions make of tokens and values holds of what tokens are read as. -/
theorem ReadAs.spelled (hJ : ∀ p ∈ productions, p.Spells file J) {ts : List Token} {x : v.Value}
    (h : ReadAs file v ts x) : J v ts x := by
  obtain ⟨d, rfl, hx⟩ := h
  obtain ⟨⟨y, u⟩, hv, rfl⟩ := ok_of_map hx
  have hQ : Spells (fun v ts x => ReadAs file v ts x ∧ J v ts x) [.n v] (J v) (fun x => x) :=
    fun ts x hx => by simpa [Spells] using hx.2
  exact d.spelled hJ hv hQ

/-- The kinds of tokens that open and that close brackets. -/
def openings : List Token.Kind := [.leftParen, .leftBracket, .leftBrace, .dollarCurly, .curlyOpen]

def closings : List Token.Kind := [.rightParen, .rightBracket, .rightBrace]

/-- How deep in brackets some tokens lead, unless they close more than there are. -/
def depth : Nat → List Token.Kind → Option Nat
  | n, [] => some n
  | n, k :: ks =>
    if k ∈ openings then depth (n + 1) ks
    else if k ∈ closings then
      match n with
      | 0 => none
      | n + 1 => depth n ks
    else depth n ks

theorem depth_append (n : Nat) (ks ls : List Token.Kind) :
    depth n (ks ++ ls) = (depth n ks).bind (depth · ls) := by
  induction ks generalizing n with
  | nil => rfl
  | cons k ks ih =>
    simp only [List.cons_append, depth]
    split
    · exact ih _
    · split
      · cases n with
        | zero => rfl
        | succ n => exact ih n
      · exact ih n

/-- Further brackets around some tokens stay around them. -/
theorem depth_add {m n : Nat} {ks : List Token.Kind} (h : depth n ks = some m) (j : Nat) :
    depth (n + j) ks = some (m + j) := by
  induction ks generalizing n with
  | nil =>
    cases h
    rfl
  | cons k ks ih =>
    simp only [depth] at h ⊢
    split at h
    · rw [if_pos ‹_›, Nat.add_right_comm]
      exact ih h
    · rw [if_neg ‹_›]
      split at h
      · rw [if_pos ‹_›]
        cases n with
        | zero => cases h
        | succ n =>
          rw [Nat.add_right_comm]
          exact ih h
      · rw [if_neg ‹_›]
        exact ih h

/-- The kinds of the tokens among some symbols. -/
def tokenKinds (ss : List Symbol) : List Token.Kind :=
  ss.filterMap fun
    | .t k => some k
    | .n _ => none

theorem depth_productions :
    (productions.all fun p => depth 0 (tokenKinds p.rhs) == some 0) = true := by
  decide +kernel

/-- In the tokens of a forest, only the brackets among its symbols are open or closed. -/
theorem Forest.depth_yield (forest : Forest ss) (n : Nat) :
    depth n (forest.yield.map Token.kind) = depth n (tokenKinds ss) := by
  induction forest generalizing n with
  | nil => rfl
  | token t rest ih =>
    change depth n ([t.kind] ++ rest.yield.map Token.kind) = depth n ([t.kind] ++ tokenKinds _)
    rw [depth_append, depth_append, funext ih]
  | node p hp children rest ihc ihr =>
    have hbalanced : depth 0 (tokenKinds p.rhs) = some 0 := by
      simpa using List.all_eq_true.mp depth_productions p hp
    have hchildren := depth_add hbalanced n
    rw [Nat.zero_add] at hchildren
    simp only [yield, List.map_append, depth_append, ihc, hchildren, Option.bind_some, ihr]
    rfl

/-- The brackets in a derivation are closed again. -/
theorem Derivation.depth_yield (d : Derivation v) : depth 0 (d.yield.map Token.kind) = some 0 :=
  Forest.depth_yield d 0

/-- Tokens in which every bracket is closed again. -/
def Closed (ts : List Token) : Prop := depth 0 (ts.map Token.kind) = some 0

theorem depth_closing {k : Token.Kind} (hk : k ∈ closings) (ks : List Token.Kind) :
    depth 0 (k :: ks) = none := by
  have hno : k ∉ openings := by
    revert k
    decide
  simp [depth, hno, hk]

theorem not_closed_append {xs ys : List Token} {c : Token} (hx : Closed xs)
    (hc : c.kind ∈ closings) : ¬ Closed (xs ++ c :: ys) := by
  intro h
  rw [Closed, List.map_append, depth_append, hx, Option.bind_some, List.map_cons,
    depth_closing hc] at h
  cases h

/-- Closed tokens end before the first bracket that closes none of theirs. -/
theorem Closed.unique {xs ys xs' ys' : List Token} {c c' : Token} (hx : Closed xs) (hy : Closed ys)
    (hc : c.kind ∈ closings) (hc' : c'.kind ∈ closings) (h : xs ++ c :: xs' = ys ++ c' :: ys') :
    xs = ys ∧ c = c' ∧ xs' = ys' := by
  obtain ⟨as, rfl, htail⟩ | ⟨bs, rfl, htail⟩ := List.append_eq_append_iff.mp h
  · cases as with
    | nil =>
      cases htail
      exact ⟨by simp, rfl, rfl⟩
    | cons a as =>
      cases htail
      exact absurd hy (not_closed_append hx hc)
  · cases bs with
    | nil =>
      cases htail
      exact ⟨by simp, rfl, rfl⟩
    | cons b bs =>
      cases htail
      exact absurd hx (not_closed_append hy hc')

/-- What is derived ends before the first bracket that closes none of its own. -/
theorem Derivation.yield_unique {u : Nonterminal} (d : Derivation v) (e : Derivation u)
    {c c' : Token} {xs ys : List Token} (hc : c.kind ∈ closings) (hc' : c'.kind ∈ closings)
    (h : d.yield ++ c :: xs = e.yield ++ c' :: ys) : d.yield = e.yield ∧ c = c' ∧ xs = ys :=
  Closed.unique d.depth_yield e.depth_yield hc hc' h

end Docblock.Grammar
