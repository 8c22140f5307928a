import Docblock.Automaton.Run
import Docblock.Proofs.Grammar.Derivation

/-! What one step of the automaton does, and the stacks that it builds. -/
namespace Docblock.Automaton

open Token Grammar

variable {Reader : Type} {file : Option String} {stack stack' below : List Frame}
  {s s' : Stream Reader} {read : List Token} {n : Nat}

/-- The reader after the call that the rest of a stream starts with. -/
def asked : Stream Reader → Reader
  | .finished r | .failed _ r | .cons _ r _ => r

/-- What to do in a state before the rest of a stream. -/
def actionBefore (state : Nat) : Stream Reader → Action
  | .failed _ _ => .reject
  | .finished _ => actionAtEnd state
  | .cons t _ _ => actionAt state t.kind

/-- One step: the next token is shifted, or a production is reduced before it. -/
inductive Step (file : Option String) :
    List Frame → Stream Reader → List Frame → Stream Reader → Prop
  | shift {stack : List Frame} {t : Token} {r : Reader} {rest : Stream Reader} {q : Nat}
      (h : actionAt (stateOf stack) t.kind = .shift q) :
      Step file stack (.cons t r rest) (⟨q, .t t.kind, t⟩ :: stack) rest
  | reduce {stack stack' : List Frame} {s : Stream Reader} {p : Nat}
      (h : actionBefore (stateOf stack) s = .reduce p) (hr : reduce file p stack = .ok stack') :
      Step file stack s stack' s

/-- How a run ends: on an error of the reader, on acceptance, on a token or an end that does not
fit, or on a production that cannot be reduced. -/
inductive Stop (file : Option String) :
    List Frame → Stream Reader → Except ParseError (List Tree) × Reader → Prop
  | lexical {stack : List Frame} {e : LexError} {r : Reader} :
      Stop file stack (.failed e r) (.error (.lexical e), r)
  | accept {stack : List Frame} {r : Reader} (h : actionAtEnd (stateOf stack) = .accept) :
      Stop file stack (.finished r) (result stack, r)
  | early {stack : List Frame} {r : Reader} (h : actionAtEnd (stateOf stack) = .reject) :
      Stop file stack (.finished r) (.error .unexpectedEnd, r)
  | reject {stack : List Frame} {t : Token} {r : Reader} {rest : Stream Reader}
      (h : actionAt (stateOf stack) t.kind = .reject) :
      Stop file stack (.cons t r rest) (.error (.unexpected t), r)
  | unreduced {stack : List Frame} {s : Stream Reader} {p : Nat} {e : ParseError}
      (h : actionBefore (stateOf stack) s = .reduce p) (hr : reduce file p stack = .error e) :
      Stop file stack s (.error e, asked s)

theorem actionAt_ne_accept (q : Nat) (k : Kind) : actionAt q k ≠ .accept := by
  intro h
  simp only [actionAt] at h
  split at h
  · simp only [settle] at h
    split at h
    · cases h
    · split at h <;> cases h
  all_goals cases h

theorem actionAtEnd_ne_shift (q q' : Nat) : actionAtEnd q ≠ .shift q' := by
  intro h
  simp only [actionAtEnd] at h
  split at h
  · cases h
  · split at h <;> cases h

/-- With steps left, a run takes one step or ends. -/
theorem run_succ (file : Option String) (fuel : Nat) (stack : List Frame) (s : Stream Reader) :
    (∃ stack' s', Step file stack s stack' s' ∧
      run file (fuel + 1) stack s = run file fuel stack' s') ∨
    Stop file stack s (run file (fuel + 1) stack s) := by
  cases s with
  | failed e r => exact Or.inr .lexical
  | finished r =>
    rw [run]
    cases ha : actionAtEnd (stateOf stack) with
    | accept => exact Or.inr (.accept ha)
    | reject => exact Or.inr (.early ha)
    | shift q => exact absurd ha (actionAtEnd_ne_shift _ _)
    | reduce p =>
      simp only
      cases hr : reduce file p stack with
      | error e => exact Or.inr (.unreduced ha hr)
      | ok stack' => exact Or.inl ⟨stack', _, .reduce ha hr, rfl⟩
  | cons t r rest =>
    rw [run]
    cases ha : actionAt (stateOf stack) t.kind with
    | accept => exact absurd ha (actionAt_ne_accept _ _)
    | reject => exact Or.inr (.reject ha)
    | shift q => exact Or.inl ⟨_, rest, .shift ha, rfl⟩
    | reduce p =>
      simp only
      cases hr : reduce file p stack with
      | error e => exact Or.inr (.unreduced ha hr)
      | ok stack' => exact Or.inl ⟨stack', _, .reduce ha hr, rfl⟩

/-- The state on top of some frames that stand above a state. -/
def topState (b : Nat) : List Frame → Nat
  | [] => b
  | f :: _ => f.state

/-- Frames that steps can build above a state over some tokens: every state is entered by an edge
from the state below it, and every value is that of a derivation tree. Counts the productions in
them. -/
inductive Built (file : Option String) (b : Nat) : List Frame → List Token → Nat → Prop
  | nil : Built file b [] [] 0
  | push {below : List Frame} {ts : List Token} {n : Nat} (f : Frame) (tree : Forest [f.symbol])
      (hb : Built file b below ts n) (he : target? (topState b below) f.symbol = some f.state)
      (hv : tree.value file = .ok (f.value, ())) :
      Built file b (f :: below) (ts ++ tree.yield) (n + tree.size)

theorem target?_of_shift {q q' : Nat} {k : Kind} (h : actionAt q k = .shift q') :
    target? q (.t k) = some q' := by
  simp only [actionAt] at h
  split at h
  · rename_i hq _
    simp only [settle] at h
    split at h
    · cases h
    · split at h
      · cases h
        exact hq
      all_goals cases h
  · rename_i hq _
    cases h
    exact hq
  all_goals cases h

/-- The frames that are taken off a built stack are the trees of a forest. -/
theorem take_built {b : Nat} {ss : List Symbol} {vs : Values ss} (hb : Built file b stack read n)
    (h : take ss stack = some (vs, below)) :
    ∃ (forest : Forest ss) (read' : List Token) (n' : Nat), forest.value file = .ok vs ∧
      Built file b below read' n' ∧ read = read' ++ forest.yield ∧ n = n' + forest.size := by
  induction ss generalizing below with
  | nil =>
    cases h
    exact ⟨.nil, read, n, rfl, hb, by simp [Forest.yield], rfl⟩
  | cons s ss ih =>
    simp only [take] at h
    split at h
    · cases h
    · cases h
    · rename_i vs' f below' ht
      split at h
      · rename_i hs
        subst hs
        cases h
        obtain ⟨forest, read', n', hv, hb', hr, hn⟩ := ih ht
        cases hb' with
        | push _ tree hb he htree =>
          refine ⟨.cons tree forest, _, _, Forest.value_cons htree hv, hb, ?_, ?_⟩
          · rw [hr, Forest.yield_cons, List.append_assoc]
          · rw [hn, Forest.size_cons, Nat.add_assoc]
      · cases h

/-- What a reduction replaces, and by what. -/
theorem reduce_ok {p : Nat} (h : reduce file p stack = .ok stack') :
    ∃ (pr : Production) (vs : Values pr.rhs) (below : List Frame) (v : pr.lhs.Value) (q : Nat),
      productions[p]? = some pr ∧ take pr.rhs stack = some (vs, below) ∧
      (pr.action file).apply vs = .ok v ∧ target? (stateOf below) (.n pr.lhs) = some q ∧
      stack' = ⟨q, .n pr.lhs, v⟩ :: below := by
  simp only [reduce] at h
  split at h
  · cases h
  · rename_i pr hp
    split at h
    · cases h
    · rename_i vs below ht
      split at h
      · cases h
      · rename_i v ha
        split at h
        · cases h
        · rename_i q hq
          cases h
          exact ⟨pr, vs, below, v, q, hp, ht, ha, hq, rfl⟩

/-- One production above the trees of its right side. -/
theorem node_built {b p q : Nat} {pr : Production} {vs : Values pr.rhs} {v : pr.lhs.Value}
    (hb : Built file b stack read n) (hp : productions[p]? = some pr)
    (ht : take pr.rhs stack = some (vs, below)) (ha : (pr.action file).apply vs = .ok v)
    (hq : target? (topState b below) (.n pr.lhs) = some q) :
    Built file b (⟨q, .n pr.lhs, v⟩ :: below) read (n + 1) := by
  obtain ⟨forest, read', n', hv, hb', rfl, rfl⟩ := take_built hb ht
  have hm : pr ∈ productions := List.mem_of_getElem? hp
  have hpush := Built.push ⟨q, .n pr.lhs, v⟩ (.node pr hm forest .nil) hb' hq
    (by simp [Forest.value, hv, ha, Except.map])
  simpa [Forest.yield, Forest.size, Nat.add_assoc] using hpush

theorem reduce_built {p : Nat} (hb : Built file 0 stack read n)
    (h : reduce file p stack = .ok stack') : Built file 0 stack' read (n + 1) := by
  obtain ⟨pr, vs, below, v, q, hp, ht, ha, hq, rfl⟩ := reduce_ok h
  exact node_built hb hp ht ha hq

theorem shift_built {b : Nat} {t : Token} {q : Nat} (hb : Built file b stack read n)
    (h : actionAt (topState b stack) t.kind = .shift q) :
    Built file b (⟨q, .t t.kind, t⟩ :: stack) (read ++ [t]) n :=
  .push ⟨q, .t t.kind, t⟩ (.token t .nil) hb (target?_of_shift h) rfl

/-- What has been read and what is left stay the whole stream, and the reader at its end stays. -/
theorem step_built (hs : Step file stack s stack' s') (hb : Built file 0 stack read n) :
    ∃ read' n', Built file 0 stack' read' n' ∧ read' ++ s'.tokens = read ++ s.tokens ∧
      s'.error? = s.error? ∧ s'.final = s.final ∧
      read'.length + n' = read.length + n + 1 := by
  cases hs with
  | shift h =>
    refine ⟨_, _, shift_built hb h, by simp [Stream.tokens], rfl, rfl, ?_⟩
    simp only [List.length_append, List.length_singleton]
    omega
  | reduce h hr => exact ⟨read, n + 1, reduce_built hb hr, rfl, rfl, rfl, by omega⟩

theorem result_built {ts : List Tree} (hb : Built file 0 stack read n) (h : result stack = .ok ts) :
    ∃ d : Derivation .start, d.yield = read ∧ d.result file = .ok ts := by
  simp only [result] at h
  split at h
  · cases h
    cases hb with
    | push _ tree hb _ hv =>
      cases hb
      exact ⟨tree, rfl, by simp [Derivation.result, hv, Except.map]⟩
  · cases h

/-- A run that accepts has read the whole stream, and its result is that of a derivation. -/
theorem run_ok {fuel : Nat} {ts : List Tree} {r : Reader} (hb : Built file 0 stack read n)
    (h : run file fuel stack s = (.ok ts, r)) :
    s.error? = none ∧ r = s.final ∧
      ∃ d : Derivation .start, d.yield = read ++ s.tokens ∧ d.result file = .ok ts := by
  induction fuel generalizing stack s read n with
  | zero => cases s <;> cases h
  | succ fuel ih =>
    obtain ⟨stack', s', hs, he⟩ | hstop := run_succ file fuel stack s
    · obtain ⟨read', n', hb', hread, herr, hfin, -⟩ := step_built hs hb
      obtain ⟨h₁, h₂, d, hd, hv⟩ := ih hb' (he ▸ h)
      exact ⟨herr ▸ h₁, h₂.trans hfin, d, hd.trans hread, hv⟩
    · rw [h] at hstop
      generalize hres : ((Except.ok ts : Except ParseError (List Tree)), r) = res at hstop
      cases hstop with
      | accept ha =>
        obtain ⟨hr, rfl⟩ := Prod.mk.inj hres
        obtain ⟨d, hd, hv⟩ := result_built hb hr.symm
        exact ⟨rfl, rfl, d, by simp [hd, Stream.tokens], hv⟩
      | lexical | early | reject | unreduced => cases hres

/-- What a run gives depends on the tokens and the error at their end, not on the reader. -/
theorem run_congr {Reader' : Type} {s' : Stream Reader'} (file : Option String) (fuel : Nat)
    (stack : List Frame) (ht : s.tokens = s'.tokens) (he : s.error? = s'.error?) :
    (run file fuel stack s).1 = (run file fuel stack s').1 := by
  induction fuel generalizing stack s s' with
  | zero => rfl
  | succ fuel ih =>
    cases s with
    | finished r =>
      cases s' with
      | failed => cases he
      | cons => cases ht
      | finished r' =>
        simp only [run]
        split
        · rfl
        · rfl
        · rfl
        · split
          · rfl
          · exact ih _ rfl rfl
    | failed e r =>
      cases s' with
      | finished => cases he
      | cons => cases ht
      | failed e' r' =>
        cases he
        rfl
    | cons t r rest =>
      cases s' with
      | finished => cases ht
      | failed => cases ht
      | cons t' r' rest' =>
        obtain ⟨rfl, hrest⟩ := List.cons.inj ht
        simp only [run]
        split
        · rfl
        · rfl
        · exact ih _ hrest he
        · split
          · rfl
          · exact ih _ ht he

/-- Where tokens end in an error, a run that ends before it ends alike on tokens that go on, also
with more steps left. -/
theorem run_prefix {Reader' : Type} {s' : Stream Reader'} {e : LexError} {fuel fuel' : Nat}
    (ht : s.tokens <+: s'.tokens) (he : s.error? = some e) (hf : fuel ≤ fuel')
    (hlex : (run file fuel stack s).1 ≠ .error (.lexical e))
    (hend : (run file fuel stack s).1 ≠ .error .broken) :
    (run file fuel' stack s').1 = (run file fuel stack s).1 := by
  induction fuel generalizing fuel' stack s s' with
  | zero => exact absurd rfl hend
  | succ fuel ih =>
    obtain ⟨fuel', rfl⟩ : ∃ k, fuel' = k + 1 := ⟨fuel' - 1, by omega⟩
    have hf' : fuel ≤ fuel' := by omega
    cases s with
    | finished => cases he
    | failed e' r =>
      cases he
      exact absurd rfl hlex
    | cons t r rest =>
      cases s' with
      | finished | failed => simp [Stream.tokens] at ht
      | cons t' r' rest' =>
        obtain ⟨rfl, hrest⟩ := List.cons_prefix_cons.mp ht
        simp only [run] at hlex hend ⊢
        cases ha : actionAt (stateOf stack) t.kind with
        | accept | reject => rfl
        | shift q =>
          simp only [ha] at hlex hend ⊢
          exact ih hrest he hf' hlex hend
        | reduce p =>
          simp only [ha] at hlex hend ⊢
          cases hr : reduce file p stack with
          | error => rfl
          | ok stack' =>
            simp only [hr] at hlex hend ⊢
            exact ih ht he hf' hlex hend

end Docblock.Automaton
