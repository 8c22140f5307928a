import Docblock.Proofs.Automaton.Namespace

/-! Parts of the grammar that the automaton reads without a choice: what is derived in such a part
is read into its value, or stops at its fault. -/
namespace Docblock.Grammar

variable {file : Option String} {ss : List Symbol} {rules : List Nat}

/-- All the productions of a forest are among those with some numbers. -/
def Forest.Within (rules : List Nat) : {ss : List Symbol} → Forest ss → Prop
  | _, nil => True
  | _, token _ rest => rest.Within rules
  | _, node p _ children rest =>
    (∃ i ∈ rules, productions[i]? = some p) ∧ children.Within rules ∧ rest.Within rules

end Docblock.Grammar

namespace Docblock.Automaton

open Token Grammar

variable {Reader : Type} {file : Option String} {stack : List Frame} {s : Stream Reader}
  {ss : List Symbol} {v : Nonterminal} {q q' i : Nat}

/-- What comes next: a token of some kind, or the end. -/
abbrev Ahead := Option Kind

/-- What to do in a state before what comes next. -/
def actionOn (q : Nat) : Ahead → Action
  | none => actionAtEnd q
  | some k => actionAt q k

/-- What a stream starts with is among some things. -/
def OpensIn (after : List Ahead) : Stream Reader → Prop
  | .finished _ => none ∈ after
  | .cons t _ _ => some t.kind ∈ after
  | .failed _ _ => False

theorem OpensIn.mono {after after' : List Ahead} (h : OpensIn after s)
    (hsub : ∀ a ∈ after, a ∈ after') : OpensIn after' s := by
  cases s with
  | finished => exact hsub _ h
  | cons => exact hsub _ h
  | failed => exact h

theorem OpensIn.actionBefore {after : List Ahead} {x : Action} (h : OpensIn after s)
    (hx : ∀ a ∈ after, actionOn q a = x) : actionBefore q s = x := by
  cases s with
  | finished => exact hx _ h
  | cons => exact hx _ h
  | failed => exact h.elim

/-- A nonterminal that is read in a state, and what can follow it there. -/
structure Site where
  state : Nat
  reads : Nonterminal
  ends : List Ahead

/-- A part of the grammar: the numbers of its productions, the first tokens of its nonterminals,
which of them can have no token, and where they are read. -/
structure Fragment where
  rules : List Nat
  starts : Nonterminal → List Kind
  silent : Nonterminal → Bool
  sites : List Site

namespace Fragment

variable {fr : Fragment} {after : List Ahead}

/-- What some symbols can start with, where something is known to follow them. -/
def firsts (fr : Fragment) : List Symbol → List Ahead → List Ahead
  | [], after => after
  | .t k :: _, _ => [some k]
  | .n v :: ss, after => (fr.starts v).map some ++ if fr.silent v then fr.firsts ss after else []

/-- Whether some symbols can have no token. -/
def silentAll (fr : Fragment) : List Symbol → Bool
  | [] => true
  | .t _ :: _ => false
  | .n v :: ss => fr.silent v && fr.silentAll ss

/-- Whether a nonterminal can be read in a state before some things. -/
def allows (fr : Fragment) (q : Nat) (v : Nonterminal) (after : List Ahead) : Bool :=
  fr.sites.any fun e => e.state == q && e.reads == v && after.all e.ends.contains

/-- The state to which some symbols lead, if each of them can be read before what follows it. -/
def walk (fr : Fragment) : Nat → List Symbol → List Ahead → Option Nat
  | q, [], _ => some q
  | q, .t k :: ss, after =>
    match actionAt q k with
    | .shift q' => fr.walk q' ss after
    | _ => none
  | q, .n v :: ss, after =>
    if fr.allows q v (fr.firsts ss after) then (target? q (.n v)).bind (fr.walk · ss after)
    else none

/-- Whether the first tokens of a production are among those of its left side. -/
def startsFit (fr : Fragment) (p : Production) : Bool :=
  (fr.firsts p.rhs []).all ((fr.starts p.lhs).map some).contains &&
    (fr.silent p.lhs || !fr.silentAll p.rhs)

/-- Whether a production is reduced at a site whatever can follow there. -/
def reducesAt (fr : Fragment) (i : Nat) (p : Production) (e : Site) : Bool :=
  match fr.walk e.state p.rhs e.ends with
  | none => false
  | some q => e.ends.all fun a => actionOn q a == .reduce i

def ruleFits (fr : Fragment) (i : Nat) : Bool :=
  match productions[i]? with
  | none => false
  | some p => fr.startsFit p && fr.sites.all fun e => e.reads != p.lhs || fr.reducesAt i p e

/-- The automaton has no choice in the fragment. -/
def Fits (fr : Fragment) : Prop := fr.rules.all fr.ruleFits = true

theorem Fits.rule (h : fr.Fits) (hi : i ∈ fr.rules) {p : Production}
    (hp : productions[i]? = some p) :
    fr.startsFit p = true ∧ ∀ e ∈ fr.sites, e.reads = p.lhs → fr.reducesAt i p e = true := by
  have hrule := List.all_eq_true.mp h i hi
  simp only [ruleFits, hp, Bool.and_eq_true] at hrule
  refine ⟨hrule.1, fun e he hreads => ?_⟩
  have hsite := List.all_eq_true.mp hrule.2 e he
  simpa [hreads] using hsite

theorem exists_site (h : fr.allows q v after = true) :
    ∃ e ∈ fr.sites, e.state = q ∧ e.reads = v ∧ ∀ a ∈ after, a ∈ e.ends := by
  obtain ⟨e, he, hfit⟩ := List.any_eq_true.mp h
  simp only [Bool.and_eq_true, beq_iff_eq, List.all_eq_true, List.contains_eq_mem,
    decide_eq_true_eq] at hfit
  exact ⟨e, he, hfit.1.1, hfit.1.2, hfit.2⟩

theorem firsts_subset (fr : Fragment) (ss : List Symbol) (after : List Ahead) :
    ∀ a ∈ fr.firsts ss after,
      a ∈ fr.firsts ss [] ∨ fr.silentAll ss = true ∧ a ∈ after := by
  induction ss with
  | nil => exact fun a ha => Or.inr ⟨rfl, ha⟩
  | cons sym ss ih =>
    intro a ha
    cases sym with
    | t k => exact Or.inl ha
    | n v =>
      simp only [firsts, List.mem_append] at ha ⊢
      obtain ha | ha := ha
      · exact Or.inl (Or.inl ha)
      · cases hv : fr.silent v with
        | false => simp [hv] at ha
        | true =>
          simp only [hv, if_true] at ha
          obtain ha | ⟨hall, ha⟩ := ih a ha
          · exact Or.inl (Or.inr (by simpa [hv] using ha))
          · exact Or.inr ⟨by simp [silentAll, hv, hall], ha⟩

/-- What a production starts with, its left side can start with. -/
theorem firsts_rhs {p : Production} (h : fr.startsFit p = true) (ss : List Symbol)
    (after : List Ahead) :
    ∀ a ∈ fr.firsts p.rhs (fr.firsts ss after), a ∈ fr.firsts (.n p.lhs :: ss) after := by
  simp only [startsFit, Bool.and_eq_true, List.all_eq_true, List.contains_eq_mem,
    decide_eq_true_eq, Bool.or_eq_true, Bool.not_eq_true'] at h
  obtain ⟨hstarts, hsilent⟩ := h
  intro a ha
  simp only [firsts, List.mem_append]
  obtain ha | ⟨hall, ha⟩ := firsts_subset fr p.rhs _ a ha
  · exact Or.inl (hstarts a ha)
  · have hlhs : fr.silent p.lhs = true := hsilent.resolve_right (by simp [hall])
    exact Or.inr (by simpa [hlhs] using ha)

theorem prepend_append (r : Reader) (xs ys : List Token) (s : Stream Reader) :
    s.prepend r (xs ++ ys) = (s.prepend r ys).prepend r xs :=
  List.foldr_append

/-- The tokens of a forest start with what its symbols start with. -/
theorem opensIn_yield (hfr : fr.Fits) (r : Reader) (forest : Forest ss)
    (hw : forest.Within fr.rules) (hs : OpensIn after s) :
    OpensIn (fr.firsts ss after) (s.prepend r forest.yield) := by
  induction forest generalizing s after with
  | nil => exact hs
  | token t rest ih => exact List.mem_singleton.mpr rfl
  | node p hp children rest ihc ihr =>
    obtain ⟨⟨i, hi, hpi⟩, hwc, hwr⟩ := hw
    have hrest := ihr hwr hs
    have hchildren := ihc hwc hrest
    rw [Forest.yield, prepend_append]
    exact hchildren.mono (firsts_rhs (hfr.rule hi hpi).1 _ after)

/-- What reading leads to: the values of some symbols above a stack and in some state, or a
production without a value. -/
def Arrives (file : Option String) (base : List Frame) (q : Nat) (s : Stream Reader)
    (stack : List Frame) (s' : Stream Reader) : Except Fault (Values ss) → Prop
  | .ok vs => ∃ n top, Steps file n stack s' top s ∧ stateOf top = q ∧
      take ss top = some (vs, base)
  | .error f => ∃ n top s'' p, Steps file n stack s' top s'' ∧
      actionBefore (stateOf top) s'' = .reduce p ∧ reduce file p top = .error (.fault f)

theorem Arrives.of_steps {base top : List Frame} {n : Nat} {s' s'' : Stream Reader}
    {x : Except Fault (Values ss)} (hn : Steps file n stack s' top s'')
    (h : Arrives file base q s top s'' x) : Arrives file base q s stack s' x := by
  cases x with
  | ok vs =>
    obtain ⟨m, top', hm, hq, ht⟩ := h
    exact ⟨n + m, top', hn.trans hm, hq, ht⟩
  | error f =>
    obtain ⟨m, top', s₁, p, hm, ha, hr⟩ := h
    exact ⟨n + m, top', s₁, p, hn.trans hm, ha, hr⟩

/-- A symbol that has been read before others is the first of them. -/
theorem Arrives.push {base : List Frame} {sym : Symbol} {x : sym.Value} {q₁ : Nat}
    {s' : Stream Reader} {y : Except Fault (Values ss)}
    (h : Arrives file (⟨q₁, sym, x⟩ :: base) q s stack s' y) :
    Arrives file base q s stack s' (y.map (x, ·) : Except Fault (Values (sym :: ss))) := by
  cases y with
  | ok vs =>
    obtain ⟨n, top, hn, hq, ht⟩ := h
    exact ⟨n, top, hn, hq, by simp [take, ht]⟩
  | error f => exact h

theorem reduce_fault {p : Production} {vs : Values p.rhs} {below : List Frame} {f : Fault}
    (hp : productions[i]? = some p) (ht : take p.rhs stack = some (vs, below))
    (hv : (p.action file).apply vs = .error f) : reduce file i stack = .error (.fault f) := by
  simp [reduce, hp, ht, hv]

/-- The tokens of a forest in the fragment are read into its values. -/
theorem arrives_yield (hfr : fr.Fits) (file : Option String) (r : Reader) (forest : Forest ss)
    (hw : forest.Within fr.rules) (hwalk : fr.walk (stateOf stack) ss after = some q)
    (hs : OpensIn after s) :
    Arrives file stack q s stack (s.prepend r forest.yield) (forest.value file) := by
  induction forest generalizing stack s after q with
  | nil =>
    cases hwalk
    exact ⟨0, stack, .refl, rfl, rfl⟩
  | token t rest ih =>
    simp only [walk] at hwalk
    split at hwalk
    · rename_i q₁ hshift
      have hnext : fr.walk (stateOf (⟨q₁, .t t.kind, t⟩ :: stack)) _ after = some q := hwalk
      exact (ih hw hnext hs).push.of_steps (.step .refl (.shift hshift))
    · cases hwalk
  | @node p hp children ss rest ihc ihr =>
    obtain ⟨⟨i, hi, hpi⟩, hwc, hwr⟩ := hw
    simp only [walk, Option.ite_none_right_eq_some, Option.bind_eq_some_iff] at hwalk
    obtain ⟨hallow, q₁, htarget, hwalk⟩ := hwalk
    obtain ⟨e, he, hstate, hreads, hends⟩ := exists_site hallow
    have hrest : OpensIn e.ends (s.prepend r rest.yield) :=
      (opensIn_yield hfr r rest hwr hs).mono hends
    have hsite := (hfr.rule hi hpi).2 e he hreads
    simp only [reducesAt, hstate] at hsite
    split at hsite
    · cases hsite
    · rename_i q₂ hchildren
      have hreduce : actionBefore q₂ (s.prepend r rest.yield) = .reduce i :=
        hrest.actionBefore (by simpa using hsite)
      have hc := ihc hwc hchildren hrest
      rw [Forest.yield, prepend_append, Forest.value]
      cases hv : children.value file with
      | error f =>
        rw [hv] at hc
        exact hc
      | ok vs =>
        rw [hv] at hc
        obtain ⟨n, top, hn, hq, ht⟩ := hc
        rw [← hq] at hreduce
        cases ha : (p.action file).apply vs with
        | error f =>
          simp only [ha]
          exact ⟨n, top, _, i, hn, hreduce, reduce_fault hpi ht ha⟩
        | ok x =>
          simp only [ha]
          have hstep := Step.reduce hreduce (reduce_eq hpi ht ha htarget)
          have hnext : fr.walk (stateOf (⟨q₁, .n p.lhs, x⟩ :: stack)) ss after = some q := hwalk
          exact (ihr hwr hnext hs).push.of_steps (hn.step hstep)

/-- A production without a value ends the reading. -/
theorem parse_fault {n p : Nat} {u : Stream Reader} {f : Fault}
    (h : Steps file n [] s stack u) (ha : actionBefore (stateOf stack) u = .reduce p)
    (hr : reduce file p stack = .error (.fault f)) : (s.parse file).1 = .error (.fault f) := by
  obtain ⟨fuel, hfuel⟩ := Nat.exists_eq_add_of_le (steps_bound h)
  rw [Stream.parse, hfuel, Nat.add_assoc, Nat.add_comm 2 fuel, run_steps _ h]
  cases u with
  | failed => cases ha
  | finished =>
    rw [actionBefore] at ha
    simp only [run, ha, hr]
  | cons =>
    rw [actionBefore] at ha
    simp only [run, ha, hr]

/-- What a source comes to where its derivation has some result. -/
def outcome {α : Type} : Except Fault α → Except ParseError α
  | .ok x => .ok x
  | .error f => .error (.fault f)

/-- Statements that are derived in the fragment are read into their trees, or stop at the fault of
their derivation. -/
theorem parse_derivation (hfr : fr.Fits) (hstart : fr.allows 0 .topStatements [none] = true)
    (d : Derivation .topStatements) (hw : d.Within fr.rules) (ht : s.tokens = d.yield)
    (he : s.error? = none) : (s.parse file).1 = outcome (d.result file) := by
  have hwalk : fr.walk (stateOf []) [.n .topStatements] [none] = some gathering := by
    simp only [walk, firsts, stateOf, hstart, if_true, target?_statements, Option.bind_some]
  have hs : OpensIn [none] (Stream.finished s.final) := List.mem_singleton.mpr rfl
  have harrives := arrives_yield hfr file s.final d hw hwalk hs
  have hparse : (s.parse file).1 =
      (((Stream.finished s.final).prepend s.final d.yield).parse file).1 := by
    apply Stream.parse_congr
    · rw [ht, Stream.tokens_prepend, Stream.tokens, List.append_nil]
    · rw [he, Stream.error?_prepend, Stream.error?]
  rw [hparse, Derivation.result]
  cases hv : d.value file with
  | error f =>
    rw [hv] at harrives
    obtain ⟨n, top, u, p, hn, ha, hr⟩ := harrives
    exact parse_fault hn ha hr
  | ok vs =>
    rw [hv] at harrives
    obtain ⟨n, top, hn, hq, htake⟩ := harrives
    obtain ⟨ts, ⟨⟩⟩ := vs
    obtain ⟨⟨state, symbol, value⟩, htop, hsym, hvalue⟩ := take_cons htake
    cases htop
    cases hsym
    cases hvalue
    obtain rfl : state = gathering := hq
    rw [parse_ok_iff.mpr ⟨n, hn⟩]
    rfl

/-- Some tokens are derived from some symbols in the fragment, with their values or a fault. -/
def Derives (fr : Fragment) (file : Option String) (ss : List Symbol) (ts : List Token)
    (x : Except Fault (Values ss)) : Prop :=
  ∃ forest : Forest ss, forest.Within fr.rules ∧ forest.yield = ts ∧ forest.value file = x

/-- Some tokens are derived from a nonterminal in the fragment, with a value or a fault. -/
def Gives (fr : Fragment) (file : Option String) (v : Nonterminal) (ts : List Token)
    (x : Except Fault v.Value) : Prop :=
  ∃ d : Derivation v, d.Within fr.rules ∧ d.yield = ts ∧ d.result file = x

variable {ts us : List Token} {t : Token} {k : Kind}

theorem Derives.nil : fr.Derives file [] [] (.ok ()) := ⟨.nil, trivial, rfl, rfl⟩

theorem Derives.token {x : Except Fault (Values ss)} (hk : t.kind = k)
    (h : fr.Derives file ss ts x) : fr.Derives file (.t k :: ss) (t :: ts) (x.map (t, ·)) := by
  obtain ⟨forest, hw, rfl, rfl⟩ := h
  subst hk
  exact ⟨.token t forest, hw, rfl, rfl⟩

theorem Gives.before {y : Except Fault v.Value} {x : Except Fault (Values ss)}
    (hd : fr.Gives file v ts y) (h : fr.Derives file ss us x) :
    fr.Derives file (.n v :: ss) (ts ++ us) (y.bind fun z => x.map (z, ·)) := by
  obtain ⟨d, hwd, rfl, rfl⟩ := hd
  obtain ⟨forest, hw, rfl, rfl⟩ := h
  refine ⟨.cons d forest, ?_, Forest.yield_cons d forest, ?_⟩
  · match v, d with
    | _, .node p hp children .nil => exact ⟨hwd.1, hwd.2.1, hw⟩
  · match v, d with
    | _, .node p hp children .nil =>
      simp only [Forest.cons, Forest.value, Derivation.result]
      cases children.value file with
      | error => rfl
      | ok vs =>
        simp only
        cases (p.action file).apply vs <;> rfl

theorem Derives.rule {p : Production} {x : Except Fault (Values p.rhs)} (hi : i ∈ fr.rules)
    (hp : productions[i]? = some p) (h : fr.Derives file p.rhs ts x) :
    fr.Gives file p.lhs ts (x.bind (p.action file).apply) := by
  obtain ⟨forest, hw, rfl, rfl⟩ := h
  refine ⟨.node p (List.mem_of_getElem? hp) forest .nil, ⟨⟨i, hi, hp⟩, hw, trivial⟩, ?_, ?_⟩
  · simp [Forest.yield]
  · simp only [Derivation.result, Forest.value]
    cases forest.value file with
    | error => rfl
    | ok vs =>
      simp only [Except.bind]
      cases (p.action file).apply vs <;> rfl

end Fragment
end Docblock.Automaton
