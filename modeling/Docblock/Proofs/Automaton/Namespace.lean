import Docblock.Proofs.Automaton.Append

/-! Namespaces: the statements of a source behind the name of one, and between its braces. -/
namespace Docblock

open Token Grammar

/-- The tokens that open a namespace: the word for it, and a name of words between backslashes. -/
structure NamespaceHead where
  word : Token
  first : Token
  rest : List (Token × Token)
  word_kind : word.kind = .kwNamespace
  first_kind : first.kind = .ident
  rest_kinds : ∀ p ∈ rest, p.1.kind = .backslash ∧ p.2.kind = .ident

namespace NamespaceHead

def tokens (n : NamespaceHead) : List Token :=
  n.word :: n.first :: n.rest.flatMap fun p => [p.1, p.2]

def name (n : NamespaceHead) : String :=
  n.rest.foldl (fun s p => s ++ p.1.text ++ p.2.text) n.first.text

/-- The tree of a namespace with some statements between its braces. -/
def tree (n : NamespaceHead) (ts : List Tree) : Tree :=
  node n.word.line .namespaceDecl [.text n.name, .list ts]

end NamespaceHead

variable {Reader : Type}

theorem Stream.error?_append {s : Stream Reader} (u : Stream Reader) (h : s.error? = none) :
    (s.append u).error? = u.error? := by
  induction s with
  | finished => rfl
  | failed => cases h
  | cons t r rest ih => exact ih h

/-- A stream with some tokens before it. -/
def Stream.prepend (r : Reader) (ts : List Token) (s : Stream Reader) : Stream Reader :=
  ts.foldr (fun t s => .cons t r s) s

theorem Stream.tokens_prepend (r : Reader) (ts : List Token) (s : Stream Reader) :
    (s.prepend r ts).tokens = ts ++ s.tokens := by
  induction ts with
  | nil => rfl
  | cons t ts ih => exact congrArg (t :: ·) ih

theorem Stream.error?_prepend (r : Reader) (ts : List Token) (s : Stream Reader) :
    (s.prepend r ts).error? = s.error? := by
  induction ts with
  | nil => rfl
  | cons t ts ih => exact ih

namespace Automaton

variable {file : Option String} {stack stack' below base : List Frame} {s s' u : Stream Reader}
  {read : List Token} {ts us : List Tree} {n p q : Nat} {r r' : Reader}

theorem reduce_eq {pr : Production} {vs : Values pr.rhs} {v : pr.lhs.Value}
    (hp : productions[p]? = some pr) (ht : take pr.rhs stack = some (vs, below))
    (hv : (pr.action file).apply vs = .ok v)
    (hq : target? (stateOf below) (.n pr.lhs) = some q) :
    reduce file p stack = .ok (⟨q, .n pr.lhs, v⟩ :: below) := by
  simp [reduce, hp, ht, hv, hq]

/-- The tokens behind a name, or a part of one. -/
def nameEnds : List Kind := [.backslash, .semi, .leftBrace]

theorem name_actions : actionAt gathering .kwNamespace = .shift State.namespaceWord ∧
    actionAt State.namespaceWord .ident = .shift State.name ∧
    actionAt State.namespaceName .backslash = .shift State.nameBackslash ∧
    actionAt State.nameBackslash .ident = .shift State.nameLonger ∧
    target? State.namespaceWord (.n .namespaceName) = some State.namespaceName ∧
    ∀ k ∈ nameEnds, actionAt State.name k = .reduce Reduction.name ∧
      actionAt State.nameLonger k = .reduce Reduction.nameLonger := by
  decide

set_option maxRecDepth 4000 in
theorem production_longerName : productions[Reduction.nameLonger]? = some (rule .namespaceName
    [.n .namespaceName, .t .backslash, .t .ident] fun name b s => name ++ b.text ++ s.text) := rfl

set_option maxRecDepth 4000 in
theorem production_word :
    productions[Reduction.name]? = some (rule .namespaceName [.t .ident] fun s => s.text) := rfl

/-- A name on the stack, behind the word for a namespace. -/
def namedFrames (w : Token) (name : String) (below : List Frame) : List Frame :=
  ⟨State.namespaceName, .n .namespaceName, name⟩ ::
    ⟨State.namespaceWord, .t .kwNamespace, w⟩ :: below

/-- A stream that goes on behind a name. -/
def EndsName (s : Stream Reader) : Prop := ∃ t r rest, s = .cons t r rest ∧ t.kind ∈ nameEnds

theorem EndsName.reduce (hs : EndsName s) :
    actionBefore State.name s = .reduce Reduction.name ∧
    actionBefore State.nameLonger s = .reduce Reduction.nameLonger := by
  obtain ⟨t, r, rest, rfl, hk⟩ := hs
  exact name_actions.2.2.2.2.2 t.kind hk

theorem endsName_prepend (r : Reader) {rest : List (Token × Token)}
    (hk : ∀ p ∈ rest, p.1.kind = .backslash ∧ p.2.kind = .ident) (hu : EndsName u) :
    EndsName (u.prepend r (rest.flatMap fun p => [p.1, p.2])) := by
  cases rest with
  | nil => exact hu
  | cons p rest =>
    refine ⟨p.1, r, _, rfl, ?_⟩
    rw [(hk p List.mem_cons_self).1]
    decide

/-- The rest of a name is read word by word. -/
theorem name_steps (file : Option String) (r : Reader) (w : Token) (below : List Frame)
    {rest : List (Token × Token)} (name : String)
    (hk : ∀ p ∈ rest, p.1.kind = .backslash ∧ p.2.kind = .ident) (hu : EndsName u) :
    ∃ k, Steps file k (namedFrames w name below) (u.prepend r (rest.flatMap fun p => [p.1, p.2]))
      (namedFrames w (rest.foldl (fun s p => s ++ p.1.text ++ p.2.text) name) below) u := by
  obtain ⟨-, -, hslash, hword, htarget, -⟩ := name_actions
  induction rest generalizing name with
  | nil => exact ⟨0, .refl⟩
  | cons p rest ih =>
    obtain ⟨hp, hrest⟩ := List.forall_mem_cons.mp hk
    obtain ⟨⟨bk, bt, bl, bp⟩, ⟨ik, it, il, ip⟩⟩ := p
    obtain ⟨rfl, rfl⟩ := hp
    obtain ⟨k, hsteps⟩ := ih (name ++ bt ++ it) hrest
    have hreduce := (endsName_prepend r hrest hu).reduce.2
    refine ⟨3 + k, Steps.trans (.step (.step (.step .refl (.shift hslash)) (.shift hword))
      (.reduce hreduce ?_)) hsteps⟩
    exact reduce_eq production_longerName rfl rfl htarget

theorem head_steps (file : Option String) (r : Reader) (us : List Tree) (h : NamespaceHead)
    (hu : EndsName u) :
    ∃ k, Steps file k [gathered us] (u.prepend r h.tokens)
      (namedFrames h.word h.name [gathered us]) u := by
  obtain ⟨⟨wk, wt, wl, wp⟩, ⟨ik, it, il, ip⟩, rest, hw, hi, hrest⟩ := h
  cases hw
  cases hi
  obtain ⟨hopen, hword, -, -, htarget, -⟩ := name_actions
  obtain ⟨k, hsteps⟩ :=
    name_steps file r ⟨.kwNamespace, wt, wl, wp⟩ [gathered us] it hrest hu
  have hreduce := (endsName_prepend r hrest hu).reduce.1
  refine ⟨3 + k, Steps.trans (.step (.step (.step .refl (.shift hopen)) (.shift hword))
    (.reduce hreduce ?_)) hsteps⟩
  exact reduce_eq production_word rfl rfl htarget

theorem namespace_actions : actionAt 0 .kwNamespace = .reduce Reduction.empty ∧
    actionAt State.blank .kwNamespace = .reduce Reduction.statementsNone ∧
    actionAt State.namespaceName .semi = .shift State.namespaceSemi ∧
    actionAt State.namespaceName .leftBrace = .shift State.namespaceBrace ∧
    actionAt State.namespaceStatements .rightBrace = .shift State.namespaceEnd ∧
    actionAtEnd State.namespaceSemi = .reduce Reduction.namespaceLine ∧
    actionAtEnd State.namespaceEnd = .reduce Reduction.namespaceBraces ∧
    actionAtEnd State.topStatement = .reduce Reduction.statementsMore := by
  decide

/-- Before what starts a source, there are no statements yet. -/
theorem start_steps (hfirst : actionBefore 0 s = .reduce Reduction.empty)
    (hblank : actionBefore State.blank s = .reduce Reduction.statementsNone) :
    Steps file 2 [] s [gathered []] s :=
  .step (.step .refl (.reduce hfirst rfl)) (.reduce hblank rfl)

theorem opening_steps (h : NamespaceHead) :
    Steps file 2 [] (u.prepend r h.tokens) [gathered []] (u.prepend r h.tokens) := by
  obtain ⟨hfirst, hblank, -⟩ := namespace_actions
  have hbefore : ∀ q, actionBefore q (u.prepend r h.tokens) = actionAt q .kwNamespace :=
    fun q => congrArg (actionAt q) h.word_kind
  exact start_steps ((hbefore 0).trans hfirst) ((hbefore State.blank).trans hblank)

/-- A statement behind others is one of them. -/
theorem snoc_step {t : Tree} (us : List Tree)
    (h : actionBefore State.topStatement s = .reduce Reduction.statementsMore) :
    Step file (⟨State.topStatement, .n .topStatement, t⟩ :: [gathered us]) s
      [gathered (us ++ [t])] s :=
  .reduce h rfl

theorem follows_alone {longer : List Frame} (h : Follows us [gathered ts] longer) :
    longer = [gathered (us ++ ts)] := by
  generalize hstack : [gathered ts] = stack at h
  cases h with
  | first => cases hstack
  | blank => cases hstack
  | above up ts' =>
    obtain ⟨rfl, rfl⟩ := gathered_alone hstack
    rfl

/-- Behind a namespace without braces, a source is read like any other. -/
theorem parse_behind (h : NamespaceHead) {semi : Token} (hsemi : semi.kind = .semi)
    (hs : s.parse file = (.ok ts, r)) :
    ((Stream.cons semi r s).prepend r h.tokens).parse file = (.ok (h.tree [] :: ts), r) := by
  obtain ⟨n, hn⟩ := parse_ok_iff.mp hs
  obtain ⟨-, -, hshift, -, -, hend, -, hsnoc⟩ := namespace_actions
  have hstart := actionBefore_of_parse hs
  obtain ⟨sk, st, sl, sp⟩ := semi
  cases hsemi
  have hends : Kind.semi ∈ nameEnds := by decide
  have hgathering : State.namespaceSemi ≠ gathering ∧ State.topStatement ≠ gathering ∧
      gathering ≠ accepting := by decide
  obtain ⟨hsemi, hlast, halone⟩ := hgathering
  obtain ⟨k, hhead⟩ := head_steps file r [] h (u := .cons ⟨.semi, st, sl, sp⟩ r s)
    ⟨_, r, s, rfl, hends⟩
  have hopen : Steps file (2 + k + 3) [] ((Stream.cons ⟨.semi, st, sl, sp⟩ r s).prepend r h.tokens)
      [gathered [h.tree []]] s := by
    refine .step (.step (.step ((opening_steps h).trans hhead) (.shift hshift))
      (.reduce (reduce_before hstart hsemi hend) ?_))
      (snoc_step [] (reduce_before hstart hlast hsnoc))
    rfl
  obtain ⟨j, longer, hf, hj⟩ := follows_steps [h.tree []] hn halone
  cases follows_alone hf
  exact parse_ok_iff.mpr ⟨_, hopen.trans hj⟩

/-- The one edge that is more leads on with the brace that closes the namespace. -/
theorem within_edges : (paged? rows State.namespaceStatements).map Row.edges =
    (paged? rows gathering).map (·.edges ++ [closingEdges]) ∧
    (paged? rows State.namespaceStatements).map Row.reductions = some [] := by
  decide

theorem target?_within {sym : Symbol} {x : Nat} (h : target? gathering sym = some x) :
    target? State.namespaceStatements sym = some x := by
  obtain ⟨row, hrow, hx⟩ := Option.bind_eq_some_iff.mp h
  have hedges := within_edges.1
  rw [hrow, Option.map_some] at hedges
  obtain ⟨row', hrow', he⟩ := Option.map_eq_some_iff.mp hedges
  rw [target?, hrow', Option.bind_some, he, List.findSome?_append, hx]
  rfl

theorem reduction?_within (ahead : Option Kind) :
    reduction? State.namespaceStatements ahead = none := by
  obtain ⟨row, hrow, hr⟩ := Option.map_eq_some_iff.mp within_edges.2
  rw [reduction?, hrow, Option.bind_some, Row.reduction?, hr]
  rfl

/-- Statements are gathered between the braces of a namespace as in a source. -/
theorem ground_within (hb : stateOf base = State.namespaceBrace) :
    Ground State.namespaceStatements base where
  enters := by
    rw [hb]
    decide
  leads := target?_within
  shifts h := by
    simp only [actionAt, target?_within (target?_of_shift h), reduction?_within]

/-- How the stack of a source by itself corresponds to its stack between the braces of a
namespace. -/
inductive Within (base : List Frame) : List Frame → List Frame → Prop
  | first : Within base [] base
  | blank : Within base [blank] (blank :: base)
  | above (up : List Frame) (ts : List Tree) :
      Within base (up ++ [gathered ts]) (up ++ gatheredIn State.namespaceStatements ts :: base)

theorem rows_endBeforeBrace : pagedAll (fun q r => q == gathering || q == 0 ||
    r.endsAlike (1 <<< bitOf (some .rightBrace))) rows = true := by
  decide

/-- Before the brace that closes a namespace, a state reduces what it reduces at the end. -/
theorem reduce_before_brace (hq : q ≠ gathering) (h0 : q ≠ 0) (h : actionAtEnd q = .reduce p) :
    actionAt q .rightBrace = .reduce p := by
  obtain ⟨row, hrow⟩ := row_of_action h
  have halike := pagedAll_get rows_endBeforeBrace hrow
  rw [beq_eq_false_iff_ne.mpr hq, beq_eq_false_iff_ne.mpr h0, Bool.false_or, Bool.false_or]
    at halike
  exact reduce_alike hrow halike (by decide) h

/-- The brace that closes a namespace, at the end of a source. -/
def closing (b : Token) (r : Reader) : Stream Reader := .cons b r (.finished r)

theorem stateOf_ne_first {f : Frame} (hb : Built file 0 (f :: below) read n) : f.state ≠ 0 := by
  intro h
  cases hb with
  | push _ _ _ he =>
    obtain ⟨hinto, -⟩ := origin_of_target? he
    rw [h, symbolInto_first] at hinto
    cases hinto

/-- What can follow the brace that opens a namespace, as the bits of a number. -/
def braceStarters : Nat :=
  ((paged? rows State.namespaceBrace).bind fun r => r.reductions.head?).elim 0 (·.2)

theorem reduction?_brace (ahead : Option Kind) : reduction? State.namespaceBrace ahead =
    if braceStarters.testBit (bitOf ahead) then some Reduction.empty else none := by
  change ((List.find? _ [(Reduction.empty, braceStarters)]).map _) = _
  rw [List.find?_singleton]
  split <;> rfl

theorem target?_brace (k : Kind) : target? State.namespaceBrace (.t k) = none := rfl

/-- What can start a source, but not its end, can follow the brace that opens a namespace. -/
theorem braceStarters_of_starters {k : Kind} (h : starters.testBit (bitOf (some k)) = true) :
    braceStarters.testBit (bitOf (some k)) = true := by
  have hall : starters >>> 1 &&& braceStarters >>> 1 = starters >>> 1 := by decide
  rw [bitOf, Nat.add_comm, ← Nat.testBit_shiftRight] at h ⊢
  rw [← hall, Nat.testBit_and, Bool.and_eq_true] at h
  exact h.2

theorem reduce_opening {b : Token} (hk : b.kind = .rightBrace) (h : actionBefore 0 s ≠ .reject) :
    actionBefore State.namespaceBrace (s.append (closing b r)) = .reduce Reduction.empty := by
  cases s with
  | failed => exact absurd rfl h
  | finished r' =>
    have hbrace : actionAt State.namespaceBrace .rightBrace = .reduce Reduction.empty := by decide
    exact (congrArg (actionAt State.namespaceBrace) hk).trans hbrace
  | cons t r' rest =>
    have hstart := starters_of_action h
    simp only [Stream.append, actionBefore, actionAt, target?_brace, reduction?_brace,
      braceStarters_of_starters hstart, if_true]

theorem reduce_closing {b : Token} (hk : b.kind = .rightBrace) (hq : q ≠ gathering) (h0 : q ≠ 0)
    (h : actionBefore q s = .reduce p) :
    actionBefore q (s.append (closing b r)) = .reduce p := by
  cases s with
  | failed => cases h
  | cons t r' rest => exact h
  | finished r' => exact (congrArg (actionAt q) hk).trans (reduce_before_brace hq h0 h)

theorem accepting_of_reduce (h : actionBefore gathering s = .reduce p)
    (hr : reduce file p [gathered ts] = .ok stack') : stateOf stack' = accepting := by
  obtain ⟨ahead, hred⟩ := reduction?_of_action h
  obtain ⟨e, he, rfl⟩ := Option.map_eq_some_iff.mp hred
  have hm := List.mem_of_find?_eq_some he
  simp only [List.mem_singleton] at hm
  rw [hm] at hr
  cases hr
  rfl

set_option maxRecDepth 4000 in
theorem production_empty : productions[Reduction.empty]? = some (rule .empty [] ()) := rfl

/-- A step of a source by itself is one between the braces of a namespace, unless it is the step
that accepts. -/
theorem within_step {b : Token} {longer : List Frame} (r : Reader) (hk : b.kind = .rightBrace)
    (hbase : stateOf base = State.namespaceBrace) (hb : Built file 0 stack read n)
    (hw : Within base stack longer)
    (h : Step file stack s stack' s') (ha : stateOf stack' ≠ accepting) :
    ∃ longer', Within base stack' longer' ∧
      Step file longer (s.append (closing b r)) longer' (s'.append (closing b r)) := by
  have hg := ground_within hbase
  cases hw with
  | first =>
    obtain ⟨rfl, rfl, hfirst⟩ := step_first h
    refine ⟨_, .blank, .reduce (p := Reduction.empty) ?_ (reduce_eq production_empty rfl rfl ?_)⟩
    · rw [hbase]
      refine reduce_opening hk fun hreject => ?_
      cases hfirst.symm.trans hreject
    · rw [hbase]
      decide
  | blank =>
    obtain ⟨rfl, rfl, hblank⟩ := step_blank h
    have hproduction : productions[Reduction.statementsNone]? =
        some (rule .topStatements [.n .empty] fun _ => []) := rfl
    have hwithin : reduce file Reduction.statementsNone (Automaton.blank :: base) =
        .ok (gatheredIn State.namespaceStatements [] :: base) :=
      reduce_eq hproduction rfl rfl hg.enters
    have hstate : State.blank ≠ gathering ∧ State.blank ≠ 0 := by decide
    exact ⟨_, .above [] [], .reduce (reduce_closing hk hstate.1 hstate.2 hblank) hwithin⟩
  | above up ts =>
    cases up with
    | nil =>
      cases h with
      | shift h => exact ⟨_, .above [_] ts, .shift (hg.shifts h)⟩
      | reduce h hr => exact absurd (accepting_of_reduce h hr) ha
    | cons f up =>
      cases h with
      | shift h => exact ⟨_, .above (_ :: f :: up) ts, .shift h⟩
      | reduce h hr =>
        have hq : f.state ≠ gathering := by
          intro hq
          obtain ⟨us, halone⟩ := built_gathering hb hq
          simp at halone
        obtain ⟨up', ts', rfl, hr'⟩ := reduce_above hg [] hr ha
        exact ⟨_, .above up' ts',
          .reduce (reduce_closing hk hq (stateOf_ne_first hb) h) hr'⟩

/-- The steps of a source by itself are those between the braces of a namespace. -/
theorem within_steps {b : Token} (r : Reader) (hk : b.kind = .rightBrace)
    (hbase : stateOf base = State.namespaceBrace) (h : Steps file n [] s stack' s')
    (ha : stateOf stack' ≠ accepting) :
    ∃ longer, Within base stack' longer ∧
      Steps file n base (s.append (closing b r)) longer (s'.append (closing b r)) := by
  generalize hstack : ([] : List Frame) = stack at h
  induction h with
  | refl =>
    subst hstack
    exact ⟨base, .first, .refl⟩
  | step hn hs ih =>
    subst hstack
    obtain ⟨longer, hw, hsteps⟩ := ih (fun hq => not_step_accepting hq hs) rfl
    obtain ⟨read, m, hb, -⟩ := steps_built hn .nil
    obtain ⟨longer', hw', hstep⟩ := within_step r hk hbase hb hw hs ha
    exact ⟨longer', hw', .step hsteps hstep⟩

theorem within_alone {longer : List Frame} (h : Within base [gathered ts] longer) :
    longer = gatheredIn State.namespaceStatements ts :: base := by
  generalize hstack : [gathered ts] = stack at h
  cases h with
  | first => cases hstack
  | blank => cases hstack
  | above up ts' =>
    obtain ⟨rfl, rfl⟩ := gathered_alone hstack
    rfl

/-- Between the braces of a namespace, a source becomes a part of its tree. -/
theorem parse_between (h : NamespaceHead) {left right : Token} (hl : left.kind = .leftBrace)
    (hr : right.kind = .rightBrace) (hs : s.parse file = (.ok ts, r)) :
    ((Stream.cons left r (s.append (closing right r))).prepend r h.tokens).parse file =
      (.ok [h.tree ts], r) := by
  obtain ⟨n, hn⟩ := parse_ok_iff.mp hs
  obtain ⟨-, -, -, hshift, hclose, -, hend, hsnoc⟩ := namespace_actions
  obtain ⟨lk, lt, ll, lp⟩ := left
  cases hl
  obtain ⟨rk, rt, rl, rp⟩ := right
  cases hr
  have hends : Kind.leftBrace ∈ nameEnds := by decide
  have halone : gathering ≠ accepting := by decide
  obtain ⟨k, hhead⟩ := head_steps file r [] h
    (u := .cons ⟨.leftBrace, lt, ll, lp⟩ r (s.append (closing ⟨.rightBrace, rt, rl, rp⟩ r)))
    ⟨_, r, _, rfl, hends⟩
  have hopen := Steps.step ((opening_steps h).trans hhead) (.shift hshift)
  have hclosing : (⟨.rightBrace, rt, rl, rp⟩ : Token).kind = .rightBrace := rfl
  have hbase : stateOf (⟨State.namespaceBrace, .t .leftBrace, (⟨.leftBrace, lt, ll, lp⟩ : Token)⟩ ::
    namedFrames h.word h.name [gathered []]) = State.namespaceBrace := rfl
  obtain ⟨longer, hw, hinside⟩ := within_steps r hclosing hbase hn halone
  cases within_alone hw
  refine parse_ok_iff.mpr ⟨_, .step (.step (.step (hopen.trans hinside) (.shift hclose))
    (.reduce hend ?_)) (snoc_step [] hsnoc)⟩
  rfl

end Automaton

variable {file : Option String} {s u : Stream Reader} {ts : List Tree}

theorem Stream.parse_congr {s u : Stream Reader} (ht : u.tokens = s.tokens)
    (he : u.error? = s.error?) : (u.parse file).1 = (s.parse file).1 := by
  rw [parse, parse, ht]
  exact Automaton.run_congr file _ [] ht he

namespace NamespaceHead

/-- A source that has the tokens of another one behind a namespace and a semicolon. -/
def Unbraced (n : NamespaceHead) (s u : Stream Reader) : Prop :=
  u.error? = none ∧ ∃ semi : Token, semi.kind = .semi ∧ u.tokens = n.tokens ++ semi :: s.tokens

/-- A source that has the tokens of another one between the braces of a namespace. -/
def Braced (n : NamespaceHead) (s u : Stream Reader) : Prop :=
  u.error? = none ∧ ∃ left right : Token, left.kind = .leftBrace ∧ right.kind = .rightBrace ∧
    u.tokens = n.tokens ++ left :: (s.tokens ++ [right])

theorem Unbraced.parse {n : NamespaceHead} (h : n.Unbraced s u)
    (hs : (s.parse file).1 = .ok ts) : (u.parse file).1 = .ok (n.tree [] :: ts) := by
  obtain ⟨he, semi, hsemi, ht⟩ := h
  have hp : s.parse file = (.ok ts, (s.parse file).2) := Prod.ext hs rfl
  refine (Stream.parse_congr ?_ ?_).trans
    (congrArg Prod.fst (Automaton.parse_behind n hsemi hp))
  · rw [Stream.tokens_prepend, ht]
    rfl
  · rw [Stream.error?_prepend, he]
    exact (Automaton.run_ok .nil hp).1.symm

theorem Braced.parse {n : NamespaceHead} (h : n.Braced s u) (hs : (s.parse file).1 = .ok ts) :
    (u.parse file).1 = .ok [n.tree ts] := by
  obtain ⟨he, left, right, hl, hr, ht⟩ := h
  have hp : s.parse file = (.ok ts, (s.parse file).2) := Prod.ext hs rfl
  have hnone : s.error? = none := (Automaton.run_ok .nil hp).1
  refine (Stream.parse_congr ?_ ?_).trans
    (congrArg Prod.fst (Automaton.parse_between n hl hr hp))
  · rw [Stream.tokens_prepend, ht, Stream.tokens, Stream.tokens_append _ hnone]
    rfl
  · rw [Stream.error?_prepend, he, Stream.error?, Stream.error?_append _ hnone]
    rfl

end NamespaceHead
end Docblock
