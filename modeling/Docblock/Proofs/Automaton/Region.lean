import Docblock.Proofs.Automaton.Fragment
import Docblock.Proofs.Grammar.Reading
import Mathlib.Logic.Relation

/-! Moves above a state: how the automaton reads on depends on the state there, and not on what
stands below, until a production takes something from below. -/
namespace Docblock.Automaton

open Token Grammar

variable {file : Option String} {b n p q : Nat} {up mid rest : List Frame} {f : Frame}
  {ts ts' : List Token} {ss : List Symbol}

theorem topState_append (b : Nat) (up mid : List Frame) :
    topState b (up ++ mid) = topState (topState b mid) up := by
  cases up <;> rfl

theorem topState_zero (stack : List Frame) : topState 0 stack = stateOf stack := by
  cases stack <;> rfl

/-- The kind of the next token, if there is one. -/
def ahead (ts : List Token) : Ahead := ts.head?.map Token.kind

/-- What has been read above a state, the latest first, and the tokens that are left. -/
structure Config where
  frames : List Frame
  tokens : List Token

/-- One step that takes nothing from below the state it starts above. -/
inductive Move (file : Option String) (b : Nat) : Config → Config → Prop
  | shift {up : List Frame} {t : Token} {ts : List Token} {q : Nat}
      (h : actionAt (topState b up) t.kind = .shift q) :
      Move file b ⟨up, t :: ts⟩ ⟨⟨q, .t t.kind, t⟩ :: up, ts⟩
  | reduce {up below : List Frame} {ts : List Token} {p q : Nat} {pr : Production}
      {vs : Values pr.rhs} {v : pr.lhs.Value}
      (h : actionOn (topState b up) (ahead ts) = .reduce p) (hp : productions[p]? = some pr)
      (ht : take pr.rhs up = some (vs, below)) (hv : (pr.action file).apply vs = .ok v)
      (hq : target? (topState b below) (.n pr.lhs) = some q) :
      Move file b ⟨up, ts⟩ ⟨⟨q, .n pr.lhs, v⟩ :: below, ts⟩

abbrev Moves (file : Option String) (b : Nat) : Config → Config → Prop :=
  Relation.ReflTransGen (Move file b)

theorem Move.shift_kind {t : Token} {k : Kind} (hk : t.kind = k)
    (h : actionAt (topState b up) k = .shift q) :
    Move file b ⟨up, t :: ts⟩ ⟨⟨q, .t k, t⟩ :: up, ts⟩ := by
  subst hk
  exact .shift h

theorem apply_ok {α : Type} (f : Curried ss α) (vs : Values ss) :
    (f.map (Except.ok : α → Except Fault α)).apply vs = .ok (f.apply vs) := by
  induction ss with
  | nil => rfl
  | cons s ss ih => exact ih (f vs.1) vs.2

/-- A reduction of a production whose action always gives a value. -/
theorem Move.reduce_rule {below : List Frame} {lhs : Nonterminal} {f : Curried ss lhs.Value}
    {vs : Values ss} {x : lhs.Value} (hp : productions[p]? = some (rule lhs ss f))
    (h : actionOn (topState b up) (ahead ts) = .reduce p) (ht : take ss up = some (vs, below))
    (hx : f.apply vs = x) (hq : target? (topState b below) (.n lhs) = some q) :
    Move file b ⟨up, ts⟩ ⟨⟨q, .n lhs, x⟩ :: below, ts⟩ :=
  .reduce h hp ht (hx ▸ apply_ok f vs) hq

/-- What is taken off a stack are its top frames, whatever stands below them. -/
theorem take_split {stack below : List Frame} {vs : Values ss}
    (h : take ss stack = some (vs, below)) :
    ∃ fs, stack = fs ++ below ∧ fs.map (·.symbol) = ss.reverse ∧
      ∀ more, take ss (fs ++ more) = some (vs, more) := by
  induction ss generalizing below with
  | nil =>
    cases h
    exact ⟨[], rfl, rfl, fun _ => rfl⟩
  | cons s ss ih =>
    obtain ⟨v, vs⟩ := vs
    obtain ⟨f, ht, rfl, rfl⟩ := take_cons h
    obtain ⟨fs, rfl, hsymbols, hmore⟩ := ih ht
    refine ⟨fs ++ [f], by simp, by simp [hsymbols], fun more => ?_⟩
    simp [take, List.append_assoc, hmore]

theorem length_of_take {stack below : List Frame} {vs : Values ss}
    (h : take ss stack = some (vs, below)) : stack.length = ss.length + below.length := by
  obtain ⟨fs, rfl, hsymbols, -⟩ := take_split h
  have hlen := congrArg List.length hsymbols
  rw [List.length_map, List.length_reverse] at hlen
  rw [List.length_append, hlen]

theorem frames_cons {s : Symbol} {fs : List Frame} (h : fs.map (·.symbol) = s :: ss) :
    ∃ q x rest, fs = ⟨q, s, x⟩ :: rest ∧ rest.map (·.symbol) = ss := by
  obtain ⟨f, rest, rfl, rfl, hrest⟩ := List.map_eq_cons_iff.mp h
  exact ⟨f.state, f.value, rest, rfl, hrest⟩

/-- A move above a state is a move above frames with that state on top. -/
theorem Move.onto {c c' : Config} (mid : List Frame) (h : Move file (topState b mid) c c') :
    Move file b ⟨c.frames ++ mid, c.tokens⟩ ⟨c'.frames ++ mid, c'.tokens⟩ := by
  cases h with
  | shift h => exact .shift (by rwa [topState_append])
  | @reduce _ below _ _ _ _ _ _ h hp ht hv hq =>
    obtain ⟨fs, rfl, -, hmore⟩ := take_split ht
    rw [← topState_append] at h hq
    have htake := hmore (below ++ mid)
    rw [← List.append_assoc] at htake
    exact .reduce h hp htake hv hq

theorem Moves.onto {c c' : Config} (mid : List Frame) (h : Moves file (topState b mid) c c') :
    Moves file b ⟨c.frames ++ mid, c.tokens⟩ ⟨c'.frames ++ mid, c'.tokens⟩ :=
  h.lift (fun c : Config => Config.mk (c.frames ++ mid) c.tokens) fun _ _ hm => hm.onto mid

/-- A reduction of the production with a number that takes frames from the middle of a stack. -/
inductive Digs (file : Option String) (b : Nat) (up mid : List Frame) (ts : List Token) (p : Nat) :
    Config → Prop
  | intro {taken below : List Frame} {q : Nat} {pr : Production} {vs : Values pr.rhs}
      {v : pr.lhs.Value} (hmid : mid = taken ++ below) (htaken : taken ≠ [])
      (hp : productions[p]? = some pr)
      (hs : pr.rhs = (taken.map (·.symbol)).reverse ++ (up.map (·.symbol)).reverse)
      (ht : take pr.rhs (up ++ taken) = some (vs, [])) (hv : (pr.action file).apply vs = .ok v)
      (hq : target? (topState b below) (.n pr.lhs) = some q) :
      Digs file b up mid ts p ⟨⟨q, .n pr.lhs, v⟩ :: below, ts⟩

/-- A move stays above the frames in the middle, or takes some of them. -/
theorem Move.rise {c : Config} (h : Move file b ⟨up ++ mid, ts⟩ c) :
    (∃ up', Move file (topState b mid) ⟨up, ts⟩ ⟨up', c.tokens⟩ ∧ c.frames = up' ++ mid) ∨
      ∃ p, Digs file b up mid ts p c := by
  cases h with
  | shift h =>
    rw [topState_append] at h
    exact Or.inl ⟨_, .shift h, rfl⟩
  | @reduce _ below _ p q pr vs v h hp ht hv hq =>
    obtain ⟨fs, hstack, hsymbols, hmore⟩ := take_split ht
    obtain ⟨as, rfl, rfl⟩ | ⟨taken, rfl, rfl⟩ := List.append_eq_append_iff.mp hstack
    · by_cases hnil : as = []
      · subst hnil
        have htake := hmore []
        rw [List.append_nil, List.append_nil] at htake
        rw [topState_append] at h
        exact Or.inl ⟨[_], .reduce h hp htake hv hq, rfl⟩
      · refine Or.inr ⟨p, .intro rfl hnil hp ?_ (by simpa using hmore []) hv hq⟩
        rw [← List.reverse_append, ← List.map_append, hsymbols, List.reverse_reverse]
    · rw [topState_append] at h hq
      exact Or.inl ⟨_, .reduce h hp (hmore taken) hv hq, rfl⟩

/-- Moves stay above the frames in the middle, or do so until one takes some of them. -/
theorem Moves.rise {c : Config} (h : Moves file b ⟨up ++ mid, ts⟩ c) :
    (∃ up', Moves file (topState b mid) ⟨up, ts⟩ ⟨up', c.tokens⟩ ∧ c.frames = up' ++ mid) ∨
      ∃ up' ts' p c', Moves file (topState b mid) ⟨up, ts⟩ ⟨up', ts'⟩ ∧
        Digs file b up' mid ts' p c' ∧ Moves file b c' c := by
  induction h with
  | refl => exact Or.inl ⟨up, .refl, rfl⟩
  | @tail c₁ c₂ _ hm ih =>
    obtain ⟨up', hup, hframes⟩ | ⟨up', ts', p, c', hup, hdigs, hrest⟩ := ih
    · obtain ⟨frames, tokens⟩ := c₁
      cases hframes
      obtain ⟨up'', hmove, hframes⟩ | ⟨p, hdigs⟩ := hm.rise
      · exact Or.inl ⟨up'', hup.tail hmove, hframes⟩
      · exact Or.inr ⟨up', tokens, p, c₂, hup, hdigs, .refl⟩
    · exact Or.inr ⟨up', ts', p, c', hup, hdigs, hrest.tail hm⟩

/-- The state and the symbol of a frame. -/
def Frame.outline (f : Frame) : Nat × Symbol := (f.state, f.symbol)

/-- Whether a production can take the top `n` of some frames above a state, as far as their states
and symbols tell. -/
def canTake (b : Nat) (outlines : List (Nat × Symbol)) (pr : Production) (n : Nat) : Bool :=
  ((outlines.take n).map (·.2)).reverse.isPrefixOf pr.rhs &&
    (target? (((outlines.drop n).head?.map (·.1)).getD b) (.n pr.lhs)).isSome

/-- Whether only some productions take any of some frames, each of them a number of frames. -/
def onlyTakes (b : Nat) (outlines : List (Nat × Symbol)) (found : List (Nat × Nat)) : Bool :=
  productions.zipIdx.all fun e => (List.range outlines.length).all fun j =>
    !canTake b outlines e.1 (j + 1) || found.contains (e.2, j + 1)

theorem Digs.among {c : Config} {outlines : List (Nat × Symbol)} {found : List (Nat × Nat)}
    (h : Digs file b up mid ts p c) (hmid : mid.map Frame.outline = outlines)
    (honly : onlyTakes b outlines found = true) :
    ∃ n pr vs v q, (p, n) ∈ found ∧ productions[p]? = some pr ∧
      up.map (·.symbol) = (pr.rhs.drop n).reverse ∧
      take pr.rhs (up ++ mid.take n) = some (vs, []) ∧ (pr.action file).apply vs = .ok v ∧
      target? (topState b (mid.drop n)) (.n pr.lhs) = some q ∧
      c = ⟨⟨q, .n pr.lhs, v⟩ :: mid.drop n, ts⟩ := by
  obtain ⟨rfl, htaken, hp, hs, ht, hv, hq⟩ := h
  rename_i taken below q pr vs v
  subst hmid
  have hlen : 0 < taken.length := List.length_pos_iff.mpr htaken
  have hcan : canTake b ((taken ++ below).map Frame.outline) pr (taken.length - 1 + 1) = true := by
    have hn : taken.length - 1 + 1 = (taken.map Frame.outline).length := by
      rw [List.length_map]
      omega
    have hstate : (((below.map Frame.outline).head?.map (·.1)).getD b) = topState b below := by
      cases below <;> rfl
    have hsymbols : (taken.map Frame.outline).map (·.2) = taken.map (·.symbol) := by
      rw [List.map_map]
      rfl
    simp only [canTake, hn, List.map_append, List.take_left', List.drop_left', hsymbols, hstate,
      hq, Option.isSome_some, Bool.and_true]
    rw [hs]
    exact List.isPrefixOf_iff_prefix.mpr (List.prefix_append _ _)
  have hall := List.all_eq_true.mp honly (pr, p) (List.mem_zipIdx_iff_getElem?.mpr hp)
  have hmem : taken.length - 1 ∈ List.range ((taken ++ below).map Frame.outline).length := by
    simp only [List.length_map, List.length_append, List.mem_range]
    omega
  have hone := List.all_eq_true.mp hall _ hmem
  simp only [hcan, Bool.not_true, Bool.false_or, List.contains_iff_mem] at hone
  refine ⟨taken.length, pr, vs, v, q, ?_, hp, ?_, ?_⟩
  · rwa [Nat.sub_add_cancel hlen] at hone
  · rw [hs, List.drop_left' (by simp), List.reverse_reverse]
  · rw [List.take_left, List.drop_left]
    exact ⟨ht, hv, hq, rfl⟩

/-- Moves that end with fewer frames than those in the middle take some of these, as was found. -/
theorem Moves.taken {c : Config} {outlines : List (Nat × Symbol)} {found : List (Nat × Nat)}
    (h : Moves file b ⟨mid, ts⟩ c) (hc : c.frames.length < mid.length)
    (hmid : mid.map Frame.outline = outlines) (honly : onlyTakes b outlines found = true) :
    ∃ up ts' p n pr, Moves file (topState b mid) ⟨[], ts⟩ ⟨up, ts'⟩ ∧ (p, n) ∈ found ∧
      productions[p]? = some pr ∧ up.map (·.symbol) = (pr.rhs.drop n).reverse := by
  have hbare : Moves file b ⟨[] ++ mid, ts⟩ c := h
  obtain ⟨up, -, hframes⟩ | ⟨up, ts', p, c', hup, hdigs, -⟩ := hbare.rise
  · rw [hframes, List.length_append] at hc
    omega
  · obtain ⟨n, pr, -, -, -, hfound, hp, hsymbols, -⟩ := hdigs.among hmid honly
    exact ⟨up, ts', p, n, pr, hup, hfound, hp, hsymbols⟩

/-- What was read above a frame was read after that frame. -/
theorem Moves.settle {c : Config} (h : Moves file b ⟨[], ts⟩ c) (hc : c.frames = up ++ f :: rest) :
    ∃ ts', Moves file b ⟨[], ts⟩ ⟨f :: rest, ts'⟩ ∧
      Moves file f.state ⟨[], ts'⟩ ⟨up, c.tokens⟩ := by
  induction h generalizing up with
  | refl => simp at hc
  | @tail c₁ c₂ h hm ih =>
    cases up with
    | nil =>
      obtain ⟨frames, tokens⟩ := c₂
      cases hc
      exact ⟨tokens, h.tail hm, .refl⟩
    | cons g up =>
      cases hm with
      | shift hs =>
        rw [List.cons_append] at hc
        obtain ⟨rfl, rfl⟩ := List.cons.inj hc
        obtain ⟨ts', hfirst, hlater⟩ := ih rfl
        rw [topState_append] at hs
        exact ⟨ts', hfirst, hlater.tail (.shift hs)⟩
      | reduce hr hp ht hv hq =>
        rw [List.cons_append] at hc
        obtain ⟨rfl, rfl⟩ := List.cons.inj hc
        obtain ⟨fs, rfl, -, hmore⟩ := take_split ht
        obtain ⟨ts', hfirst, hlater⟩ := ih (List.append_assoc fs up (f :: rest)).symm
        rw [← List.append_assoc, topState_append] at hr
        rw [topState_append] at hq
        exact ⟨ts', hfirst, hlater.tail (.reduce hr hp (hmore up) hv hq)⟩

/-- A token on top was the last to be read. -/
theorem Moves.shifted {k : Kind} (h : Moves file b ⟨[], ts⟩ ⟨f :: rest, ts'⟩)
    (hf : f.symbol = .t k) :
    ∃ t : Token, t.kind = k ∧ f = ⟨f.state, .t k, t⟩ ∧
      Moves file b ⟨[], ts⟩ ⟨rest, t :: ts'⟩ ∧ actionAt (topState b rest) k = .shift f.state := by
  generalize hc : (⟨f :: rest, ts'⟩ : Config) = c at h
  cases h with
  | refl => cases hc
  | tail h hm =>
    cases hm with
    | @shift _ t _ _ hs =>
      cases hc
      cases hf
      exact ⟨t, rfl, rfl, h, hs⟩
    | reduce =>
      cases hc
      cases hf

/-- What is read above a state is built there. -/
theorem Moves.built {c : Config} (h : Moves file b ⟨[], ts⟩ c) :
    ∃ read n, Built file b c.frames read n ∧ read ++ c.tokens = ts := by
  induction h with
  | refl => exact ⟨[], 0, .nil, rfl⟩
  | tail _ hm ih =>
    obtain ⟨read, n, hb, rfl⟩ := ih
    cases hm with
    | shift hs => exact ⟨_, n, shift_built hb hs, by simp⟩
    | reduce _ hp ht hv hq => exact ⟨read, n + 1, node_built hb hp ht hv hq, rfl⟩

/-- A value that stands alone above a state is that of a derivation over the tokens before it. -/
theorem Moves.readAs {v : Nonterminal} {x : v.Value}
    (h : Moves file b ⟨[], ts⟩ ⟨[⟨q, .n v, x⟩], ts'⟩) :
    ∃ us, ts = us ++ ts' ∧ ReadAs file v us x := by
  obtain ⟨read, n, hb, hread⟩ := h.built
  cases hb with
  | push _ tree hb _ hv =>
    cases hb
    exact ⟨_, hread.symm, tree, rfl, by simp [Derivation.result, hv, Except.map]⟩

/-- Every frame has the state to which its symbol leads. -/
def Linked (b : Nat) : List Frame → Prop
  | [] => True
  | f :: rest => target? (topState b rest) f.symbol = some f.state ∧ Linked b rest

theorem Linked.drop {fs : List Frame} (h : Linked b (fs ++ rest)) : Linked b rest := by
  induction fs with
  | nil => exact h
  | cons f fs ih => exact ih h.2

theorem Move.linked {c c' : Config} (h : Move file b c c') (hc : Linked b c.frames) :
    Linked b c'.frames := by
  cases h with
  | shift h => exact ⟨target?_of_shift h, hc⟩
  | reduce h hp ht hv hq =>
    obtain ⟨fs, rfl, -, -⟩ := take_split ht
    exact ⟨hq, hc.drop⟩

theorem Moves.linked {c c' : Config} (h : Moves file b c c') (hc : Linked b c.frames) :
    Linked b c'.frames := by
  induction h with
  | refl => exact hc
  | tail _ hm ih => exact hm.linked ih

/-- The state to which some symbols lead, the last one first. -/
def follow (b : Nat) : List Symbol → Option Nat
  | [] => some b
  | s :: ss => (follow b ss).bind (target? · s)

theorem Linked.follow {fs : List Frame} (h : Linked b fs) :
    follow b (fs.map (·.symbol)) = some (topState b fs) := by
  induction fs with
  | nil => rfl
  | cons f fs ih =>
    rw [List.map_cons, Automaton.follow, ih h.2]
    exact h.1

/-- Between the tokens that moves leave, and with other tokens that start alike, they are the
same. The brackets that they open stay open in what they have read. -/
theorem Moves.reads {c c' : Config} (h : Moves file b c c') :
    ∃ read, c.tokens = read ++ c'.tokens ∧
      (∀ n, depth n (tokenKinds (c'.frames.map (·.symbol)).reverse) =
        depth n (tokenKinds (c.frames.map (·.symbol)).reverse ++ read.map Token.kind)) ∧
      ∀ ts, ahead ts = ahead c'.tokens →
        Moves file b ⟨c.frames, read ++ ts⟩ ⟨c'.frames, ts⟩ := by
  induction h with
  | refl => exact ⟨[], rfl, fun n => by simp, fun ts _ => .refl⟩
  | tail _ hm ih =>
    obtain ⟨read, hread, hdepth, hmoves⟩ := ih
    cases hm with
    | @shift up t ts q hs =>
      refine ⟨read ++ [t], by simp [hread], fun n => ?_, fun ts' _ => ?_⟩
      · simp only [List.map_cons, List.reverse_cons, tokenKinds, List.filterMap_append,
          List.map_append, ← List.append_assoc, List.filterMap_cons, List.filterMap_nil,
          List.map_nil] at hdepth ⊢
        rw [depth_append, depth_append, hdepth, depth_append]
      · rw [List.append_assoc]
        exact (hmoves (t :: ts') rfl).tail (.shift hs)
    | @reduce up below ts p q pr vs v h hp ht hv hq =>
      refine ⟨read, hread, fun n => ?_, fun ts' hts => ?_⟩
      · obtain ⟨fs, rfl, hsymbols, -⟩ := take_split ht
        rw [← hdepth]
        have hbalanced : depth 0 (tokenKinds pr.rhs) = some 0 := by
          simpa using List.all_eq_true.mp depth_productions pr (List.mem_of_getElem? hp)
        have hclosed : ∀ m, depth m (tokenKinds pr.rhs) = some m := fun m => by
          simpa using depth_add hbalanced m
        simp only [List.map_cons, List.map_append, List.reverse_cons, List.reverse_append,
          hsymbols, List.reverse_reverse, tokenKinds, List.filterMap_append, List.filterMap_cons,
          List.filterMap_nil, List.append_nil] at hclosed ⊢
        rw [depth_append, funext hclosed, Option.bind_fun_some]
      · refine (hmoves ts' hts).tail (.reduce ?_ hp ht hv hq)
        rwa [hts]

/-- Behind closed tokens, the first bracket that closes none of theirs is read after all of them. -/
theorem Moves.closing {xs more : List Token} {c r : Token} {k : Kind} {fs : List Frame}
    (h : Moves file b ⟨[], xs ++ c :: more⟩ ⟨⟨q, .t k, r⟩ :: fs, ts⟩) (hk : k ∈ closings)
    (hc : c.kind ∈ closings) (hx : Closed xs)
    (hfs : depth 0 (tokenKinds (fs.map (·.symbol)).reverse) = some 0) :
    ts = more ∧ Moves file b ⟨[], xs ++ c :: more⟩ ⟨fs, c :: more⟩ := by
  obtain ⟨t, ht, -, hmoves, -⟩ := Moves.shifted h rfl
  obtain ⟨read, hread, hdepth, -⟩ := Moves.reads hmoves
  have hclosed : Closed read := (hdepth 0).symm.trans hfs
  obtain ⟨rfl, rfl, rfl⟩ := hclosed.unique hx (ht ▸ hk) hc hread.symm
  exact ⟨rfl, hmoves⟩

/-- There is at most one move. -/
theorem Move.unique {c d e : Config} (h : Move file b c d) (h' : Move file b c e) : d = e := by
  cases h with
  | @shift up t ts q h =>
    cases h' with
    | shift h' =>
      cases h.symm.trans h'
      rfl
    | reduce h' => cases h.symm.trans h'
  | reduce h hp ht hv hq =>
    cases h' with
    | shift h' => cases h.symm.trans h'
    | reduce h' hp' ht' hv' hq' =>
      cases h.symm.trans h'
      cases hp.symm.trans hp'
      cases ht.symm.trans ht'
      cases hv.symm.trans hv'
      cases hq.symm.trans hq'
      rfl

/-- Moves that read on go through every configuration before. -/
theorem Moves.resume {c d e : Config} (h : Moves file b c d) (h' : Moves file b c e)
    (hlen : e.tokens.length < d.tokens.length) : Moves file b d e := by
  have hunique : Relator.RightUnique (Move file b) := fun _ _ _ => Move.unique
  refine (Relation.ReflTransGen.total_of_right_unique hunique h h').resolve_right fun hback => ?_
  obtain ⟨read, hread, -⟩ := Moves.reads hback
  simp only [hread, List.length_append] at hlen
  omega

/-- Whether a state shifts only tokens of some kinds and reduces at most one production. -/
def reducesOnly (q p : Nat) (ks : List Kind) : Bool :=
  (paged? rows q).any fun r => r.reductions.all (·.1 == p) &&
    r.edges.all fun g => (groupAt g).all fun e => match e.1 with
      | .t k => ks.contains k
      | .n _ => true

theorem actionBefore_prepend (q : Nat) (ts : List Token) :
    actionBefore q ((Stream.finished ()).prepend () ts) = actionOn q (ahead ts) := by
  cases ts <;> rfl

/-- A production that is reduced is one of the row of its state. -/
theorem row_of_reduce (h : actionOn q (ahead ts) = .reduce p) :
    ∃ row, paged? rows q = some row ∧ ∃ e ∈ row.reductions, e.1 = p := by
  rw [← actionBefore_prepend] at h
  obtain ⟨a, hred⟩ := reduction?_of_action h
  obtain ⟨row, hrow, hfind⟩ := Option.bind_eq_some_iff.mp hred
  obtain ⟨e, he, rfl⟩ := Option.map_eq_some_iff.mp hfind
  exact ⟨row, hrow, e, List.mem_of_find?_eq_some he, rfl⟩

/-- A move in a state that only reduces one production reduces it, unless it shifts. -/
theorem Move.reduces {c : Config} {ks : List Kind} (h : Move file b ⟨up, ts⟩ c)
    (hq : reducesOnly (topState b up) p ks = true) (hts : ∀ k ∈ ahead ts, k ∉ ks)
    {pr : Production} (hp : productions[p]? = some pr) :
    ∃ vs below v q, actionOn (topState b up) (ahead ts) = .reduce p ∧
      take pr.rhs up = some (vs, below) ∧ (pr.action file).apply vs = .ok v ∧
      target? (topState b below) (.n pr.lhs) = some q ∧ c = ⟨⟨q, .n pr.lhs, v⟩ :: below, ts⟩ := by
  obtain ⟨row, hrow, honly⟩ := Option.any_eq_true _ _ |>.mp hq
  rw [Bool.and_eq_true] at honly
  obtain ⟨hreductions, hedges⟩ := honly
  cases h with
  | @shift _ t _ _ hs =>
    obtain ⟨row', g, es, hrow', hg, hes, hmem⟩ := target?_eq_some (target?_of_shift hs)
    cases hrow.symm.trans hrow'
    have hedge := List.all_eq_true.mp (List.all_eq_true.mp hedges g hg) (.t t.kind, _)
      (by simpa [groupAt, hes] using hmem)
    exact absurd (List.contains_iff_mem.mp hedge) (hts t.kind rfl)
  | @reduce _ below _ p' q pr' vs v h hp' ht hv hq =>
    obtain ⟨row', hrow', e, he, rfl⟩ := row_of_reduce h
    cases hrow.symm.trans hrow'
    have heq := List.all_eq_true.mp hreductions e he
    rw [beq_iff_eq] at heq
    subst heq
    cases hp.symm.trans hp'
    exact ⟨vs, below, v, q, h, ht, hv, hq, rfl⟩

/-- The trees of some tokens that nothing follows. -/
def parsed (file : Option String) (ts : List Token) : Except ParseError (List Tree) :=
  (((Stream.finished ()).prepend () ts).parse file).1

/-- The trees of a stream are those of its tokens. -/
theorem parse_eq_parsed {Reader : Type} {s : Stream Reader} (h : s.error? = none) :
    (s.parse file).1 = parsed file s.tokens := by
  have htokens : ((Stream.finished ()).prepend () s.tokens).tokens = s.tokens := by
    rw [Stream.tokens_prepend]
    exact List.append_nil _
  rw [parsed, Stream.parse, Stream.parse, htokens]
  refine run_congr file _ [] htokens.symm ?_
  rw [Stream.error?_prepend, h]
  rfl

/-- What is derived in a fragment are the trees of its tokens, or the fault that ends them. -/
theorem Fragment.parsed_gives {fr : Fragment} (hfr : fr.Fits)
    (hstart : fr.allows 0 .topStatements [none] = true) {x : Except Fault (List Tree)}
    (h : fr.Gives file .topStatements ts x) : parsed file ts = outcome x := by
  obtain ⟨d, hw, rfl, rfl⟩ := h
  apply parse_derivation hfr hstart d hw
  · rw [Stream.tokens_prepend]
    exact List.append_nil _
  · rw [Stream.error?_prepend]
    rfl

theorem Move.step {c c' : Config} (h : Move file 0 c c') :
    Step file c.frames ((Stream.finished ()).prepend () c.tokens) c'.frames
      ((Stream.finished ()).prepend () c'.tokens) := by
  cases h with
  | shift h =>
    rw [topState_zero] at h
    exact .shift h
  | reduce h hp ht hv hq =>
    rw [topState_zero] at h hq
    exact .reduce (by rwa [actionBefore_prepend]) (reduce_eq hp ht hv hq)

theorem Step.move {stack stack' : List Frame} {s' : Stream Unit}
    (h : Step file stack ((Stream.finished ()).prepend () ts) stack' s') :
    ∃ ts', s' = (Stream.finished ()).prepend () ts' ∧ Move file 0 ⟨stack, ts⟩ ⟨stack', ts'⟩ := by
  generalize hs : (Stream.finished ()).prepend () ts = s at h
  cases h with
  | shift h =>
    cases ts with
    | nil => cases hs
    | cons t ts =>
      cases hs
      rw [← topState_zero] at h
      exact ⟨ts, rfl, .shift h⟩
  | reduce h hr =>
    subst hs
    obtain ⟨pr, vs, below, v, q, hp, ht, hv, hq, rfl⟩ := reduce_ok hr
    rw [actionBefore_prepend, ← topState_zero] at h
    rw [← topState_zero] at hq
    exact ⟨ts, rfl, .reduce h hp ht hv hq⟩

/-- Tokens have trees if moves lead from them to those trees. -/
theorem parsed_ok_iff {trees : List Tree} :
    parsed file ts = .ok trees ↔ Moves file 0 ⟨[], ts⟩ ⟨[gathered trees], []⟩ := by
  constructor
  · intro h
    obtain ⟨n, hn⟩ := parse_ok_iff.mp (Prod.ext h rfl :
      ((Stream.finished ()).prepend () ts).parse file = (.ok trees, _))
    generalize hs : (Stream.finished ()).prepend () ts = s at hn
    have hmoves : ∀ {n : Nat} {stack stack' : List Frame} {s s' : Stream Unit},
        Steps file n stack s stack' s' → ∀ ts, (Stream.finished ()).prepend () ts = s →
        ∃ ts', s' = (Stream.finished ()).prepend () ts' ∧
          Moves file 0 ⟨stack, ts⟩ ⟨stack', ts'⟩ := by
      intro n stack stack' s s' h
      induction h with
      | refl => exact fun ts hts => ⟨ts, hts.symm, .refl⟩
      | step _ hs ih =>
        intro ts hts
        obtain ⟨ts', rfl, hmoves⟩ := ih ts hts
        obtain ⟨ts'', rfl, hmove⟩ := Step.move hs
        exact ⟨ts'', rfl, hmoves.tail hmove⟩
    obtain ⟨ts', hfinished, hmoves⟩ := hmoves hn ts hs
    cases ts' with
    | nil => exact hmoves
    | cons => cases hfinished
  · intro h
    have hsteps : ∀ {c c' : Config}, Moves file 0 c c' →
        ∃ n, Steps file n c.frames ((Stream.finished ()).prepend () c.tokens) c'.frames
          ((Stream.finished ()).prepend () c'.tokens) := by
      intro c c' h
      induction h with
      | refl => exact ⟨0, .refl⟩
      | tail _ hm ih =>
        obtain ⟨n, hn⟩ := ih
        exact ⟨n + 1, .step hn hm.step⟩
    rw [parsed, parse_ok_iff.mpr (hsteps h)]

end Docblock.Automaton
