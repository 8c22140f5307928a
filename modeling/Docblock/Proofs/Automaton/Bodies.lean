import Docblock.Proofs.Automaton.Statement

/-! The heads of loops, and the bodies that stand between braces or before a word. -/
namespace Docblock

open Token Grammar

/-- A word and closed tokens in parentheses. -/
structure Head (k : Kind) where
  word : Token
  left : Token
  inner : List Token
  right : Token
  word_kind : word.kind = k
  left_kind : left.kind = .leftParen
  right_kind : right.kind = .rightParen
  closed : Closed inner

def Head.tokens {k : Kind} (h : Head k) : List Token := h.word :: h.left :: (h.inner ++ [h.right])

namespace Automaton

variable {file : Option String} {b q : Nat} {fs : List Frame} {xs more rest : List Token}
  {trees : List Tree}

/-- A statement with a head: its word, the symbols in the parentheses, the nonterminal of its body
and its production, with the states behind its parts. -/
structure Construct where
  word : Kind
  slots : List Symbol
  body : Nonterminal
  rule : Nat
  atWord : Nat
  atLeft : Nat
  atSlots : Nat
  atRight : Nat
  atBody : Nat

namespace Construct

variable {c : Construct}

/-- Only the production of the statement takes the parts of its head off. -/
def fits (c : Construct) : Bool :=
  actionAt 0 c.word == .reduce Reduction.empty &&
    actionAt State.blank c.word == .reduce Reduction.statementsNone &&
    actionAt gathering c.word == .shift c.atWord &&
    actionAt c.atWord .leftParen == .shift c.atLeft &&
    follow c.atLeft c.slots.reverse == some c.atSlots &&
    actionAt c.atSlots .rightParen == .shift c.atRight &&
    onlyTakes 0 [(c.atLeft, .t .leftParen), (c.atWord, .t c.word), (gathering, .n .topStatements)]
      [(c.rule, 2)] &&
    depth 0 (tokenKinds c.slots) == some 0 &&
    productions[c.rule]?.any fun pr =>
      pr.rhs == [Symbol.t c.word, Symbol.t .leftParen] ++
        (c.slots ++ [Symbol.t .rightParen, Symbol.n c.body])

/-- The frames of a head, with those in the parentheses. -/
def frames (c : Construct) (h : Head c.word) (fs : List Frame) : List Frame :=
  ⟨c.atRight, .t .rightParen, h.right⟩ ::
    (fs ++ [⟨c.atLeft, .t .leftParen, h.left⟩, ⟨c.atWord, .t c.word, h.word⟩])

theorem start_moves (hc : c.fits = true) (file : Option String) (h : Head c.word)
    (rest : List Token) :
    Moves file 0 ⟨[], h.tokens ++ rest⟩ ⟨[gathered []], h.tokens ++ rest⟩ := by
  simp only [fits, Bool.and_eq_true, beq_iff_eq, and_assoc] at hc
  obtain ⟨hfirst, hblank, -⟩ := hc
  refine Automaton.start_moves ?_ ?_
  · exact (congrArg (actionAt 0) h.word_kind).trans hfirst
  · exact (congrArg (actionAt State.blank) h.word_kind).trans hblank

/-- The head of a source that can be read is read alike whatever follows it. -/
theorem head_moves (hc : c.fits = true) (h : Head c.word)
    (hp : parsed file (h.tokens ++ rest) = .ok trees) :
    ∃ fs, fs.map (·.symbol) = c.slots.reverse ∧ topState c.atLeft fs = c.atSlots ∧
      ∀ rest, Moves file gathering ⟨[], h.tokens ++ rest⟩ ⟨c.frames h fs, rest⟩ := by
  have hstart := c.start_moves hc file h rest
  simp only [fits, Bool.and_eq_true, beq_iff_eq, and_assoc] at hc
  obtain ⟨-, -, hword, hleft, hslots, hright, honly, hdepth, hrule⟩ := hc
  obtain ⟨pr, hpr, hrhs⟩ := Option.any_eq_true _ _ |>.mp hrule
  rw [beq_iff_eq] at hrhs
  -- Up to the parenthesis, everything is shifted.
  have hopen : ∀ (b : Nat) (base : List Frame) (rest : List Token), topState b base = gathering →
      Moves file b ⟨base, h.tokens ++ rest⟩ ⟨[⟨c.atLeft, .t .leftParen, h.left⟩,
        ⟨c.atWord, .t c.word, h.word⟩] ++ base, h.inner ++ h.right :: rest⟩ := by
    intro b base rest hbase
    have htokens : h.tokens ++ rest = h.word :: h.left :: (h.inner ++ h.right :: rest) := by
      simp [Head.tokens]
    rw [htokens]
    exact .tail (.single (.shift_kind h.word_kind (hbase ▸ hword)))
      (.shift_kind h.left_kind hleft)
  have hrest := Moves.resume (hstart.trans (hopen 0 [gathered []] rest rfl))
    (parsed_ok_iff.mp hp)
    (by simp only [List.length_nil, List.length_append, List.length_cons]; omega)
  obtain ⟨up, ts, p, n, pr', hup, hfound, hp', hup'⟩ := Moves.taken hrest (by simp) rfl honly
  obtain ⟨rfl, rfl⟩ := Prod.mk.inj (List.mem_singleton.mp hfound)
  cases hpr.symm.trans hp'
  have hsymbols : up.map (·.symbol) = .n c.body :: .t .rightParen :: c.slots.reverse := by
    simpa [hrhs] using hup'
  obtain ⟨q₁, body, _, rfl, hsymbols'⟩ := frames_cons hsymbols
  obtain ⟨q₂, right, fs, rfl, hfs⟩ := frames_cons hsymbols'
  -- What stands before the parenthesis that closes is what the head has inside.
  obtain ⟨ts', hbefore, -⟩ := Moves.settle hup
    (show _ = [⟨q₁, .n c.body, body⟩] ++ ⟨q₂, .t .rightParen, right⟩ :: fs from rfl)
  have hclosing : Kind.rightParen ∈ closings := by decide
  obtain ⟨rfl, hmoves⟩ := Moves.closing hbefore hclosing (h.right_kind ▸ hclosing) h.closed
    (by rwa [hfs, List.reverse_reverse])
  obtain ⟨read, hread, -, hagain⟩ := Moves.reads hmoves
  obtain ⟨rfl, -⟩ := List.append_inj' hread rfl
  have hlinked : Linked c.atLeft fs := Moves.linked hmoves trivial
  have hstate : topState c.atLeft fs = c.atSlots := by
    have hfollow := hlinked.follow
    rw [hfs, hslots] at hfollow
    exact (Option.some.inj hfollow).symm
  refine ⟨fs, hfs, hstate, fun rest => (hopen gathering [] rest rfl).trans ?_⟩
  have hinside := Moves.onto (b := gathering) [⟨c.atLeft, .t .leftParen, h.left⟩,
    ⟨c.atWord, .t c.word, h.word⟩] (hagain (h.right :: rest) rfl)
  refine .tail hinside (.shift_kind h.right_kind ?_)
  rw [topState_append]
  exact hstate ▸ hright

/-- A head, a body and the production of the statement are a source. -/
theorem parsed_of_body (hc : c.fits = true) {h : Head c.word} {x : c.body.Value} {t : Tree}
    (hhead : Moves file gathering ⟨[], h.tokens ++ xs⟩ ⟨c.frames h fs, xs⟩)
    (hbody : Moves file c.atRight ⟨[], xs⟩ ⟨[⟨c.atBody, .n c.body, x⟩], []⟩)
    (hlast : Move file gathering ⟨⟨c.atBody, .n c.body, x⟩ :: c.frames h fs, []⟩
      ⟨[⟨State.statement, .n .statement, t⟩], []⟩) :
    parsed file (h.tokens ++ xs) = .ok [t] := by
  have hwhole : Moves file gathering ⟨[], h.tokens ++ xs⟩
      ⟨[⟨State.statement, .n .statement, t⟩], []⟩ :=
    .tail (hhead.trans (Moves.onto (b := gathering) (c.frames h fs) hbody)) hlast
  refine parsed_ok_iff.mpr ((c.start_moves hc file h xs).trans
    (.trans ?_ (statement_moves file [] t)))
  exact Moves.onto (b := 0) [gathered []] hwhole

end Construct

/-- Where a list starts, nothing is read first. -/
theorem first_empty {f : Frame} {up : List Frame} {ts ts' : List Token} {ks : List Kind}
    (h : Moves file b ⟨[], ts⟩ ⟨f :: up, ts'⟩) (hb : reducesOnly b Reduction.empty ks = true)
    (hts : ∀ k ∈ ahead ts, k ∉ ks) : actionOn b (ahead ts) = .reduce Reduction.empty := by
  obtain heq | ⟨_, hm, -⟩ := h.cases_head
  · cases heq
  · obtain ⟨-, -, -, -, hfirst, -⟩ := hm.reduces hb hts production_empty
    exact hfirst

/-- What is read as a whole starts with nothing that closes: it would have to be opened first. -/
theorem first_not_closing {v : Nonterminal} {x : v.Value} {r : Token}
    (h : Moves file b ⟨[], xs ++ [r]⟩ ⟨[⟨q, .n v, x⟩], [r]⟩) :
    ∀ t ∈ xs.head?, t.kind ∉ closings := by
  obtain ⟨read, hread, hdepth, -⟩ := Moves.reads h
  obtain ⟨rfl, -⟩ := List.append_inj' hread rfl
  have hclosed : Closed xs := (hdepth 0).symm
  intro t ht hclosing
  obtain ⟨ys, rfl⟩ := List.head?_eq_some_iff.mp ht
  rw [Closed, List.map_cons, depth_closing hclosing] at hclosed
  cases hclosed

/-- A list that is read behind one state before a brace, and behind another before some word. The
other states are those behind what is empty, behind the list and behind the brace. -/
structure Span where
  list : Nonterminal
  nothing : Nat
  stop : Kind
  before : Nat
  before' : Nat
  atEmpty : Nat
  atList : Nat
  atList' : Nat
  atBrace : Nat

namespace Span

variable {s : Span}

/-- The lists start from nothing, and go on alike until the brace or the word comes next. -/
def fits (s : Span) : Bool :=
  s.list != .empty && reducesOnly s.atEmpty s.nothing [] &&
    target? s.before (.n .empty) == some s.atEmpty &&
    target? s.before' (.n .empty) == some s.atEmpty &&
    target? s.before (.n s.list) == some s.atList &&
    (productions[s.nothing]?.any fun pr => pr.lhs == s.list && pr.rhs == [.n .empty]) &&
    actionAt s.atList .rightBrace == .shift s.atBrace &&
    actionAt s.before' s.stop == .reduce Reduction.empty &&
    actionAt s.atEmpty s.stop == .reduce s.nothing &&
    (aheads.all fun a => a == some .rightBrace || actionOn s.before a != .reduce Reduction.empty ||
      actionOn s.before' a == .reduce Reduction.empty) &&
    grafts s.before s.before' [(s.atList, s.atList')]

/-- A list starts as an empty one, which every state makes alike, and the rest is read behind it. -/
theorem exists_start (hs : s.fits = true) {x : s.list.Value} {ts ts' : List Token}
    (hfirst : actionOn s.before (ahead ts) = .reduce Reduction.empty)
    (h : Moves file s.before ⟨[], ts⟩ ⟨[⟨s.atList, .n s.list, x⟩], ts'⟩) :
    ∃ z : s.list.Value, actionOn s.atEmpty (ahead ts) = .reduce s.nothing ∧
      (∀ {b q : Nat} {more : List Token}, actionOn s.atEmpty (ahead more) = .reduce s.nothing →
        target? b (.n s.list) = some q →
        Move file b ⟨[⟨s.atEmpty, .n .empty, ()⟩], more⟩ ⟨[⟨q, .n s.list, z⟩], more⟩) ∧
      Moves file s.before ⟨[⟨s.atList, .n s.list, z⟩], ts⟩ ⟨[⟨s.atList, .n s.list, x⟩], ts'⟩ := by
  simp only [fits, Bool.and_eq_true, beq_iff_eq, bne_iff_ne, and_assoc] at hs
  obtain ⟨hlist, hempty, htarget, -, hinto, hnothing, -⟩ := hs
  obtain ⟨⟨lhs, rhs, act⟩, hp, hrule⟩ := Option.any_eq_true _ _ |>.mp hnothing
  simp only [Bool.and_eq_true, beq_iff_eq] at hrule
  obtain ⟨rfl, rfl⟩ := hrule
  have hnone : Move file s.before ⟨[], ts⟩ ⟨[⟨s.atEmpty, .n .empty, ()⟩], ts⟩ :=
    .reduce_rule production_empty hfirst rfl rfl htarget
  obtain heq | ⟨c₁, hm₁, h⟩ := h.cases_head
  · cases heq
  cases hm₁.unique hnone
  obtain heq | ⟨c₂, hm₂, h⟩ := h.cases_head
  · have hsymbols := congrArg (fun c : Config => c.frames.map (·.symbol)) heq
    simp only [List.map_cons, List.map_nil, List.cons.injEq, Symbol.n.injEq, and_true] at hsymbols
    exact absurd hsymbols.symm hlist
  obtain ⟨vs, below, z, q, haction, htake, hz, hq, rfl⟩ := hm₂.reduces hempty (by simp) hp
  obtain rfl : below = [] := by
    have hlen := length_of_take htake
    simp only [List.length_singleton] at hlen
    exact List.length_eq_zero_iff.mp (by omega)
  obtain rfl : s.atList = q := Option.some.inj (hinto.symm.trans hq)
  refine ⟨z, haction, ?_, h⟩
  intro b q more hnext htarget'
  have hnext' : actionOn (topState b [⟨s.atEmpty, .n .empty, ()⟩]) (ahead more) =
      .reduce s.nothing := hnext
  exact .reduce hnext' hp htake hz htarget'

/-- What is read before a brace is read alike before the word. -/
theorem moves (hs : s.fits = true) {e : Ending} (he : e.Fits) (hafter : e.after = .rightBrace)
    (hstop : s.stop ∈ e.instead) (hstate : s.atList' ∈ e.states) {x : s.list.Value}
    {r stop : Token} (hr : r.kind = .rightBrace) (hk : stop.kind = s.stop)
    (hfirst : actionOn s.before (ahead (xs ++ [r])) = .reduce Reduction.empty)
    (h : Moves file s.before ⟨[], xs ++ [r]⟩ ⟨[⟨s.atList, .n s.list, x⟩], [r]⟩) :
    Moves file s.before' ⟨[], xs ++ stop :: more⟩
      ⟨[⟨s.atList', .n s.list, x⟩], stop :: more⟩ := by
  obtain ⟨z, haction, hmake, hrest⟩ := exists_start hs hfirst h
  simp only [fits, Bool.and_eq_true, beq_iff_eq, bne_iff_ne, List.all_eq_true, Bool.or_eq_true,
    and_assoc] at hs
  obtain ⟨-, -, -, htarget', hinto, -, hbrace, hstop₁, hstop₂, haheads, hgraft⟩ := hs
  have hg := graft_of_grafts hgraft
  have hmoved : moveTo [(s.atList, s.atList')] s.atList = s.atList' := by simp [moveTo]
  -- The rest is read behind the other state, and then before the word.
  have hother := hg.moves (by simp) hrest ⟨_, .shift (hr.symm ▸ hbrace)⟩
  simp only [relocate, hmoved] at hother
  have htails : e.tails s.atList' = true := by simp [Ending.tails, hstate]
  have hend : Moves file s.before' ⟨[⟨s.atList', .n s.list, z⟩], xs ++ stop :: more⟩
      ⟨[⟨s.atList', .n s.list, x⟩], stop :: more⟩ :=
    he.moves hother (hr.trans hafter.symm) htails (hk ▸ hstop)
  have hnext : actionOn s.before' (ahead (xs ++ stop :: more)) = .reduce Reduction.empty ∧
      actionOn s.atEmpty (ahead (xs ++ stop :: more)) = .reduce s.nothing := by
    cases xs with
    | nil => exact ⟨(congrArg _ hk).trans hstop₁, (congrArg _ hk).trans hstop₂⟩
    | cons t xs =>
      obtain (hbrace | hother) | hsame := haheads (some t.kind) (mem_aheads _)
      · have hclosing : t.kind ∈ closings := by simp [Option.some.inj hbrace, closings]
        exact absurd hclosing (first_not_closing h t rfl)
      · exact absurd hfirst hother
      · exact ⟨hsame, haction⟩
  have hnone : Move file s.before' ⟨[], xs ++ stop :: more⟩
      ⟨[⟨s.atEmpty, .n .empty, ()⟩], xs ++ stop :: more⟩ :=
    .reduce_rule production_empty hnext.1 rfl rfl htarget'
  exact .head hnone (.head (hmake hnext.2 (hmoved ▸ hg.enters hinto)) hend)

end Span

end Automaton
end Docblock
