import Docblock.Proofs.Automaton.Region

/-! What is read above one state is read alike above another, and before another token. -/
namespace Docblock.Automaton

open Token Grammar

variable {file : Option String} {b b' p q x : Nat} {up below : List Frame} {f : Frame}
  {ts : List Token} {a : Ahead} {moved : List (Nat × Nat)} {ss : List Symbol}

theorem Move.frames_ne_nil {c c' : Config} (h : Move file b c c') : c'.frames ≠ [] := by
  cases h <;> simp

theorem Move.action_ne_reject {c : Config} (h : Move file b ⟨up, ts⟩ c) :
    actionOn (topState b up) (ahead ts) ≠ .reject := by
  cases h with
  | @shift _ t _ _ h =>
    change actionAt (topState b up) t.kind ≠ .reject
    simp [h]
  | reduce h => simp [h]

/-- The state that takes the place of another, if one does. -/
def moveTo (moved : List (Nat × Nat)) (x : Nat) : Nat := (moved.lookup x).getD x

theorem moveTo_cases (moved : List (Nat × Nat)) (x : Nat) :
    moveTo moved x = x ∨ (x, moveTo moved x) ∈ moved := by
  rw [moveTo]
  cases h : moved.lookup x with
  | none => exact Or.inl rfl
  | some y =>
    obtain ⟨before, later, rfl, -⟩ := List.lookup_eq_some_iff.mp h
    exact Or.inr (by simp)

/-- Frames in which another state takes the place of the lowest one. -/
def relocate (moved : List (Nat × Nat)) : List Frame → List Frame
  | [] => []
  | [f] => [⟨moveTo moved f.state, f.symbol, f.value⟩]
  | f :: g :: up => f :: relocate moved (g :: up)

theorem relocate_cons (moved : List (Nat × Nat)) (f : Frame) (up : List Frame) :
    ∃ q, relocate moved (f :: up) = ⟨q, f.symbol, f.value⟩ :: relocate moved up := by
  cases up with
  | nil => exact ⟨_, rfl⟩
  | cons g up => exact ⟨f.state, rfl⟩

theorem relocate_above (moved : List (Nat × Nat)) (f : Frame) (h : up ≠ []) :
    relocate moved (f :: up) = f :: relocate moved up := by
  cases up with
  | nil => exact absurd rfl h
  | cons g up => rfl

/-- What is taken off does not depend on the states. -/
theorem take_relocate {vs : Values ss} (h : take ss up = some (vs, below)) :
    take ss (relocate moved up) = some (vs, relocate moved below) := by
  induction ss generalizing below with
  | nil =>
    cases h
    rfl
  | cons s ss ih =>
    obtain ⟨v, vs⟩ := vs
    obtain ⟨f, ht, rfl, rfl⟩ := take_cons h
    obtain ⟨q, hq⟩ := relocate_cons moved f below
    simp [take, ih ht, hq]

/-- The state on top is another one only where a single frame stands. -/
theorem topState_relocate (moved : List (Nat × Nat)) (b b' : Nat) (h : up ≠ []) :
    topState b' (relocate moved up) = topState b up ∨
      ∃ f, up = [f] ∧ (f.state, topState b' (relocate moved up)) ∈ moved := by
  cases up with
  | nil => exact absurd rfl h
  | cons f up =>
    cases up with
    | nil =>
      obtain hsame | hmoved := moveTo_cases moved f.state
      · exact Or.inl hsame
      · exact Or.inr ⟨f, rfl, hmoved⟩
    | cons g up => exact Or.inl rfl

/-- Whether nothing is shifted in a state, and nothing reduced with fewer than three symbols. -/
def dead (q : Nat) : Bool :=
  (paged? rows q).all fun r => r.edges.isEmpty &&
    r.reductions.all fun e => productions[e.1]?.all fun pr => 3 ≤ pr.rhs.length

/-- Whether an action on a single frame above a state leads to where no move is left. -/
def idle (b : Nat) (a : Ahead) : Action → Bool
  | .shift q => dead q
  | .reduce p => productions[p]?.all fun pr => pr.rhs.length == 1 &&
      (target? b (.n pr.lhs)).all fun q => actionOn q a == .reject
  | _ => true

theorem not_move_dead {f g : Frame} {c : Config} (h : dead g.state = true) :
    ¬ Move file b ⟨[g, f], ts⟩ c := by
  intro hm
  cases hm with
  | shift hs =>
    obtain ⟨row, group, es, hrow, hgroup, -, -⟩ := target?_eq_some (target?_of_shift hs)
    change paged? rows g.state = some row at hrow
    simp only [dead, hrow, Option.all_some, Bool.and_eq_true, List.isEmpty_iff] at h
    simp [h.1] at hgroup
  | @reduce _ below _ p q pr vs v hr hp ht hv hq =>
    obtain ⟨row, hrow, e, he, rfl⟩ := row_of_reduce hr
    change paged? rows g.state = some row at hrow
    simp only [dead, hrow, Option.all_some, Bool.and_eq_true, List.all_eq_true] at h
    have hlong := h.2 e he
    simp only [hp, Option.all_some, decide_eq_true_eq] at hlong
    have hlen := length_of_take ht
    simp only [List.length_cons, List.length_nil] at hlen
    omega

/-- Where an action on a single frame is idle, nothing follows it. -/
theorem not_move_idle {c d : Config}
    (hidle : idle b (ahead ts) (actionOn f.state (ahead ts)) = true)
    (h : Move file b ⟨[f], ts⟩ c) : ¬ Move file b c d := by
  cases h with
  | @shift _ t ts q h =>
    change actionOn f.state (ahead (t :: ts)) = .shift q at h
    rw [h] at hidle
    exact not_move_dead hidle
  | @reduce _ below _ p q pr vs v h hp ht hv hq =>
    change actionOn f.state (ahead ts) = .reduce p at h
    rw [h] at hidle
    simp only [idle, hp, Option.all_some, Bool.and_eq_true, beq_iff_eq] at hidle
    have hlen := length_of_take ht
    rw [List.length_singleton, hidle.1] at hlen
    obtain rfl : below = [] := List.length_eq_zero_iff.mp (by omega)
    change target? b (.n pr.lhs) = some q at hq
    obtain ⟨-, hreject⟩ := hidle
    rw [hq, Option.all_some, beq_iff_eq] at hreject
    exact fun hm => hm.action_ne_reject hreject

/-- One state can take the place of another below what is read: the nonterminals lead on alike from
it, but for the states that move with it, and these act alike where a move follows. -/
structure Graft (b b' : Nat) (moved : List (Nat × Nat)) : Prop where
  enters : ∀ {v : Nonterminal} {q : Nat}, target? b (.n v) = some q →
    target? b' (.n v) = some (moveTo moved q)
  leads : ∀ {x y : Nat}, (x, y) ∈ moved → ∀ {v : Nonterminal} {q : Nat},
    target? x (.n v) = some q → target? y (.n v) = some q
  acts : ∀ {x y : Nat}, (x, y) ∈ moved → ∀ a, actionOn y a = actionOn x a ∨
    idle b a (actionOn x a) = true

theorem Graft.action (hg : Graft b b' moved) {c d : Config} (hup : up ≠ [])
    (h : Move file b ⟨up, ts⟩ c) (hnext : Move file b c d) :
    actionOn (topState b' (relocate moved up)) (ahead ts) =
      actionOn (topState b up) (ahead ts) := by
  obtain hsame | ⟨f, rfl, hmoved⟩ := topState_relocate moved b b' hup
  · rw [hsame]
  · obtain hacts | hidle := hg.acts hmoved (ahead ts)
    · exact hacts
    · exact absurd hnext (not_move_idle hidle h)

/-- A move that another one follows is made alike above the other state. -/
theorem Graft.move (hg : Graft b b' moved) {c d : Config} (hup : up ≠ [])
    (h : Move file b ⟨up, ts⟩ c) (hnext : Move file b c d) :
    Move file b' ⟨relocate moved up, ts⟩ ⟨relocate moved c.frames, c.tokens⟩ := by
  have haction := hg.action hup h hnext
  cases h with
  | @shift _ t ts q h =>
    rw [relocate_above moved _ hup]
    exact .shift (haction.trans h)
  | @reduce _ below _ p q pr vs v h hp ht hv hq =>
    rw [h] at haction
    by_cases hbelow : below = []
    · subst hbelow
      exact .reduce haction hp (take_relocate ht) hv (hg.enters hq)
    · rw [relocate_above moved _ hbelow]
      refine .reduce haction hp (take_relocate ht) hv ?_
      obtain hsame | ⟨g, rfl, hmoved⟩ := topState_relocate moved b b' hbelow
      · rwa [hsame]
      · exact hg.leads hmoved hq

/-- What is read above a state is read alike above the other one, up to where a move follows. -/
theorem Graft.moves (hg : Graft b b' moved) {c c' : Config} (hc : c.frames ≠ [])
    (h : Moves file b c c') (hnext : ∃ d, Move file b c' d) :
    Moves file b' ⟨relocate moved c.frames, c.tokens⟩
      ⟨relocate moved c'.frames, c'.tokens⟩ := by
  induction h with
  | refl => exact .refl
  | @tail c₁ c₂ h hm ih =>
    obtain ⟨d, hd⟩ := hnext
    refine (ih ⟨c₂, hm⟩).tail ?_
    have hne : c₁.frames ≠ [] := by
      obtain rfl | ⟨c₀, -, hlast⟩ := h.cases_tail
      · exact hc
      · exact hlast.frames_ne_nil
    exact hg.move hne hm hd

theorem ctorIdx_lt (k : Kind) : k.ctorIdx < 160 := by
  cases k <;> decide

/-- Everything that can come next. -/
def aheads : List Ahead := none :: (List.range 160).map fun i => some (Kind.ofNat i)

theorem mem_aheads (a : Ahead) : a ∈ aheads := by
  cases a with
  | none => exact List.mem_cons_self
  | some k =>
    refine List.mem_cons_of_mem _ (List.mem_map.mpr ⟨k.ctorIdx, ?_, ?_⟩)
    · exact List.mem_range.mpr (ctorIdx_lt k)
    · rw [k.ofNat_ctorIdx]

/-- The edges of a state. -/
def edgesOf (q : Nat) : List (Symbol × Nat) :=
  (paged? rows q).elim [] fun r => r.edges.flatMap groupAt

theorem mem_edgesOf {s : Symbol} (h : target? q s = some x) : (s, x) ∈ edgesOf q := by
  obtain ⟨row, g, es, hrow, hg, hes, hmem⟩ := target?_eq_some h
  rw [edgesOf, hrow, Option.elim_some]
  exact List.mem_flatMap.mpr ⟨g, hg, by simpa [groupAt, hes] using hmem⟩

/-- The groups of edges that a state shares with another, in order. -/
def Row.shared (r r' : Row) : List Nat := r.edges.filter r'.edges.contains

/-- The tokens in the groups of edges that a state does not share with another. -/
def Row.ownKinds (r r' : Row) : List Ahead :=
  (r.edges.filter fun g => !r'.edges.contains g).flatMap fun g => (groupAt g).map fun e =>
    match e.1 with
    | .t k => some k
    | .n _ => none

/-- What comes next where two states may differ in what they do. -/
def suspects (x y : Nat) : List Ahead :=
  match paged? rows x, paged? rows y with
  | some r, some r' =>
    if r.reductions = r'.reductions ∧ r.shared r' = r'.shared r then
      none :: (r.ownKinds r' ++ r'.ownKinds r)
    else aheads
  | _, _ => aheads

theorem findSome?_shared {r r' : Row} {k : Kind} (h : some k ∉ r.ownKinds r') :
    (r.edges.findSome? fun g => (paged? edgeGroups g).bind (·.lookup (.t k))) =
      (r.shared r').findSome? fun g => (paged? edgeGroups g).bind (·.lookup (.t k)) := by
  rw [Row.shared]
  rw [Row.ownKinds] at h
  generalize r.edges = gs at h ⊢
  induction gs with
  | nil => rfl
  | cons g gs ih =>
    by_cases hg : r'.edges.contains g = true
    · simp only [List.filter_cons, hg, Bool.not_true, Bool.false_eq_true, ↓reduceIte] at h ⊢
      simp only [List.findSome?_cons, ih h]
    · simp only [List.filter_cons, hg, Bool.not_false, Bool.false_eq_true, ↓reduceIte,
        List.flatMap_cons, List.mem_append, not_or] at h ⊢
      have hnone : ((paged? edgeGroups g).bind (·.lookup (Symbol.t k))) = none := by
        cases hes : paged? edgeGroups g with
        | none => rfl
        | some es =>
          rw [Option.bind_some, List.lookup_eq_none_iff]
          intro e he
          rw [bne_iff_ne]
          intro hk
          refine h.1 (List.mem_map.mpr ⟨e, by simpa [groupAt, hes] using he, ?_⟩)
          rw [← hk]
      rw [List.findSome?_cons, hnone]
      exact ih h.2

theorem actionOn_of_not_suspect {y : Nat} (h : a ∉ suspects x y) :
    actionOn y a = actionOn x a := by
  rw [suspects] at h
  split at h
  · rename_i r r' hr hr'
    split at h
    · rename_i hsame
      obtain ⟨hreductions, hshared⟩ := hsame
      cases a with
      | none => exact absurd List.mem_cons_self h
      | some k =>
        simp only [List.mem_cons, List.mem_append, not_or] at h
        have htarget : target? y (.t k) = target? x (.t k) := by
          simp only [target?, hr, hr', Option.bind_some]
          rw [findSome?_shared h.2.1, findSome?_shared h.2.2, hshared]
        have hreduction : reduction? y (some k) = reduction? x (some k) := by
          simp only [reduction?, hr, hr', Option.bind_some, Row.reduction?, hreductions]
        simp only [actionOn, actionAt, htarget, hreduction]
    · exact absurd (mem_aheads a) h
  · exact absurd (mem_aheads a) h

/-- Whether each nonterminal that leads on from a state does so from another, to the state that
takes the place of the first. -/
def leadsAlike (moved : List (Nat × Nat)) (q q' : Nat) : Bool :=
  (edgesOf q).all fun e => match e.1 with
    | .t _ => true
    | .n _ => target? q' e.1 == some (moveTo moved e.2)

def grafts (b b' : Nat) (moved : List (Nat × Nat)) : Bool :=
  leadsAlike moved b b' && moved.all fun e => leadsAlike [] e.1 e.2 &&
    (suspects e.1 e.2).all fun a => actionOn e.2 a == actionOn e.1 a || idle b a (actionOn e.1 a)

theorem target?_of_leadsAlike {q' : Nat} {v : Nonterminal} (h : leadsAlike moved q q' = true)
    (hx : target? q (.n v) = some x) : target? q' (.n v) = some (moveTo moved x) := by
  simpa using List.all_eq_true.mp h _ (mem_edgesOf hx)

theorem graft_of_grafts (h : grafts b b' moved = true) : Graft b b' moved := by
  simp only [grafts, Bool.and_eq_true, List.all_eq_true, Bool.or_eq_true, beq_iff_eq] at h
  obtain ⟨henters, hmoved⟩ := h
  refine ⟨target?_of_leadsAlike henters, fun hxy => ?_, fun {x y} hxy a => ?_⟩
  · exact target?_of_leadsAlike (hmoved _ hxy).1
  · by_cases ha : a ∈ suspects x y
    · exact (hmoved _ hxy).2 a ha
    · exact Or.inl (actionOn_of_not_suspect ha)

/-- Whether a state reduces nothing, and shifts tokens as another does, to the states that take the
place of those behind them. -/
def startsAlike (moved : List (Nat × Nat)) (b b' : Nat) : Bool :=
  (paged? rows b).all (·.reductions.isEmpty) && (edgesOf b).all fun e => match e.1 with
    | .t k => actionAt b' k == .shift (moveTo moved e.2)
    | .n _ => true

/-- What starts above a state and is read there is read alike above the other one. -/
theorem Graft.moves_start (hg : Graft b b' moved) (hs : startsAlike moved b b' = true)
    {c : Config} (h : Moves file b ⟨[], ts⟩ c) (hc : c.frames ≠ [])
    (hnext : ∃ d, Move file b c d) :
    Moves file b' ⟨[], ts⟩ ⟨relocate moved c.frames, c.tokens⟩ := by
  simp only [startsAlike, Bool.and_eq_true, List.all_eq_true] at hs
  obtain ⟨hreductions, hshifts⟩ := hs
  obtain rfl | ⟨c₁, hm, h⟩ := h.cases_head
  · exact absurd rfl hc
  cases hm with
  | @shift _ t ts q hshift =>
    have hother := hshifts _ (mem_edgesOf (target?_of_shift hshift))
    simp only [beq_iff_eq] at hother
    exact .head (.shift hother) (hg.moves (by simp) h hnext)
  | reduce hr =>
    obtain ⟨row, hrow, e, he, -⟩ := row_of_reduce hr
    change paged? rows b = some row at hrow
    rw [hrow, Option.all_some, List.isEmpty_iff] at hreductions
    simp [hreductions] at he

/-- The nonterminals that can be made of nothing. -/
def vanishing : List Nonterminal := [
  .topStatements, .innerStatements, .moreCatches, .elseifs, .elsePart, .colonElseifs, .colonElse,
  .forExprs, .foreachTarget, .cases, .isReference, .parameters, .extendsClause, .implementsClause,
  .interfaceExtends, .classStatements, .methodModifiers, .listTarget, .arrayPairs, .possibleComma,
  .arguments, .constructorArguments, .closureVars, .dynamicProperties, .methodArguments,
  .properties, .dimension, .dimensions, .staticPairs, .encapsList]

theorem mem_vanishing {pr : Production} (hp : productions[p]? = some pr)
    (h : pr.rhs = [.n .empty]) : pr.lhs ∈ vanishing := by
  have hall : (productions.all fun pr => pr.rhs != [.n .empty] || vanishing.contains pr.lhs) =
      true := by decide +kernel
  have hone := List.all_eq_true.mp hall pr (List.mem_of_getElem? hp)
  simpa [h] using hone

/-- A token ahead, the tokens that may take its place, and the symbols and states that can be on
top when it comes next. -/
structure Ending where
  after : Kind
  instead : List Kind
  symbols : List Symbol
  states : List Nat

namespace Ending

variable {e : Ending}

/-- Whether a state can be on top when the token comes next. -/
def tails (e : Ending) (q : Nat) : Bool :=
  e.states.contains q || (symbolInto q).any e.symbols.contains

/-- Whether such a state can stand behind a nonterminal. -/
def tailsBy (e : Ending) (v : Nonterminal) : Bool :=
  e.symbols.contains (.n v) || e.states.any fun q => symbolInto q == some (.n v)

/-- Whether an edge leads to such a state by a nonterminal that can be made of nothing. -/
def tailEdge (e : Ending) (d : Symbol × Nat) : Bool := match d.1 with
  | .t _ => false
  | .n v => vanishing.contains v && e.tails d.2

/-- Whether a state reduces a production before each of the other tokens. -/
def alike (e : Ending) (q p : Nat) : Bool := e.instead.all fun k => actionAt q k == .reduce p

/-- Whether a state that reduces something before the token also does so before the others, if a
state on top follows. -/
def rowFits (e : Ending) (q : Nat) (r : Row) : Bool :=
  match r.reduction? (some e.after) with
  | none => true
  | some p => actionAt q e.after != .reduce p ||
      (paged? (pagesOf productions 12) p).any fun pr =>
        (!e.tailsBy pr.lhs || e.alike q p && (e.tails q || pr.rhs == [.n .empty])) &&
        (pr.lhs != .empty || pr.rhs.isEmpty &&
          (!(r.edges.any fun g => (groupAt g).any e.tailEdge) || e.alike q p && e.tails q))

def Fits (e : Ending) : Prop := pagedAll e.rowFits rows = true

/-- The state on top can be there when the token comes next, or will be when a nonterminal has been
made of nothing. -/
def Tail (e : Ending) (b : Nat) (up : List Frame) : Prop :=
  e.tails (topState b up) = true ∨ ∃ f rest, up = f :: rest ∧ f.symbol = .n .empty ∧
    ∃ v ∈ vanishing, ∃ x, target? (topState b rest) (.n v) = some x ∧ e.tails x = true

theorem tailsBy_of_target? {v : Nonterminal} (hx : target? q (.n v) = some x)
    (h : e.tails x = true) : e.tailsBy v = true := by
  obtain ⟨hinto, -⟩ := origin_of_target? hx
  simp only [tails, hinto, Option.any_some, Bool.or_eq_true, List.contains_iff_mem] at h
  simp only [tailsBy, Bool.or_eq_true, List.contains_iff_mem, List.any_eq_true]
  exact h.elim (fun hs => Or.inr ⟨x, hs, by simp [hinto]⟩) Or.inl

/-- A reduction before the token that leads to where the others can come next is made before them
as well, and from where they can. -/
theorem Fits.reduce (he : e.Fits) {pr : Production} {vs : Values pr.rhs} {v : pr.lhs.Value}
    (h : actionAt (topState b up) e.after = .reduce p) (hp : productions[p]? = some pr)
    (ht : take pr.rhs up = some (vs, below))
    (hq : target? (topState b below) (.n pr.lhs) = some q)
    (htail : e.Tail b (⟨q, .n pr.lhs, v⟩ :: below)) :
    e.Tail b up ∧ ∀ k ∈ e.instead, actionAt (topState b up) k = .reduce p := by
  have hred : reduction? (topState b up) (some e.after) = some p := by
    simp only [actionAt, settle] at h
    grind
  obtain ⟨row, hrow, hr⟩ := Option.bind_eq_some_iff.mp hred
  have hfit := pagedAll_get he hrow
  simp only [rowFits, hr, h, bne_self_eq_false, Bool.false_or] at hfit
  obtain ⟨pr', hpr', hfit⟩ := Option.any_eq_true _ _ |>.mp hfit
  cases hp.symm.trans (getElem?_of_pagesOf hpr')
  simp only [Bool.and_eq_true] at hfit
  obtain ⟨hlast, hnone⟩ := hfit
  have hall : e.alike (topState b up) p = true →
      ∀ k ∈ e.instead, actionAt (topState b up) k = .reduce p :=
    fun halike k hk => by simpa using List.all_eq_true.mp halike k hk
  obtain htop | ⟨f, rest, hup, hf, w, hw, x, hx, htop⟩ := htail
  · have hloose := tailsBy_of_target? hq htop
    simp only [hloose, Bool.not_true, Bool.false_or, Bool.and_eq_true, Bool.or_eq_true,
      beq_iff_eq] at hlast
    obtain ⟨halike, hstate | hempty⟩ := hlast
    · exact ⟨Or.inl hstate, hall halike⟩
    · obtain ⟨fs, rfl, hsymbols, -⟩ := take_split ht
      rw [hempty, List.reverse_singleton, List.map_eq_singleton_iff] at hsymbols
      obtain ⟨g, rfl, hg⟩ := hsymbols
      exact ⟨Or.inr ⟨g, below, rfl, hg, _, mem_vanishing hp hempty, q, hq, htop⟩, hall halike⟩
  · cases hup
    have hlhs : pr.lhs = .empty := by simpa using hf
    simp only [hlhs, bne_self_eq_false, Bool.false_or, Bool.and_eq_true, List.isEmpty_iff,
      Bool.or_eq_true, Bool.not_eq_true'] at hnone
    obtain ⟨hrhs, hnone⟩ := hnone
    obtain ⟨fs, rfl, hsymbols, -⟩ := take_split ht
    rw [hrhs, List.reverse_nil, List.map_eq_nil_iff] at hsymbols
    subst hsymbols
    rw [List.nil_append] at hrow hall h ⊢
    have hedge : (row.edges.any fun g => (groupAt g).any e.tailEdge) = true := by
      obtain ⟨row', g, es, hrow', hg, hes, hmem⟩ := target?_eq_some hx
      cases hrow.symm.trans hrow'
      exact List.any_eq_true.mpr ⟨g, hg, List.any_eq_true.mpr
        ⟨(.n w, x), by simpa [groupAt, hes] using hmem, by simp [tailEdge, hw, htop]⟩⟩
    rw [hedge] at hnone
    obtain ⟨halike, hstate⟩ := hnone.resolve_left (by simp)
    exact ⟨Or.inl hstate, hall halike⟩

/-- What is read up to the token is read alike up to another one that may take its place. -/
theorem Fits.moves (he : e.Fits) {xs more : List Token} {t t' : Token} {goal : List Frame}
    (h : Moves file b ⟨up, xs ++ [t]⟩ ⟨goal, [t]⟩) (ht : t.kind = e.after)
    (hgoal : e.tails (topState b goal) = true) (ht' : t'.kind ∈ e.instead) :
    Moves file b ⟨up, xs ++ t' :: more⟩ ⟨goal, t' :: more⟩ := by
  -- The induction goes back from the end: what must be on top there tells what must be before it.
  suffices hback : ∀ c, Moves file b c ⟨goal, [t]⟩ → ∀ xs, c.tokens = xs ++ [t] →
      Moves file b ⟨c.frames, xs ++ t' :: more⟩ ⟨goal, t' :: more⟩ ∧
        (xs = [] → e.Tail b c.frames) from (hback _ h xs rfl).1
  intro c hc
  induction hc using Relation.ReflTransGen.head_induction_on with
  | refl =>
    intro xs hxs
    obtain rfl : xs = [] := by simpa using hxs
    exact ⟨.refl, fun _ => Or.inl hgoal⟩
  | head hm hrest ih =>
    intro xs hxs
    cases hm with
    | @shift up tok ts q hs =>
      cases xs with
      | nil =>
        obtain ⟨rfl, rfl⟩ := List.cons.inj hxs
        obtain ⟨read, hread, -⟩ := Moves.reads hrest
        simp at hread
      | cons y xs =>
        obtain ⟨rfl, rfl⟩ := List.cons.inj hxs
        exact ⟨.head (.shift hs) (ih xs rfl).1, fun hnil => absurd hnil (by simp)⟩
    | @reduce up below ts p q pr vs v hr hp htake hv hq =>
      subst hxs
      obtain ⟨hmoves, htail⟩ := ih xs rfl
      cases xs with
      | nil =>
        change actionAt (topState b up) t.kind = .reduce p at hr
        rw [ht] at hr
        obtain ⟨hbefore, hall⟩ := he.reduce hr hp htake hq (htail rfl)
        exact ⟨.head (.reduce (hall _ ht') hp htake hv hq) hmoves, fun _ => hbefore⟩
      | cons y xs =>
        exact ⟨.head (.reduce hr hp htake hv hq) hmoves, fun hnil => absurd hnil (by simp)⟩

end Ending
end Docblock.Automaton
