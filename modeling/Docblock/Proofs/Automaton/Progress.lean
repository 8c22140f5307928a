import Docblock.Proofs.Automaton.Origin
import Docblock.Proofs.Grammar.Size

/-! Every run ends within the steps it is given, and never because the tables are at fault. -/
namespace Docblock.Automaton

open Token Grammar

variable {Reader : Type} {file : Option String} {stack : List Frame} {s : Stream Reader}
  {read : List Token} {n k q : Nat}

/-- The states to which a symbol without tokens leads from a state. -/
def Row.silent (r : Row) : List Nat :=
  r.edges.flatMap fun g => (groupAt g).filterMap fun e =>
    if e.1.emptySize.isSome then some e.2 else none

def silent (q : Nat) : List Nat := ((paged? rows q).map Row.silent).getD []

/-- Whether at most `k` symbols without tokens can follow each other from a state on. -/
def still : Nat → Nat → Bool
  | 0, q => (silent q).isEmpty
  | k + 1, q => (silent q).all (still k)

theorem rows_still : (rows.all fun page => page.all fun r => r.silent.all (still 2)) = true := by
  decide +kernel

theorem still_three (q : Nat) : still 3 q = true := by
  simp only [still, silent]
  cases hr : paged? rows q with
  | none => rfl
  | some r =>
    obtain ⟨page, hp, hr⟩ := Option.bind_eq_some_iff.mp hr
    exact List.all_eq_true.mp (List.all_eq_true.mp rows_still page (List.mem_of_getElem? hp)) r
      (List.mem_of_getElem? hr)

theorem mem_silent {x : Nat} {sym : Symbol} (h : target? q sym = some x)
    (he : sym.emptySize.isSome = true) : x ∈ silent q := by
  obtain ⟨r, g, es, hr, hg, hes, hx⟩ := target?_eq_some h
  simp only [silent, hr, Option.map_some, Option.getD_some, Row.silent, List.mem_flatMap]
  refine ⟨g, hg, List.mem_filterMap.mpr ⟨(sym, x), ?_, by simp [he]⟩⟩
  simpa [groupAt, hes] using hx

/-- A symbol without tokens takes one off the number of those that can follow. -/
theorem still_target? {x : Nat} {sym : Symbol} (hs : still k q = true)
    (h : target? q sym = some x) (he : sym.emptySize.isSome = true) :
    ∃ j, k = j + 1 ∧ still j x = true := by
  have hx := mem_silent h he
  cases k with
  | zero =>
    simp only [still, List.isEmpty_iff] at hs
    simp [hs] at hx
  | succ j => exact ⟨j, rfl, List.all_eq_true.mp hs x hx⟩

theorem emptySize_singleton {sym : Symbol} {m : Nat} (h : emptySize [sym] = some m) :
    sym.emptySize = some m ∧ m ≤ 3 := by
  have hle : ∀ v : Nonterminal, v.emptySize.all (· ≤ 3) = true := by
    intro v
    cases v <;> rfl
  cases sym with
  | t k => cases h
  | n v =>
    have hv : v.emptySize = some m := by simpa [emptySize, Symbol.emptySize] using h
    exact ⟨hv, by simpa [hv] using hle v⟩

theorem firstSize_singleton (sym : Symbol) : firstSize [sym] ≤ 11 := by
  cases sym with
  | t k => exact Nat.zero_le 11
  | n v => cases v <;> decide

/-- The productions on a built stack are bounded by the tokens read. Between two tokens at most
three symbols without tokens stand, of at most three productions each. -/
theorem built_bound (hb : Built file 0 stack read n) :
    ∃ k ≤ 3, still k (stateOf stack) = true ∧ n + 3 * k ≤ 21 * read.length + 9 := by
  induction hb with
  | nil => exact ⟨3, Nat.le_refl 3, still_three 0, Nat.le_refl 9⟩
  | @push below ts n f tree hb he hv ih =>
    obtain ⟨k, hk, hs, hle⟩ := ih
    rw [List.length_append]
    by_cases hy : tree.yield = []
    · obtain ⟨m, hm, hsize⟩ := tree.size_of_yield_nil hy
      obtain ⟨hsym, hm3⟩ := emptySize_singleton hm
      obtain ⟨j, rfl, hj⟩ := still_target? hs he (by simp [hsym])
      refine ⟨j, by omega, hj, ?_⟩
      rw [hy, List.length_nil]
      omega
    · have hsize := tree.size_of_yield hy
      have hfirst := firstSize_singleton f.symbol
      have hlen : tree.yield.length ≠ 0 := fun h => hy (List.length_eq_zero_iff.mp h)
      exact ⟨3, Nat.le_refl 3, still_three _, by omega⟩

/-- A run with enough steps stops on a built stack, with the same tokens read and left. -/
theorem run_stops (fuel : Nat) (hb : Built file 0 stack read n)
    (hf : 22 * (read ++ s.tokens).length + 9 < fuel + read.length + n) :
    ∃ stack' read' n' s', Built file 0 stack' read' n' ∧
      read' ++ s'.tokens = read ++ s.tokens ∧ s'.error? = s.error? ∧
      Stop file stack' s' (run file fuel stack s) := by
  induction fuel generalizing stack s read n with
  | zero =>
    obtain ⟨k, -, -, hle⟩ := built_bound hb
    rw [List.length_append] at hf
    omega
  | succ fuel ih =>
    obtain ⟨stack', s', hstep, he⟩ | hstop := run_succ file fuel stack s
    · obtain ⟨read', n', hb', hread, herr, -, hcount⟩ := step_built hstep hb
      rw [he]
      obtain ⟨stack'', read'', n'', s'', hb'', hread', herr', hstop⟩ :=
        ih hb' (by rw [hread]; omega)
      exact ⟨stack'', read'', n'', s'', hb'', hread'.trans hread, herr'.trans herr, hstop⟩
    · exact ⟨stack, read, n, s, hb, rfl, rfl, hstop⟩

/-- Why a source cannot be read: the error at the end of its tokens, a token or an end that does
not fit, or a token that has no value. -/
theorem parse_error {e : ParseError} {r : Reader} (h : s.parse file = (.error e, r)) :
    (∃ l, e = .lexical l ∧ s.error? = some l) ∨ (∃ t ∈ s.tokens, e = .unexpected t) ∨
      e = .unexpectedEnd ∨ ∃ f, e = .fault f ∧ ∃ t ∈ s.tokens, faultAs t t.kind = some f := by
  have hfuel : 22 * s.tokens.length + 9 < enough s.tokens.length := by
    rw [enough]
    omega
  obtain ⟨stack, read, n, s', hb, hread, herr, hstop⟩ :=
    run_stops (enough s.tokens.length) (Built.nil : Built file 0 [] [] 0) hfuel
  rw [Stream.parse] at h
  rw [h] at hstop
  generalize hres : ((Except.error e : Except ParseError (List Tree)), r) = res at hstop
  cases hstop with
  | lexical =>
    cases hres
    exact Or.inl ⟨_, rfl, herr.symm⟩
  | accept ha =>
    obtain ⟨ts, hts⟩ := result_built_ok hb ha
    rw [hts] at hres
    cases hres
  | early =>
    cases hres
    exact Or.inr (Or.inr (Or.inl rfl))
  | @reject t r rest ha =>
    cases hres
    have ht : t ∈ [] ++ s.tokens := hread ▸ List.mem_append_right read List.mem_cons_self
    exact Or.inr (Or.inl ⟨t, ht, rfl⟩)
  | unreduced ha hr =>
    cases hres
    obtain ⟨f, rfl, t, ht, hf⟩ := reduce_built_error hb ha hr
    have ht' : t ∈ [] ++ s.tokens := hread ▸ List.mem_append_left s'.tokens ht
    exact Or.inr (Or.inr (Or.inr ⟨f, rfl, t, ht', hf⟩))

end Docblock.Automaton
