import Docblock.Proofs.Token.Lexing

/-! What a filter does with the tokens of its lexer, one after another. -/
namespace Docblock.Filter

open Token

variable {f g h : Filter} {ts us : List Token} {last last' : Option Kind} {k k' : Kind}

/-- What a filter leaves out, and the memory then. -/
theorem fate_dropped (h : fate last k = .dropped last') :
    k = .whitespace ∧ last' = last ∨ k = .openTag ∨
      k = .closeTag ∧ endsStatement last = true ∧ last' = last := by
  simp only [fate] at h
  split at h
  · cases h
    exact Or.inl ⟨rfl, rfl⟩
  · exact Or.inr (Or.inl rfl)
  · cases h
  · split at h <;> cases h
    exact Or.inr (Or.inr ⟨rfl, ‹_›, rfl⟩)
  · cases h

/-- What a filter hands on is a tag that it makes a word or a semicolon, or it stays as it is. -/
theorem fate_emitted (h : fate last k = .emitted k') :
    k' = k ∨ k = .openTagWithEcho ∧ k' = .kwEcho ∨ k = .closeTag ∧ k' = .semi := by
  simp only [fate] at h
  split at h
  · cases h
  · cases h
  · cases h
    exact Or.inr (Or.inl ⟨rfl, rfl⟩)
  · split at h <;> cases h
    exact Or.inr (Or.inr ⟨rfl, rfl⟩)
  · cases h
    exact Or.inl rfl

/-- It makes no token but an echo and a semicolon. -/
theorem emitted_eq {t : Token} (h : fate last t.kind = .emitted k) :
    { t with kind := k } = t ∨ k ∈ [.kwEcho, .semi] := by
  obtain rfl | ⟨-, rfl⟩ | ⟨-, rfl⟩ := fate_emitted h
  · exact Or.inl rfl
  · exact Or.inr (by simp)
  · exact Or.inr (by simp)

/-- More calls of the lexer than characters change nothing. -/
theorem nextFor_eq {fuel fuel' : Nat} (h : f.lexer.rest.length < fuel)
    (h' : f.lexer.rest.length < fuel') : nextFor fuel f = nextFor fuel' f := by
  induction fuel generalizing f fuel' with
  | zero => omega
  | succ fuel ih =>
    obtain ⟨fuel', rfl⟩ : ∃ k, fuel' = k + 1 := ⟨fuel' - 1, by omega⟩
    rw [nextFor, nextFor]
    cases hn : f.lexer.next with
    | finished | failed => rfl
    | token t l =>
      have hl := Lexer.next_token_length hn
      dsimp only
      cases fate f.last t.kind with
      | dropped last => exact ih (f := ⟨l, last⟩) (by dsimp only; omega) (by dsimp only; omega)
      | emitted k => rfl

/-- A call for a token, by the first call of the lexer. -/
theorem next_eq (f : Filter) :
    f.next = match f.lexer.next with
      | .finished l => .finished ⟨l, none⟩
      | .failed e l => .failed e ⟨l, f.last⟩
      | .token t l => match fate f.last t.kind with
        | .dropped last => next ⟨l, last⟩
        | .emitted k => .token { t with kind := k } ⟨l, some k⟩ := by
  rw [next, nextFor]
  cases hn : f.lexer.next with
  | finished | failed => rfl
  | token t l =>
    have hl := Lexer.next_token_length hn
    dsimp only
    cases fate f.last t.kind with
    | dropped last => exact nextFor_eq (f := ⟨l, last⟩) hl (Nat.lt_succ_self _)
    | emitted k => rfl

/-- A token that is handed on takes a character. -/
theorem next_token_length {t : Token} (h : f.next = .token t g) :
    g.lexer.rest.length < f.lexer.rest.length := by
  induction hk : f.lexer.rest.length using Nat.strongRecOn generalizing f with
  | ind k ih =>
    rw [next_eq] at h
    cases hn : f.lexer.next with
    | finished | failed =>
      rw [hn] at h
      cases h
    | token u l =>
      have hl := hk ▸ Lexer.next_token_length hn
      simp only [hn] at h
      split at h
      · exact Nat.lt_trans (ih _ hl h rfl) hl
      · cases h
        exact hl

/-- The tokens of a filter, call by call. -/
theorem stream_next (f : Filter) :
    f.stream = match f.next with
      | .token t g => .cons t g g.stream
      | .finished g => .finished g
      | .failed e g => .failed e g := by
  rw [stream, Stream.ofCalls]
  cases hn : f.next with
  | finished | failed => rfl
  | token t g =>
    exact congrArg (Stream.cons t g) (Stream.ofCalls_eq next_token_length (next_token_length hn)
      (Nat.lt_succ_self _))

/-- The tokens of a filter, by the calls of the lexer. -/
theorem stream_eq (f : Filter) :
    f.stream = match f.lexer.next with
      | .finished l => .finished ⟨l, none⟩
      | .failed e l => .failed e ⟨l, f.last⟩
      | .token t l => match fate f.last t.kind with
        | .dropped last => stream ⟨l, last⟩
        | .emitted k => .cons { t with kind := k } ⟨l, some k⟩ (stream ⟨l, some k⟩) := by
  rw [stream_next, next_eq]
  cases f.lexer.next with
  | finished | failed => rfl
  | token t l =>
    dsimp only
    cases fate f.last t.kind with
    | dropped last => exact (stream_next _).symm
    | emitted k => rfl

/-- What a machine with one memory hands on of some tokens, each with its text, line and
position. -/
def transduce (last : Option Kind) : List Token → List Token
  | [] => []
  | t :: ts =>
    match fate last t.kind with
    | .dropped last' => transduce last' ts
    | .emitted k => { t with kind := k } :: transduce (some k) ts

/-- The tokens of a filter are those that the machine hands on of the tokens of the lexer, and no
error of the lexer is left out. -/
theorem stream_lexer (f : Filter) :
    f.stream.tokens = transduce f.last f.lexer.stream.tokens ∧
      f.stream.error? = f.lexer.stream.error? := by
  induction hk : f.lexer.rest.length using Nat.strongRecOn generalizing f with
  | ind k ih =>
    rw [stream_eq, Lexer.stream_eq]
    cases hn : f.lexer.next with
    | finished | failed => exact ⟨rfl, rfl⟩
    | token t l =>
      have hl := hk ▸ Lexer.next_token_length hn
      dsimp only
      rw [Stream.tokens, transduce]
      cases fate f.last t.kind with
      | dropped last => exact ih _ hl ⟨l, last⟩ rfl
      | emitted k =>
        obtain ⟨htokens, herror⟩ := ih _ hl ⟨l, some k⟩ rfl
        exact ⟨congrArg _ htokens, herror⟩

/-- Calls of the lexer, with the tokens among them that are handed on. -/
inductive Reads : Filter → List Token → Filter → Prop
  | refl (f : Filter) : Reads f [] f
  | skip {f g : Filter} {u : Token} {l : Lexer} {last : Option Kind} {ts : List Token}
      (h : f.lexer.next = .token u l) (hp : fate f.last u.kind = .dropped last)
      (hr : Reads ⟨l, last⟩ ts g) : Reads f ts g
  | hand {f g : Filter} {u : Token} {l : Lexer} {k : Kind} {ts : List Token}
      (h : f.lexer.next = .token u l) (hp : fate f.last u.kind = .emitted k)
      (hr : Reads ⟨l, some k⟩ ts g) : Reads f ({ u with kind := k } :: ts) g

/-- Reading some tokens and then more goes through a filter in between. -/
theorem reads_append (hr : Reads f (ts ++ us) h) : ∃ g, Reads f ts g ∧ Reads g us h := by
  generalize hw : ts ++ us = ws at hr
  induction hr generalizing ts with
  | refl f =>
    obtain ⟨rfl, rfl⟩ := List.append_eq_nil_iff.mp hw
    exact ⟨f, .refl f, .refl f⟩
  | skip h hp _ ih =>
    obtain ⟨g, hg, hu⟩ := ih hw
    exact ⟨g, .skip h hp hg, hu⟩
  | @hand f h u l k ws hn hp hr ih =>
    cases ts with
    | nil =>
      cases hw
      exact ⟨f, .refl f, .hand hn hp hr⟩
    | cons t' ts =>
      cases hw
      obtain ⟨g, hg, hu⟩ := ih rfl
      exact ⟨g, .hand hn hp hg, hu⟩

theorem Reads.trans (hf : Reads f ts g) (hg : Reads g us h) : Reads f (ts ++ us) h := by
  induction hf with
  | refl => exact hg
  | skip h hp _ ih => exact .skip h hp (ih hg)
  | hand h hp _ ih => exact .hand h hp (ih hg)

/-- What is read is the start of the stream, and the stream goes on behind it. -/
theorem reads_stream (hr : Reads f ts g) :
    f.stream.tokens = ts ++ g.stream.tokens ∧ f.stream.error? = g.stream.error? ∧
      f.stream.final = g.stream.final := by
  induction hr with
  | refl => exact ⟨rfl, rfl, rfl⟩
  | skip h hp _ ih =>
    rw [stream_eq, h]
    simpa only [hp] using ih
  | hand h hp _ ih =>
    rw [stream_eq, h]
    simp only [hp, Stream.tokens, Stream.error?, Stream.final, List.cons_append]
    exact ⟨congrArg _ ih.1, ih.2⟩

/-- A stream without an error is read up to the call that finds the end. -/
theorem stream_reads (he : f.stream.error? = none) :
    ∃ g l, Reads f f.stream.tokens g ∧ g.lexer.next = .finished l ∧
      f.stream.final = ⟨l, none⟩ := by
  induction hk : f.lexer.rest.length using Nat.strongRecOn generalizing f with
  | ind k ih =>
    rw [stream_eq] at he ⊢
    cases hn : f.lexer.next with
    | finished l => exact ⟨f, l, .refl f, hn, rfl⟩
    | failed e l =>
      simp only [hn] at he
      cases he
    | token u l =>
      have hl := Lexer.next_token_length hn
      simp only [hn] at he ⊢
      split
      · rename_i last hp
        simp only [hp] at he
        obtain ⟨g, l', hr, hg⟩ := ih _ (hk ▸ hl) he rfl
        exact ⟨g, l', .skip hn hp hr, hg⟩
      · rename_i k hp
        simp only [hp, Stream.error?] at he
        obtain ⟨g, l', hr, hg⟩ := ih _ (hk ▸ hl) he rfl
        exact ⟨g, l', .hand hn hp hr, hg⟩

end Docblock.Filter
