import Docblock.Proofs.Token.Filter

/-! A lexer that does not go back below the modes it has left waiting reads alike above others. -/
namespace Docblock

open Token

variable {base : List Mode} {t : Token}

/-- The lexer with more modes waiting below its own. -/
def Lexer.onto (l : Lexer) (base : List Mode) : Lexer := { l with stack := l.stack ++ base }

/-- What a call gives, with more modes waiting below. -/
def Scan.onto (base : List Mode) : Scan Lexer → Scan Lexer
  | .token t l => .token t (l.onto base)
  | .finished l => .finished (l.onto base)
  | .failed e l => .failed e (l.onto base)

@[simp] theorem Lexer.onto_nil (l : Lexer) : l.onto [] = l := by simp [onto]

@[simp] theorem Scan.onto_nil (s : Scan Lexer) : s.onto [] = s := by
  cases s <;> simp [onto]

namespace Lexer

variable {l l' : Lexer}

theorem onto_onto (l : Lexer) (a b : List Mode) : (l.onto a).onto b = l.onto (a ++ b) := by
  simp [onto]

theorem popThen_onto (h : ∀ m, l.popThen t ≠ .failed .noMode m) :
    (l.onto base).popThen t = (l.popThen t).onto base := by
  cases hs : l.stack with
  | nil => exact absurd (by simp [popThen, pop?, hs]) (h l)
  | cons => simp [popThen, pop?, onto, hs, Scan.onto]

/-- As long as no mode is missing, an effect does not see the modes below. -/
theorem apply_onto {ef : Effect} (h : ∀ m, l.apply t ef ≠ .failed .noMode m) :
    (l.onto base).apply t ef = (l.apply t ef).onto base := by
  cases ef with
  | stay | push | enter | pushByName | enterByName | openHeredoc => rfl
  | pushAtName =>
    have hname : (l.onto base).atName = l.atName := rfl
    simp only [apply, hname, Scan.onto]
    cases l.atName <;> rfl
  | pop => exact popThen_onto h
  | popTwice =>
    cases hs : l.stack with
    | nil => exact absurd (by simp [apply, pop?, hs]) (h l)
    | cons a as =>
      have hq : (l.onto base).pop? = some ({ l with mode := a, stack := as }.onto base) := by
        simp [pop?, onto, hs]
      have hp : l.pop? = some { l with mode := a, stack := as } := by simp [pop?, hs]
      simp only [apply, hp] at h ⊢
      rw [hq]
      exact popThen_onto h
  | closeHeredoc =>
    have hl : (l.onto base).label = l.label := rfl
    simp only [apply, hl] at h ⊢
    cases hlabel : l.label with
    | none => rfl
    | some label =>
      simp only [hlabel] at h ⊢
      split
      · rename_i ht
        simp only [if_pos ht] at h
        exact popThen_onto h
      · rfl

/-- Above any modes a call goes by the same rule, or gives no token for the same reason. -/
def Uniform (l : Lexer) (call : Lexer → Scan Lexer) : Prop :=
  (∃ r ∈ l.mode.rules, ∃ n, ∀ base,
    call (l.onto base) = ((l.advance r n).onto base).apply (l.spelling r n) r.effect) ∨
  ∃ s : Scan Lexer, (∀ t l', s ≠ .token t l') ∧ ∀ base, call (l.onto base) = s.onto base

theorem uniform_scan (l : Lexer) (left : List Char) : l.Uniform (·.scan left) := by
  cases hm : firstMatch l.mode.rules l.behind l.rest with
  | none =>
    refine Or.inr ⟨.failed (.illegal l.line (String.ofList left)) l, by simp, ?_⟩
    intro base
    simp [scan, onto, hm, Scan.onto]
  | some rn =>
    obtain ⟨hr, -⟩ := firstMatch_some hm
    refine Or.inl ⟨rn.1, hr, rn.2, ?_⟩
    intro base
    simp only [scan, onto, hm]
    rfl

theorem uniform_next (l : Lexer) : l.Uniform next := by
  cases ht : l.text with
  | none =>
    by_cases hneg : l.pos < 0
    · exact Or.inr ⟨.failed .noText l, by simp, fun _ => by simp [next, onto, ht, hneg, Scan.onto]⟩
    · exact Or.inr ⟨.failed .noInput { l with pos := l.pos + 1 }, by simp,
        fun _ => by simp [next, onto, ht, hneg, Scan.onto]⟩
  | some cs =>
    by_cases hneg : l.pos < 0
    · by_cases hout : l.pos + cs.length < 0
      · exact Or.inr ⟨.failed .outOfRange l, by simp,
          fun _ => by simp [next, onto, ht, hneg, hout, Scan.onto]⟩
      · have hnext : ∀ base, (l.onto base).next =
            (l.onto base).scan (cs.drop (l.pos + cs.length).toNat) := by
          intro base
          simp [next, onto, ht, hneg, hout]
        simpa only [Uniform, hnext] using l.uniform_scan (cs.drop (l.pos + cs.length).toNat)
    · cases hr : l.rest with
      | nil =>
        exact Or.inr ⟨.finished { l with pos := l.pos + 1 }, by simp,
          fun _ => by simp [next, onto, ht, hneg, hr, Scan.onto]⟩
      | cons c cs' =>
        have hnext : ∀ base, (l.onto base).next = (l.onto base).scan l.rest := by
          intro base
          simp [next, onto, ht, hneg, hr]
        simpa only [Uniform, hnext] using l.uniform_scan l.rest

/-- The end of the text is found above any modes, or above none. -/
theorem next_onto_finished (h : (l.onto base).next = .finished l') :
    ∃ m, l.next = .finished m ∧ l' = m.onto base := by
  obtain ⟨r, -, n, hr⟩ | ⟨s, -, hs⟩ := uniform_next l
  · rw [hr] at h
    exact absurd h apply_ne_finished
  · have hl := hs []
    rw [onto_nil] at hl
    rw [hs] at h
    cases s with
    | token | failed => cases h
    | finished m =>
      cases h
      exact ⟨m, by simpa [Scan.onto] using hl, rfl⟩

/-- As long as no mode is missing, a call does not see the modes below. -/
theorem next_onto (h : ∀ m, l.next ≠ .failed .noMode m) :
    (l.onto base).next = l.next.onto base := by
  obtain ⟨r, -, n, hr⟩ | ⟨s, -, hs⟩ := uniform_next l
  · have hl := hr []
    rw [onto_nil, onto_nil] at hl
    rw [hl] at h ⊢
    rw [hr, apply_onto h]
  · have hl := hs []
    rw [onto_nil, Scan.onto_nil] at hl
    rw [hs, hl]

/-- A token that is read above some modes is read above more. -/
theorem next_onto_token (h : l.next = .token t l') :
    (l.onto base).next = .token t (l'.onto base) := by
  rw [next_onto (by simp [h]), h]
  rfl

end Lexer

namespace Filter

variable {f g : Filter} {ts : List Token}

/-- The filter with more modes waiting below its own. -/
def onto (f : Filter) (base : List Mode) : Filter := { f with lexer := f.lexer.onto base }

@[simp] theorem onto_nil (f : Filter) : f.onto [] = f := by simp [onto]

theorem onto_onto (f : Filter) (a b : List Mode) : (f.onto a).onto b = f.onto (a ++ b) := by
  simp [onto, Lexer.onto_onto]

theorem Reads.onto (h : Reads f ts g) (base : List Mode) :
    Reads (f.onto base) ts (g.onto base) := by
  induction h with
  | refl => exact .refl _
  | skip h hp _ ih => exact .skip (Lexer.next_onto_token h) hp ih
  | hand h hp _ ih => exact .hand (Lexer.next_onto_token h) hp ih

/-- Above more modes a filter hands on the same tokens up to the same end, or goes on where a
mode was missing. -/
theorem stream_onto (f : Filter) (base : List Mode) :
    (f.onto base).stream.tokens = f.stream.tokens ∧
        (f.onto base).stream.error? = f.stream.error? ∨
      f.stream.error? = some .noMode ∧ f.stream.tokens <+: (f.onto base).stream.tokens := by
  induction hk : f.lexer.rest.length using Nat.strongRecOn generalizing f with
  | ind k ih =>
    by_cases hm : ∃ m, f.lexer.next = .failed .noMode m
    · obtain ⟨m, hm⟩ := hm
      rw [stream_eq f, hm]
      exact Or.inr ⟨rfl, List.nil_prefix⟩
    · have hn : (f.onto base).lexer.next = f.lexer.next.onto base :=
        Lexer.next_onto fun m h => hm ⟨m, h⟩
      have hlast : (f.onto base).last = f.last := rfl
      rw [stream_eq f, stream_eq (f.onto base), hn, hlast]
      cases ht : f.lexer.next with
      | finished | failed => exact Or.inl ⟨rfl, rfl⟩
      | token u l =>
        have hl := hk ▸ Lexer.next_token_length ht
        simp only [Scan.onto]
        split
        · rename_i last hp
          exact ih _ hl ⟨l, last⟩ rfl
        · rename_i k hp
          simp only [Stream.tokens, Stream.error?]
          obtain ⟨htokens, herror⟩ | ⟨herror, hprefix⟩ := ih _ hl ⟨l, some k⟩ rfl
          · exact Or.inl ⟨congrArg _ htokens, herror⟩
          · exact Or.inr ⟨herror, List.cons_prefix_cons.mpr ⟨rfl, hprefix⟩⟩

end Filter
end Docblock
