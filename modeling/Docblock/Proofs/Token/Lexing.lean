import Docblock.Proofs.Token.Pattern
import Docblock.Token.Stream

/-! What one call for a token does, and how a text is cut into tokens. -/
namespace Docblock

/-- The reader after a call. -/
def Scan.reader {Reader : Type} : Scan Reader → Reader
  | .token _ r | .finished r | .failed _ r => r

/-- The token of a call, if there is one. -/
def Scan.token? {Reader : Type} : Scan Reader → Option Token
  | .token t _ => some t
  | _ => none

/-- If every token makes a reader smaller, more calls than its size change nothing. -/
theorem Stream.ofCalls_eq {Reader : Type} {next : Reader → Scan Reader} {size : Reader → Nat}
    (hsize : ∀ {r t r'}, next r = .token t r' → size r' < size r) {r : Reader} {fuel fuel' : Nat}
    (h : size r < fuel) (h' : size r < fuel') : ofCalls next fuel r = ofCalls next fuel' r := by
  induction fuel generalizing r fuel' with
  | zero => omega
  | succ fuel ih =>
    obtain ⟨fuel', rfl⟩ : ∃ k, fuel' = k + 1 := ⟨fuel' - 1, by omega⟩
    rw [ofCalls, ofCalls]
    cases hn : next r with
    | finished | failed => rfl
    | token t r' =>
      have hlt := hsize hn
      exact congrArg (Stream.cons t r') (ih (by omega) (by omega))

namespace Lexer

open Token

variable {l l' m : Lexer} {t t' : Token} {e : LexError} {r : Rule} {n : Nat} {ts : List Token}
  {before : List Char}

/-- Two lexers at one place of one text: only their modes and labels may differ. -/
structure SamePlace (l l' : Lexer) : Prop where
  text : l'.text = l.text
  rest : l'.rest = l.rest
  behind : l'.behind = l.behind
  pos : l'.pos = l.pos
  line : l'.line = l.line

theorem SamePlace.refl (l : Lexer) : SamePlace l l := ⟨rfl, rfl, rfl, rfl, rfl⟩

theorem SamePlace.trans (h : SamePlace l l') (h' : SamePlace l' m) : SamePlace l m :=
  ⟨h'.text.trans h.text, h'.rest.trans h.rest, h'.behind.trans h.behind, h'.pos.trans h.pos,
    h'.line.trans h.line⟩

theorem samePlace_pop? (h : l.pop? = some l') : SamePlace l l' := by
  simp only [pop?] at h
  split at h
  · cases h
  · cases h
    exact ⟨rfl, rfl, rfl, rfl, rfl⟩

theorem samePlace_popThen (l : Lexer) (t : Token) : SamePlace l (l.popThen t).reader := by
  simp only [popThen]
  split
  · exact .refl l
  · rename_i hp
    exact samePlace_pop? hp

/-- An effect does not change the place of the lexer, even where it fails. -/
theorem samePlace_apply (l : Lexer) (t : Token) (ef : Effect) :
    SamePlace l (l.apply t ef).reader := by
  cases ef with
  | stay | push | enter | pushByName | enterByName | openHeredoc =>
    exact ⟨rfl, rfl, rfl, rfl, rfl⟩
  | pushAtName =>
    simp only [apply, Scan.reader]
    split <;> exact ⟨rfl, rfl, rfl, rfl, rfl⟩
  | pop => exact l.samePlace_popThen t
  | popTwice =>
    simp only [apply]
    split
    · exact .refl l
    · rename_i hp
      exact (samePlace_pop? hp).trans (samePlace_popThen _ t)
  | closeHeredoc =>
    simp only [apply]
    split
    · exact .refl l
    · split
      · have hlabel : SamePlace l { l with label := none } := ⟨rfl, rfl, rfl, rfl, rfl⟩
        exact hlabel.trans (samePlace_popThen _ t)
      · exact .refl l

theorem popThen_token (h : l.popThen t = .token t' l') : l.pop? = some l' ∧ t' = t := by
  simp only [popThen] at h
  split at h
  · cases h
  · rename_i hp
    cases h
    exact ⟨hp, rfl⟩

/-- An effect changes neither the place of the lexer nor the text and the place of the token. -/
theorem apply_token {ef : Effect} (h : l.apply t ef = .token t' l') :
    SamePlace l l' ∧ t'.text = t.text ∧ t'.line = t.line ∧ t'.pos = t.pos := by
  refine ⟨by simpa only [h, Scan.reader] using samePlace_apply l t ef, ?_⟩
  cases ef with
  | stay | push | enter | pushAtName | pushByName | enterByName | openHeredoc =>
    cases h
    exact ⟨rfl, rfl, rfl⟩
  | pop =>
    obtain ⟨-, rfl⟩ := popThen_token h
    exact ⟨rfl, rfl, rfl⟩
  | popTwice =>
    simp only [apply] at h
    split at h
    · cases h
    · obtain ⟨-, rfl⟩ := popThen_token h
      exact ⟨rfl, rfl, rfl⟩
  | closeHeredoc =>
    simp only [apply] at h
    split at h
    · cases h
    · split at h
      · obtain ⟨-, rfl⟩ := popThen_token h
        exact ⟨rfl, rfl, rfl⟩
      · cases h
        exact ⟨rfl, rfl, rfl⟩

/-- An effect fails for want of a waiting mode or of a label, and for nothing else. -/
theorem apply_failed {ef : Effect} (h : l.apply t ef = .failed e l') :
    e = .noMode ∨ e = .noLabel := by
  cases ef <;> simp only [apply, popThen] at h <;> repeat' split at h
  all_goals cases h
  all_goals simp

theorem apply_ne_finished {ef : Effect} : l.apply t ef ≠ .finished l' := by
  intro h
  cases ef <;> simp only [apply, popThen] at h <;> repeat' split at h
  all_goals cases h

theorem firstMatch_some {rules : List Rule} {behind : Option Char} {cs : List Char}
    (h : firstMatch rules behind cs = some (r, n)) :
    r ∈ rules ∧ r.length? behind cs = some n := by
  obtain ⟨r', hr, hm⟩ := List.exists_of_findSome?_eq_some h
  obtain ⟨n', hn, he⟩ := Option.map_eq_some_iff.mp hm
  cases he
  exact ⟨hr, hn⟩

/-- A rule is taken if it matches and none before it does. -/
theorem firstMatch_split {rules : List Rule} {behind : Option Char} {cs : List Char}
    (before after : List Rule) (hsplit : rules = before ++ r :: after)
    (hbefore : firstMatch before behind cs = none) (hr : r.length? behind cs = some n) :
    firstMatch rules behind cs = some (r, n) := by
  rw [firstMatch] at hbefore
  rw [firstMatch, hsplit, List.findSome?_append, hbefore, List.findSome?_cons, hr]
  rfl

/-- The rules before that for tokens of a kind. A rule is told by the kind it gives to no text. -/
def rulesBefore (k : Kind) (rules : List Rule) : List Rule :=
  rules.takeWhile fun r => r.kind [] != k

def rulesAfter (k : Kind) (rules : List Rule) : List Rule :=
  (rules.dropWhile fun r => r.kind [] != k).tail

theorem rules_split {rules : List Rule} {k : Kind}
    (h : rules.find? (fun r => r.kind [] == k) = some r) :
    rules = rulesBefore k rules ++ r :: rulesAfter k rules := by
  induction rules with
  | nil => cases h
  | cons a rules ih =>
    cases ha : a.kind [] == k with
    | true =>
      simp only [List.find?_cons, ha, Option.some.injEq] at h
      subst h
      simp [rulesBefore, rulesAfter, bne, ha]
    | false =>
      simp only [List.find?_cons, ha] at h
      simpa [rulesBefore, rulesAfter, bne, ha] using ih h

/-- The rule for tokens of a kind is taken if it matches and none before it does. -/
theorem firstMatch_of_kind {rules : List Rule} {behind : Option Char} {cs : List Char} (k : Kind)
    (hk : rules.find? (fun r => r.kind [] == k) = some r)
    (hbefore : firstMatch (rulesBefore k rules) behind cs = none)
    (hr : r.length? behind cs = some n) : firstMatch rules behind cs = some (r, n) :=
  firstMatch_split _ _ (rules_split hk) hbefore hr

theorem pattern_of_length? {behind : Option Char} {cs : List Char}
    (h : r.length? behind cs = some n) : r.pattern cs = some n := by
  simp only [Rule.length?] at h
  split at h
  · cases h
  · exact h

theorem length?_bounded (hr : r ∈ l.mode.rules) {behind : Option Char} {cs : List Char}
    (h : r.length? behind cs = some n) : 0 < n ∧ n ≤ cs.length :=
  l.mode.bounded_rules r hr cs n (pattern_of_length? h)

/-- The token that a rule makes of the first `n` characters of the rest. -/
def spelling (l : Lexer) (r : Rule) (n : Nat) : Token :=
  ⟨r.kind (l.rest.take n), String.ofList (l.rest.take n), l.line, l.pos⟩

theorem scan_token {left : List Char} (h : l.scan left = .token t l') :
    ∃ r ∈ l.mode.rules, ∃ n, r.length? l.behind l.rest = some n ∧
      (l.advance r n).apply (l.spelling r n) r.effect = .token t l' := by
  simp only [scan] at h
  split at h
  · cases h
  · rename_i r n hm
    obtain ⟨hr, hn⟩ := firstMatch_some hm
    exact ⟨r, hr, n, hn, h⟩

/-- A token comes from a rule of the mode, by the effect of that rule behind its match. -/
theorem next_token (h : l.next = .token t l') :
    ∃ r ∈ l.mode.rules, ∃ n, r.length? l.behind l.rest = some n ∧
      (l.advance r n).apply (l.spelling r n) r.effect = .token t l' := by
  simp only [next] at h
  split at h
  · split at h <;> cases h
  · split at h
    · split at h
      · cases h
      · exact scan_token h
    · split at h
      · cases h
      · exact scan_token h

/-- Inside a text a call finds the end, or no rule for what is left, or a rule whose effect it
has. -/
theorem next_cases {cs : List Char} (ht : l.text = some cs) (hp : 0 ≤ l.pos) :
    (l.rest = [] ∧ l.next = .finished { l with pos := l.pos + 1 }) ∨
    l.next = .failed (.illegal l.line (String.ofList l.rest)) l ∨
    ∃ r ∈ l.mode.rules, ∃ n, r.length? l.behind l.rest = some n ∧
      l.next = (l.advance r n).apply (l.spelling r n) r.effect := by
  have hpos : ¬ l.pos < 0 := by omega
  simp only [next, ht, hpos, if_false]
  split
  · rename_i hr
    exact Or.inl ⟨hr, rfl⟩
  · simp only [scan]
    split
    · exact Or.inr (Or.inl rfl)
    · rename_i r n hm
      obtain ⟨hr, hn⟩ := firstMatch_some hm
      exact Or.inr (Or.inr ⟨r, hr, n, hn, rfl⟩)

/-- Every token takes characters off the rest, and spells them. -/
theorem next_token_rest (h : l.next = .token t l') :
    t.text ≠ "" ∧ l.rest = t.text.toList ++ l'.rest := by
  obtain ⟨r, hr, n, hn, ha⟩ := next_token h
  obtain ⟨hs, ht, -, -⟩ := apply_token ha
  have hb := length?_bounded hr hn
  rw [ht, hs.rest]
  refine ⟨?_, by simp [spelling, advance]⟩
  intro he
  have hz := congrArg String.length he
  simp only [spelling, String.length_ofList, List.length_take, String.length_empty] at hz
  omega

theorem next_token_length (h : l.next = .token t l') : l'.rest.length < l.rest.length := by
  obtain ⟨hne, hr⟩ := next_token_rest h
  have : t.text.toList.length ≠ 0 := by
    intro hz
    exact hne (String.toList_eq_nil_iff.mp (List.length_eq_zero_iff.mp hz))
  rw [hr, List.length_append]
  omega

/-- The tokens of a text, call by call. -/
theorem stream_eq (l : Lexer) :
    l.stream = match l.next with
      | .token t l' => .cons t l' l'.stream
      | .finished l' => .finished l'
      | .failed e l' => .failed e l' := by
  rw [stream, Stream.ofCalls]
  cases hn : l.next with
  | finished | failed => rfl
  | token t l' =>
    exact congrArg (Stream.cons t l') (Stream.ofCalls_eq next_token_length (next_token_length hn)
      (Nat.lt_succ_self _))

/-- The calls for tokens up to the first that gives none: their number, the tokens, the error of
the last call if it fails, and the lexer after it. -/
inductive Calls : Lexer → Nat → List Token → Option LexError → Lexer → Prop
  | finished {l l' : Lexer} (h : l.next = .finished l') : Calls l 1 [] none l'
  | failed {l l' : Lexer} {e : LexError} (h : l.next = .failed e l') : Calls l 1 [] (some e) l'
  | token {l l' m : Lexer} {t : Token} {n : Nat} {ts : List Token} {e : Option LexError}
      (h : l.next = .token t l') (hc : Calls l' n ts e m) : Calls l (n + 1) (t :: ts) e m

/-- There is a last call, and it comes before the characters run out. -/
theorem calls_stream (l : Lexer) :
    ∃ n ≤ l.rest.length + 1, Calls l n l.stream.tokens l.stream.error? l.stream.final := by
  induction hk : l.rest.length using Nat.strongRecOn generalizing l with
  | ind k ih =>
    rw [stream_eq]
    cases hn : l.next with
    | finished l' => exact ⟨1, by omega, .finished hn⟩
    | failed e l' => exact ⟨1, by omega, .failed hn⟩
    | token t l' =>
      have hl := next_token_length hn
      obtain ⟨n, hle, hc⟩ := ih l'.rest.length (by omega) l' rfl
      exact ⟨n + 1, by omega, .token hn hc⟩

/-- All the characters of some tokens. -/
def spelled (ts : List Token) : List Char := ts.flatMap (·.text.toList)

/-- The lexer has read some characters and is right behind them. -/
structure Placed (before : List Char) (l : Lexer) : Prop where
  text : l.text = some (before ++ l.rest)
  pos : l.pos = before.length

theorem placed_input (l : Lexer) (cs : List Char) : Placed [] (l.input cs) := ⟨rfl, rfl⟩

/-- A token stands where the lexer was, and the lexer moves right behind it. -/
theorem placed_token (hp : Placed before l) (h : l.next = .token t l') :
    t.pos = before.length ∧ Placed (before ++ t.text.toList) l' := by
  obtain ⟨-, hrest⟩ := next_token_rest h
  obtain ⟨r, hr, n, hn, ha⟩ := next_token h
  obtain ⟨hs, ht, -, hpos⟩ := apply_token ha
  have hb := length?_bounded hr hn
  have hlen : t.text.toList.length = n := by
    rw [ht]
    simp only [spelling, String.toList_ofList, List.length_take]
    omega
  refine ⟨hpos.trans hp.pos, ?_, ?_⟩
  · rw [hs.text, List.append_assoc, ← hrest]
    exact hp.text
  · rw [hs.pos, List.length_append, hlen]
    simp only [advance, hp.pos]
    omega

theorem next_finished (h : l.next = .finished l') : l' = { l with pos := l.pos + 1 } := by
  simp only [next, scan] at h
  repeat' split at h
  all_goals first | cases h | exact absurd h apply_ne_finished
  rfl

theorem placed_finished (hp : Placed before l) (h : l.next = .finished l') : l.rest = [] := by
  have hnn : 0 ≤ l.pos := by rw [hp.pos]; omega
  obtain ⟨hr, -⟩ | he | ⟨r, -, n, -, he⟩ := next_cases hp.text hnn
  · exact hr
  · rw [he] at h
    cases h
  · rw [he] at h
    exact absurd h apply_ne_finished

/-- A call inside a text fails on a rest that no rule matches, which it reports, or for want of
a waiting mode or of a label. -/
theorem placed_failed (hp : Placed before l) (h : l.next = .failed e l') :
    (∃ line text, e = .illegal line text ∧ text.toList = l.rest) ∨ e = .noMode ∨ e = .noLabel := by
  have hnn : 0 ≤ l.pos := by rw [hp.pos]; omega
  obtain ⟨-, he⟩ | he | ⟨r, -, n, -, he⟩ := next_cases hp.text hnn
  · rw [he] at h
    cases h
  · rw [he] at h
    cases h
    exact Or.inl ⟨_, _, rfl, by simp⟩
  · rw [he] at h
    exact Or.inr (apply_failed h)

/-- Where the tokens of a run stand, and what they leave of the text. -/
theorem calls_placed {e : Option LexError} (h : Calls l n ts e m) (hp : Placed before l) :
    (∀ t ∈ ts, t.text ≠ "") ∧
    (∀ (pre post : List Token) (t : Token), ts = pre ++ t :: post →
      t.pos = (before ++ spelled pre).length) ∧
    ∃ rest, spelled ts ++ rest = l.rest ∧ (e = none → rest = []) ∧
      ∀ line text, e = some (.illegal line text) → text.toList = rest := by
  induction h generalizing before with
  | finished h =>
    refine ⟨by simp, by simp, [], ?_, by simp, by simp⟩
    simp [spelled, placed_finished hp h]
  | @failed l l' e h =>
    refine ⟨by simp, by simp, l.rest, rfl, by simp, ?_⟩
    rintro line text he
    cases he
    obtain ⟨line, text, heq, ht⟩ | he | he := placed_failed hp h
    · cases heq
      exact ht
    · cases he
    · cases he
  | @token l l' m t n ts e h _ ih =>
    obtain ⟨hpos, hp'⟩ := placed_token hp h
    obtain ⟨hne, hrest⟩ := next_token_rest h
    obtain ⟨hall, hat, rest, hcut, hend⟩ := ih hp'
    refine ⟨?_, ?_, rest, ?_, hend⟩
    · intro u hu
      obtain rfl | hu := List.mem_cons.mp hu
      · exact hne
      · exact hall u hu
    · intro pre post u hsplit
      cases pre with
      | nil =>
        cases hsplit
        simpa [spelled] using hpos
      | cons v pre =>
        cases hsplit
        rw [hat pre post u rfl]
        simp [spelled]
    · rw [hrest, ← hcut]
      simp [spelled]

/-- Why a run inside a text fails. -/
theorem calls_failed (h : Calls l n ts (some e) m) (hp : Placed before l) :
    (∃ line text, e = .illegal line text) ∨ e = .noMode ∨ e = .noLabel := by
  generalize hr : some e = r at h
  induction h generalizing before with
  | finished => cases hr
  | failed h =>
    cases hr
    obtain ⟨line, text, he, -⟩ | he := placed_failed hp h
    · exact Or.inl ⟨line, text, he⟩
    · exact Or.inr he
  | token h _ ih => exact ih (placed_token hp h).2 hr

/-- The lexer stands at a position of a text, or behind its end. -/
structure Within (cs : List Char) (l : Lexer) : Prop where
  text : l.text = some cs
  nonneg : 0 ≤ l.pos
  rest : l.rest = cs.drop l.pos.toNat

theorem within_input (l : Lexer) (cs : List Char) : Within cs (l.input cs) :=
  ⟨rfl, Int.le_refl 0, rfl⟩

/-- Behind the match of a rule. -/
theorem within_advance {cs : List Char} (h : Within cs l) (r : Rule) (n : Nat) :
    Within cs (l.advance r n) ∧ (l.advance r n).pos.toNat = l.pos.toNat + n := by
  have hnn := h.nonneg
  have hpos : (l.advance r n).pos = l.pos + n := by
    simp only [advance]
    omega
  have hnat : (l.advance r n).pos.toNat = l.pos.toNat + n := by omega
  refine ⟨⟨h.text, by omega, ?_⟩, hnat⟩
  rw [hnat, ← List.drop_drop, ← h.rest]
  rfl

theorem SamePlace.within {cs : List Char} (hs : SamePlace l l') (h : Within cs l) :
    Within cs l' :=
  ⟨hs.text.trans h.text, hs.pos ▸ h.nonneg, by rw [hs.rest, hs.pos, h.rest]⟩

/-- Whatever a call gives, the lexer stays within its text. -/
theorem within_next {cs : List Char} (h : Within cs l) : Within cs l.next.reader := by
  obtain ⟨hr, he⟩ | he | ⟨r, -, n, -, he⟩ := next_cases h.text h.nonneg
  · rw [he]
    have hlen : cs.length ≤ l.pos.toNat := List.drop_eq_nil_iff.mp (h.rest ▸ hr)
    have := h.nonneg
    refine ⟨h.text, by simp only [Scan.reader]; omega, ?_⟩
    simp only [Scan.reader, hr]
    exact (List.drop_eq_nil_of_le (by omega)).symm
  · rw [he]
    exact h
  · rw [he]
    exact (samePlace_apply _ _ _).within (within_advance h r n).1

/-- The lexer before a call for a token, by the number of the calls before it. -/
def atCall (l : Lexer) : Nat → Lexer
  | 0 => l
  | n + 1 => (l.atCall n).next.reader

theorem within_atCall (l : Lexer) (cs : List Char) (n : Nat) :
    Within cs ((l.input cs).atCall n) := by
  induction n with
  | zero => exact within_input l cs
  | succ n ih => exact within_next ih

/-- A text is cut into tokens that are not empty, spell a start of it and stand one behind the
other; the calls end, with all of the text read or with the error that reports what is left. -/
theorem lexing_covers (cs : List Char) :
    ∃ n ts e l, n ≤ cs.length + 1 ∧ Calls (initial.input cs) n ts e l ∧
      (∀ t ∈ ts, t.text ≠ "") ∧
      (∀ (pre post : List Token) (t : Token), ts = pre ++ t :: post →
        t.pos = (spelled pre).length) ∧
      ∃ rest, spelled ts ++ rest = cs ∧ (e = none → rest = []) ∧
        ∀ line text, e = some (.illegal line text) → text.toList = rest := by
  obtain ⟨n, hn, hc⟩ := calls_stream (initial.input cs)
  exact ⟨n, _, _, _, hn, hc, calls_placed hc (placed_input initial cs)⟩

end Lexer
end Docblock
