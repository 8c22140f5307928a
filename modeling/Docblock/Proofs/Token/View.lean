import Docblock.Proofs.Token.Comment

/-! What decides on the tokens to come: how a lexer reads on, and what is left to it. Where it
stands in its text, and in which line, does not. -/
namespace Docblock

open Token

/-- The kind and the text of a token. -/
def Token.word (t : Token) : Kind × String := (t.kind, t.text)

namespace Lexer

variable {l l' m : Lexer} {t u u' : Token} {r : Rule} {n : Nat}

/-- A lexer that is given a text and is not before its start. -/
structure Inside (l : Lexer) : Prop where
  text : l.text ≠ none
  pos : 0 ≤ l.pos

theorem inside_input (l : Lexer) (cs : List Char) : (l.input cs).Inside :=
  ⟨Option.some_ne_none cs, Int.le_refl 0⟩

/-- A call inside a text takes the first rule that matches. -/
theorem next_of_firstMatch (hl : l.Inside)
    (hm : firstMatch l.mode.rules l.behind l.rest = some (r, n)) :
    l.next = (l.advance r n).apply (l.spelling r n) r.effect := by
  obtain ⟨cs, hcs⟩ := Option.ne_none_iff_exists'.mp hl.text
  have hneg : ¬ l.pos < 0 := Int.not_lt.mpr hl.pos
  have hrest : l.rest ≠ [] := by
    obtain ⟨hr, hn⟩ := firstMatch_some hm
    have := length?_bounded hr hn
    intro he
    simp only [he, List.length_nil] at this
    omega
  simp only [next, hcs, if_neg hneg]
  split
  · rename_i he
    exact absurd he hrest
  · simp only [scan, hm]
    rfl

/-- Where nothing is left, a call inside a text finds the end. -/
theorem next_atEnd (hl : l.Inside) (hr : l.rest = []) :
    l.next = .finished { l with pos := l.pos + 1 } := by
  obtain ⟨cs, hcs⟩ := Option.ne_none_iff_exists'.mp hl.text
  have hneg : ¬ l.pos < 0 := Int.not_lt.mpr hl.pos
  simp only [next, hcs, if_neg hneg, hr]

theorem inside_token (h : l.next = .token t l') (hl : l.Inside) : l'.Inside := by
  obtain ⟨r, -, n, -, ha⟩ := next_token h
  obtain ⟨hs, -⟩ := apply_token ha
  refine ⟨by rw [hs.text]; exact hl.text, ?_⟩
  rw [hs.pos]
  simp only [advance]
  omega

/-- Two lexers on which effects act alike. -/
structure Alike (l m : Lexer) : Prop where
  mode : m.mode = l.mode
  stack : m.stack = l.stack
  label : m.label = l.label

theorem popThen_alike (u' : Token) (h : Alike l m) (ha : l.popThen u = .token t l') :
    t = u ∧ ∃ m', m.popThen u' = .token u' m' ∧ Alike l' m' := by
  obtain ⟨hp, rfl⟩ := popThen_token ha
  refine ⟨rfl, ?_⟩
  simp only [pop?] at hp
  split at hp
  · cases hp
  · rename_i hs
    cases hp
    simp only [popThen, pop?, h.stack, hs]
    exact ⟨_, rfl, rfl, rfl, h.label⟩

/-- On lexers that are alike, before the same things, an effect acts alike. -/
theorem apply_alike {ef : Effect} (h : Alike l m) (hname : m.atName = l.atName)
    (hw : u'.word = u.word) (ha : l.apply u ef = .token t l') :
    ∃ t' m', m.apply u' ef = .token t' m' ∧ Alike l' m' ∧ t'.word = t.word := by
  obtain ⟨hkind, htext⟩ := Prod.mk.inj hw
  cases ef with
  | stay =>
    cases ha
    exact ⟨u', m, rfl, h, hw⟩
  | push | enter | pushByName | enterByName =>
    cases ha
    refine ⟨u', _, rfl, ⟨?_, ?_, h.label⟩, hw⟩ <;> simp [push, enter, hname, h.mode, h.stack]
  | pushAtName =>
    cases ha
    refine ⟨u', _, rfl, ?_, hw⟩
    rw [hname]
    split
    · exact ⟨rfl, by simp [push, h.mode, h.stack], h.label⟩
    · exact h
  | openHeredoc =>
    cases ha
    exact ⟨u', _, rfl, ⟨rfl, by simp [push, h.mode, h.stack], by simp [htext]⟩, hw⟩
  | pop =>
    obtain ⟨rfl, m', hm, halike⟩ := popThen_alike u' h ha
    exact ⟨u', m', hm, halike, hw⟩
  | popTwice =>
    simp only [apply] at ha ⊢
    cases hs : l.stack with
    | nil => simp [pop?, hs] at ha
    | cons a as =>
      have hl : l.pop? = some { l with mode := a, stack := as } := by simp [pop?, hs]
      have hm : m.pop? = some { m with mode := a, stack := as } := by simp [pop?, h.stack, hs]
      have hpopped : Alike { l with mode := a, stack := as } { m with mode := a, stack := as } :=
        ⟨rfl, rfl, h.label⟩
      simp only [hl] at ha
      simp only [hm]
      obtain ⟨rfl, m', hm', halike⟩ := popThen_alike u' hpopped ha
      exact ⟨u', m', hm', halike, hw⟩
  | closeHeredoc =>
    simp only [apply, h.label, htext] at ha ⊢
    split at ha
    · cases ha
    · split at ha
      · rename_i hlabel
        have hclosed : Alike { l with label := none } { m with label := none } :=
          ⟨h.mode, h.stack, rfl⟩
        obtain ⟨rfl, m', hm, halike⟩ := popThen_alike u' hclosed ha
        simp only [if_pos hlabel]
        exact ⟨u', m', hm, halike, hw⟩
      · rename_i hlabel
        cases ha
        simp only [if_neg hlabel]
        exact ⟨_, m, rfl, h, rfl⟩

/-- How a lexer reads on, and what is left to it. -/
structure View where
  mode : Mode
  stack : List Mode
  label : Option (List Char)
  behind : Option Char
  rest : List Char

def view (l : Lexer) : View := ⟨l.mode, l.stack, l.label, l.behind, l.rest⟩

namespace View

variable {v v' v'' : View} {w : Kind × String} {ws ws' : List (Kind × String)}

/-- A lexer at the start of what is left. -/
def lexer (v : View) : Lexer where
  text := some v.rest
  rest := v.rest
  behind := v.behind
  pos := 0
  line := 1
  mode := v.mode
  stack := v.stack
  label := v.label

/-- What is seen of a token and of the lexer after it. -/
def seen : Scan Lexer → Option ((Kind × String) × View)
  | .token t l => some (t.word, l.view)
  | _ => none

/-- The kind and the text of the next token, if there is one, and the view after it. -/
def next (v : View) : Option ((Kind × String) × View) := seen v.lexer.next

theorem seen_some {s : Scan Lexer} (h : seen s = some (w, v)) :
    ∃ t l, s = .token t l ∧ t.word = w ∧ l.view = v := by
  cases s with
  | token t l =>
    obtain ⟨rfl, rfl⟩ := Prod.mk.inj (Option.some.inj h)
    exact ⟨t, l, rfl, rfl, rfl⟩
  | finished | failed => cases h

/-- A text at its start. -/
def ofText (cs : List Char) : View := ⟨.html, [], none, none, cs⟩

/-- A lexer inside a text reads what its view tells. -/
theorem next_lexer (hl : l.Inside) (h : l.view.next = some (w, v)) :
    ∃ t l', l.next = .token t l' ∧ l'.Inside ∧ l'.view = v ∧ t.word = w := by
  obtain ⟨t₀, l₀, hn, rfl, rfl⟩ := seen_some h
  obtain ⟨r, n, hm, ha⟩ := next_firstMatch hn
  have halike : Alike (l.view.lexer.advance r n) (l.advance r n) := ⟨rfl, rfl, rfl⟩
  have hword : (l.spelling r n).word = (l.view.lexer.spelling r n).word := rfl
  obtain ⟨t, l', ha', hl', hw⟩ := apply_alike halike rfl hword ha
  have hnext := (next_of_firstMatch hl hm).trans ha'
  obtain ⟨hs, -⟩ := apply_token ha
  obtain ⟨hs', -⟩ := apply_token ha'
  have hbehind : l'.behind = l₀.behind := hs'.behind.trans hs.behind.symm
  have hrest : l'.rest = l₀.rest := hs'.rest.trans hs.rest.symm
  refine ⟨t, l', hnext, inside_token hnext hl, ?_, hw⟩
  simp [view, hl'.mode, hl'.stack, hl'.label, hbehind, hrest]

/-- The effect of a rule that takes some characters off what is left. -/
theorem next_taken {m : Mode} {ms : List Mode} {label : Option (List Char)} {b : Option Char}
    (taken : List Char) {cs : List Char}
    (hm : firstMatch m.rules b (taken ++ cs) = some (r, taken.length))
    (hs : seen ((lexer ⟨m, ms, label, taken.getLast?.or b, cs⟩).apply
      ⟨r.kind taken, String.ofList taken, 1, 0⟩ r.effect) = some (w, v)) :
    next ⟨m, ms, label, b, taken ++ cs⟩ = some (w, v) := by
  obtain ⟨t, l, ha, rfl, rfl⟩ := seen_some hs
  let u : View := ⟨m, ms, label, b, taken ++ cs⟩
  have hinside : u.lexer.Inside := ⟨Option.some_ne_none _, Int.le_refl 0⟩
  have hrest : (u.lexer.advance r taken.length).rest = cs := List.drop_left
  have hbehind : (u.lexer.advance r taken.length).behind = taken.getLast?.or b := by
    simp [advance, lexer, u]
  have hname : (u.lexer.advance r taken.length).atName =
      (lexer ⟨m, ms, label, taken.getLast?.or b, cs⟩).atName := by
    rw [atName, hrest]
    rfl
  have hword : (u.lexer.spelling r taken.length).word = (r.kind taken, String.ofList taken) := by
    simp [Token.word, spelling, lexer, u]
  have hsame : Alike (lexer ⟨m, ms, label, taken.getLast?.or b, cs⟩)
      (u.lexer.advance r taken.length) := ⟨rfl, rfl, rfl⟩
  obtain ⟨t', l', ha', halike, hw⟩ := apply_alike hsame hname hword ha
  have hnext : u.lexer.next = .token t' l' := (next_of_firstMatch hinside hm).trans ha'
  obtain ⟨hs, -⟩ := apply_token ha
  obtain ⟨hs', -⟩ := apply_token ha'
  have hview : l'.view = l.view := by
    simp only [view, halike.mode, halike.stack, halike.label, hs.behind, hs.rest, hs'.behind,
      hs'.rest, hrest, hbehind]
    rfl
  show seen u.lexer.next = _
  rw [hnext, seen, hw, hview]

/-- The kinds that a filter leaves out or changes. -/
def blanks : List Kind := [.whitespace, .openTag]

def tags : List Kind := [.openTagWithEcho, .closeTag]

/-- Calls of a lexer, with the tokens among them that a filter hands on. -/
inductive Reads : View → List (Kind × String) → View → Prop
  | refl (v : View) : Reads v [] v
  | skip {v v' v'' : View} {k : Kind} {s : String} {ws : List (Kind × String)}
      (h : v.next = some ((k, s), v')) (hk : k ∈ blanks) (hr : Reads v' ws v'') : Reads v ws v''
  | hand {v v' v'' : View} {k : Kind} {s : String} {ws : List (Kind × String)}
      (h : v.next = some ((k, s), v')) (hk : k ∉ blanks ++ tags) (hr : Reads v' ws v'') :
      Reads v ((k, s) :: ws) v''

theorem Reads.trans (h : Reads v ws v') (h' : Reads v' ws' v'') : Reads v (ws ++ ws') v'' := by
  induction h with
  | refl => exact h'
  | skip h hk _ ih => exact .skip h hk (ih h')
  | hand h hk _ ih => exact .hand h hk (ih h')

theorem fate_blank {k : Kind} (last : Option Kind) (hk : k ∈ blanks) :
    ∃ last', Filter.fate last k = .dropped last' := by
  simp only [blanks, List.mem_cons, List.not_mem_nil, or_false] at hk
  obtain rfl | rfl := hk
  · exact ⟨last, rfl⟩
  · exact ⟨some .openTag, rfl⟩

theorem fate_plain {k : Kind} (last : Option Kind) (hk : k ∉ blanks ++ tags) :
    Filter.fate last k = .emitted k := by
  simp only [Filter.fate]
  split
  case h_5 => rfl
  all_goals exact absurd (by decide) hk

/-- A filter hands on what its view tells. -/
theorem Reads.filter {f : Filter} (hf : f.lexer.Inside) (h : Reads f.lexer.view ws v) :
    ∃ ts g, Filter.Reads f ts g ∧ g.lexer.Inside ∧ g.lexer.view = v ∧ ts.map Token.word = ws := by
  generalize hv : f.lexer.view = v₀ at h
  induction h generalizing f with
  | refl => exact ⟨[], f, .refl f, hf, hv, rfl⟩
  | skip h hk _ ih =>
    subst hv
    obtain ⟨t, l, hn, hl, hv, hw⟩ := next_lexer hf h
    obtain ⟨last, hp⟩ := fate_blank (k := t.kind) f.last (by cases hw; exact hk)
    obtain ⟨ts, g, hr, hg⟩ := ih (f := ⟨l, last⟩) hl hv
    exact ⟨ts, g, .skip hn hp hr, hg⟩
  | hand h hk _ ih =>
    subst hv
    obtain ⟨t, l, hn, hl, hv, hw⟩ := next_lexer hf h
    have hp := fate_plain (k := t.kind) f.last (by cases hw; exact hk)
    obtain ⟨ts, g, hr, hg, hview, hts⟩ := ih (f := ⟨l, some t.kind⟩) hl hv
    exact ⟨t :: ts, g, .hand hn hp hr, hg, hview, by rw [List.map_cons, hw, hts]⟩

/-- A filter that reads all that is left hands on what its view tells, and meets no error. -/
theorem Reads.stream {f : Filter} (hf : f.lexer.Inside) (h : Reads f.lexer.view ws v)
    (hv : v.rest = []) : f.stream.tokens.map Token.word = ws ∧ f.stream.error? = none := by
  obtain ⟨ts, g, hr, hg, rfl, rfl⟩ := h.filter hf
  obtain ⟨htokens, herror, -⟩ := Filter.reads_stream hr
  rw [htokens, herror, Filter.stream_eq g, next_atEnd hg hv]
  exact ⟨by simp [Stream.tokens], rfl⟩

/-- Calls of a lexer, with all of their tokens. -/
inductive Calls : View → List (Kind × String) → View → Prop
  | refl (v : View) : Calls v [] v
  | token {v v' v'' : View} {w : Kind × String} {ws : List (Kind × String)}
      (h : v.next = some (w, v')) (hc : Calls v' ws v'') : Calls v (w :: ws) v''

/-- Where there is no tag, a filter hands on all but white space. -/
theorem Calls.reads (h : Calls v ws v') (htags : ∀ w ∈ ws, w.1 ∉ tags) :
    Reads v (ws.filter (·.1 ∉ blanks)) v' := by
  induction h with
  | refl v => exact .refl v
  | @token _ _ _ w ws h _ ih =>
    obtain ⟨hw, hws⟩ := List.forall_mem_cons.mp htags
    by_cases hk : w.1 ∈ blanks
    · rw [List.filter_cons_of_neg (by simpa using hk)]
      exact .skip h hk (ih hws)
    · rw [List.filter_cons_of_pos (by simpa using hk)]
      exact .hand h (by simp [hk, hw]) (ih hws)

/-- A lexer that reads all that is left gives the tokens that its view tells, and no error. -/
theorem Calls.stream (hl : l.Inside) (h : Calls l.view ws v) (hv : v.rest = []) :
    l.stream.tokens.map Token.word = ws ∧ l.stream.error? = none := by
  generalize hview : l.view = v₀ at h
  induction h generalizing l with
  | refl =>
    subst hview
    rw [stream_eq, next_atEnd hl hv]
    exact ⟨rfl, rfl⟩
  | token h _ ih =>
    subst hview
    obtain ⟨t, l', hn, hl', hview, rfl⟩ := next_lexer hl h
    obtain ⟨hts, he⟩ := ih hl' hv hview
    rw [stream_eq, hn]
    exact ⟨by simp [Stream.tokens, hts], he⟩

end View
end Lexer
end Docblock
