import Docblock.Proofs.Grammar.Position
import Docblock.Proofs.Token.Line
import Docblock.Proofs.Token.Spelling
import Docblock.Proofs.Token.Steady

/-! A value in code is read as before if a semicolon follows it. -/
namespace Docblock.Lexer

open Token Pattern

variable {l l' m : Lexer} {t : Token} {r : Rule} {n : Nat} {k : Int} {cs ds : List Char}
  {b b' : Option Char} {rules : List Rule}

/-- A rule that is taken is taken elsewhere, if it matches there and nothing else does. -/
theorem firstMatch_of_none (h : firstMatch rules b cs = some (r, n))
    (hnone : ∀ r ∈ rules, r.length? b cs = none → r.length? b' ds = none)
    (hr : r.length? b' ds = some n) : firstMatch rules b' ds = some (r, n) := by
  obtain ⟨before, r', after, hsplit, hfound, hbefore⟩ := List.findSome?_eq_some_iff.mp h
  obtain ⟨n', -, hpair⟩ := Option.map_eq_some_iff.mp hfound
  cases hpair
  refine firstMatch_split before after hsplit ?_ hr
  rw [firstMatch, List.findSome?_eq_none_iff]
  intro r' hr'
  have hmem : r' ∈ rules := hsplit ▸ List.mem_append_left _ hr'
  rw [hnone r' hmem (Option.map_eq_none_iff.mp (hbefore r' hr')), Option.map_none]

theorem length?_plain (h : r.afterBreak = false) (b : Option Char) (cs : List Char) :
    r.length? b cs = r.pattern cs := by
  simp [Rule.length?, h]

/-- In code the first token is the same with a semicolon behind the text, unless it is a comment. -/
theorem firstMatch_code (h : firstMatch Mode.code.rules b cs = some (r, n))
    (hk : r.kind (cs.take n) ≠ .comment) :
    firstMatch Mode.code.rules b' (cs ++ [';']) = some (r, n) := by
  have hplain : ∀ r ∈ Mode.code.rules, r.afterBreak = false := by decide
  obtain ⟨hr, hn⟩ := firstMatch_some h
  have hcs : cs ≠ [] := by
    have := Mode.code.bounded_rules r hr cs n (pattern_of_length? hn)
    rintro rfl
    simp only [List.length_nil] at this
    omega
  refine firstMatch_of_none h (fun r' hr' hnone => ?_) ?_
  · rw [length?_plain (hplain r' hr')] at hnone ⊢
    obtain rfl | hsteady := steady_code r' hr'
    · exact comment_behind hcs hnone
    · rw [hsteady cs hcs, hnone]
  · rw [length?_plain (hplain r hr)] at hn ⊢
    obtain rfl | hsteady := steady_code r hr
    · exact absurd rfl hk
    · rw [hsteady cs hcs, hn]

theorem firstMatch_quoted (h : firstMatch Mode.quoted.rules b cs = some (r, n))
    (hend : cs.drop (quotedRun cs) ≠ []) (hback : cs.drop (quotedRun cs) ≠ ['\\']) :
    firstMatch Mode.quoted.rules b' (cs ++ [';']) = some (r, n) := by
  have hplain : ∀ r ∈ Mode.quoted.rules, r.afterBreak = false := by decide
  have hsteady : ∀ r ∈ Mode.quoted.rules, r.length? b' (cs ++ [';']) = r.length? b cs := by
    intro r hr
    rw [length?_plain (hplain r hr), length?_plain (hplain r hr), steady_quoted hend hback r hr]
  obtain ⟨hr, hn⟩ := firstMatch_some h
  exact firstMatch_of_none h (fun r' hr' hnone => (hsteady r' hr').trans hnone)
    ((hsteady r hr).trans hn)

/-- A lexer that stands `k` places further on in another text, with a semicolon behind what is
left. -/
structure Beside (k : Int) (l m : Lexer) : Prop where
  alike : Alike l m
  rest : m.rest = l.rest ++ [';']
  line : m.line = l.line
  pos : m.pos = l.pos + k
  inside : l.Inside
  inside_beside : m.Inside

/-- By the same rule, the two read the same token. -/
theorem next_beside (h : Beside k l m)
    (hm : firstMatch l.mode.rules l.behind l.rest = some (r, n))
    (hm' : firstMatch l.mode.rules m.behind (l.rest ++ [';']) = some (r, n))
    (hn : l.next = .token t l') :
    ∃ m', m.next = .token (t.shift k) m' ∧ Beside k l' m' := by
  have ha := (next_of_firstMatch h.inside hm).symm.trans hn
  rw [← h.alike.mode, ← h.rest] at hm'
  have hm₀ := next_of_firstMatch h.inside_beside hm'
  obtain ⟨hr, hlen⟩ := firstMatch_some hm
  have hle := (length?_bounded hr hlen).2
  have htake : m.rest.take n = l.rest.take n := by
    rw [h.rest, List.take_append_of_le_length hle]
  have hrest : (m.advance r n).rest = (l.advance r n).rest ++ [';'] := by
    simp only [advance, h.rest, drop_behind hle]
  have hname : (m.advance r n).atName = (l.advance r n).atName := by
    rw [atName, hrest, startsWith_behind (by decide), atName]
  have hword : (m.spelling r n).word = (l.spelling r n).word := by
    simp only [Token.word, spelling, htake]
  have halike : Alike (l.advance r n) (m.advance r n) :=
    ⟨h.alike.mode, h.alike.stack, h.alike.label⟩
  obtain ⟨t', m', ha', halike', hw⟩ := apply_alike halike hname hword ha
  obtain ⟨hs, -, hline, hpos⟩ := apply_token ha
  obtain ⟨hs', -, hline', hpos'⟩ := apply_token ha'
  obtain rfl : t' = t.shift k := by
    obtain ⟨kind, text, line, pos⟩ := t
    obtain ⟨kind', text', line', pos'⟩ := t'
    obtain ⟨rfl, rfl⟩ := Prod.mk.inj hw
    obtain rfl : line' = line := hline'.trans (h.line.trans hline.symm)
    obtain rfl : pos' = pos + k := hpos'.trans (h.pos.trans (congrArg (· + k) hpos.symm))
    rfl
  have hm'' := hm₀.trans ha'
  have hl := h.inside.pos
  have hm := h.inside_beside.pos
  have hplace := h.pos
  refine ⟨m', hm'', halike', ?_, ?_, ?_, inside_token hn h.inside,
    inside_token hm'' h.inside_beside⟩
  · rw [hs'.rest, hrest, hs.rest]
  · rw [hs'.line, hs.line]
    simp only [advance, htake, h.line]
  · rw [hs'.pos, hs.pos]
    simp only [advance]
    omega

/-- The modes of a lexer that reads a value: code with none waiting, or text between quotes in
it. -/
def Plain (l : Lexer) : Prop := l.modes = (.code, []) ∨ l.modes = (.quoted, [.code])

/-- A text that is read on between quotes goes on with more than a backslash. -/
theorem rest_of_quoted (h : l.next = .token t l') (hmode : l.mode = .quoted) :
    l.rest ≠ [] ∧ l.rest ≠ ['\\'] := by
  obtain ⟨r, n, hm, -⟩ := next_firstMatch h
  rw [hmode] at hm
  constructor
  · intro he
    rw [he] at hm
    cases hm
  · intro he
    rw [he] at hm
    cases hm

/-- Outside heredoc text a token has the kind that its rule gives it. -/
theorem kind_of_next (hm : firstMatch l.mode.rules l.behind l.rest = some (r, n))
    (ha : (l.advance r n).apply (l.spelling r n) r.effect = .token t l') (hl : l.mode ≠ .heredoc) :
    r.kind (l.rest.take n) = t.kind := by
  obtain rfl | ⟨he, -⟩ := apply_kind ha
  · rfl
  · exact absurd (Config.closeHeredoc_rules (firstMatch_some hm).1 he).1 hl

/-- A token of a value leads on in the value. -/
theorem plain_next (hl : l.Plain) (hn : l.next = .token t l')
    (hk : t.kind ∈ .whitespace :: staticKinds) : l'.Plain := by
  obtain ⟨r, n, hm, ha⟩ := next_firstMatch hn
  obtain ⟨hr, -⟩ := firstMatch_some hm
  obtain hl | hl := hl <;> obtain ⟨hmode, hstack⟩ := Prod.mk.inj hl
  · rw [← kind_of_next hm ha (by simp [hmode])] at hk
    obtain he | he := effect_code r (hmode ▸ hr) _ hk <;> rw [he] at ha <;> cases ha
    · exact .inl hl
    · exact .inr (by simp [modes, push, advance, hmode, hstack])
  · rw [← kind_of_next hm ha (by simp [hmode])] at hk
    obtain ⟨he, -⟩ | ⟨he, -⟩ := effect_quoted r (hmode ▸ hr) _ hk <;> rw [he] at ha
    · obtain ⟨hpop, -⟩ := popThen_token ha
      simp only [pop?, advance, hstack, Option.some.injEq] at hpop
      exact .inl (by simp [← hpop, modes])
    · cases ha
      exact .inr hl

/-- A token of a value is the same with a semicolon behind the text, if text between quotes that
it leads into goes on. -/
theorem next_plain (h : Beside k l m) (hl : l.Plain) (hn : l.next = .token t l')
    (hk : t.kind ∈ .whitespace :: staticKinds)
    (hmore : l'.mode = .quoted → ∃ u l'', l'.next = .token u l'') :
    ∃ m', m.next = .token (t.shift k) m' ∧ Beside k l' m' := by
  obtain ⟨r, n, hm, ha⟩ := next_firstMatch hn
  refine next_beside h hm ?_ hn
  obtain ⟨hr, hlength⟩ := firstMatch_some hm
  obtain hl | hl := hl <;> obtain ⟨hmode, hstack⟩ := Prod.mk.inj hl
  · rw [← kind_of_next hm ha (by simp [hmode])] at hk
    rw [hmode] at hm ⊢
    refine firstMatch_code hm fun he => ?_
    rw [he] at hk
    exact absurd hk (by decide)
  · rw [← kind_of_next hm ha (by simp [hmode])] at hk
    have hpattern := pattern_of_length? hlength
    obtain ⟨-, hp⟩ | ⟨he, hp⟩ := effect_quoted r (hmode ▸ hr) _ hk <;> rw [hp] at hpattern
    · obtain ⟨cs, hcs⟩ : ∃ cs, l.rest = '"' :: cs := eq_append_of_exactly hpattern
      rw [hmode] at hm ⊢
      exact firstMatch_quoted hm (by simp [hcs, quotedRun]) (by simp [hcs, quotedRun])
    · obtain rfl : quotedRun l.rest = n := by
        simp only [quotedText, nonzero] at hpattern
        split at hpattern
        · cases hpattern
        · exact Option.some.inj hpattern
      rw [he] at ha
      cases ha
      obtain ⟨u, l'', hu⟩ := hmore hmode
      obtain ⟨hend, hback⟩ := rest_of_quoted hu hmode
      rw [hmode] at hm ⊢
      exact firstMatch_quoted hm hend hback

/-- A token takes its text off the rest, and the lines that end in it are counted. -/
theorem line_next (hn : l.next = .token t l') :
    l.rest = t.text.toList ++ l'.rest ∧ l'.line = l.line + t.text.toList.count '\n' := by
  obtain ⟨r, hr, n, hlength, ha⟩ := next_token hn
  obtain ⟨hs, htext, -⟩ := apply_token ha
  refine ⟨(next_token_rest hn).2, ?_⟩
  rw [hs.line, line_advance hr hlength, htext, spelling, String.toList_ofList]

theorem rest_of_finished (hl : l.Inside) (hn : l.next = .finished l') : l.rest = [] := by
  obtain ⟨cs, hcs⟩ := Option.ne_none_iff_exists'.mp hl.text
  obtain ⟨hrest, -⟩ | he | ⟨r, -, n, -, he⟩ := next_cases hcs hl.pos
  · exact hrest
  · rw [he] at hn
    cases hn
  · rw [he] at hn
    exact absurd hn apply_ne_finished

end Docblock.Lexer

namespace Docblock.Filter

open Token Lexer

variable {f g : Filter} {ts : List Token} {m : Lexer} {u t : Token} {k : Int}
  {last last' : Option Kind}

/-- A filter whose mode is still to change reads on. -/
theorem Reads.goes_on (h : Reads f ts g) (hmode : f.lexer.mode ≠ g.lexer.mode) :
    ∃ u l, f.lexer.next = .token u l := by
  cases h with
  | refl => exact absurd rfl hmode
  | skip h | hand h => exact ⟨_, _, h⟩

theorem endsStatement_static : ∀ k ∈ staticKinds, endsStatement (some k) = false := by decide

/-- What is left out of a value is white space. -/
theorem kind_of_skipped (hf : f.lexer.Plain) (hlast : endsStatement f.last = false)
    (hn : f.lexer.next = .token u m) (hp : fate f.last u.kind = .dropped last) :
    u.kind = .whitespace := by
  obtain ⟨hwhite, -⟩ | htag | ⟨-, hends, -⟩ := fate_dropped hp
  · exact hwhite
  · have hmode := mode_of_openTag hn htag
    obtain hl | hl := hf
    all_goals
      rw [(Prod.mk.inj hl).1] at hmode
      cases hmode
  · rw [hlast] at hends
    cases hends

/-- What is handed on of a value is what was read. -/
theorem eq_of_handed {k : Kind} (hp : fate last u.kind = .emitted k) (hk : k ∈ staticKinds) :
    k = u.kind := by
  obtain heq | hmade := emitted_eq hp
  · exact congrArg Token.kind heq
  · have hnone : ∀ k ∈ [Kind.kwEcho, Kind.semi], k ∉ staticKinds := by decide
    exact absurd hk (hnone _ hmade)

/-- What is read of a value leads on in the value, and white space apart it is handed on. -/
theorem reads_plain (h : Reads f ts g) (hts : ∀ t ∈ ts, t.kind ∈ staticKinds)
    (hf : f.lexer.Plain) (hlast : endsStatement f.last = false) : g.lexer.Plain := by
  induction h with
  | refl => exact hf
  | skip hn hp hr ih =>
    have hwhite := kind_of_skipped hf hlast hn hp
    obtain rfl := by simpa [fate, hwhite] using hp
    exact ih hts (plain_next hf hn (List.mem_cons.mpr (.inl hwhite))) hlast
  | hand hn hp hr ih =>
    obtain ⟨ht, htail⟩ := List.forall_mem_cons.mp hts
    obtain rfl := eq_of_handed hp ht
    exact ih htail (plain_next hf hn (List.mem_cons_of_mem _ ht)) (endsStatement_static _ ht)

/-- A value is read alike, token by token, with a semicolon behind it. -/
theorem reads_beside (h : Reads f ts g) (hts : ∀ t ∈ ts, t.kind ∈ staticKinds)
    (hf : f.lexer.Plain) (hlast : endsStatement f.last = false) (hg : g.lexer.mode = .code)
    (hb : Beside k f.lexer m) (last : Option Kind) :
    ∃ m' last', Reads ⟨m, last⟩ (ts.map (Token.shift k)) ⟨m', last'⟩ ∧ Beside k g.lexer m' := by
  induction h generalizing m last with
  | refl => exact ⟨m, last, .refl _, hb⟩
  | @skip f g u l last₁ ts hn hp hr ih =>
    have hwhite := kind_of_skipped hf hlast hn hp
    have hmore : l.mode = .quoted → ∃ u l', l.next = .token u l' :=
      fun hmode => hr.goes_on (by simp [hmode, hg])
    have hk : u.kind ∈ .whitespace :: staticKinds := List.mem_cons.mpr (.inl hwhite)
    obtain ⟨m₁, hm₁, hb₁⟩ := next_plain hb hf hn hk hmore
    obtain rfl : last₁ = f.last := by simpa [fate, hwhite, eq_comm] using hp
    obtain ⟨m', last', hreads, hb'⟩ := ih hts (plain_next hf hn hk) hlast hg hb₁ last
    have hfate : fate last (u.shift k).kind = .dropped last := by simp [fate, Token.shift, hwhite]
    exact ⟨m', last', .skip hm₁ hfate hreads, hb'⟩
  | @hand f g u l k₁ ts hn hp hr ih =>
    obtain ⟨ht, htail⟩ := List.forall_mem_cons.mp hts
    obtain rfl := eq_of_handed hp ht
    have hmore : l.mode = .quoted → ∃ u l', l.next = .token u l' :=
      fun hmode => hr.goes_on (by simp [hmode, hg])
    have hk : u.kind ∈ .whitespace :: staticKinds := List.mem_cons_of_mem _ ht
    obtain ⟨m₁, hm₁, hb₁⟩ := next_plain hb hf hn hk hmore
    obtain ⟨m', last', hreads, hb'⟩ :=
      ih htail (plain_next hf hn hk) (endsStatement_static _ ht) hg hb₁ (some u.kind)
    have hkept : ∀ k ∈ staticKinds, k ∉ View.blanks ++ View.tags := by decide
    have hfate : fate last (u.shift k).kind = .emitted u.kind := View.fate_plain last (hkept _ ht)
    exact ⟨m', last', .hand (u := u.shift k) hm₁ hfate hreads, hb'⟩

/-- What is read is taken off the rest, and the lines that end in it are counted. -/
theorem reads_lines (h : Reads f ts g) : ∃ passed, f.lexer.rest = passed ++ g.lexer.rest ∧
    g.lexer.line = f.lexer.line + passed.count '\n' := by
  induction h with
  | refl => exact ⟨[], rfl, by simp⟩
  | skip hn _ _ ih | hand hn _ _ ih =>
    obtain ⟨passed, hrest, hline⟩ := ih
    obtain ⟨hrest', hline'⟩ := line_next hn
    refine ⟨_ ++ passed, by rw [hrest', hrest, List.append_assoc], ?_⟩
    rw [hline, hline', List.count_append]
    omega

theorem line_of_reads {cs : List Char} (h : Reads f ts g)
    (hrest : f.lexer.rest = cs ++ g.lexer.rest) :
    g.lexer.line = f.lexer.line + cs.count '\n' := by
  obtain ⟨passed, hpassed, hline⟩ := reads_lines h
  obtain rfl := List.append_cancel_right (hpassed.symm.trans hrest)
  exact hline

/-- White space in code is passed over. -/
theorem reads_space {cs ds : List Char} (hf : f.lexer.Inside) {b : Option Char}
    (hview : f.lexer.view = ⟨.code, [], none, b, cs ++ ds⟩)
    (hcs : ∀ c ∈ cs, Pattern.isSpace c = true)
    (hds : Pattern.startsWith Pattern.isSpace ds = false) :
    ∃ l b', Reads f [] ⟨l, f.last⟩ ∧ l.Inside ∧ l.view = ⟨.code, [], none, b', ds⟩ := by
  by_cases hne : cs = []
  · subst hne
    exact ⟨f.lexer, b, .refl f, hf, hview⟩
  · obtain ⟨b', hnext⟩ := View.next_space (b := b) hne hcs hds
    rw [← hview] at hnext
    obtain ⟨t, l, hn, hl, hv, hw⟩ := View.next_lexer hf hnext
    have hkind : t.kind = .whitespace := congrArg Prod.fst hw
    exact ⟨l, b', .skip hn (by simp [fate, hkind]) (.refl _), hl, hv⟩

/-- A text that is read as code from its start. -/
def inCode (w : List Char) : Filter := ⟨{ Lexer.initial.input w with mode := .code }, none⟩

/-- A header that ends in code leads to the start of a value, behind all white space, as the value
alone does. -/
theorem beside_start {header w : List Char} {ws : List (Kind × String)} {b : Option Char}
    (hf : f.lexer.Inside) (hline : f.lexer.line = 1)
    (hrest : f.lexer.rest = header ++ ' ' :: (w ++ [';'])) (hbreak : '\n' ∉ header)
    (hheader : f.lexer.view.Reads ws ⟨.code, [], none, b, ' ' :: (w ++ [';'])⟩) :
    ∃ l hs m last k, Reads (inCode w) [] ⟨l, none⟩ ∧ Reads f hs ⟨m, last⟩ ∧
      hs.map Token.word = ws ∧ l.modes = (.code, []) ∧ Beside k l m := by
  -- White space at the start of the value joins the blank before it.
  let space := w.takeWhile Pattern.isSpace
  let cs := w.dropWhile Pattern.isSpace
  have hw : space ++ cs = w := List.takeWhile_append_dropWhile
  have hspace : ∀ c ∈ space, Pattern.isSpace c = true :=
    fun c hc => List.all_eq_true.mp List.all_takeWhile c hc
  have hcs : Pattern.startsWith Pattern.isSpace cs = false := Pattern.startsWith_dropWhile w
  have hview : (inCode w).lexer.view = ⟨.code, [], none, none, space ++ cs⟩ := by
    rw [hw]
    rfl
  obtain ⟨l, b₁, hl, hlinside, hlview⟩ := reads_space ⟨Option.some_ne_none w, Int.le_refl 0⟩
    hview hspace hcs
  obtain ⟨hs, f₁, hf₁, hinside₁, hview₁, hwords⟩ := hheader.filter hf
  have hblank : ' ' :: (w ++ [';']) = (' ' :: space) ++ (cs ++ [';']) := by
    rw [List.cons_append, ← List.append_assoc, hw]
  rw [hblank] at hview₁
  obtain ⟨m, b₂, hm, hminside, hmview⟩ := reads_space hinside₁ hview₁
    (List.forall_mem_cons.mpr ⟨rfl, hspace⟩) ((Pattern.startsWith_behind rfl cs).trans hcs)
  have hreads := hf₁.trans hm
  rw [List.append_nil] at hreads
  have hlrest : l.rest = cs := congrArg View.rest hlview
  have hmrest : m.rest = cs ++ [';'] := congrArg View.rest hmview
  have hlline : l.line = 1 + space.count '\n' := by
    have hpassed : (inCode w).lexer.rest = space ++ l.rest := by
      rw [hlrest, hw]
      rfl
    exact line_of_reads hl hpassed
  have hmline : m.line = 1 + space.count '\n' := by
    have hpassed : f.lexer.rest = (header ++ ' ' :: space) ++ m.rest := by
      rw [hrest, hblank, hmrest, List.append_assoc]
    have hcount := line_of_reads hreads hpassed
    rw [hline, List.count_append, List.count_cons, List.count_eq_zero.mpr hbreak] at hcount
    simpa using hcount
  have halike : Alike l m := by
    refine ⟨?_, ?_, ?_⟩
    · exact (congrArg View.mode hmview).trans (congrArg View.mode hlview).symm
    · exact (congrArg View.stack hmview).trans (congrArg View.stack hlview).symm
    · exact (congrArg View.label hmview).trans (congrArg View.label hlview).symm
  refine ⟨l, hs, m, f₁.last, m.pos - l.pos, hl, hreads, hwords, ?_, halike, ?_, ?_, ?_, hlinside,
    hminside⟩
  · exact Prod.ext (congrArg View.mode hlview) (congrArg View.stack hlview)
  · rw [hmrest, hlrest]
  · rw [hmline, hlline]
  · omega

/-- A value is read alike behind a header that ends in code, and before a semicolon. -/
theorem stream_beside {header w : List Char} {ws : List (Kind × String)} {b : Option Char}
    (hf : f.lexer.Inside) (hline : f.lexer.line = 1)
    (hrest : f.lexer.rest = header ++ ' ' :: (w ++ [';'])) (hbreak : '\n' ∉ header)
    (hheader : f.lexer.view.Reads ws ⟨.code, [], none, b, ' ' :: (w ++ [';'])⟩)
    (he : (inCode w).stream.error? = none)
    (hts : ∀ t ∈ (inCode w).stream.tokens, t.kind ∈ staticKinds)
    (hmode : (inCode w).stream.final.lexer.mode = .code) :
    ∃ (hs : List Token) (k : Int) (s : Token), hs.map Token.word = ws ∧
      s.word = (Kind.semi, ";") ∧ f.stream.error? = none ∧
      f.stream.tokens = hs ++ ((inCode w).stream.tokens.map (Token.shift k) ++ [s]) := by
  obtain ⟨l, hs, m, last, k, hl, hm, hwords, hmodes, hb⟩ :=
    beside_start hf hline hrest hbreak hheader
  obtain ⟨htokens, herror, hfinal⟩ := reads_stream hl
  rw [herror] at he
  rw [htokens, List.nil_append] at hts ⊢
  rw [hfinal] at hmode
  obtain ⟨g, lend, hg, hend, hlast⟩ := stream_reads he
  have hgmode : g.lexer.mode = .code := by
    rw [hlast, next_finished hend] at hmode
    exact hmode
  obtain ⟨m', last', hm', hb'⟩ := reads_beside hg hts (.inl hmodes) rfl hgmode hb last
  have hsemi : m'.rest = [';'] := by
    rw [hb'.rest, rest_of_finished hb'.inside hend, List.nil_append]
  have hview : m'.view = ⟨.code, m'.stack, m'.label, m'.behind, [';']⟩ := by
    rw [view, hb'.alike.mode, hgmode, hsemi]
  have hclose : m'.view.Reads [(.semi, ";")] ⟨.code, m'.stack, m'.label, some ';', []⟩ :=
    hview ▸ .hand View.next_semi (by decide) (.refl _)
  obtain ⟨hword, herror'⟩ := hclose.stream (f := ⟨m', last'⟩) hb'.inside_beside rfl
  obtain ⟨s, hs', hsword⟩ := List.map_eq_singleton_iff.mp hword
  obtain ⟨htokens', herror'', -⟩ := reads_stream (hm.trans hm')
  refine ⟨hs, k, s, hwords, hsword, herror''.trans herror', ?_⟩
  rw [htokens', hs', List.append_assoc]

end Docblock.Filter
