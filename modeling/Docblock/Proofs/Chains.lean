import Docblock.Proofs.Automaton.Numbers
import Docblock.Proofs.Grammar.Chain
import Docblock.Proofs.Grammar.Invariant
import Docblock.Proofs.Source

/-! The trees that a source has for its chains. -/
namespace Docblock.Grammar

variable {file : Option String} {ts us : List Token} {o c : Token} {t : Tree}
  {ops ops' : List Operation}

namespace Suffix

/-- The kind of the first token of a suffix. -/
def opening : Suffix → Token.Kind
  | index _ => .leftBracket
  | character _ => .leftBrace
  | property _ _ _ _ | computed _ _ _ => .objectOperator
  | call _ => .leftParen

theorem exists_tokens (s : Suffix) : ∃ first more, s.tokens = first :: more ∧
    first.kind = s.opening := by
  cases s with
  | index e | character e | call e => exact ⟨e.opener, _, rfl, e.opener_kind⟩
  | property arrow name ha _ => exact ⟨arrow, _, rfl, ha⟩
  | computed arrow ha e => exact ⟨arrow, _, rfl, ha⟩

/-- The suffix that a token opens. -/
theorem exists_of_tokens {ss : List Suffix} (h : ss.flatMap tokens = o :: ts) :
    ∃ s left, ss = s :: left ∧ s.tokens ++ left.flatMap tokens = o :: ts ∧ s.opening = o.kind := by
  cases ss with
  | nil => cases h
  | cons s left =>
    obtain ⟨first, more, hs, hfirst⟩ := s.exists_tokens
    rw [List.flatMap_cons] at h
    rw [hs] at h
    obtain ⟨rfl, -⟩ := List.cons.inj h
    exact ⟨s, left, rfl, by rw [hs, h], hfirst.symm⟩

theorem eq_nil_of_tokens {ss : List Suffix} (h : ss.flatMap tokens = []) : ss = [] := by
  cases ss with
  | nil => rfl
  | cons s left =>
    obtain ⟨first, more, hs, -⟩ := s.exists_tokens
    rw [List.flatMap_cons, hs] at h
    cases h

end Suffix

/-- Tokens between brackets are the same wherever the brackets close. -/
theorem Enclosed.eq_of_tokens {opening closing : Token.Kind} {v u : Nonterminal}
    (e : Enclosed opening v closing) (hclosing : closing ∈ closings) (hc : c.kind = closing)
    (hd : ∃ d : Derivation u, d.yield = ts) {xs ys : List Token}
    (h : e.tokens ++ xs = o :: (ts ++ [c]) ++ ys) : e.opener = o ∧ e.inside = ts ∧ xs = ys := by
  obtain ⟨d, hd⟩ := hd
  obtain ⟨d', hd'⟩ := e.derived
  have hcloser : e.closer.kind ∈ closings := e.closer_kind.symm ▸ hclosing
  simp only [tokens, List.cons_append, List.append_assoc, List.nil_append, List.cons.injEq, ← hd,
    ← hd'] at h
  obtain ⟨hinside, -, hrest⟩ := d'.yield_unique d hcloser (hc.symm ▸ hclosing) h.2
  exact ⟨h.1, hd'.symm.trans (hinside.trans hd), hrest⟩

/-- Wherever the tokens stand before others in the suffixes of a chain, they are suffixes
themselves and are read as the operations. -/
def Suffixed (file : Option String) (ts : List Token) (ops : List Operation) : Prop :=
  ∀ (ss : List Suffix) (xs : List Token), ss.flatMap Suffix.tokens = ts ++ xs →
    ∃ taken left : List Suffix, ss = taken ++ left ∧ left.flatMap Suffix.tokens = xs ∧
      taken.Forall₂ (Suffix.ReadAs file) ops

namespace Suffixed

theorem nil : Suffixed file [] [] := fun ss _ h => ⟨[], ss, rfl, h, .nil⟩

theorem append (h : Suffixed file ts ops) (h' : Suffixed file us ops') :
    Suffixed file (ts ++ us) (ops ++ ops') := by
  intro ss xs hss
  rw [List.append_assoc] at hss
  obtain ⟨taken, left, rfl, hleft, hread⟩ := h ss _ hss
  obtain ⟨taken', left', rfl, hleft', hread'⟩ := h' left xs hleft
  exact ⟨taken ++ taken', left', (List.append_assoc ..).symm, hleft',
    List.rel_append hread hread'⟩

/-- Tokens between brackets are a suffix, if every suffix that opens like them is in these
brackets. -/
theorem enclosed {opening closing : Token.Kind} {v : Nonterminal} {op : Operation}
    (suffix : Enclosed opening v closing → Suffix) (hclosing : closing ∈ closings)
    (htokens : ∀ e, (suffix e).tokens = e.tokens)
    (hsuffix : ∀ s : Suffix, s.opening = opening → ∃ e, s = suffix e) (ho : o.kind = opening)
    (hd : ∃ d : Derivation v, d.yield = ts) (hc : c.kind = closing)
    (hread : ∀ e, e.opener = o → e.inside = ts → (suffix e).ReadAs file op) :
    Suffixed file (o :: (ts ++ [c])) [op] := by
  intro ss xs hss
  obtain ⟨s, left, rfl, hs, hopening⟩ := Suffix.exists_of_tokens hss
  obtain ⟨e, rfl⟩ := hsuffix s (hopening.trans ho)
  rw [htokens] at hs
  obtain ⟨hopener, hinside, hleft⟩ := e.eq_of_tokens hclosing hc hd hs
  exact ⟨[suffix e], left, rfl, hleft, .cons (hread e hopener hinside) .nil⟩

theorem index {x : Tree} (ho : o.kind = .leftBracket) (h : ReadAs file .dimension ts x)
    (hc : c.kind = .rightBracket) :
    Suffixed file (o :: (ts ++ [c])) [.offset ⟨.arrayOffset, x, o.line⟩] := by
  refine enclosed .index (by decide) (fun _ => rfl) ?_ ho (h.imp fun _ => And.left) hc ?_
  · rintro (e | _ | _ | _ | _) ⟨⟩
    exact ⟨e, rfl⟩
  · rintro e rfl rfl
    exact .index h

theorem character {x : Tree} (ho : o.kind = .leftBrace) (h : ReadAs file .expr ts x)
    (hc : c.kind = .rightBrace) :
    Suffixed file (o :: (ts ++ [c])) [.offset ⟨.stringOffset, x, o.line⟩] := by
  refine enclosed .character (by decide) (fun _ => rfl) ?_ ho (h.imp fun _ => And.left) hc ?_
  · rintro (_ | e | _ | _ | _) ⟨⟩
    exact ⟨e, rfl⟩
  · rintro e rfl rfl
    exact .character h

theorem call {args : List Tree} (ho : o.kind = .leftParen) (h : ReadAs file .arguments ts args)
    (hc : c.kind = .rightParen) : Suffixed file (o :: (ts ++ [c])) [.call o.line args] := by
  refine enclosed .call (by decide) (fun _ => rfl) ?_ ho (h.imp fun _ => And.left) hc ?_
  · rintro (_ | _ | _ | _ | e) ⟨⟩
    exact ⟨e, rfl⟩
  · rintro e rfl rfl
    exact .call h

theorem property {arrow name : Token} (ha : arrow.kind = .objectOperator)
    (hn : name.kind = .ident) : Suffixed file [arrow, name] [.property (.text name.text)] := by
  intro ss xs hss
  obtain ⟨s, left, rfl, hs, hopening⟩ := Suffix.exists_of_tokens hss
  rw [ha] at hopening
  cases s with
  | property arrow' name' ha' hn' =>
    cases hs
    exact ⟨[_], left, rfl, rfl, .cons .property .nil⟩
  | computed arrow' ha' e =>
    have hname : e.opener = name := (List.cons.inj (List.cons.inj hs).2).1
    cases (hname ▸ e.opener_kind).symm.trans hn
  | index | character | call => cases hopening

theorem computed {arrow : Token} {x : Tree} (ha : arrow.kind = .objectOperator)
    (ho : o.kind = .leftBrace) (h : ReadAs file .expr ts x) (hc : c.kind = .rightBrace) :
    Suffixed file (arrow :: o :: (ts ++ [c])) [.property x] := by
  intro ss xs hss
  obtain ⟨s, left, rfl, hs, hopening⟩ := Suffix.exists_of_tokens hss
  rw [ha] at hopening
  cases s with
  | property arrow' name' ha' hn' =>
    have hname : name' = o := (List.cons.inj (List.cons.inj hs).2).1
    cases (hname ▸ hn').symm.trans ho
  | computed arrow' ha' e =>
    obtain ⟨d, hd, hx⟩ := h
    obtain ⟨rfl, rfl, hleft⟩ := e.eq_of_tokens (by decide) hc ⟨d, hd⟩
      (List.cons.inj hs).2
    exact ⟨[_], left, rfl, hleft, .cons (.computed ⟨d, hd, hx⟩) .nil⟩
  | index | character | call => cases hopening

/-- The name of a property in a chain is no variable. -/
theorem of_variable {arrow first : Token} (ha : arrow.kind = .objectOperator)
    (hf : first.kind = .var ∨ first.kind = .dollar) : Suffixed file (arrow :: first :: ts) ops := by
  intro ss xs hss
  obtain ⟨s, left, rfl, hs, hopening⟩ := Suffix.exists_of_tokens hss
  rw [ha] at hopening
  cases s with
  | property arrow' name' ha' hn' =>
    have hname : name' = first := (List.cons.inj (List.cons.inj hs).2).1
    rw [← hname, hn'] at hf
    simp at hf
  | computed arrow' ha' e =>
    have hname : e.opener = first := (List.cons.inj (List.cons.inj hs).2).1
    rw [← hname, e.opener_kind] at hf
    simp at hf
  | index | character | call => cases hopening

end Suffixed

/-- The first of some tokens can be that of a variable. -/
def StartsVariable (ts : List Token) : Prop :=
  ∃ first more, ts = first :: more ∧ (first.kind = .var ∨ first.kind = .dollar)

/-- No chain starts with the tokens. -/
def Foreign (ts : List Token) : Prop := ∀ (w : Chain) (xs : List Token), w.tokens ≠ ts ++ xs

/-- A chain that starts with the tokens has no dollars before its variable. -/
def Undollared (ts : List Token) : Prop :=
  ∀ (w : Chain) (xs : List Token), w.tokens = ts ++ xs → w.dollars = []

/-- Wherever the tokens stand at the start of a chain, they are its variable and suffixes of it,
which are indices and then the calls, and the tree is made of them. -/
def Based (file : Option String) (ts : List Token) (t : Tree) (calls : List Operation) : Prop :=
  ∀ (w : Chain) (xs : List Token), w.tokens = ts ++ xs →
    ∃ taken left : List Suffix, w.suffixes = taken ++ left ∧ left.flatMap Suffix.tokens = xs ∧
      ∃ (v : Tree) (ds : List Dimension), w.base.ReadAs file v ∧
        taken.Forall₂ (Suffix.ReadAs file) (ds.map .offset ++ calls) ∧
        ∀ line, t = around line v (ds.map .offset ++ (w.dereferences ++ calls))

theorem Variable.startsVariable (b : Variable) (xs : List Token) :
    StartsVariable (b.tokens ++ xs) := by
  cases b with
  | named v hv => exact ⟨v, _, rfl, Or.inl hv⟩
  | computed dollar hd e => exact ⟨dollar, _, rfl, Or.inr hd⟩

theorem Chain.startsVariable (w : Chain) : StartsVariable w.tokens := by
  rw [tokens]
  cases h : w.dollars with
  | nil => exact w.base.startsVariable _
  | cons d ds =>
    have hd : d ∈ w.dollars := h ▸ List.mem_cons_self
    exact ⟨d, _, rfl, Or.inr (w.dollars_kind d hd)⟩

/-- What a chain is behind its first dollar. -/
theorem Chain.exists_behind {w : Chain} {d : Token} {ds : List Token} (h : w.dollars = d :: ds) :
    ∃ w' : Chain, w.tokens = d :: w'.tokens ∧ w'.base = w.base ∧ w'.suffixes = w.suffixes ∧
      w.dereferences = w'.dereferences ++ [Operation.dereference d.line] := by
  have hds : ∀ e ∈ ds, e.kind = .dollar :=
    fun e he => w.dollars_kind e (h ▸ List.mem_cons_of_mem d he)
  refine ⟨⟨ds, w.base, w.suffixes, hds⟩, by simp [tokens, h], rfl, rfl, ?_⟩
  simp [dereferences, h]

theorem foreign_of_kind (hvar : o.kind ≠ .var) (hdollar : o.kind ≠ .dollar) :
    Foreign (o :: ts) := by
  intro w xs hw
  obtain ⟨first, more, hfirst, hkind⟩ := w.startsVariable
  rw [hw] at hfirst
  obtain ⟨rfl, -⟩ := List.cons.inj hfirst
  exact hkind.elim hvar hdollar

theorem Foreign.append (h : Foreign ts) (us : List Token) : Foreign (ts ++ us) :=
  fun w xs hw => h w (us ++ xs) (hw.trans (List.append_assoc ..))

theorem Foreign.based {calls : List Operation} (h : Foreign ts) : Based file ts t calls :=
  fun w xs hw => absurd hw (h w xs)

/-- Behind a class there is no chain. -/
theorem Based.foreign (h : Based file ts t []) (ho : o.kind = .doubleColon) :
    Foreign (ts ++ o :: us) := by
  intro w xs hw
  rw [List.append_assoc] at hw
  obtain ⟨taken, left, -, hleft, -⟩ := h w _ hw
  obtain ⟨s, -, -, -, hopening⟩ := Suffix.exists_of_tokens hleft
  rw [ho] at hopening
  cases s <;> cases hopening

theorem based_of_base (hu : Undollared ts)
    (h : ∀ (b : Variable) (xs ys : List Token), b.tokens ++ ys = ts ++ xs →
      b.ReadAs file t ∧ ys = xs) : Based file ts t [] := by
  intro w xs hw
  have hnone := hu w xs hw
  rw [Chain.tokens, hnone, List.nil_append] at hw
  obtain ⟨hread, hxs⟩ := h w.base xs _ hw
  refine ⟨[], w.suffixes, rfl, hxs, t, [], hread, .nil, fun line => ?_⟩
  rw [Chain.dereferences, hnone]
  rfl

theorem Based.index {d : Dimension} (hu : Undollared ts) (h : Based file ts t [])
    (hs : Suffixed file us [.offset d]) :
    Based file (ts ++ us) (node d.line d.kind [t, d.value]) [] := by
  intro w xs hw
  rw [List.append_assoc] at hw
  obtain ⟨taken, left, hsplit, hleft, v, ds, hv, htaken, ht⟩ := h w _ hw
  obtain ⟨taken', left', rfl, hleft', hread⟩ := hs left xs hleft
  have hnone : w.dereferences = [] := by rw [Chain.dereferences, hu w _ hw]; rfl
  refine ⟨taken ++ taken', left', by rw [hsplit, List.append_assoc], hleft', v, ds ++ [d], hv, ?_,
    fun line => ?_⟩
  · rw [List.append_nil] at htaken ⊢
    rw [List.map_append]
    exact List.rel_append htaken hread
  · rw [hnone, List.append_nil, List.append_nil] at ht ⊢
    rw [List.map_append, around_offsets, ht line, ← List.append_nil (ds.map _), around_offsets]
    rfl

theorem Based.call {line : Int} {args : List Tree} (h : Based file ts t [])
    (hs : Suffixed file us [.call line args]) :
    Based file (ts ++ us) (node line .functionCall [t, .list args]) [.call line args] := by
  intro w xs hw
  rw [List.append_assoc] at hw
  obtain ⟨taken, left, hsplit, hleft, v, ds, hv, htaken, ht⟩ := h w _ hw
  obtain ⟨taken', left', rfl, hleft', hread⟩ := hs left xs hleft
  refine ⟨taken ++ taken', left', by rw [hsplit, List.append_assoc], hleft', v, ds, hv, ?_,
    fun line => ?_⟩
  · rw [List.append_nil] at htaken
    exact List.rel_append htaken hread
  · rw [← List.append_assoc, around_append ?_, ht line, List.append_nil]
    · rfl
    · simp [Chain.dereferences, or_imp, forall_and, Operation.role]

theorem Based.dollar {d : Token} (hstart : StartsVariable ts) (h : Based file ts t [])
    (hd : d.kind = .dollar) : Based file (d :: ts) (node d.line .var [t]) [] := by
  intro w xs hw
  cases hdollars : w.dollars with
  | nil =>
    rw [Chain.tokens, hdollars, List.nil_append] at hw
    obtain ⟨first, more, rfl, hkind⟩ := hstart
    cases hb : w.base with
    | named v hv =>
      rw [hb] at hw
      cases (List.cons.inj hw).1
      cases hv.symm.trans hd
    | computed dollar hd e =>
      rw [hb] at hw
      have hfirst : e.opener = first := (List.cons.inj (List.cons.inj hw).2).1
      rw [← hfirst, e.opener_kind] at hkind
      simp at hkind
  | cons d' ds =>
    obtain ⟨w', htokens, hbase, hsuffixes, hderef⟩ := Chain.exists_behind hdollars
    rw [htokens] at hw
    obtain ⟨rfl, hw'⟩ := List.cons.inj hw
    obtain ⟨taken, left, hsplit, hleft, v, ds, hv, htaken, ht⟩ := h w' xs hw'
    refine ⟨taken, left, hsuffixes ▸ hsplit, hleft, v, ds, hbase ▸ hv, htaken, fun line => ?_⟩
    rw [hderef, List.append_nil, ← List.append_assoc, around_append ?_, ht line, List.append_nil]
    · rfl
    · simp [Chain.dereferences, or_imp, forall_and, Operation.role]

theorem promote_calls {calls : List Operation} (h : ∀ op ∈ calls, op.role = .call)
    (ops : List Operation) : calls.foldr promote ops = calls ++ ops := by
  induction calls with
  | nil => rfl
  | cons op calls ih =>
    obtain ⟨hop, hcalls⟩ := List.forall_mem_cons.mp h
    rw [List.foldr_cons, ih hcalls]
    refine promote_eq fun hmoves => ?_
    cases hop.symm.trans hmoves.1

namespace Chain

variable {w : Chain} {taken left : List Suffix} {v : Tree} {ds : List Dimension}
  {calls : List Operation} {ls : List Link}

/-- Where the operations of indices, calls and links take place. -/
theorem order_eq (w : Chain) (ds : List Dimension) (hcalls : ∀ op ∈ calls, op.role = .call)
    (ls : List Link) :
    w.order (ds.map .offset ++ calls ++ ls.flatMap Link.written) =
      ds.map .offset ++ (w.dereferences ++ calls) ++ ls.flatMap Link.arranged := by
  have hds : ∀ op ∈ ds.map Operation.offset, decide (op.role = .index) = true := by
    simp [Operation.role]
  -- Behind the indices there is a call, a property or nothing.
  have hrest : (calls ++ ls.flatMap Link.written).takeWhile (·.role = .index) = [] ∧
      (calls ++ ls.flatMap Link.written).dropWhile (·.role = .index) =
        calls ++ ls.flatMap Link.written := by
    cases calls with
    | nil => cases ls <;> exact ⟨rfl, rfl⟩
    | cons op calls => simp [hcalls op List.mem_cons_self]
  rw [order, List.append_assoc, List.takeWhile_append_of_pos hds, List.dropWhile_append_of_pos hds,
    hrest.1, hrest.2, List.foldr_append, Link.promote_links, promote_calls hcalls]
  simp only [List.append_assoc, List.append_nil]

theorem head_roles (ds : List Dimension) (hcalls : ∀ op ∈ calls, op.role = .call) :
    ∀ op ∈ ds.map Operation.offset ++ calls, op.role ≠ .property := by
  intro op hop
  obtain hop | hop := List.mem_append.mp hop
  · obtain ⟨d, -, rfl⟩ := List.mem_map.mp hop
    simp [Operation.role]
  · simp [hcalls op hop]

/-- What is made of a chain whose suffixes are indices, calls and links. -/
theorem nests_of_links (hsplit : w.suffixes = taken ++ left) (hv : w.base.ReadAs file v)
    (htaken : taken.Forall₂ (Suffix.ReadAs file) (ds.map .offset ++ calls))
    (hcalls : ∀ op ∈ calls, op.role = .call)
    (hleft : left.Forall₂ (Suffix.ReadAs file) (ls.flatMap Link.written))
    (ht : t = around w.arrowLine v (ds.map .offset ++ (w.dereferences ++ calls))) :
    w.Nests file ((ls.map (·.access)).foldl (access w.arrowLine) t) := by
  have hread : w.suffixes.Forall₂ (Suffix.ReadAs file)
      (ds.map .offset ++ calls ++ ls.flatMap Link.written) :=
    hsplit ▸ List.rel_append htaken hleft
  have hroles : ∀ op ∈ ds.map Operation.offset ++ (w.dereferences ++ calls),
      op.role ≠ .property := by
    have hhead := head_roles ds hcalls
    simp only [List.forall_mem_append] at hhead ⊢
    exact ⟨hhead.1, by simp [dereferences, Operation.role], hhead.2⟩
  refine ⟨v, _, hv, hread, _, rfl, ?_, nested_pairwise .., ?_⟩
  · rw [outermost_nested, order_eq w ds hcalls ls, around_append hroles, ← ht,
      Link.around_links]
  · rw [nested_fst]
    exact order_eq_iff hread

/-- The first arrow in a chain is the one behind its indices and calls. -/
theorem arrowLine_eq (hsplit : w.suffixes = taken ++ left)
    (htaken : taken.Forall₂ (Suffix.ReadAs file) (ds.map .offset ++ calls))
    (hcalls : ∀ op ∈ calls, op.role = .call) (ho : o.kind = .objectOperator)
    (hleft : left.flatMap Suffix.tokens = o :: ts) : w.arrowLine = o.line := by
  have hnone : taken.findSome? Suffix.arrow? = none := by
    refine List.findSome?_eq_none_iff.mpr fun s hs => ?_
    have hrole : s.role ∈ (ds.map Operation.offset ++ calls).map Operation.role :=
      roles_eq htaken ▸ List.mem_map_of_mem hs
    obtain ⟨op, hop, heq⟩ := List.mem_map.mp hrole
    cases s with
    | index | character | call => rfl
    | property | computed => exact absurd heq (head_roles ds hcalls op hop)
  obtain ⟨s, left, rfl, hs, hopening⟩ := Suffix.exists_of_tokens hleft
  have harrow : s.arrow? = some o := by
    rw [ho] at hopening
    cases s with
    | property | computed => exact congrArg some (List.cons.inj hs).1
    | index | character | call => cases hopening
  rw [arrowLine, hsplit, List.findSome?_append, hnone, List.findSome?_cons, harrow]
  rfl

end Chain

/-- What tokens of a nonterminal are where they stand in a chain. -/
def Fits (file : Option String) : (v : Nonterminal) → List Token → v.Value → Prop
  | .empty, ts, _ => ts = []
  | .namespaceName, ts, _ | .className, ts, _ => Foreign ts
  | .compoundVar, ts, t | .referenceVar, ts, t | .varClassName, ts, t =>
    StartsVariable ts ∧ Undollared ts ∧ Based file ts t []
  | .indirectVar, ts, t | .varWithoutObjects, ts, t => StartsVariable ts ∧ Based file ts t []
  | .staticMember, ts, t | .baseVar, ts, t => Based file ts t []
  | .functionCall, ts, t | .baseWithCalls, ts, t =>
    ∃ calls, (∀ op ∈ calls, op.role = .call) ∧ Based file ts t calls
  | .dimensions, ts, ds => Suffixed file ts (ds.map .offset)
  | .propertyName, ts, name =>
    ∀ arrow : Token, arrow.kind = .objectOperator → Suffixed file (arrow :: ts) [.property name]
  | .objectProperty, ts, p => ∀ arrow : Token, arrow.kind = .objectOperator →
    Suffixed file (arrow :: ts) (.property p.name :: p.dimensions.map .offset)
  | .methodArguments, ts, args => ∃ line, Suffixed file ts (args.map (.call line ·)).toList
  | .property, ts, a => ∃ l : Link, l.access = a ∧ Suffixed file ts l.written
  | .dynamicProperty, ts, p => ∃ l : Link, l.access = ⟨p, none⟩ ∧ Suffixed file ts l.written
  | .properties, ts, as =>
    ∃ ls : List Link, ls.map (·.access) = as ∧ Suffixed file ts (ls.flatMap Link.written)
  | .dynamicProperties, ts, ps => ∃ ls : List Link, ls.map (·.access) = ps.map (⟨·, none⟩) ∧
    Suffixed file ts (ls.flatMap Link.written)
  | .varExpr, ts, t | .dynamicReference, ts, t => ∀ w : Chain, w.tokens = ts → w.Nests file t
  | _, _, _ => True

/-- The nonterminals of the parts of chains. -/
def chained : List Nonterminal := [
  .empty, .namespaceName, .className, .compoundVar, .referenceVar, .varClassName, .indirectVar,
  .varWithoutObjects, .staticMember, .baseVar, .functionCall, .baseWithCalls, .dimensions,
  .propertyName, .objectProperty, .methodArguments, .property, .dynamicProperty, .properties,
  .dynamicProperties, .varExpr, .dynamicReference]

section Rules

variable {calls : List Operation} {ls : List Link}

/-- A chain that ends behind its indices and calls. -/
theorem Based.nests (h : Based file ts t calls) (hcalls : ∀ op ∈ calls, op.role = .call)
    (w : Chain) (hw : w.tokens = ts) : w.Nests file t := by
  obtain ⟨taken, left, hsplit, hleft, v, ds, hv, htaken, ht⟩ := h w [] (by simpa using hw)
  obtain rfl := Suffix.eq_nil_of_tokens hleft
  have hnone : List.Forall₂ (Suffix.ReadAs file) [] (([] : List Link).flatMap Link.written) := .nil
  exact Chain.nests_of_links hsplit hv htaken hcalls hnone (ht w.arrowLine)

/-- A chain that ends in links. -/
theorem Based.nests_access (h : Based file ts t calls) (hcalls : ∀ op ∈ calls, op.role = .call)
    (ho : o.kind = .objectOperator) (hs : Suffixed file (o :: us) (ls.flatMap Link.written))
    (w : Chain) (hw : w.tokens = ts ++ o :: us) :
    w.Nests file ((ls.map (·.access)).foldl (access o.line) t) := by
  obtain ⟨taken, left, hsplit, hleft, v, ds, hv, htaken, ht⟩ := h w _ hw
  rw [← Chain.arrowLine_eq hsplit htaken hcalls ho hleft]
  obtain ⟨taken', left', rfl, hleft', hread⟩ := hs left [] (by simpa using hleft)
  obtain rfl := Suffix.eq_nil_of_tokens hleft'
  rw [List.append_nil] at hsplit
  exact Chain.nests_of_links hsplit hv htaken hcalls hread (ht w.arrowLine)

theorem fits_named {v : Token} (hv : v.kind = .var) :
    Fits file .compoundVar [v] (node v.line .var [.text v.text]) := by
  have hu : Undollared [v] := by
    intro w xs hw
    cases hdollars : w.dollars with
    | nil => rfl
    | cons d ds =>
      obtain ⟨w', htokens, -⟩ := Chain.exists_behind hdollars
      have hd := w.dollars_kind d (hdollars ▸ List.mem_cons_self)
      rw [htokens] at hw
      cases (List.cons.inj hw).1
      cases hd.symm.trans hv
  refine ⟨⟨v, [], rfl, Or.inl hv⟩, hu, based_of_base hu fun b xs ys h => ?_⟩
  cases b with
  | named v' hv' =>
    cases h
    exact ⟨.named, rfl⟩
  | computed dollar hd e =>
    cases (List.cons.inj h).1
    cases hd.symm.trans hv

theorem fits_computed {d : Token} {x : Tree} (hd : d.kind = .dollar) (ho : o.kind = .leftBrace)
    (hx : ReadAs file .expr ts x) (hc : c.kind = .rightBrace) :
    Fits file .compoundVar (d :: o :: (ts ++ [c])) (node d.line .var [x]) := by
  have hu : Undollared (d :: o :: (ts ++ [c])) := by
    intro w xs hw
    cases hdollars : w.dollars with
    | nil => rfl
    | cons d' ds =>
      -- Behind a dollar before a variable, a dollar or a name follows and no brace.
      obtain ⟨w', htokens, -⟩ := Chain.exists_behind hdollars
      rw [htokens] at hw
      have hforeign : Foreign (o :: (ts ++ [c])) := foreign_of_kind (by simp [ho]) (by simp [ho])
      exact absurd (List.cons.inj hw).2 (hforeign w' xs)
  refine ⟨⟨d, _, rfl, Or.inr hd⟩, hu, based_of_base hu fun b xs ys h => ?_⟩
  cases b with
  | named v' hv' =>
    cases (List.cons.inj h).1
    cases hv'.symm.trans hd
  | computed dollar hd' e =>
    obtain ⟨rfl, htokens⟩ := List.cons.inj h
    obtain ⟨-, rfl, hys⟩ := e.eq_of_tokens (by decide) hc (hx.imp fun _ => And.left) htokens
    exact ⟨.computed hx, hys⟩

theorem fits_index {d : Dimension} (h : Fits file .referenceVar ts t)
    (hs : Suffixed file us [.offset d]) :
    Fits file .referenceVar (ts ++ us) (node d.line d.kind [t, d.value]) := by
  obtain ⟨⟨first, more, rfl, hfirst⟩, hu, hb⟩ := h
  refine ⟨⟨first, more ++ us, rfl, hfirst⟩, fun w xs hw => ?_, hb.index hu hs⟩
  exact hu w (us ++ xs) (hw.trans (List.append_assoc ..))

theorem fits_dimension {ds : List Dimension} {d : Dimension} (hds : Fits file .dimensions ts ds)
    (hs : Suffixed file us [.offset d]) : Fits file .dimensions (ts ++ us) (snoc ds d) := by
  simpa [Fits, snoc] using Suffixed.append hds hs

theorem fits_names (lhs : Nonterminal) (value : Int → String → lhs.Value)
    (h : ∀ ts x, Foreign ts → Fits file lhs ts x) :
    ∀ p ∈ nameRules lhs value, p.Spells file (Fits file) := by
  simp only [nameRules, List.forall_mem_cons, List.not_mem_nil, false_imp_iff, implies_true,
    and_true]
  refine ⟨spells_rule ?_, spells_rule ?_, spells_rule ?_⟩
  · rintro ts name ⟨-, hname⟩
    exact h _ _ (hname.append [])
  · rintro b hb ts name -
    exact h _ _ (foreign_of_kind (by simp [hb]) (by simp [hb]))
  · rintro k hk b - ts name -
    exact h _ _ (foreign_of_kind (by simp [hk]) (by simp [hk]))

/-- A property with its indices and its call. -/
theorem fits_link {p : Property} {args : Option (List Tree)} (ho : o.kind = .objectOperator)
    (hp : Fits file .objectProperty ts p) (ha : Fits file .methodArguments us args) :
    Fits file .property (o :: (ts ++ us)) ⟨p, args⟩ := by
  obtain ⟨line, hs⟩ := ha
  exact ⟨⟨⟨p, args⟩, line⟩, rfl, (hp o ho).append hs⟩

theorem fits_uncalled : Fits file .methodArguments [] none := ⟨0, .nil⟩

theorem suffixed_snoc {l : Link} (hls : Suffixed file ts (ls.flatMap Link.written))
    (hl : Suffixed file us l.written) :
    Suffixed file (ts ++ us) ((ls ++ [l]).flatMap Link.written) := by
  simpa using hls.append hl

/-- A property behind a variable, and then further links. -/
theorem nests_properties {as qs : List Token} {p : Property} {args : Option (List Tree)}
    (h : Based file ts t calls) (hcalls : ∀ op ∈ calls, op.role = .call)
    (ho : o.kind = .objectOperator) (hp : Fits file .objectProperty us p)
    (ha : Fits file .methodArguments as args) (hls : Suffixed file qs (ls.flatMap Link.written))
    (w : Chain) (hw : w.tokens = ts ++ o :: (us ++ (as ++ qs))) :
    w.Nests file ((⟨p, args⟩ :: ls.map (·.access)).foldl (access o.line) t) := by
  obtain ⟨l, hl, hlink⟩ := fits_link ho hp ha
  have hs : Suffixed file (o :: (us ++ (as ++ qs))) ((l :: ls).flatMap Link.written) := by
    simpa using hlink.append hls
  rw [← hl]
  exact h.nests_access hcalls ho hs w hw

theorem fits_classNames : ∀ p ∈ classNameRules, p.Spells file (Fits file) := by
  simp only [classNameRules, List.forall_mem_append, List.forall_mem_cons, List.not_mem_nil,
    false_imp_iff, implies_true, and_true]
  refine ⟨⟨⟨spells_of_forall fun _ _ => trivial, spells_of_forall fun _ _ => trivial⟩,
    fits_names _ _ fun _ _ h => h⟩, spells_rule ?_, spells_rule ?_, spells_rule ?_, spells_rule ?_,
    spells_rule ?_, spells_rule ?_⟩
  · rintro w hw
    exact foreign_of_kind (by simp [hw]) (by simp [hw])
  · rintro ts t ⟨-, ht⟩ o ho us p ⟨-, hp⟩ qs ps ⟨-, ls, hls, hps⟩ w hw
    have hnests := nests_properties ht (by simp) ho hp fits_uncalled hps w (by simpa using hw)
    rw [hls] at hnests
    simpa only [List.foldl_cons, List.foldl_map] using hnests
  · rintro ts t ⟨-, ht⟩ w hw
    exact ht.nests (by simp) w (by simpa using hw)
  · rintro ts ps ⟨-, ls, hls, hps⟩ us p ⟨-, l, hl, hp⟩
    refine ⟨ls ++ [l], by simp [hls, hl, snoc], ?_⟩
    rw [List.append_nil]
    exact suffixed_snoc hps hp
  · rintro ts u ⟨-, rfl⟩
    exact ⟨[], rfl, .nil⟩
  · rintro o ho ts p ⟨-, hp⟩
    exact fits_link ho hp fits_uncalled

theorem fits_foreign (h : Foreign ts) : Fits file .functionCall ts t := ⟨[], by simp, h.based⟩

theorem fits_calls : ∀ p ∈ callRules, p.Spells file (Fits file) := by
  simp only [callRules, List.forall_mem_cons, List.not_mem_nil, false_imp_iff, implies_true,
    and_true]
  refine ⟨spells_rule ?_, spells_rule ?_, spells_rule ?_, spells_rule ?_, spells_rule ?_,
    spells_rule ?_, spells_rule ?_, spells_rule ?_, spells_rule ?_, spells_rule ?_⟩
  · rintro ts name ⟨-, hname⟩ o - us args - c -
    exact fits_foreign (hname.append _)
  · rintro b hb ts name - o - us args - c -
    exact fits_foreign (foreign_of_kind (by simp [hb]) (by simp [hb]))
  · rintro k hk b - ts name - o - us args - c -
    exact fits_foreign (foreign_of_kind (by simp [hk]) (by simp [hk]))
  · rintro ts name ⟨-, hname⟩ d - m - o - us args - c -
    exact fits_foreign (hname.append _)
  · rintro ts name ⟨-, hname⟩ d - vs v - o - us args - c -
    exact fits_foreign (hname.append _)
  · rintro ts t ⟨-, -, -, ht⟩ d hd m - o - us args - c -
    exact fits_foreign (ht.foreign hd)
  · rintro ts t ⟨-, -, -, ht⟩ d hd vs v - o - us args - c -
    exact fits_foreign (ht.foreign hd)
  · rintro ts t ⟨-, -, ht⟩ o ho us args ⟨hargs, -⟩ c hc
    exact ⟨[.call o.line args], by simp [Operation.role], ht.call (.call ho hargs hc)⟩
  · rintro o ho us args ⟨hargs, -⟩ c hc
    exact ⟨o.line, .call ho hargs hc⟩
  · rintro ts u ⟨-, rfl⟩
    exact ⟨0, .nil⟩

theorem fits_variables : ∀ p ∈ variableRules, p.Spells file (Fits file) := by
  simp only [variableRules, List.forall_mem_cons, List.not_mem_nil, false_imp_iff, implies_true,
    and_true]
  repeat' apply And.intro
  all_goals apply spells_rule
  all_goals simp only [Spells, List.append_nil]
  · rintro ts t ⟨-, calls, hcalls, ht⟩ o ho us p ⟨-, hp⟩ as args ⟨-, ha⟩ qs _ ⟨-, ls, rfl, hps⟩
    exact nests_properties ht hcalls ho hp ha hps
  · rintro ts t ⟨-, calls, hcalls, ht⟩ w hw
    exact ht.nests hcalls w hw
  · rintro ts t ⟨-, ht⟩
    exact ⟨[], by simp, ht⟩
  · rintro ts t ⟨-, ht⟩
    exact ht
  · rintro ts as ⟨-, ls, rfl, hps⟩ us a ⟨-, l, rfl, hp⟩
    refine ⟨ls ++ [l], by simp [snoc], ?_⟩
    exact suffixed_snoc hps hp
  · rintro ts u ⟨-, rfl⟩
    exact ⟨[], rfl, .nil⟩
  · rintro o ho ts p ⟨-, hp⟩ us args ⟨-, ha⟩
    exact fits_link ho hp ha
  · rintro ts t ⟨-, -, ht⟩
    exact ht
  · rintro ts t ⟨-, ht⟩
    exact ht
  · rintro d hd ts t ⟨-, hstart, ht⟩
    exact ⟨⟨d, ts, rfl, Or.inr hd⟩, ht.dollar hstart hd⟩
  · rintro ts t ⟨-, hstart, -, ht⟩
    exact ⟨hstart, ht⟩
  · rintro ts name ⟨-, hname⟩ d - us v -
    exact (hname.append _).based
  · rintro ts t ⟨-, -, -, ht⟩ d hd us v -
    exact (ht.foreign hd).based
  · rintro ts t ⟨-, ht⟩
    exact ht
  · rintro ts t ⟨-, ht⟩ o ho us x ⟨hx, -⟩ c hc
    exact fits_index ht (.index ho hx hc)
  · rintro ts t ⟨-, ht⟩ o ho us x ⟨hx, -⟩ c hc
    exact fits_index ht (.character ho hx hc)
  · rintro ts t ⟨-, ht⟩
    exact ht
  · rintro v hv
    exact fits_named hv
  · rintro d hd o ho ts x ⟨hx, -⟩ c hc
    exact fits_computed hd ho hx hc
  · exact fun _ _ _ => trivial
  · exact fun _ _ _ => trivial
  · rintro ts name ⟨-, hname⟩ us ds ⟨-, hds⟩ o ho
    exact (hname o ho).append hds
  · rintro ts t ⟨-, ⟨first, more, rfl, hfirst⟩, -⟩ o ho
    exact .of_variable ho hfirst
  · rintro ts u ⟨-, rfl⟩
    exact .nil
  · rintro ts ds ⟨-, hds⟩ o ho us x ⟨hx, -⟩ c hc
    exact fits_dimension hds (.index ho hx hc)
  · rintro ts ds ⟨-, hds⟩ o ho us x ⟨hx, -⟩ c hc
    exact fits_dimension hds (.character ho hx hc)
  · rintro name hn o ho
    exact .property ho hn
  · rintro b hb ts x ⟨hx, -⟩ c hc o ho
    exact .computed ho hb hx hc
  · rintro ts t ⟨-, ht⟩
    exact ht

theorem fits_literals :
    ∀ p ∈ scalarRules ++ staticScalarRules ++ encapsRules, p.Spells file (Fits file) := by
  simp only [scalarRules, staticScalarRules, encapsRules, nameRules, List.forall_mem_append,
    List.forall_mem_cons, List.not_mem_nil, false_imp_iff, implies_true, and_true]
  repeat' apply And.intro
  all_goals first | exact spells_of_forall fun _ _ => trivial | apply spells_rule
  · rintro ts name ⟨-, hname⟩ b - s -
    exact hname.append _
  · rintro s hs
    exact foreign_of_kind (by simp [hs]) (by simp [hs])
  · exact rfl

theorem fits_of_not_mem {v : Nonterminal} (h : v ∉ chained) (ts : List Token) (x : v.Value) :
    Fits file v ts x := by
  cases v <;> trivial

theorem fits_productions : ∀ p ∈ productions, p.Spells file (Fits file) := by
  -- The nonterminals of the other productions stand in no chain.
  have hfits : ∀ v, v ∉ chained → ∀ ts x, Fits file v ts x := fun _ => fits_of_not_mem
  refine forall_productions (spells_outside hfits (by decide)) (spells_outside hfits (by decide)) ?_
    fits_literals
  have hothers : ∀ p ∈ exprRules ++ operatorRules ++ arrayRules ++ argumentRules,
      p.Spells file (Fits file) := spells_outside hfits (by decide)
  simp only [List.forall_mem_append] at hothers ⊢
  exact ⟨⟨⟨hothers, fits_classNames⟩, fits_calls⟩, fits_variables⟩

end Rules

/-- Every chain in a derivation has a tree, which is made of it as it nests: among the variables
of expressions, and among the variables behind the word for a new object. -/
def Derivation.ChainsNest (file : Option String) (d : Derivation .start) : Prop :=
  ∀ w : Chain,
    (∀ c : Derivation .varExpr, d.Contains c → c.yield = w.tokens →
      ∃ t, c.result file = .ok t ∧ w.Nests file t) ∧
    ∀ c : Derivation .dynamicReference, d.Contains c → c.yield = w.tokens →
      ∃ t, c.result file = .ok t ∧ w.Nests file t

theorem Derivation.chainsNest {d : Derivation .start} {us : List Tree}
    (h : d.result file = .ok us) : d.ChainsNest file := by
  obtain ⟨xs, hv, -⟩ := ok_of_map h
  refine fun w => ⟨fun c hc hw => ?_, fun c hc hw => ?_⟩
  · obtain ⟨t, ht⟩ := hc.exists_result hv
    have hread : ReadAs file .varExpr w.tokens t := ⟨c, hw, ht⟩
    exact ⟨t, ht, hread.spelled fits_productions w rfl⟩
  · obtain ⟨t, ht⟩ := hc.exists_result hv
    have hread : ReadAs file .dynamicReference w.tokens t := ⟨c, hw, ht⟩
    exact ⟨t, ht, hread.spelled fits_productions w rfl⟩

end Docblock.Grammar

namespace Docblock

open Token Grammar Docblock.Filter

variable {f g : Filter} {file : Option String} {text : List Char} {ts : List Tree}

/-- A source that can be read has a derivation, and whatever derivation it has, the nodes for what
is written behind a variable are built around the variable, one around the other. They are in the
order in which they are written, but for a call directly behind an index of a property: it is
built before the indices. -/
theorem parse_chains (h : f.parse file text = (.ok ts, g)) :
    (∃ d : Derivation .start,
      d.yield = (f.input text).stream.tokens ∧ d.result file = .ok ts) ∧
    ∀ (d : Derivation .start) (us : List Tree), d.yield = (f.input text).stream.tokens →
      d.result file = .ok us → d.ChainsNest file := by
  obtain ⟨-, -, hd⟩ := parse_ok h
  exact ⟨hd, fun d us _ hus => d.chainsNest hus⟩

/-- A production by its number. -/
def Grammar.Production.numbered (i : Nat) : Production :=
  productions.getD i (rule .empty [] ())

set_option maxRecDepth 4000 in
theorem Grammar.Production.numbered_mem (i : Nat) : numbered i ∈ productions := by
  rw [numbered, List.getD_eq_getElem?_getD]
  cases hp : productions[i]? with
  | none =>
    have hempty : productions[Automaton.Reduction.empty]? = some (rule .empty [] ()) := rfl
    exact List.mem_of_getElem? hempty
  | some p => exact List.mem_of_getElem? hp

/-- A production above the trees of its right side, by its number. -/
def Grammar.Forest.above (i : Nat) {ss : List Symbol}
    (children : Forest (Production.numbered i).rhs) (rest : Forest ss) :
    Forest (.n (Production.numbered i).lhs :: ss) :=
  .node (.numbered i) (Production.numbered_mem i) children rest

/-- No token for a nonterminal that can be empty. -/
def Grammar.Forest.nothing : Forest [.n .empty] := .above Automaton.Reduction.empty .nil .nil

open Automaton.Reduction in
/-- The call of a method of a variable. -/
def Grammar.methodCall : Derivation .varExpr :=
  .above varProperty
    (.above baseWithCalls (.above baseVar (.above indirectVar (.above referenceVar
      (.above compoundVar (.token ⟨.var, "$o", 1, 6⟩ .nil) .nil) .nil) .nil) .nil)
    (.token ⟨.objectOperator, "->", 1, 8⟩
    (.above objectProperty
      (.above propertyName (.token ⟨.ident, "b", 1, 10⟩ .nil) (.above dimensionsNone .nothing .nil))
    (.above methodArguments (.token ⟨.leftParen, "(", 1, 11⟩ (.above argumentsNone .nothing
      (.token ⟨.rightParen, ")", 1, 12⟩ .nil)))
    (.above propertiesNone .nothing .nil))))) .nil

open Automaton.Reduction in
/-- The source with the call as its only statement. -/
def Grammar.methodSource : Derivation .start :=
  .above start (.above statementsMore (.above statementsNone .nothing (.above topStatement
    (.above exprStatement (.above exprVar methodCall (.token ⟨.semi, ";", 1, 13⟩ .nil)) .nil)
    .nil)) .nil) .nil

def Grammar.methodChain : Chain where
  dollars := []
  base := .named ⟨.var, "$o", 1, 6⟩ rfl
  suffixes := [
    .property ⟨.objectOperator, "->", 1, 8⟩ ⟨.ident, "b", 1, 10⟩ rfl rfl,
    .call ⟨⟨.leftParen, "(", 1, 11⟩, [], ⟨.rightParen, ")", 1, 12⟩, rfl, rfl,
      .above Automaton.Reduction.argumentsNone .nothing .nil, rfl⟩]
  dollars_kind := List.forall_mem_nil _

theorem methodSource_contains : methodSource.Contains methodCall :=
  .child (.child (.later (.child (.child (.child (.first ..))))))

theorem methodSource_yield :
    methodSource.yield = ((fresh []).input "<?php $o->b();".toList).stream.tokens ∧
    methodCall.yield = methodChain.tokens := by
  rw [String.toList_ofList]
  decide +kernel

theorem parse_chains_method : ∃ ts g,
    (fresh []).parse none "<?php $o->b();".toList = (.ok ts, g) ∧
    methodSource.yield = ((fresh []).input "<?php $o->b();".toList).stream.tokens ∧
    methodSource.Contains methodCall ∧ methodCall.yield = methodChain.tokens ∧
    ∃ t, methodCall.result none = .ok t ∧ methodChain.Nests none t := by
  obtain ⟨ts, g, h⟩ := exists_parse_ok (fresh []) none "<?php $o->b();".toList
    (by rw [String.toList_ofList]; decide +kernel)
  obtain ⟨hsource, hcall⟩ := methodSource_yield
  have hnests := (parse_chains h).2 methodSource _ hsource rfl methodChain
  exact ⟨ts, g, h, hsource, methodSource_contains, hcall,
    hnests.1 methodCall methodSource_contains hcall⟩

/-- A source with an index around the call of a method. -/
def isIndexOfCall : List Tree → Bool
  | [.node .arrayOffset _ [.node .methodCall _ _, _]] => true
  | _ => false

/-- An index and then a call behind a property: the node for the index is not in the node for the
call. -/
theorem parse_call_first : ∃ (index call : Tree) (ts : List Tree) (g : Filter),
    (fresh []).parse none "<?php $a->b[0](1);".toList = (.ok [index], g) ∧
    (∃ l x, index = .node .arrayOffset l [call, x]) ∧ (∃ l, call = .node .methodCall l ts) ∧
    ¬ index.Inside call := by
  obtain ⟨ts, g, h, hindex⟩ := exists_parse_any (fresh []) none "<?php $a->b[0](1);".toList
    (p := isIndexOfCall) (by rw [String.toList_ofList]; decide +kernel)
  unfold isIndexOfCall at hindex
  split at hindex
  · rename_i l l' fields x
    have hinside : (Tree.node .methodCall l' fields).Inside
        (.node .arrayOffset l [.node .methodCall l' fields, x]) := .single List.mem_cons_self
    exact ⟨_, _, fields, g, h, ⟨l, x, rfl⟩, ⟨l', rfl⟩, hinside.not_inside⟩
  · cases hindex

end Docblock
