import Docblock.Proofs.Token.Keyword
import Docblock.Proofs.Token.Name
import Mathlib.Data.List.Chain

/-! The texts of names, variables and backslashes among the tokens of a source, and the places where
a name is no reserved word. -/
namespace Docblock

open Token Text

namespace Token

variable {cs : List Char} {n : Nat} {m : Mode} {r : Rule}

theorem Pattern.name_of_identifier (h : Pattern.identifier cs = some n) :
    ∃ v : Name, cs.take n = v.chars := by
  cases cs with
  | nil => cases h
  | cons c cs =>
    simp only [identifier, Option.ite_none_right_eq_some, Option.some.injEq] at h
    obtain ⟨hc, rfl⟩ := h
    have htake := List.prefix_iff_eq_take.mp (List.takeWhile_prefix isWord (l := cs))
    refine ⟨⟨c, cs.takeWhile isWord, hc, List.all_eq_true.mp List.all_takeWhile⟩, ?_⟩
    rw [Nat.add_comm, List.take_succ_cons, run, ← htake]
    rfl

theorem Pattern.name_of_variableName (h : Pattern.variableName cs = some n) :
    ∃ v : Name, cs.take n = '$' :: v.chars := by
  unfold variableName at h
  split at h
  · obtain ⟨k, hk, rfl⟩ := Option.map_eq_some_iff.mp h
    obtain ⟨v, hv⟩ := name_of_identifier hk
    exact ⟨v, by rw [Nat.add_comm, List.take_succ_cons, hv]⟩
  · cases h

theorem Pattern.take_exactly {s : String} (h : Pattern.exactly s cs = some n) :
    cs.take n = s.toList := by
  simp only [exactly, Option.ite_none_right_eq_some, Option.some.injEq] at h
  obtain ⟨hstart, rfl⟩ := h
  rw [← String.length_toList]
  exact (List.prefix_iff_eq_take.mp (List.isPrefixOf_iff_prefix.mp hstart)).symm

/-- Behind these tokens reading goes on in code. -/
def steadyKinds : List Kind := [.kwFunction, .bitAnd, .leftParen, .comma, .backslash, .equals]

/-- What the kinds of tokens that a rule makes tell about the rule and its mode. -/
structure Rule.Regular (m : Mode) (r : Rule) (cs : List Char) : Prop where
  name : r.kind cs ∈ .ident :: keywordKinds → r.pattern = Pattern.identifier
  var : r.kind cs = .var → r.pattern = Pattern.variableName
  backslash : r.kind cs = .backslash → r.pattern = Pattern.exactly "\\"
  steady : r.kind cs ∈ .whitespace :: steadyKinds → m = .code ∧ r.effect = .stay
  ident : m = .code → r.kind cs = .ident → kindOfName cs = .ident
  tag : r.kind cs = .openTag → m = .html

/-- The kinds of tokens that tell something. -/
def telling : List Kind :=
  [Kind.ident, Kind.var, Kind.backslash, Kind.whitespace, Kind.openTag] ++ keywordKinds ++
    steadyKinds

theorem Rule.regular_of_kind {k : Kind} {p : Pattern} {e : Effect} {a c : Bool}
    (hk : k ∉ telling) : Rule.Regular m ⟨fun _ => k, p, e, a, c⟩ cs := by
  simp only [telling, List.mem_append, List.mem_cons, List.not_mem_nil, or_false, not_or] at hk
  obtain ⟨⟨⟨hident, hvar, hbackslash, hspace, htag⟩, hword⟩, hsteady⟩ := hk
  constructor <;> simp_all

theorem kindOfName_mem (cs : List Char) : kindOfName cs ∈ Kind.ident :: keywordKinds := by
  rw [kindOfName]
  cases h : keywords.lookup (String.ofList (cs.flatMap upper)) with
  | none => exact List.mem_cons_self
  | some k => exact List.mem_cons_of_mem _ (List.mem_map.mpr ⟨_, mem_keywords h, rfl⟩)

theorem Rule.regular_name :
    Rule.Regular .code ⟨kindOfName, Pattern.identifier, .stay, false, false⟩ cs := by
  have hne : ∀ k, k ∉ Kind.ident :: keywordKinds → kindOfName cs ≠ k :=
    fun k hk h => hk (h ▸ kindOfName_mem cs)
  constructor
  · exact fun _ => rfl
  · exact fun h => absurd h (hne _ (by decide))
  · exact fun h => absurd h (hne _ (by decide))
  · exact fun _ => ⟨rfl, rfl⟩
  · exact fun _ h => h
  · exact fun h => absurd h (hne _ (by decide))

theorem Rule.regular_tag {e : Effect} :
    Rule.Regular .html ⟨Rule.tagKind, Pattern.openTag, e, false, true⟩ cs := by
  have hkind : Rule.tagKind cs = .openTag ∨ Rule.tagKind cs = .openTagWithEcho := by
    simp only [Rule.tagKind]
    split <;> simp
  obtain h | h := hkind
  all_goals
    constructor
    all_goals
      dsimp only
      rw [h]
      first
        | exact fun _ => rfl
        | exact fun h => absurd h (by decide)

theorem Mode.regular_rules (m : Mode) : ∀ r ∈ m.rules, ∀ cs, r.Regular m cs := by
  cases m
  all_goals
    simp only [Mode.rules, Rule.codeClasses, Rule.casts, Rule.castWords, Rule.codeSigns,
      List.forall_mem_append, List.forall_mem_map, List.forall_mem_cons, List.not_mem_nil,
      false_imp_iff, implies_true, and_true]
    dsimp only [Rule.plain, Rule.withEffect, Rule.counting, Rule.fixed]
    repeat' apply And.intro
    all_goals first
      | exact fun cs => Rule.regular_of_kind (by decide)
      | exact fun cs => Rule.regular_name
      | exact fun cs => Rule.regular_tag
      | skip
  all_goals
    intro cs
    constructor
    all_goals dsimp only
    all_goals first
      | exact fun _ => rfl
      | exact fun _ => ⟨rfl, rfl⟩
      | exact fun h => absurd h (by decide)
      | exact fun _ h => absurd h (by decide)

/-- The reserved words that types and default values can have. -/
def hintKinds : List Kind := [.kwArray, .kwStatic, .kwNamespace]

/-- What the text of a token is by its kind. -/
structure Spelt (t : Token) : Prop where
  name : t.kind ∈ .ident :: hintKinds → ∃ v : Name, t.text = v.text
  word : t.kind ∈ hintKinds → kindOfName t.text.toList = t.kind
  var : t.kind = .var → ∃ v : Name, t.text = v.asVariable
  backslash : t.kind = .backslash → t.text = "\\"

/-- One token behind another: behind a steady one, a name is no reserved word. -/
structure Follows (a t : Token) : Prop where
  spelt : t.Spelt
  ident : a.kind ∈ steadyKinds → t.kind = .ident → kindOfName t.text.toList = .ident

/-- The kinds of tokens whose texts are known. -/
def speltKinds : List Kind := [Kind.ident, Kind.var, Kind.backslash] ++ hintKinds

theorem spelt_of_kind {t : Token} (h : t.kind ∉ speltKinds) : t.Spelt := by
  simp only [speltKinds, List.mem_append, List.mem_cons, List.not_mem_nil, or_false, not_or] at h
  constructor <;> simp_all

end Token

namespace Lexer

variable {l l' : Lexer} {t : Token}

/-- A token that tells something is spelt by a regular rule. -/
theorem next_regular (h : l.next = .token t l') (hk : t.kind ∈ telling) :
    ∃ (r : Rule) (n : Nat), r.Regular l.mode t.text.toList ∧ r.pattern l.rest = some n ∧
      t.text = String.ofList (l.rest.take n) ∧ t.kind = r.kind t.text.toList ∧
      (r.effect = .stay → l'.mode = l.mode) := by
  obtain ⟨r, hr, n, hn, ha⟩ := next_token h
  obtain rfl | ⟨-, he⟩ := apply_kind ha
  · refine ⟨r, n, l.mode.regular_rules r hr _, pattern_of_length? hn, rfl, ?_, fun he => ?_⟩
    · rw [spelling, String.toList_ofList]
    · rw [he] at ha
      cases ha
      rfl
  · rw [he] at hk
    exact absurd hk (by decide)

theorem next_spelt (h : l.next = .token t l') : t.Spelt := by
  by_cases hk : t.kind ∈ speltKinds
  · have htells : ∀ k ∈ speltKinds, k ∈ telling := by decide
    obtain ⟨r, n, hr, hp, ht, hkind, -⟩ := next_regular h (htells _ hk)
    have hwords : ∀ k ∈ hintKinds, k ∈ keywordKinds := by decide
    refine ⟨fun hname => ?_, fun hword => next_keyword h (hwords _ hword), fun hvar => ?_,
      fun hbackslash => ?_⟩
    · have hmem : r.kind t.text.toList ∈ .ident :: keywordKinds := by
        rw [← hkind]
        exact List.mem_cons.mpr ((List.mem_cons.mp hname).imp_right (hwords _))
      rw [hr.name hmem] at hp
      obtain ⟨v, hv⟩ := Pattern.name_of_identifier hp
      exact ⟨v, by rw [ht, hv, Name.text]⟩
    · rw [hr.var (hkind ▸ hvar)] at hp
      obtain ⟨v, hv⟩ := Pattern.name_of_variableName hp
      exact ⟨v, by rw [ht, hv, Name.asVariable]⟩
    · rw [hr.backslash (hkind ▸ hbackslash)] at hp
      rw [ht, Pattern.take_exactly hp, String.ofList_toList]
  · exact spelt_of_kind hk

/-- White space and steady tokens stand in code, and reading goes on there. -/
theorem next_steady (h : l.next = .token t l') (hk : t.kind ∈ .whitespace :: steadyKinds) :
    l'.mode = .code := by
  have htells : ∀ k ∈ Kind.whitespace :: steadyKinds, k ∈ telling := by decide
  obtain ⟨r, n, hr, -, -, hkind, hmode⟩ := next_regular h (htells _ hk)
  obtain ⟨hm, he⟩ := hr.steady (hkind ▸ hk)
  rw [hmode he, hm]

theorem next_ident (h : l.next = .token t l') (hm : l.mode = .code) (hk : t.kind = .ident) :
    kindOfName t.text.toList = .ident := by
  obtain ⟨r, n, hr, -, -, hkind, -⟩ := next_regular h (by rw [hk]; decide)
  exact hr.ident hm (hkind ▸ hk)

theorem mode_of_openTag (h : l.next = .token t l') (hk : t.kind = .openTag) : l.mode = .html := by
  obtain ⟨r, n, hr, -, -, hkind, -⟩ := next_regular h (by rw [hk]; decide)
  exact hr.tag (hkind ▸ hk)

end Lexer

namespace Filter

/-- Behind a token, the tokens of a filter follow one another. A steady token is remembered, and
leaves the lexer in code. -/
theorem chain_stream (f : Filter) (a : Token)
    (h : a.kind ∈ steadyKinds → f.lexer.mode = .code ∧ f.last = some a.kind) :
    List.IsChain Follows (a :: f.stream.tokens) := by
  induction hk : f.lexer.rest.length using Nat.strongRecOn generalizing f a with
  | ind k ih =>
    rw [stream_eq]
    cases hn : f.lexer.next with
    | finished | failed => exact .singleton a
    | token u l =>
      have hlength := hk ▸ Lexer.next_token_length hn
      simp only
      split
      · rename_i last hp
        refine ih _ hlength ⟨l, last⟩ a (fun ha => ?_) rfl
        obtain ⟨hm, hlast⟩ := h ha
        obtain ⟨hu, rfl⟩ | hu | ⟨-, hends, -⟩ := fate_dropped hp
        · exact ⟨Lexer.next_steady hn (hu ▸ List.mem_cons_self), hlast⟩
        · rw [Lexer.mode_of_openTag hn hu] at hm
          cases hm
        · rw [hlast] at hends
          exact absurd hends ((by decide : ∀ k ∈ steadyKinds, ¬ endsStatement (some k)) _ ha)
      · rename_i k hp
        generalize he : { u with kind := k } = t
        obtain rfl : t.kind = k := he ▸ rfl
        have hmade : t = u ∨ t.kind ∈ [.kwEcho, .semi] := he ▸ emitted_eq hp
        have hsteady : t.kind ∈ steadyKinds → l.mode = .code ∧ some t.kind = some t.kind := by
          intro ht
          obtain rfl | hmade := hmade
          · exact ⟨Lexer.next_steady hn (List.mem_cons_of_mem _ ht), rfl⟩
          · exact absurd ht ((by decide : ∀ k ∈ [Kind.kwEcho, .semi], k ∉ steadyKinds) _ hmade)
        refine .cons_cons ?_ (ih _ hlength ⟨l, some t.kind⟩ t hsteady rfl)
        obtain rfl | hmade := hmade
        · exact ⟨Lexer.next_spelt hn, fun ha ht => Lexer.next_ident hn (h ha).1 ht⟩
        · have hother : ∀ k ∈ [Kind.kwEcho, .semi], k ∉ speltKinds := by decide
          refine ⟨spelt_of_kind (hother _ hmade), fun _ ht => absurd ?_ (hother _ hmade)⟩
          rw [ht]
          exact List.mem_cons_self

theorem follows_stream (f : Filter) : List.IsChain Follows f.stream.tokens :=
  (chain_stream f ⟨.semi, "", 0, 0⟩ fun h => absurd h (by decide)).tail

end Filter
end Docblock
