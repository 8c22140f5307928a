import Docblock.Proofs.Heredoc
import Docblock.Proofs.Token.Nesting
import Mathlib.Data.List.Induction

/-! Heredoc texts inside one another: which are open, and when the label of the innermost one is
known. -/
namespace Docblock

open Token Text Token.Pattern

/-- The kinds of the tokens at which heredoc text starts and ends. -/
def Token.Kind.mark : Kind → Option Kind
  | .startHeredoc => some .startHeredoc
  | .endHeredoc => some .endHeredoc
  | _ => none

/-- A heredoc text that has started and not ended. -/
structure OpenText where
  label : List Char
  /-- Whether a heredoc text inside it has ended. -/
  interrupted : Bool
  deriving DecidableEq

namespace OpenText

variable {ts : List Token} {t : Token} {os : List OpenText}

/-- What an opening line holds between its blanks and its line feed. -/
def labelOf (t : Token) : List Char := ((t.text.toList.drop 3).dropWhile isTab).dropLast

def interrupt (o : OpenText) : OpenText := { o with interrupted := true }

/-- The open texts behind a token, the innermost first. -/
def after (os : List OpenText) (t : Token) : List OpenText :=
  match t.kind with
  | .startHeredoc => ⟨labelOf t, false⟩ :: os
  | .endHeredoc => os.tail.map interrupt
  | _ => os

/-- The texts that some tokens leave open. -/
def leftBy (ts : List Token) : List OpenText := ts.foldl after []

theorem leftBy_append (ts us : List Token) : leftBy (ts ++ us) = us.foldl after (leftBy ts) :=
  List.foldl_append

theorem after_of_mark (h : t.kind.mark = none) : after os t = os := by
  unfold after
  split
  · simp_all [Kind.mark]
  · simp_all [Kind.mark]
  · rfl

/-- No text starts while another is open. -/
def Apart (ts : List Token) : Prop :=
  ∀ (pre : List Token) (t : Token) (post : List Token),
    ts = pre ++ t :: post → t.kind = .startHeredoc → leftBy pre = []

/-- Where no text starts inside another, at most one is open, and none has ended inside it. -/
theorem leftBy_apart (h : Apart ts) :
    (leftBy ts).length ≤ 1 ∧ ∀ o ∈ leftBy ts, o.interrupted = false := by
  induction ts using List.reverseRecOn with
  | nil => simp [leftBy]
  | append_singleton ts t ih =>
    have hbefore : Apart ts := fun pre u post hs hu => h pre u (post ++ [t]) (by simp [hs]) hu
    obtain ⟨hlen, hnone⟩ := ih hbefore
    rw [leftBy_append]
    simp only [List.foldl_cons, List.foldl_nil]
    unfold after
    split
    · rename_i hk
      simp [h ts t [] rfl hk]
    · have htail : (leftBy ts).tail = [] := by
        rw [← List.length_eq_zero_iff, List.length_tail]
        omega
      simp [htail]
    · exact ⟨hlen, hnone⟩

end OpenText

namespace Token

namespace Effect

/-- The mark that a rule with the effect makes. -/
def mark : Effect → Option Kind
  | .openHeredoc => some .startHeredoc
  | .closeHeredoc => some .endHeredoc
  | _ => none

theorem eq_closeHeredoc {ef : Effect} (h : ef.mark = some .endHeredoc) : ef = .closeHeredoc := by
  cases ef <;> first | rfl | cases h

/-- Whether an effect in a mode goes to or from the mode of heredoc text only at a mark. -/
def minds (m : Mode) : Effect → Bool
  | .stay | .openHeredoc | .closeHeredoc => true
  | .push a | .pushAtName a => a != .heredoc
  | .pushByName a b => a != .heredoc && b != .heredoc
  | .enter a => m != .heredoc && a != .heredoc
  | .enterByName a b => m != .heredoc && a != .heredoc && b != .heredoc
  | .pop => m != .heredoc
  | .popTwice => m != .heredoc && !m.bases.contains (some .heredoc)

end Effect

theorem Mode.minds_rules (m : Mode) : ∀ r ∈ m.rules, r.effect.minds m = true := by
  cases m <;> decide

/-- The kinds of a rule's tokens tell whether it opens or closes heredoc text. -/
def Rule.Marked (r : Rule) : Prop := ∀ cs, (r.kind cs).mark = r.effect.mark

theorem Rule.marked_codeRules : ∀ r ∈ Mode.code.rules, r.Marked := by
  have hname : ∀ cs, (kindOfName cs).mark = none :=
    kindOfName_forall (P := fun k => k.mark = none) rfl (by decide)
  simp only [Mode.rules, codeClasses, Rule.casts, castWords, codeSigns, List.forall_mem_append,
    List.forall_mem_map, List.forall_mem_cons]
  repeat' apply And.intro
  all_goals first
    | exact fun _ => rfl
    | exact hname
    | simp

theorem Mode.marked_rules (m : Mode) : ∀ r ∈ m.rules, r.Marked := by
  cases m with
  | code => exact Rule.marked_codeRules
  | html =>
    simp only [Mode.rules, List.forall_mem_cons]
    refine ⟨fun cs => ?_, fun _ => rfl, by simp⟩
    simp only [Rule.tagKind]
    split <;> rfl
  | quoted | quotedVar | varName | offset | property | heredoc | heredocVar =>
    simp only [Mode.rules, List.forall_mem_cons]
    repeat' apply And.intro
    all_goals first
      | exact fun _ => rfl
      | simp

namespace Pattern

/-- An opening line is three marks, blanks, the label and a line feed. -/
theorem heredocLabel?_some {cs label : List Char} {n : Nat}
    (h : heredocLabel? cs = some (label, n)) :
    ∃ (gap : List Char) (v : Name) (rest : List Char), (∀ c ∈ gap, isTab c = true) ∧
      cs = '<' :: '<' :: '<' :: (gap ++ (v.chars ++ '\n' :: rest)) ∧ label = v.chars ∧
      n = gap.length + v.chars.length + 4 := by
  unfold heredocLabel? at h
  split at h
  · rename_i ds
    have hdrop : ds.drop (run isTab ds) = ds.dropWhile isTab := by
      have hleft : (ds.takeWhile isTab ++ ds.dropWhile isTab).drop (ds.takeWhile isTab).length =
          ds.dropWhile isTab := List.drop_left
      rwa [List.takeWhile_append_dropWhile] at hleft
    simp only [← List.drop_drop, hdrop] at h
    cases hn : identifier (ds.dropWhile isTab) with
    | none => simp [hn] at h
    | some k =>
      obtain ⟨v, tail, hsplit, hstop, -⟩ := exists_name hn
      simp only [hsplit, identifier_name v hstop, List.drop_left, List.take_left] at h
      split at h
      · rename_i rest
        obtain ⟨rfl, rfl⟩ := Prod.mk.inj (Option.some.inj h)
        refine ⟨ds.takeWhile isTab, v, rest, List.all_eq_true.mp List.all_takeWhile, ?_, rfl, ?_⟩
        · rw [← hsplit, List.takeWhile_append_dropWhile]
        · simp only [run]
          omega
      · cases h
  · cases h

/-- What is noted of an opening line is the label in it. -/
theorem heredocLabel?_take {cs : List Char} {n : Nat} (h : startHeredoc cs = some n) {t : Token}
    (ht : t.text = String.ofList (cs.take n)) :
    (heredocLabel? t.text.toList).map (·.1) = some (OpenText.labelOf t) := by
  obtain ⟨⟨label, k⟩, hlabel, rfl⟩ := Option.map_eq_some_iff.mp h
  obtain ⟨gap, v, rest, hgap, rfl, rfl, rfl⟩ := heredocLabel?_some hlabel
  have htext : t.text.toList = '<' :: '<' :: '<' :: (gap ++ (v.chars ++ ['\n'])) := by
    have hline : '<' :: '<' :: '<' :: (gap ++ (v.chars ++ '\n' :: rest)) =
        ('<' :: '<' :: '<' :: (gap ++ (v.chars ++ ['\n']))) ++ rest := by simp
    rw [ht, String.toList_ofList, hline, List.take_left']
    simp
    omega
  have hlabel : OpenText.labelOf t = v.chars := by
    have hspace := ne_of_isNameStart v.isNameStart_head (d := ' ') rfl
    have htab := ne_of_isNameStart v.isNameStart_head (d := '\t') rfl
    have hstop : (v.chars ++ ['\n']).dropWhile isTab = v.chars ++ ['\n'] := by
      simp [Name.chars, isTab, hspace, htab]
    rw [OpenText.labelOf, htext, List.drop_succ_cons, List.drop_succ_cons, List.drop_succ_cons,
      List.drop_zero, List.dropWhile_append_of_pos hgap, hstop, List.dropLast_concat]
  rw [hlabel, htext, heredocLabel?_spelled hgap v []]
  rfl

end Pattern
end Token

namespace Lexer

variable {l l' : Lexer} {t : Token} {ef : Effect} {cs : List Char} {os : List OpenText} {n : Nat}

/-- How often the mode of heredoc text is among the modes of the lexer. -/
def heredocs (l : Lexer) : Nat := (l.mode :: l.stack).count .heredoc

theorem heredocs_popThen (hm : l.mode ≠ .heredoc) (t : Token) :
    (l.popThen t).reader.heredocs = l.heredocs ∧ (l.popThen t).reader.label = l.label := by
  cases hs : l.stack with
  | nil => simp [popThen, pop?, hs, Scan.reader]
  | cons b bs => simp [popThen, pop?, hs, Scan.reader, heredocs, hm]

/-- An effect that makes no mark keeps the open texts and what is known of them. -/
theorem heredocs_apply (hn : l.Nested) (hk : ef.minds l.mode = true) (hm : ef.mark = none)
    (t : Token) :
    (l.apply t ef).reader.heredocs = l.heredocs ∧ (l.apply t ef).reader.label = l.label := by
  cases ef with
  | stay => exact ⟨rfl, rfl⟩
  | openHeredoc | closeHeredoc => cases hm
  | push a =>
    have ha : a ≠ .heredoc := by simpa [Effect.minds] using hk
    exact ⟨by simp [apply, Scan.reader, push, heredocs, ha], rfl⟩
  | pushAtName a =>
    have ha : a ≠ .heredoc := by simpa [Effect.minds] using hk
    simp only [apply, Scan.reader]
    split
    · exact ⟨by simp [push, heredocs, ha], rfl⟩
    · exact ⟨rfl, rfl⟩
  | pushByName a b =>
    have hab : a ≠ .heredoc ∧ b ≠ .heredoc := by simpa [Effect.minds] using hk
    simp only [apply, Scan.reader]
    refine ⟨?_, rfl⟩
    split <;> simp [push, heredocs, hab]
  | enter a =>
    have ha : l.mode ≠ .heredoc ∧ a ≠ .heredoc := by simpa [Effect.minds] using hk
    exact ⟨by simp [apply, Scan.reader, enter, heredocs, ha], rfl⟩
  | enterByName a b =>
    have hab : (l.mode ≠ .heredoc ∧ a ≠ .heredoc) ∧ b ≠ .heredoc := by
      simpa [Effect.minds] using hk
    simp only [apply, Scan.reader]
    refine ⟨?_, rfl⟩
    split <;> simp [enter, heredocs, hab]
  | pop => exact heredocs_popThen (by simpa [Effect.minds] using hk) t
  | popTwice =>
    have hbase : l.mode ≠ .heredoc ∧ some .heredoc ∉ l.mode.bases := by
      simpa [Effect.minds] using hk
    cases hs : l.stack with
    | nil => simp [apply, pop?, hs, Scan.reader]
    | cons b bs =>
      rw [Nested, hs] at hn
      have hb : b ≠ .heredoc := fun he => hbase.2 (he ▸ hn.1)
      obtain ⟨hcount, hlabel⟩ :=
        heredocs_popThen (l := { l with mode := b, stack := bs }) hb t
      have hpop : l.apply t .popTwice = { l with mode := b, stack := bs }.popThen t := by
        simp [apply, pop?, hs]
      rw [hpop, hcount, hlabel]
      simp [heredocs, hs, hbase.1]

/-- The lexer goes by the open texts: it has their mode once for each, and it knows the label of
the innermost until a text inside that one ends. -/
structure Tracks (os : List OpenText) (l : Lexer) : Prop where
  count : l.heredocs = os.length
  label : ∀ o ∈ os.head?, l.label = if o.interrupted then none else some o.label

/-- Nothing but the end of heredoc text goes by its label. -/
theorem eq_labelRule {m : Mode} {r : Rule} (hr : r ∈ m.rules) (he : r.effect = .closeHeredoc) :
    m = .heredoc ∧ r = View.labelRule := by
  obtain ⟨rfl, -⟩ := Config.closeHeredoc_rules hr he
  refine ⟨rfl, ?_⟩
  simp only [Mode.rules, List.mem_cons, List.not_mem_nil, or_false] at hr
  rcases hr with rfl | rfl | rfl | rfl | rfl <;> first | rfl | cases he

/-- A text that starts is the innermost, and its label is known. -/
theorem tracks_open (h : Tracks os l) (ht : t.kind = .startHeredoc)
    (hlabel : (heredocLabel? t.text.toList).map (·.1) = some (OpenText.labelOf t)) :
    Tracks (OpenText.after os t)
      { l.push .heredoc with label := (heredocLabel? t.text.toList).map (·.1) } where
  count := by
    have hcount := h.count
    simp only [heredocs] at hcount
    simp [OpenText.after, ht, heredocs, push, hcount]
  label o ho := by
    simp only [OpenText.after, ht, List.head?_cons, Option.mem_def, Option.some.injEq] at ho
    subst ho
    simpa using hlabel

/-- With the end of the innermost text its label is forgotten, and none of the others is known. -/
theorem tracks_close (h : Tracks os l) (hm : l.mode = .heredoc) {b : Mode} {bs : List Mode}
    (hs : l.stack = b :: bs) (ht : t.kind = .endHeredoc) :
    Tracks (OpenText.after os t) { l with label := none, mode := b, stack := bs } where
  count := by
    have hcount := h.count
    simp only [heredocs, hm, hs, List.count_cons_self] at hcount
    simp [OpenText.after, ht, heredocs, ← hcount]
  label o ho := by
    simp only [OpenText.after, ht, List.head?_map, Option.mem_def, Option.map_eq_some_iff] at ho
    obtain ⟨o', -, rfl⟩ := ho
    rfl

/-- The tokens of the first calls, by their number. -/
def tokensBefore (l : Lexer) : Nat → List Token
  | 0 => []
  | n + 1 => l.tokensBefore n ++ (l.atCall n).next.token?.toList

/-- The lexer after a call goes by the texts that are open then. -/
def TracksAfter (os : List OpenText) (s : Scan Lexer) : Prop :=
  s.reader.Tracks (s.token?.toList.foldl OpenText.after os)

theorem tracks_closeHeredoc (hn : l.Nested) (h : Tracks os l) (hm : l.mode = .heredoc)
    (ht : t.kind = .endHeredoc) : TracksAfter os (l.apply t .closeHeredoc) := by
  obtain ⟨b, bs, hs⟩ : ∃ b bs, l.stack = b :: bs := by
    refine List.exists_cons_of_ne_nil fun hs => ?_
    rw [Nested, hm, hs] at hn
    have hbase : none ∉ Mode.heredoc.bases := by decide
    exact hbase hn
  simp only [apply]
  split
  · exact h
  · split
    · have hpop : { l with label := none }.popThen t =
          .token t { l with label := none, mode := b, stack := bs } := by
        simp [popThen, pop?, hs]
      rw [hpop]
      exact tracks_close h hm hs ht
    · exact ⟨h.count, h.label⟩

/-- Where the effect makes no mark, neither does the token. -/
theorem tracks_unmarked (hn : l.Nested) (h : Tracks os l) (hk : ef.minds l.mode = true)
    (hm : ef.mark = none) (ht : t.kind.mark = none) : TracksAfter os (l.apply t ef) := by
  obtain ⟨hcount, hlabel⟩ := heredocs_apply hn hk hm t
  have hkeep : (l.apply t ef).token?.toList.foldl OpenText.after os = os := by
    cases ha : l.apply t ef with
    | finished | failed => rfl
    | token t' l' =>
      obtain rfl | ⟨rfl, -⟩ := apply_kind ha
      · exact OpenText.after_of_mark ht
      · cases hm
  rw [TracksAfter, hkeep]
  exact ⟨hcount.trans h.count, fun o ho => hlabel.trans (h.label o ho)⟩

/-- The rule for the opening line of heredoc text. -/
def openingRule : Rule :=
  Rule.counting (Rule.withEffect .startHeredoc startHeredoc .openHeredoc)

theorem eq_openingRule {m : Mode} {r : Rule} (hr : r ∈ m.rules) (he : r.effect = .openHeredoc) :
    r = openingRule := by
  have hother : m ≠ .code → ∀ r ∈ m.rules, r.effect ≠ .openHeredoc := by
    cases m <;> decide
  have hcode : (Mode.code.rules.filter fun r => r.effect = .openHeredoc) = [openingRule] := rfl
  by_cases hm : m = .code
  · subst hm
    have hmem : r ∈ Mode.code.rules.filter fun r => r.effect = .openHeredoc := by simp [hr, he]
    rw [hcode] at hmem
    exact List.mem_singleton.mp hmem
  · exact absurd he (hother hm r hr)

/-- Every rule of the mode keeps to the open texts. -/
theorem tracks_rule {r : Rule} (hn : l.Nested) (h : Tracks os l) (hr : r ∈ l.mode.rules)
    (hlen : r.length? l.behind l.rest = some n) :
    TracksAfter os ((l.advance r n).apply (l.spelling r n) r.effect) := by
  have hnested : (l.advance r n).Nested := hn
  have htracks : Tracks os (l.advance r n) := ⟨h.count, h.label⟩
  by_cases hopen : r.effect = .openHeredoc
  · obtain rfl := eq_openingRule hr hopen
    exact tracks_open (t := l.spelling openingRule n) htracks rfl
      (heredocLabel?_take (pattern_of_length? hlen) rfl)
  by_cases hclose : r.effect = .closeHeredoc
  · obtain ⟨hm, rfl⟩ := eq_labelRule hr hclose
    exact tracks_closeHeredoc hnested htracks hm rfl
  have hmark : r.effect.mark = none := by
    cases hef : r.effect <;> first | rfl | exact absurd hef hopen | exact absurd hef hclose
  have hkind : (l.spelling r n).kind.mark = none := (l.mode.marked_rules r hr _).trans hmark
  exact tracks_unmarked hnested htracks (l.mode.minds_rules r hr) hmark hkind

theorem tracks_next (hw : Within cs l) (hn : l.Nested) (h : Tracks os l) :
    TracksAfter os l.next := by
  obtain ⟨-, he⟩ | he | ⟨r, hr, n, hlen, he⟩ := next_cases hw.text hw.nonneg
  · rw [he]
    exact ⟨h.count, h.label⟩
  · rw [he]
    exact h
  · rw [he]
    exact tracks_rule hn h hr hlen

/-- However far a text is read, the lexer goes by the heredoc texts that its tokens leave open. -/
theorem tracks_atCall (l : Lexer) (cs : List Char) (n : Nat) :
    Tracks (OpenText.leftBy ((l.restart cs).tokensBefore n)) ((l.restart cs).atCall n) := by
  induction n with
  | zero => exact ⟨rfl, by simp [tokensBefore, OpenText.leftBy]⟩
  | succ n ih =>
    rw [tokensBefore, OpenText.leftBy_append]
    exact tracks_next (within_atCall _ cs n) (nested_atCall l cs n) ih

/-- In heredoc text some text is open. -/
theorem Tracks.exists_open (h : Tracks os l) (hm : l.mode = .heredoc) :
    ∃ o rest, os = o :: rest ∧ l.label = if o.interrupted then none else some o.label := by
  have hcount := h.count
  rw [heredocs, hm, List.count_cons_self] at hcount
  obtain ⟨o, rest, rfl⟩ := List.exists_cons_of_length_eq_add_one hcount.symm
  exact ⟨o, rest, rfl, h.label o rfl⟩

/-- An effect lacks a label only where it asks for one. -/
theorem apply_noLabel (h : l.apply t ef = .failed .noLabel l') :
    ef = .closeHeredoc ∧ l.label = none := by
  cases ef with
  | stay | push | enter | pushAtName | pushByName | enterByName | openHeredoc => cases h
  | pop | popTwice =>
    simp only [apply, popThen] at h
    repeat' split at h
    all_goals cases h
  | closeHeredoc =>
    simp only [apply, popThen] at h
    repeat' split at h
    case h_1 hnone => exact ⟨rfl, hnone⟩
    all_goals cases h

theorem labelRule_length? {b : Option Char} (h : View.labelRule.length? b cs = some n) :
    b = some '\n' ∧ startsWith isNameStart cs = true := by
  have hb : b = some '\n' := by
    by_contra hb
    simp [Rule.length?, View.labelRule, hb] at h
  obtain ⟨v, tail, rfl, -⟩ := exists_name (pattern_of_length? h)
  exact ⟨hb, v.isNameStart_head⟩

/-- A call lacks a label exactly at a name that starts a line of heredoc text, if none is
known. -/
theorem next_noLabel_iff (hw : Within cs l) :
    (∃ l', l.next = .failed .noLabel l') ↔ l.mode = .heredoc ∧ l.label = none ∧
      l.behind = some '\n' ∧ startsWith isNameStart l.rest = true := by
  constructor
  · rintro ⟨l', hn⟩
    obtain ⟨-, he⟩ | he | ⟨r, hr, n, hlen, he⟩ := next_cases hw.text hw.nonneg
    · rw [he] at hn
      cases hn
    · rw [he] at hn
      cases hn
    · rw [he] at hn
      obtain ⟨hef, hlabel⟩ := apply_noLabel hn
      obtain ⟨hm, rfl⟩ := eq_labelRule hr hef
      exact ⟨hm, hlabel, labelRule_length? hlen⟩
  · rintro ⟨hm, hlabel, hbehind, hname⟩
    obtain ⟨k, hk⟩ : ∃ k, identifier l.rest = some k := by
      cases hr : l.rest with
      | nil => simp [hr, startsWith] at hname
      | cons c ds =>
        have hc : isNameStart c = true := by simpa [hr, startsWith] using hname
        simp [identifier, hc]
    obtain ⟨v, tail, hrest, hstop, -⟩ := exists_name hk
    have hmatch : firstMatch l.mode.rules l.behind l.rest =
        some (View.labelRule, v.chars.length) := by
      rw [hm, hbehind, hrest]
      exact View.firstMatch_label v tail hstop
    have hinside : l.Inside := ⟨by simp [hw.text], hw.nonneg⟩
    refine ⟨l.advance View.labelRule v.chars.length, (next_of_firstMatch hinside hmatch).trans ?_⟩
    simp [View.labelRule, apply, advance, hlabel]

/-- What ends heredoc text is the label that is known. -/
theorem label_of_close {t' : Token} (h : l.apply t .closeHeredoc = .token t' l')
    (hk : t'.kind = .endHeredoc) : l.label = some t.text.toList := by
  simp only [apply] at h
  split at h
  · cases h
  · rename_i label hlabel
    split at h
    · rename_i he
      rw [hlabel, he]
    · cases h
      cases hk

theorem next_endHeredoc (h : l.next = .token t l') (hk : t.kind = .endHeredoc) :
    l.mode = .heredoc ∧ l.label = some t.text.toList := by
  obtain ⟨r, hr, n, -, ha⟩ := next_token h
  have hef : r.effect = .closeHeredoc := by
    obtain rfl | ⟨he, -⟩ := apply_kind ha
    · apply Effect.eq_closeHeredoc
      rw [← l.mode.marked_rules r hr (l.rest.take n)]
      exact congrArg Kind.mark hk
    · exact he
  have htext := (apply_token ha).2.1
  rw [hef] at ha
  have hlabel : (l.advance r n).label = some (l.spelling r n).text.toList := label_of_close ha hk
  rw [htext]
  exact ⟨(eq_labelRule hr hef).1, hlabel⟩

/-- The label is lacking exactly where that of an interrupted text is asked for. -/
theorem Tracks.lacks_label_iff (h : Tracks os l) (hw : Within cs l) :
    (∃ l', l.next = .failed .noLabel l') ↔ l.mode = .heredoc ∧ l.behind = some '\n' ∧
      startsWith isNameStart l.rest = true ∧ ∃ o ∈ os.head?, o.interrupted = true := by
  rw [next_noLabel_iff hw]
  constructor
  · rintro ⟨hm, hlabel, hbehind, hname⟩
    obtain ⟨o, rest, rfl, ho⟩ := h.exists_open hm
    refine ⟨hm, hbehind, hname, o, rfl, ?_⟩
    rw [hlabel] at ho
    by_contra hi
    simp [hi] at ho
  · rintro ⟨hm, hbehind, hname, o, ho, hi⟩
    exact ⟨hm, by rw [h.label o ho, if_pos hi], hbehind, hname⟩

/-- Only its own label ends the innermost text. -/
theorem Tracks.label_of_end (h : Tracks os l) (hn : l.next = .token t l')
    (hk : t.kind = .endHeredoc) : ∃ o rest, os = o :: rest ∧ t.text.toList = o.label := by
  obtain ⟨hm, hlabel⟩ := next_endHeredoc hn hk
  obtain ⟨o, rest, hopen, ho⟩ := h.exists_open hm
  refine ⟨o, rest, hopen, ?_⟩
  rw [hlabel] at ho
  split at ho
  · cases ho
  · exact Option.some.inj ho

/-- However far a text is read from its start, every open heredoc text has its mode. In heredoc
text the label of the innermost is known, unless a text inside that one has ended. No other label
ends the text, and the label is lacking exactly where it is asked for after such an end. So it is
never lacking as long as no heredoc text starts inside another. -/
theorem innermost_label (l : Lexer) (cs : List Char) (n : Nat) :
    let p := (l.restart cs).atCall n
    let before := (l.restart cs).tokensBefore n
    (p.mode :: p.stack).count .heredoc = (OpenText.leftBy before).length ∧
    (p.mode = .heredoc → ∃ o rest, OpenText.leftBy before = o :: rest ∧
      p.label = if o.interrupted then none else some o.label) ∧
    (∀ t p', p.next = .token t p' → t.kind = .endHeredoc →
      ∃ o rest, OpenText.leftBy before = o :: rest ∧ t.text.toList = o.label) ∧
    ((∃ p', p.next = .failed .noLabel p') ↔ p.mode = .heredoc ∧ p.behind = some '\n' ∧
      startsWith isNameStart p.rest = true ∧
      ∃ o ∈ (OpenText.leftBy before).head?, o.interrupted = true) ∧
    (OpenText.Apart before → (∀ p', p.next ≠ .failed .noLabel p') ∧
      (p.mode = .heredoc → p.label = (OpenText.leftBy before).head?.map (·.label))) := by
  intro p before
  have hw : Within cs p := within_atCall _ cs n
  have htracks : Tracks (OpenText.leftBy before) p := tracks_atCall l cs n
  refine ⟨htracks.count, htracks.exists_open, fun _ _ => htracks.label_of_end,
    htracks.lacks_label_iff hw, fun hapart => ?_⟩
  obtain ⟨-, hnone⟩ := OpenText.leftBy_apart hapart
  constructor
  · intro p' hn
    obtain ⟨-, -, -, o, ho, hi⟩ := (htracks.lacks_label_iff hw).mp ⟨p', hn⟩
    rw [hnone o (List.mem_of_mem_head? ho)] at hi
    cases hi
  · intro hm
    obtain ⟨o, rest, hopen, ho⟩ := htracks.exists_open hm
    rw [ho, hopen, hnone o (by simp [hopen])]
    rfl

/-- While a second text is open inside another, the label that is known is that of the second. -/
theorem innermost_label_nested :
    let p := (initial.restart "<?php <<<A\n\x7b$a[<<<B\nb\n".toList).atCall 7
    p.mode = .heredoc ∧ p.label = some ['B'] ∧ ∃ o rest,
      OpenText.leftBy ((initial.restart "<?php <<<A\n\x7b$a[<<<B\nb\n".toList).tokensBefore 7) =
        o :: rest ∧ p.label = if o.interrupted then none else some o.label :=
  ⟨by decide, by decide, (innermost_label initial _ 7).2.1 (by decide)⟩

/-- Once the second text has ended, the first has no label, and its own end cannot be read. -/
theorem innermost_label_forgotten :
    let start := initial.restart "<?php <<<A\n\x7b$a[<<<B\nB\n]\x7d\nA".toList
    let p := start.atCall 11
    p.mode = .heredoc ∧ p.label = none ∧ p.rest = ['A'] ∧
      OpenText.leftBy (start.tokensBefore 11) = [⟨['A'], true⟩] ∧
      ∃ p', p.next = .failed .noLabel p' := by
  intro start p
  have hplace : p.mode = .heredoc ∧ p.label = none ∧ p.rest = ['A'] ∧ p.behind = some '\n' ∧
      OpenText.leftBy (start.tokensBefore 11) = [⟨['A'], true⟩] := by decide
  obtain ⟨hm, hlabel, hrest, hbehind, hopen⟩ := hplace
  have hw : Within _ p := within_atCall _ _ 11
  refine ⟨hm, hlabel, hrest, hopen, (next_noLabel_iff hw).mpr ?_⟩
  exact ⟨hm, hlabel, hbehind, by rw [hrest]; rfl⟩

end Lexer
end Docblock
