import Docblock.Proofs.Integers
import Docblock.Proofs.Prototype.Basic

/-! The text of a prototype is read as its words. -/
namespace Docblock

open Token Text Token.Pattern

namespace Lexer

variable {b : Option Char} {c : Char} {cs xs ys rest : List Char} {k : Kind} {s : String}
  {ws : List (Kind × String)}

theorem firstMatch_append (before after : List Rule) (h : firstMatch before b cs = none)
    (h' : firstMatch after b cs = none) : firstMatch (before ++ after) b cs = none := by
  rw [firstMatch] at h h' ⊢
  rw [List.findSome?_append, h, h']
  rfl

theorem dropWhile_before {p : Char → Bool} (hc : p c = false) :
    (xs ++ c :: ys).dropWhile p = xs.dropWhile p ++ c :: ys := by
  rw [List.dropWhile_append]
  split
  · rename_i h
    rw [List.dropWhile_cons_of_neg (by simp [hc]), List.isEmpty_iff.mp h]
    rfl
  · rfl

theorem drop_takeWhile (p : Char → Bool) (cs : List Char) :
    cs.drop (cs.takeWhile p).length = cs.dropWhile p :=
  calc cs.drop (cs.takeWhile p).length
    _ = (cs.takeWhile p ++ cs.dropWhile p).drop (cs.takeWhile p).length := by
      rw [List.takeWhile_append_dropWhile]
    _ = cs.dropWhile p := List.drop_left

/-- What stands behind a parenthesis, up to a variable and without another parenthesis, is no
cast. -/
theorem cast_variable (words : List String) (hxs : ')' ∉ xs) (ys : List Char) :
    Pattern.cast words ('(' :: (xs ++ '$' :: ys)) = none := by
  have hrest : ∃ zs : List Char, ')' ∉ zs ∧
      (((xs ++ '$' :: ys).dropWhile isTab).dropWhile Char.isAlpha).dropWhile isTab =
        zs ++ '$' :: ys := by
    refine ⟨((xs.dropWhile isTab).dropWhile Char.isAlpha).dropWhile isTab, fun h => hxs ?_, ?_⟩
    · exact (List.dropWhile_suffix _).subset ((List.dropWhile_suffix _).subset
        ((List.dropWhile_suffix _).subset h))
    · rw [dropWhile_before rfl, dropWhile_before rfl, dropWhile_before rfl]
  obtain ⟨zs, hzs, he⟩ := hrest
  simp only [Pattern.cast, run, ← List.drop_drop, drop_takeWhile, he]
  split
  · rename_i he'
    cases zs with
    | nil => cases he'
    | cons z zs =>
      cases he'
      exact absurd List.mem_cons_self hzs
  · rfl

theorem firstMatch_variable (hxs : ')' ∉ xs) (ys : List Char) :
    firstMatch Rule.casts b ('(' :: (xs ++ '$' :: ys)) = none := by
  rw [firstMatch, Rule.casts, List.findSome?_map, List.findSome?_eq_none_iff]
  intro c _
  simp only [Function.comp_apply, Rule.plain, Rule.length?, Bool.false_and, Bool.false_eq_true,
    if_false, cast_variable c.2 hxs ys, Option.map_none]

namespace View

/-- In code, before some rest, a text is read as some words, and reading goes on in code. -/
def Lexes (cs : List Char) (ws : List (Kind × String)) (rest : List Char) : Prop :=
  ∀ ms label b, ∃ b', Reads ⟨.code, ms, label, b, cs ++ rest⟩ ws ⟨.code, ms, label, b', rest⟩

theorem Lexes.nil (rest : List Char) : Lexes [] [] rest := fun _ _ b => ⟨b, .refl _⟩

theorem Lexes.append {cs' : List Char} {ws' : List (Kind × String)} (h : Lexes cs ws (cs' ++ rest))
    (h' : Lexes cs' ws' rest) : Lexes (cs ++ cs') (ws ++ ws') rest := by
  intro ms label b
  obtain ⟨b₁, h₁⟩ := h ms label b
  obtain ⟨b₂, h₂⟩ := h' ms label b₁
  exact ⟨b₂, by rw [List.append_assoc]; exact h₁.trans h₂⟩

/-- A token of a kind that a filter hands on. -/
theorem Lexes.of_next (hk : k ∉ blanks ++ tags)
    (h : ∀ ms label b, ∃ b', next ⟨.code, ms, label, b, cs ++ rest⟩ =
      some ((k, s), ⟨.code, ms, label, b', rest⟩)) : Lexes cs [(k, s)] rest := by
  intro ms label b
  obtain ⟨b', hb⟩ := h ms label b
  exact ⟨b', .hand hb hk (.refl _)⟩

theorem lexes_word (w : Word k) (hk : k ∉ blanks ++ tags) (h : startsWith isWord rest = false) :
    Lexes w.name.chars [(k, w.name.text)] rest := by
  obtain ⟨v, rfl⟩ := w
  exact .of_next hk fun ms label b => next_name v rest h

theorem lexes_variable (v : Name) (h : startsWith isWord rest = false) :
    Lexes ('$' :: v.chars) [(.var, v.asVariable)] rest :=
  .of_next (by decide) fun ms label b => next_variable v rest h

theorem lexes_space (h : startsWith isSpace rest = false) : Lexes [' '] [] rest := by
  intro ms label b
  have hblank : ∀ c ∈ [' '], isSpace c = true := List.forall_mem_singleton.mpr rfl
  have hnext : ∃ b', next ⟨.code, ms, label, b, [' '] ++ rest⟩ = _ :=
    next_space (List.cons_ne_nil _ _) hblank h
  obtain ⟨b', hb⟩ := hnext
  exact ⟨b', .skip hb (by decide) (.refl _)⟩

/-- What the first rule that matches makes, if it changes no mode. -/
theorem lexes_rule {r : Rule} (hk : k ∉ blanks ++ tags)
    (hm : ∀ b, firstMatch Mode.code.rules b (cs ++ rest) = some (r, cs.length))
    (hr : r.kind cs = k) (he : r.effect = .stay) : Lexes cs [(k, String.ofList cs)] rest := by
  refine .of_next hk fun ms label b => ⟨cs.getLast?.or b, next_taken cs (hm b) ?_⟩
  rw [hr, he]
  rfl

theorem lexes_backslash (rest : List Char) : Lexes ['\\'] [(.backslash, "\\")] rest :=
  lexes_rule (by decide) (fun _ => firstMatch_untagged rfl rfl) rfl rfl

theorem lexes_comma (rest : List Char) : Lexes [','] [(.comma, ",")] rest :=
  lexes_rule (by decide) (fun _ => firstMatch_untagged rfl rfl) rfl rfl

theorem lexes_rightParen (rest : List Char) : Lexes [')'] [(.rightParen, ")")] rest :=
  lexes_rule (by decide) (fun _ => firstMatch_untagged rfl rfl) rfl rfl

theorem lexes_bitAnd (rest : List Char) : Lexes ['&'] [(.bitAnd, "&")] ('$' :: rest) :=
  lexes_rule (by decide) (fun _ => firstMatch_untagged rfl rfl) rfl rfl

theorem lexes_equals (rest : List Char) : Lexes ['='] [(.equals, "=")] (' ' :: rest) :=
  lexes_rule (by decide) (fun _ => firstMatch_untagged rfl rfl) rfl rfl

/-- A parenthesis that opens no cast. -/
theorem lexes_leftParen (h : ∀ b, firstMatch Rule.casts b ('(' :: rest) = none) :
    Lexes ['('] [(.leftParen, "(")] rest := by
  refine lexes_rule (r := Rule.fixed .leftParen "(") (by decide) (fun b => ?_) rfl rfl
  have hsplit : rulesBefore .leftParen untagged = rulesBefore .doubleCast untagged ++
      (Rule.casts ++ rulesBefore .leftParen (rulesAfter .unsetCast untagged)) := rfl
  have hbefore : firstMatch (rulesBefore .leftParen untagged) b ('(' :: rest) = none :=
    hsplit ▸ firstMatch_append _ _ rfl (firstMatch_append _ _ (h b) rfl)
  exact firstMatch_untagged rfl (firstMatch_of_kind .leftParen rfl hbefore rfl)

end View
end Lexer

open Lexer.View

variable {c : Char} {rest : List Char}

theorem Path.lexes (p : Path) (h : startsWith isWord rest = false) :
    Lexes p.chars p.words rest := by
  induction p generalizing rest with
  | single w => exact lexes_word w (by decide) h
  | member p w ih =>
    exact (ih rfl).append ((lexes_backslash _).append (lexes_word w (by decide) h))

theorem QualifiedName.lexes (n : QualifiedName) (h : startsWith isWord rest = false) :
    Lexes n.chars n.words rest := by
  cases n with
  | relative p => exact p.lexes h
  | absolute p => exact (lexes_backslash _).append (p.lexes h)
  | current w p =>
    exact (lexes_word w (by decide) rfl).append ((lexes_backslash _).append (p.lexes h))

theorem Hint.lexes (t : Hint) (rest : List Char) (h : startsWith isWord rest = false) :
    Lexes t.chars t.words rest := by
  cases t with
  | named n => exact n.lexes h
  | static w _ => exact lexes_word w (by decide) h
  | array w => exact lexes_word w (by decide) h

theorem Default.lexes (d : Default) (hc : c ∈ valueMarks) : Lexes d.chars d.words (c :: rest) := by
  cases d with
  | constant n => exact n.lexes (startsWith_mark rfl hc rest)
  | emptyArray =>
    have hword : Lexes "array".toList [(.kwArray, "array")] ("()".toList ++ c :: rest) :=
      lexes_rule (by decide) (fun _ => rfl) (by decide) rfl
    exact hword.append ((lexes_leftParen fun _ => rfl).append (lexes_rightParen _))
  | number n _ =>
    exact lexes_rule (by decide) (fun b => Numeral.firstMatch_digits Nat.toDigits_ne_nil
      (Number.mem_toDigits (by decide) n) hc rest b) rfl rfl

theorem Path.exists_chars (p : Path) : ∃ d cs, p.chars = d :: cs ∧ isNameStart d = true := by
  induction p with
  | single w => exact ⟨_, _, rfl, w.name.isNameStart_head⟩
  | member p w ih =>
    obtain ⟨d, cs, he, hd⟩ := ih
    exact ⟨d, _, by rw [chars, he, List.cons_append], hd⟩

theorem isSpace_digit {d : Nat} (hd : d < 10) : isSpace d.digitChar = false := by
  interval_cases d <;> rfl

/-- No blank stands at the start of a name, a type or a default value. -/
theorem QualifiedName.startsWith_chars (n : QualifiedName) (rest : List Char) :
    startsWith isSpace (n.chars ++ rest) = false := by
  cases n with
  | relative p =>
    obtain ⟨c, cs, he, hc⟩ := p.exists_chars
    rw [chars, he]
    exact isSpace_of_isNameStart hc
  | absolute p => rfl
  | current w p => exact isSpace_of_isNameStart w.name.isNameStart_head

theorem Hint.startsWith_chars (t : Hint) (rest : List Char) :
    startsWith isSpace (t.chars ++ rest) = false := by
  cases t with
  | named n => exact n.startsWith_chars rest
  | static w _ => exact isSpace_of_isNameStart w.name.isNameStart_head
  | array w => exact isSpace_of_isNameStart w.name.isNameStart_head

theorem Default.startsWith_chars (d : Default) (rest : List Char) :
    startsWith isSpace (d.chars ++ rest) = false := by
  cases d with
  | constant n => exact n.startsWith_chars rest
  | emptyArray => rfl
  | number n _ =>
    obtain ⟨c, cs, he, -⟩ := Number.toDigits_eq_cons (b := 10) (by decide) n
    have hdigits := Number.mem_toDigits (b := 10) (by decide) n
    obtain ⟨d, hd, rfl⟩ := hdigits c (he ▸ List.mem_cons_self)
    rw [chars, he]
    exact isSpace_digit hd

/-- Only characters of names, and backslashes, stand in a type. -/
theorem Token.Name.not_mem_chars (v : Name) (hc : isWord c = false) : c ∉ v.chars := by
  intro h
  rw [v.isWord_chars c h] at hc
  cases hc

theorem Path.not_mem_chars (p : Path) (hc : isWord c = false) (hb : c ≠ '\\') : c ∉ p.chars := by
  induction p with
  | single w => exact w.name.not_mem_chars hc
  | member p w ih => simp [chars, ih, hb, w.name.not_mem_chars hc]

theorem QualifiedName.not_mem_chars (n : QualifiedName) (hc : isWord c = false) (hb : c ≠ '\\') :
    c ∉ n.chars := by
  cases n with
  | relative p => exact p.not_mem_chars hc hb
  | absolute p => simp [chars, hb, p.not_mem_chars hc hb]
  | current w p => simp [chars, hb, w.name.not_mem_chars hc, p.not_mem_chars hc hb]

theorem Hint.not_mem_chars (t : Hint) (hc : isWord c = false) (hb : c ≠ '\\') : c ∉ t.chars := by
  cases t with
  | named n => exact n.not_mem_chars hc hb
  | static w _ => exact w.name.not_mem_chars hc
  | array w => exact w.name.not_mem_chars hc

namespace Parameter

variable {p : Parameter}

theorem lexes_hint (p : Parameter) (h : startsWith isSpace rest = false) :
    Lexes p.hintChars p.hintWords rest := by
  rw [hintChars, hintWords]
  cases p.hint with
  | none => exact .nil rest
  | some t =>
    have ht := (t.lexes ([' '] ++ rest) rfl).append (lexes_space h)
    rwa [List.append_nil] at ht

theorem lexes_sign (p : Parameter) (rest : List Char) :
    Lexes p.signChars p.signWords ('$' :: rest) := by
  rw [signChars, signWords]
  cases p.isRef with
  | false => exact .nil _
  | true => exact lexes_bitAnd rest

theorem lexes_value (p : Parameter) (hc : c ∈ valueMarks) (rest : List Char) :
    Lexes p.valueChars p.valueWords (c :: rest) := by
  rw [valueChars, valueWords]
  cases p.value with
  | none => exact .nil _
  | some d =>
    have hsign : Lexes [' ', '=', ' '] [(.equals, "=")] (d.chars ++ c :: rest) :=
      (lexes_space rfl).append ((lexes_equals _).append (lexes_space (d.startsWith_chars _)))
    exact hsign.append (d.lexes hc)

theorem lexes (p : Parameter) (hc : c ∈ valueMarks) : Lexes p.chars p.words (c :: rest) := by
  have hname : startsWith isWord (p.valueChars ++ c :: rest) = false := by
    rw [valueChars]
    cases p.value with
    | none => exact startsWith_mark rfl hc rest
    | some d => rfl
  have hsign : startsWith isSpace
      ((p.signChars ++ ('$' :: p.name.chars ++ p.valueChars)) ++ c :: rest) = false := by
    rw [signChars]
    cases p.isRef <;> rfl
  exact (p.lexes_hint hsign).append ((p.lexes_sign _).append
    ((lexes_variable p.name hname).append (p.lexes_value hc rest)))

theorem startsWith_chars (p : Parameter) (rest : List Char) :
    startsWith isSpace (p.chars ++ rest) = false := by
  rw [chars, hintChars, List.append_assoc]
  cases p.hint with
  | none =>
    rw [signChars]
    cases p.isRef <;> rfl
  | some t =>
    rw [Option.elim_some, List.append_assoc]
    exact t.startsWith_chars _

/-- What stands before the variable holds few characters that no type has. -/
theorem not_mem_hint (p : Parameter) (hc : isWord c = false) (hb : c ∉ ['\\', ' ', '&']) :
    c ∉ p.hintChars ++ p.signChars := by
  simp only [List.mem_cons, List.not_mem_nil, or_false, not_or] at hb
  rw [hintChars, signChars]
  cases p.hint with
  | none => cases p.isRef <;> simp [hb]
  | some t => cases p.isRef <;> simp [hb, t.not_mem_chars hc hb.1]

/-- A parameter is no cast. -/
theorem exists_chars (p : Parameter) : ∃ xs ys, p.chars = xs ++ '$' :: ys ∧ ')' ∉ xs := by
  refine ⟨p.hintChars ++ p.signChars, p.name.chars ++ p.valueChars, ?_, ?_⟩
  · rw [chars, List.append_assoc, List.cons_append]
  · exact p.not_mem_hint rfl (by decide)

end Parameter

theorem intercalate_cons {α : Type} (sep x : List α) (xs : List (List α)) :
    sep.intercalate (x :: xs) = x ++ xs.flatMap (sep ++ ·) := by
  induction xs generalizing x with
  | nil => simp
  | cons y ys ih => rw [List.intercalate_cons_cons, ih, List.flatMap_cons]; simp

namespace Prototype

/-- What parameters behind the first one, and a parenthesis behind them, start with. -/
theorem exists_mark (ps : List Parameter) (rest : List Char) :
    ∃ c cs, (ps.map Parameter.chars).flatMap ([',', ' '] ++ ·) ++ ')' :: rest = c :: cs ∧
      c ∈ valueMarks := by
  cases ps with
  | nil => exact ⟨')', rest, rfl, by decide⟩
  | cons p ps => exact ⟨',', _, rfl, by decide⟩

theorem lexes_first (p : Parameter) (ps : List Parameter) (rest : List Char) :
    Lexes p.chars p.words
      ((ps.map Parameter.chars).flatMap ([',', ' '] ++ ·) ++ ')' :: rest) := by
  obtain ⟨c, cs, he, hc⟩ := exists_mark ps rest
  rw [he]
  exact p.lexes hc

theorem lexes_more (ps : List Parameter) (rest : List Char) :
    Lexes ((ps.map Parameter.chars).flatMap ([',', ' '] ++ ·))
      ((ps.map Parameter.words).flatMap ([(Kind.comma, ",")] ++ ·)) (')' :: rest) := by
  induction ps with
  | nil => exact .nil _
  | cons p ps ih =>
    have hcomma : Lexes [',', ' '] [(.comma, ",")] (p.chars ++
        ((ps.map Parameter.chars).flatMap ([',', ' '] ++ ·) ++ ')' :: rest)) :=
      (lexes_comma _).append (lexes_space (p.startsWith_chars _))
    exact (hcomma.append (lexes_first p ps rest)).append ih

theorem lexes_parameters (ps : List Parameter) (rest : List Char) :
    Lexes ([',', ' '].intercalate (ps.map Parameter.chars))
      ([(.comma, ",")].intercalate (ps.map Parameter.words)) (')' :: rest) := by
  cases ps with
  | nil => exact .nil _
  | cons p ps =>
    rw [List.map_cons, List.map_cons, intercalate_cons, intercalate_cons]
    exact (lexes_first p ps rest).append (lexes_more ps rest)

theorem uncast (ps : List Parameter) (rest : List Char) (b : Option Char) :
    Lexer.firstMatch Rule.casts b
      ('(' :: ([',', ' '].intercalate (ps.map Parameter.chars) ++ ')' :: rest)) = none := by
  cases ps with
  | nil => rfl
  | cons p ps =>
    obtain ⟨xs, ys, he, hxs⟩ := p.exists_chars
    rw [List.map_cons, intercalate_cons, he, List.append_assoc, List.append_assoc,
      List.cons_append]
    exact Lexer.firstMatch_variable hxs _

theorem lexes (f : Prototype) (rest : List Char) : Lexes f.chars f.words rest := by
  have hparen : Lexes ['('] [(.leftParen, "(")]
      ([',', ' '].intercalate (f.parameters.map Parameter.chars) ++ [')'] ++ rest) := by
    refine lexes_leftParen fun b => ?_
    rw [List.append_assoc]
    exact uncast f.parameters rest b
  exact (lexes_word f.name (by decide) rfl).append
    (hparen.append ((lexes_parameters f.parameters rest).append (lexes_rightParen rest)))

/-- The source of a function without a body. -/
def source (f : Prototype) : List Char :=
  "<?php function".toList ++ ' ' :: (f.chars ++ [' ', '\x7b', '\x7d'])

def sourceWords (f : Prototype) : List (Kind × String) :=
  (.kwFunction, "function") ::
    (f.words ++ [(Kind.leftBrace, "\x7b"), (Kind.rightBrace, "\x7d")])

theorem next_leftBrace {ms : List Mode} {label : Option (List Char)} {b : Option Char}
    (cs : List Char) : next ⟨.code, ms, label, b, '\x7b' :: cs⟩ =
      some ((.leftBrace, "\x7b"), ⟨.code, .code :: ms, label, some '\x7b', cs⟩) :=
  next_taken ['\x7b'] (Lexer.firstMatch_untagged rfl rfl) rfl

theorem next_rightBrace {ms : List Mode} {label : Option (List Char)} {b : Option Char}
    (cs : List Char) : next ⟨.code, .code :: ms, label, b, '\x7d' :: cs⟩ =
      some ((.rightBrace, "\x7d"), ⟨.code, ms, label, some '\x7d', cs⟩) :=
  next_taken ['\x7d'] (Lexer.firstMatch_untagged rfl rfl) rfl

/-- A source that starts with a function, up to the blank before its name. -/
theorem reads_function (cs : List Char) : Reads (ofText ("<?php function".toList ++ ' ' :: cs))
    [(.kwFunction, "function")] ⟨.code, [], none, some 'n', ' ' :: cs⟩ :=
  .skip (next_openTag ("function".toList ++ ' ' :: cs)) (by decide)
    (.hand (next_word "function".toList (' ' :: cs) (by decide) rfl) (by decide) (.refl _))

theorem reads_source (f : Prototype) :
    ∃ v : Lexer.View, Reads (ofText f.source) f.sourceWords v ∧ v.rest = [] := by
  have hfirst : startsWith isSpace (f.chars ++ ([' '] ++ ['\x7b', '\x7d'])) = false :=
    isSpace_of_isNameStart f.name.name.isNameStart_head
  have hwords : Lexes ([' '] ++ f.chars ++ [' ']) ([] ++ f.words ++ []) ['\x7b', '\x7d'] :=
    ((lexes_space hfirst).append (f.lexes _)).append (lexes_space rfl)
  obtain ⟨b, hb⟩ := hwords [] none (some 'n')
  rw [List.append_nil, List.append_assoc, List.append_assoc] at hb
  have hbraces : Reads ⟨.code, [], none, b, ['\x7b', '\x7d']⟩
      [(.leftBrace, "\x7b"), (.rightBrace, "\x7d")] ⟨.code, [], none, some '\x7d', []⟩ :=
    .hand (next_leftBrace _) (by decide) (.hand (next_rightBrace []) (by decide) (.refl _))
  exact ⟨_, (reads_function _).trans (hb.trans hbraces), rfl⟩

end Prototype
end Docblock
