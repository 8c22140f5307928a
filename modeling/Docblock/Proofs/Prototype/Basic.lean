import Docblock.Proofs.Docs.Signature
import Docblock.Proofs.Token.Spelling
import Docblock.Tree.Equality

/-! Prototypes: functions with their parameters, as they are written. A function whose node matches
a prototype has the text of the prototype for its signature. -/
namespace Docblock

open Token Grammar

/-- A name that is read as a token of some kind. -/
structure Word (k : Kind) where
  name : Name
  kindOfName_name : kindOfName name.chars = k

/-- Names with backslashes between them. -/
inductive Path where
  | single (w : Word .ident)
  | member (p : Path) (w : Word .ident)

namespace Path

def chars : Path → List Char
  | single w => w.name.chars
  | member p w => p.chars ++ '\\' :: w.name.chars

/-- The kinds and texts of the tokens. -/
def words : Path → List (Kind × String)
  | single w => [(.ident, w.name.text)]
  | member p w => p.words ++ [(.backslash, "\\"), (.ident, w.name.text)]

end Path

/-- A path as it is, from the root, or from the namespace it stands in. -/
inductive QualifiedName where
  | relative (p : Path)
  | absolute (p : Path)
  | current (w : Word .kwNamespace) (p : Path)

namespace QualifiedName

def chars : QualifiedName → List Char
  | relative p => p.chars
  | absolute p => '\\' :: p.chars
  | current w p => w.name.chars ++ '\\' :: p.chars

def text (n : QualifiedName) : String := String.ofList n.chars

theorem chars_ne_nil (n : QualifiedName) : n.chars ≠ [] := by
  cases n with
  | relative p => cases p <;> simp [chars, Path.chars, Name.chars]
  | absolute p => exact List.cons_ne_nil _ _
  | current w p => exact List.cons_ne_nil _ _

def words : QualifiedName → List (Kind × String)
  | relative p => p.words
  | absolute p => (.backslash, "\\") :: p.words
  | current w p => (.kwNamespace, w.name.text) :: (.backslash, "\\") :: p.words

end QualifiedName

/-- The type of a parameter. -/
inductive Hint where
  | named (n : QualifiedName)
  /-- The word for the class in which a method is called, which is kept in lower case. -/
  | static (w : Word .kwStatic) (h : lower w.name.text = w.name.text)
  | array (w : Word .kwArray)

namespace Hint

def chars : Hint → List Char
  | named n => n.chars
  | static w _ => w.name.chars
  | array w => w.name.chars

def text (h : Hint) : String := String.ofList h.chars

theorem chars_ne_nil (h : Hint) : h.chars ≠ [] := by
  cases h with
  | named n => exact n.chars_ne_nil
  | static w _ => exact List.cons_ne_nil _ _
  | array w => exact List.cons_ne_nil _ _

def words : Hint → List (Kind × String)
  | named n => n.words
  | static w _ => [(.kwStatic, w.name.text)]
  | array w => [(.kwArray, w.name.text)]

end Hint

/-- A default value that a signature shows as it can be written. -/
inductive Default where
  | constant (n : QualifiedName)
  | emptyArray
  | number (n : Nat) (h : 0 < n)

namespace Default

def chars : Default → List Char
  | constant n => n.chars
  | emptyArray => ['a', 'r', 'r', 'a', 'y', '(', ')']
  | number n _ => Nat.toDigits 10 n

def words : Default → List (Kind × String)
  | constant n => n.words
  | emptyArray => [(.kwArray, "array"), (.leftParen, "("), (.rightParen, ")")]
  | number n _ => [(.integer, String.ofList (Nat.toDigits 10 n))]

/-- A tree is the default value; its line does not matter. -/
def Matches : Default → Tree → Prop
  | constant n, t => ∃ line, t = .node .constant line [.text n.text]
  | emptyArray, t => ∃ line, t = .node .array line [.list []]
  | number n _, t => t = .int n

end Default

/-- A parameter with its type and its default value, if it has them. -/
structure Parameter where
  hint : Option Hint
  isRef : Bool
  name : Name
  value : Option Default

namespace Parameter

def hintChars (p : Parameter) : List Char := p.hint.elim [] fun h => h.chars ++ [' ']

def signChars (p : Parameter) : List Char := if p.isRef then ['&'] else []

def valueChars (p : Parameter) : List Char := p.value.elim [] fun d => [' ', '=', ' '] ++ d.chars

def chars (p : Parameter) : List Char :=
  p.hintChars ++ (p.signChars ++ ('$' :: p.name.chars ++ p.valueChars))

def hintWords (p : Parameter) : List (Kind × String) := p.hint.elim [] Hint.words

def signWords (p : Parameter) : List (Kind × String) := if p.isRef then [(.bitAnd, "&")] else []

def valueWords (p : Parameter) : List (Kind × String) :=
  p.value.elim [] fun d => (.equals, "=") :: d.words

def words (p : Parameter) : List (Kind × String) :=
  p.hintWords ++ (p.signWords ++ (.var, p.name.asVariable) :: p.valueWords)

def type (p : Parameter) : Tree := p.hint.elim .null fun h => .text h.text

/-- What a parameter has before its default value. -/
def openingChars (p : Parameter) : List Char := p.hintChars ++ (p.signChars ++ '$' :: p.name.chars)

/-- A tree is the parameter, but for its default value and its line. -/
def Opens (p : Parameter) (t : Tree) : Prop :=
  ∃ line value, t = .node .formalParameter line
    [.text p.name.asVariable, value, .bool p.isRef, p.type]

/-- A tree is the default value, or null if there is none. -/
def MatchesValue (p : Parameter) (value : Tree) : Prop :=
  p.value.elim (value = .null) (·.Matches value)

/-- A tree is the parameter; its lines do not matter. -/
def Matches (p : Parameter) (t : Tree) : Prop :=
  ∃ line value, t = .node .formalParameter line
      [.text p.name.asVariable, value, .bool p.isRef, p.type] ∧ p.MatchesValue value

end Parameter

theorem exists_forall₂ {α β : Type} {R : α → β → Prop} {bs : List β} (h : ∀ b ∈ bs, ∃ a, R a b) :
    ∃ as, List.Forall₂ R as bs := by
  induction bs with
  | nil => exact ⟨[], .nil⟩
  | cons b bs ih =>
    obtain ⟨⟨a, ha⟩, hbs⟩ := List.forall_mem_cons.mp h
    obtain ⟨as, has⟩ := ih hbs
    exact ⟨a :: as, .cons ha has⟩

/-- The name of a function, and its parameters. -/
structure Prototype where
  name : Word .ident
  parameters : List Parameter

namespace Prototype

def chars (f : Prototype) : List Char :=
  f.name.name.chars ++ '(' :: ([',', ' '].intercalate (f.parameters.map Parameter.chars) ++ [')'])

def text (f : Prototype) : String := String.ofList f.chars

def words (f : Prototype) : List (Kind × String) :=
  (.ident, f.name.name.text) :: (.leftParen, "(") ::
    ([(.comma, ",")].intercalate (f.parameters.map Parameter.words) ++ [(.rightParen, ")")])

end Prototype

/-! ### Signatures -/

namespace Docs

variable {t u value : Tree} {ts us : List Tree}

/-- What a signature has for a part that may be absent: nothing, or the text of the part with
something around it. -/
def PartText (around : String → String) (part : Tree) (s : String) : Prop :=
  part.truthy = false ∧ s = "" ∨
    part.truthy = true ∧ ∃ v, signature part = .ok v ∧ s = around v.display

theorem signature_formalParameter {name value isRef type : Tree} {line : Option Int}
    {head tail : String} (hhead : PartText (· ++ " ") type head)
    (htail : PartText (" = " ++ ·) value tail) :
    signature (.node .formalParameter line [name, value, isRef, type]) =
      .ok (.text (head ++ (if isRef.truthy then "&" else "") ++ name.display ++ tail)) := by
  obtain ⟨htype, rfl⟩ | ⟨htype, u, hu, rfl⟩ := hhead
  all_goals
    obtain ⟨hvalue, rfl⟩ | ⟨hvalue, v, hv, rfl⟩ := htail
    all_goals simp only [signature, *, if_true, if_false, Bool.false_eq_true, bind, Except.bind,
      pure, Except.pure]

theorem partText_hint (p : Parameter) : PartText (· ++ " ") p.type (String.ofList p.hintChars) := by
  rw [Parameter.type, Parameter.hintChars]
  cases p.hint with
  | none => exact Or.inl ⟨rfl, rfl⟩
  | some h =>
    have htext : h.text ≠ "" := fun he => h.chars_ne_nil (String.ofList_eq_empty_iff.mp he)
    exact Or.inr ⟨by simpa [Tree.truthy] using htext, _, rfl, String.ofList_append⟩

theorem partText_value {p : Parameter} {value : Tree} (h : p.MatchesValue value) :
    PartText (" = " ++ ·) value (String.ofList p.valueChars) := by
  rw [Parameter.MatchesValue] at h
  rw [Parameter.valueChars]
  cases hd : p.value with
  | none =>
    rw [hd] at h
    cases h
    exact Or.inl ⟨rfl, rfl⟩
  | some d =>
    rw [hd] at h
    cases d with
    | constant n | emptyArray =>
      obtain ⟨line, rfl⟩ := h
      exact Or.inr ⟨rfl, _, rfl, String.ofList_append⟩
    | number n hn =>
      cases h
      have htruthy : (Tree.int n).truthy = true := by
        simp only [Tree.truthy, bne_iff_ne]
        omega
      exact Or.inr ⟨htruthy, _, rfl, String.ofList_append⟩

theorem sign_text (p : Parameter) :
    (if (Tree.bool p.isRef).truthy then "&" else "") = String.ofList p.signChars := by
  rw [Parameter.signChars]
  cases p.isRef <;> rfl

theorem signature_parameter {p : Parameter} (h : p.Matches t) :
    signature t = .ok (.text (String.ofList p.chars)) := by
  obtain ⟨line, value, rfl, hvalue⟩ := h
  rw [signature_formalParameter (partText_hint p) (partText_value hvalue), sign_text,
    Parameter.chars]
  simp only [String.ofList_append, String.append_assoc]
  rfl

theorem signatureAll_texts {α : Type} {chars : α → List Char} {xs : List α}
    (h : List.Forall₂ (fun x t => signature t = .ok (.text (String.ofList (chars x)))) xs ts) :
    signatureAll ts = .ok ((xs.map chars).map fun cs => .text (String.ofList cs)) := by
  induction h with
  | nil => rfl
  | cons h _ ih =>
    rw [signatureAll, h, ih]
    rfl

/-- The signature of a function has those of its parameters between parentheses. -/
theorem signature_function {name : String} {line : Option Int} {body ref : Tree}
    {css : List (List Char)}
    (h : signatureAll ts = .ok (css.map fun cs => .text (String.ofList cs))) :
    signature (.node .function line [.text name, .list ts, body, ref]) = .ok (.text (String.ofList
      (name.toList ++ '(' :: ([',', ' '].intercalate css ++ [')'])))) := by
  have hmap : css.map (fun cs => Tree.text (String.ofList cs)) =
      (css.map String.ofList).map .text := by
    rw [List.map_map]
    rfl
  rw [signature, call, h, hmap]
  simp only [bind, Except.bind, joinTexts_map, pure, Except.pure, Except.ok.injEq,
    Tree.text.injEq, ← String.toList_inj, Tree.commaSeparated]
  simp [Tree.display, String.toList_intercalate, Function.comp_def]

/-- The signature of a function is the text of its prototype. -/
theorem signature_prototype {f : Prototype} {line : Option Int} {body ref : Tree}
    (h : List.Forall₂ Parameter.Matches f.parameters ts) :
    signature (.node .function line [.text f.name.name.text, .list ts, body, ref]) =
      .ok (.text f.text) := by
  rw [signature_function (signatureAll_texts (h.imp fun _ _ => signature_parameter)), Name.text,
    String.toList_ofList]
  rfl

end Docs

/-! ### Equality -/

variable {t u : Tree} {ts us : List Tree}

theorem Default.same {d : Default} (h : d.Matches t) (h' : d.Matches u) : t.same u = true := by
  cases d with
  | constant n | emptyArray =>
    obtain ⟨line, rfl⟩ := h
    obtain ⟨line', rfl⟩ := h'
    simp [Tree.same, Tree.sameAll]
  | number n hn =>
    cases h
    cases h'
    simp [Tree.same, Tree.sameNumber, Tree.number?, Tree.Number.same]

theorem Parameter.same {p : Parameter} (h : p.Matches t) (h' : p.Matches u) : t.same u = true := by
  obtain ⟨line, value, rfl, hvalue⟩ := h
  obtain ⟨line', value', rfl, hvalue'⟩ := h'
  have htype : p.type.same p.type = true := by
    rw [Parameter.type]
    cases p.hint <;> simp [Tree.same]
  have hsame : value.same value' = true := by
    rw [Parameter.MatchesValue] at hvalue hvalue'
    cases hd : p.value with
    | none =>
      rw [hd] at hvalue hvalue'
      cases hvalue
      cases hvalue'
      rfl
    | some d =>
      rw [hd] at hvalue hvalue'
      exact Default.same hvalue hvalue'
  simp [Tree.same, Tree.sameAll, hsame, htype, Tree.sameNumber, Tree.number?, Tree.Number.same]

/-- Trees of the same parameters are equal. -/
theorem sameAll_parameters {ps : List Parameter} (h : List.Forall₂ Parameter.Matches ps ts)
    (h' : List.Forall₂ Parameter.Matches ps us) : Tree.sameAll ts us = true := by
  induction h generalizing us with
  | nil =>
    cases h'
    rfl
  | cons h _ ih =>
    cases h' with
    | cons h' hrest => rw [Tree.sameAll, Parameter.same h h', ih hrest, Bool.and_self]

end Docblock
