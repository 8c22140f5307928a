import Docblock.Proofs.Automaton.Bodies
import Docblock.Proofs.Grammar.Making

/-! A body between a colon and a word is read like one between braces. -/
namespace Docblock

open Token Grammar Automaton

variable {file : Option String} {xs : List Token} {fs : List Frame}

/-- A pair of braces. -/
structure Braces where
  left : Token
  right : Token
  left_kind : left.kind = .leftBrace
  right_kind : right.kind = .rightBrace

def Braces.around (b : Braces) (ts : List Token) : List Token := b.left :: (ts ++ [b.right])

/-- A colon, a word that ends what follows it, and a semicolon. -/
structure Colons (k : Kind) where
  colon : Token
  stop : Token
  semi : Token
  colon_kind : colon.kind = .colon
  stop_kind : stop.kind = k
  semi_kind : semi.kind = .semi

def Colons.around {k : Kind} (c : Colons k) (ts : List Token) : List Token :=
  c.colon :: (ts ++ [c.stop, c.semi])

/-- Some source starts with the tokens. -/
def Opens (file : Option String) (ts : List Token) : Prop :=
  ∃ rest trees, parsed file (ts ++ rest) = .ok trees

/-- The statements whose body is a statement, or statements between a colon and a word. -/
inductive Loop where
  | whileLoop
  | forLoop
  | foreach
  | declare

/-- The kind of node of a loop, the productions of its two bodies, and the states behind a
statement as its body and behind the word and the semicolon of the other body. -/
structure LoopForm extends Construct, Span where
  kind : Tree.Kind
  plainRule : Nat
  colonRule : Nat
  atStatement : Nat
  atStop : Nat
  atSemi : Nat

/-- Statements between braces, and behind a colon before a word. -/
def statementSpan (stop : Kind) (before' atList' : Nat) : Span where
  list := .innerStatements
  nothing := Reduction.innerNone
  stop := stop
  before := State.brace
  before' := before'
  atEmpty := State.braceBlank
  atList := State.braceStatements
  atList' := atList'
  atBrace := State.braceEnd

namespace Loop

def form : Loop → LoopForm
  | whileLoop => {
      word := .kwWhile, slots := [.n .expr], body := .whileBody, kind := .whileLoop,
      rule := Reduction.whileLoop, plainRule := Reduction.whileStatement,
      colonRule := Reduction.whileColon, atWord := State.whileWord, atLeft := State.whileParen,
      atSlots := State.whileExpr, atRight := State.whileClose, atBody := State.whileBody,
      toSpan := statementSpan .kwEndwhile State.whileColon State.whileStatements,
      atStatement := State.whileStatement, atStop := State.endwhile, atSemi := State.endwhileSemi }
  | forLoop => {
      word := .kwFor, slots := [.n .forExprs, .t .semi, .n .forExprs, .t .semi, .n .forExprs],
      body := .forBody, kind := .forLoop,
      rule := Reduction.forLoop, plainRule := Reduction.forStatement,
      colonRule := Reduction.forColon, atWord := State.forWord, atLeft := State.forParen,
      atSlots := State.forExprs, atRight := State.forClose, atBody := State.forBody,
      toSpan := statementSpan .kwEndfor State.forColon State.forStatements,
      atStatement := State.forStatement, atStop := State.endfor, atSemi := State.endforSemi }
  | foreach => {
      word := .kwForeach, slots := [.n .expr, .t .kwAs, .n .foreachVar, .n .foreachTarget],
      body := .foreachBody, kind := .foreach,
      rule := Reduction.foreachLoop, plainRule := Reduction.foreachStatement,
      colonRule := Reduction.foreachColon, atWord := State.foreachWord,
      atLeft := State.foreachParen, atSlots := State.foreachTarget, atRight := State.foreachClose,
      atBody := State.foreachBody,
      toSpan := statementSpan .kwEndforeach State.foreachColon State.foreachStatements,
      atStatement := State.foreachStatement, atStop := State.endforeach,
      atSemi := State.endforeachSemi }
  | declare => {
      word := .kwDeclare, slots := [.n .directives], body := .declareBody, kind := .declare,
      rule := Reduction.declare, plainRule := Reduction.declareStatement,
      colonRule := Reduction.declareColon, atWord := State.declareWord,
      atLeft := State.declareParen, atSlots := State.declareDirectives,
      atRight := State.declareClose, atBody := State.declareBody,
      toSpan := statementSpan .kwEnddeclare State.declareColon State.declareStatements,
      atStatement := State.declareStatement, atStop := State.enddeclare,
      atSemi := State.enddeclareSemi }

def word (l : Loop) : Kind := l.form.word

def stop (l : Loop) : Kind := l.form.stop

def kind (l : Loop) : Tree.Kind := l.form.kind

/-- A body of a loop is a tree. -/
def value : (l : Loop) → Tree → l.form.body.Value
  | whileLoop | forLoop | foreach | declare => id

theorem production_body (l : Loop) :
    productions[l.form.plainRule]? = some (rule l.form.body [.n .statement] l.value) ∧
    productions[l.form.colonRule]? = some (rule l.form.body
      [.t .colon, .n .innerStatements, .t l.stop, .t .semi]
      fun c ss _ _ => l.value (node c.line .block [.list ss])) := by
  cases l <;> exact ⟨rfl, rfl⟩

/-- What is done between the head of a loop and its end. -/
def fits (f : LoopForm) : Bool :=
  f.toConstruct.fits && f.toSpan.fits && actionAt f.atRight .leftBrace == .shift State.brace &&
    target? f.atRight (.n .statement) == some f.atStatement &&
    actionAtEnd f.atStatement == .reduce f.plainRule &&
    target? f.atRight (.n f.body) == some f.atBody && actionAtEnd f.atBody == .reduce f.rule &&
    actionAt f.atRight .colon == .shift f.before' &&
    actionAt f.atList' f.stop == .shift f.atStop &&
    actionAt f.atStop .semi == .shift f.atSemi && actionAtEnd f.atSemi == .reduce f.colonRule

/-- Before a brace that closes statements, or before what ends them instead, a statement has been
read, or one of the tokens that can end one. -/
def statementTails : List Symbol := [
  .n .innerStatement, .n .statement, .n .comment, .n .functionDeclaration, .n .classDeclaration,
  .n .whileBody, .n .forBody, .n .foreachBody, .n .declareBody, .n .switchBody, .n .elseifs,
  .n .elsePart, .n .moreCatches, .t .comment, .t .docComment, .t .inlineHtml, .t .rightBrace,
  .t .semi]

def ending : Ending where
  after := .rightBrace
  instead := [.kwEndwhile, .kwEndfor, .kwEndforeach, .kwEnddeclare]
  symbols := statementTails
  states := [State.whileStatements, State.forStatements, State.foreachStatements,
    State.declareStatements]

/-- A block by itself, as a statement. -/
def block : Enclosure where
  first := .leftBrace
  inside := .innerStatements
  last := .rightBrace
  rule := Reduction.braces
  atFirst := State.brace
  atInside := State.braceStatements

/-- What the tables say of loops and blocks. -/
theorem tables_fit : [whileLoop, forLoop, foreach, declare].all (fits ·.form) = true ∧
    ending.Fits ∧ block.fits = true ∧ reducesOnly State.brace Reduction.empty [] = true ∧
    actionAt State.braceStatements .rightBrace = .shift State.braceEnd ∧
    actionAtEnd State.braceEnd = .reduce Reduction.braces := by
  unfold Ending.Fits
  decide +kernel

theorem form_fits (l : Loop) : fits l.form = true :=
  List.all_eq_true.mp tables_fit.1 l (by cases l <;> simp)

theorem production_braces : productions[Reduction.braces]? = some (rule .statement
    [.t .leftBrace, .n .innerStatements, .t .rightBrace] fun b ss _ =>
      node b.line .block [.list ss]) := rfl

/-- With its body, a loop is a statement; the body is the last field of the node. -/
theorem closes (l : Loop) (file : Option String) (h : Head l.word)
    (hfs : fs.map (·.symbol) = l.form.slots.reverse) :
    ∃ fields, ∀ x, Move file gathering
      ⟨⟨l.form.atBody, .n l.form.body, l.value x⟩ :: l.form.frames h fs, []⟩
      ⟨[⟨State.statement, .n .statement, node h.word.line l.kind (fields ++ [x])⟩], []⟩ := by
  have hfits := l.form_fits
  simp only [fits, Bool.and_eq_true, beq_iff_eq, and_assoc] at hfits
  obtain ⟨-, -, -, -, -, -, hact, -⟩ := hfits
  cases l with
  | whileLoop =>
    obtain ⟨_, e, _, rfl, hfs₁⟩ := frames_cons hfs
    cases List.map_eq_nil_iff.mp hfs₁
    have hp : productions[Reduction.whileLoop]? = some (rule .statement
        [.t .kwWhile, .t .leftParen, .n .expr, .t .rightParen, .n .whileBody]
        fun w _ e _ s => node w.line .whileLoop [e, s]) := rfl
    exact ⟨[e], fun x => .reduce_rule hp hact rfl rfl rfl⟩
  | forLoop =>
    obtain ⟨_, e₃, _, rfl, hfs₁⟩ := frames_cons hfs
    obtain ⟨_, s₂, _, rfl, hfs₂⟩ := frames_cons hfs₁
    obtain ⟨_, e₂, _, rfl, hfs₃⟩ := frames_cons hfs₂
    obtain ⟨_, s₁, _, rfl, hfs₄⟩ := frames_cons hfs₃
    obtain ⟨_, e₁, _, rfl, hfs₅⟩ := frames_cons hfs₄
    cases List.map_eq_nil_iff.mp hfs₅
    have hp : productions[Reduction.forLoop]? = some (rule .statement
        [.t .kwFor, .t .leftParen, .n .forExprs, .t .semi, .n .forExprs, .t .semi, .n .forExprs,
          .t .rightParen, .n .forBody] fun w _ start _ test _ count _ s =>
        node w.line .forLoop [start, test, count, s]) := rfl
    exact ⟨[e₁, e₂, e₃], fun x => .reduce_rule hp hact rfl rfl rfl⟩
  | foreach =>
    obtain ⟨_, target, _, rfl, hfs₁⟩ := frames_cons hfs
    obtain ⟨_, var, _, rfl, hfs₂⟩ := frames_cons hfs₁
    obtain ⟨_, w, _, rfl, hfs₃⟩ := frames_cons hfs₂
    obtain ⟨_, e, _, rfl, hfs₄⟩ := frames_cons hfs₃
    cases List.map_eq_nil_iff.mp hfs₄
    have hp : ∃ f, productions[Reduction.foreachLoop]? = some (rule .statement
        [.t .kwForeach, .t .leftParen, .n .expr, .t .kwAs, .n .foreachVar, .n .foreachTarget,
          .t .rightParen, .n .foreachBody] f) ∧
        ∃ fields, ∀ x, f h.word h.left e w var target h.right x =
          node h.word.line .foreach (fields ++ [x]) := by
      refine ⟨_, rfl, ?_⟩
      by_cases hnull : target = .null
      · subst hnull
        exact ⟨[e, .null, var], fun x => rfl⟩
      · refine ⟨[e, var, target], fun x => ?_⟩
        split
        · exact absurd rfl hnull
        · rfl
    obtain ⟨f, hp, fields, hf⟩ := hp
    exact ⟨fields, fun x => .reduce_rule hp hact rfl (hf x) rfl⟩
  | declare =>
    obtain ⟨_, ds, _, rfl, hfs₁⟩ := frames_cons hfs
    cases List.map_eq_nil_iff.mp hfs₁
    have hp : productions[Reduction.declare]? = some (rule .statement
        [.t .kwDeclare, .t .leftParen, .n .directives, .t .rightParen, .n .declareBody]
        fun w _ ds _ s => node w.line .declare [.list ds, s]) := rfl
    exact ⟨[.list ds], fun x => .reduce_rule hp hact rfl rfl rfl⟩

theorem ending_states (l : Loop) : l.stop ∈ ending.instead ∧ l.form.atList' ∈ ending.states := by
  cases l <;> decide

theorem form_span (l : Loop) :
    l.form.toSpan = statementSpan l.stop l.form.before' l.form.atList' := by
  cases l <;> rfl

/-- A block is read as a body. -/
theorem braces_moves (l : Loop) (b : Braces) {ss : List Tree}
    (h : Moves file State.brace ⟨[], xs ++ [b.right]⟩
      ⟨[⟨State.braceStatements, .n .innerStatements, ss⟩], [b.right]⟩) :
    Moves file l.form.atRight ⟨[], b.around xs⟩
      ⟨[⟨l.form.atBody, .n l.form.body, l.value (node b.left.line .block [.list ss])⟩], []⟩ := by
  have hfits := l.form_fits
  simp only [fits, Bool.and_eq_true, beq_iff_eq, and_assoc] at hfits
  obtain ⟨-, -, hopen, hstatement, hplain, hbody, -⟩ := hfits
  obtain ⟨-, -, -, -, hclose, hblockEnd⟩ := tables_fit
  have hblock : Moves file l.form.atRight ⟨[], b.around xs⟩
      ⟨[⟨State.braceEnd, .t .rightBrace, b.right⟩, ⟨State.braceStatements, .n .innerStatements, ss⟩,
        ⟨State.brace, .t .leftBrace, b.left⟩], []⟩ :=
    .head (.shift_kind b.left_kind hopen)
      (.tail (Moves.onto [⟨State.brace, .t .leftBrace, b.left⟩] h)
      (.shift_kind b.right_kind hclose))
  have hmade : Move file l.form.atRight
      ⟨[⟨State.braceEnd, .t .rightBrace, b.right⟩, ⟨State.braceStatements, .n .innerStatements, ss⟩,
        ⟨State.brace, .t .leftBrace, b.left⟩], []⟩
      ⟨[⟨l.form.atStatement, .n .statement, node b.left.line .block [.list ss]⟩], []⟩ :=
    .reduce_rule production_braces hblockEnd rfl rfl hstatement
  exact (hblock.tail hmade).tail (.reduce_rule l.production_body.1 hplain rfl rfl hbody)

/-- Statements behind a colon are read as a body. -/
theorem colon_moves (l : Loop) (b : Braces) (c : Colons l.stop) {ss : List Tree}
    (h : Moves file State.brace ⟨[], xs ++ [b.right]⟩
      ⟨[⟨State.braceStatements, .n .innerStatements, ss⟩], [b.right]⟩) :
    Moves file l.form.atRight ⟨[], c.around xs⟩
      ⟨[⟨l.form.atBody, .n l.form.body, l.value (node c.colon.line .block [.list ss])⟩], []⟩ := by
  have hfits := l.form_fits
  simp only [fits, Bool.and_eq_true, beq_iff_eq, and_assoc] at hfits
  obtain ⟨-, hspan, -, -, -, hbody, -, hcolon, hstop, hsemi, hend⟩ := hfits
  obtain ⟨hinstead, hstate⟩ := l.ending_states
  obtain ⟨-, hending, -, hnothing, -⟩ := tables_fit
  have hfirst : actionOn State.brace (ahead (xs ++ [b.right])) = .reduce Reduction.empty :=
    first_empty h hnothing (by simp)
  have hinside : Moves file l.form.before' ⟨[], xs ++ [c.stop, c.semi]⟩
      ⟨[⟨l.form.atList', .n .innerStatements, ss⟩], [c.stop, c.semi]⟩ :=
    Span.moves ((congrArg Span.fits l.form_span).symm.trans hspan) hending rfl hinstead hstate
      b.right_kind c.stop_kind hfirst h
  have hwhole : Moves file l.form.atRight ⟨[], c.around xs⟩
      ⟨[⟨l.form.atSemi, .t .semi, c.semi⟩, ⟨l.form.atStop, .t l.stop, c.stop⟩,
        ⟨l.form.atList', .n .innerStatements, ss⟩, ⟨l.form.before', .t .colon, c.colon⟩], []⟩ :=
    .head (.shift_kind c.colon_kind hcolon)
      (.tail (.tail (Moves.onto [⟨l.form.before', .t .colon, c.colon⟩] hinside)
        (.shift_kind c.stop_kind hstop)) (.shift_kind c.semi_kind hsemi))
  have htake : take [.t .colon, .n .innerStatements, .t l.stop, .t .semi]
      [⟨l.form.atSemi, .t .semi, c.semi⟩, ⟨l.form.atStop, .t l.stop, c.stop⟩,
        ⟨l.form.atList', .n .innerStatements, ss⟩, ⟨l.form.before', .t .colon, c.colon⟩] =
      some ((c.colon, ss, c.stop, c.semi, ()), []) := by simp [take]
  exact hwhole.tail (.reduce_rule l.production_body.2 hend htake rfl hbody)

/-- The two forms of a loop have the same fields and, in their blocks, the same statements. -/
theorem parsed_forms (l : Loop) (h : Head l.word) (b : Braces) (c : Colons l.stop) {t : Tree}
    (hh : Opens file h.tokens) (hb : parsed file (b.around xs) = .ok [t]) :
    ∃ fields ss, t = node b.left.line .block [.list ss] ∧
      parsed file (h.tokens ++ b.around xs) =
        .ok [node h.word.line l.kind (fields ++ [t])] ∧
      parsed file (h.tokens ++ c.around xs) =
        .ok [node h.word.line l.kind (fields ++ [node c.colon.line .block [.list ss]])] := by
  obtain ⟨rest, trees, hrest⟩ := hh
  have hfits := l.form_fits
  simp only [fits, Bool.and_eq_true, beq_iff_eq, and_assoc] at hfits
  obtain ⟨fs, hfs, -, hhead⟩ := Construct.head_moves hfits.1 h hrest
  obtain ⟨ss, rfl, -, hinside⟩ := block.moves tables_fit.2.2.1 production_braces b.left_kind hb
  obtain ⟨fields, hclose⟩ := l.closes file h hfs
  exact ⟨fields, ss, rfl,
    Construct.parsed_of_body hfits.1 (hhead _) (l.braces_moves b hinside) (hclose _),
    Construct.parsed_of_body hfits.1 (hhead _) (l.colon_moves b c hinside) (hclose _)⟩

end Loop

namespace Switch

/-- A statement with clauses. -/
def form : Construct where
  word := .kwSwitch
  slots := [.n .expr]
  body := .switchBody
  rule := Reduction.switch
  atWord := State.switchWord
  atLeft := State.switchParen
  atSlots := State.switchExpr
  atRight := State.switchClose
  atBody := State.switchBody

/-- Clauses behind a brace or behind a colon. -/
def plain : Span where
  list := .cases
  nothing := Reduction.casesNone
  stop := .kwEndswitch
  before := State.switchBrace
  before' := State.switchColon
  atEmpty := State.switchBlank
  atList := State.switchCases
  atList' := State.colonCases
  atBrace := State.switchEnd

/-- Clauses behind a semicolon that follows the brace or the colon. -/
def led : Span :=
  { plain with
    before := State.switchSemi, before' := State.colonSemi, atList := State.switchSemiCases,
    atList' := State.colonSemiCases, atBrace := State.switchSemiEnd }

/-- Before what ends clauses, statements have been read, or a clause has none. -/
def ending : Ending where
  after := .rightBrace
  instead := [.kwEndswitch]
  symbols := .n .caseSeparator :: .t .colon :: Loop.statementTails
  states := [State.defaultStatements, State.caseStatements, State.colonCases, State.colonSemiCases]

/-- What the tables say of clauses: how they start and end, and what can take off the brace behind a
head and the semicolon behind that. -/
theorem tables_fit : form.fits = true ∧ plain.fits = true ∧ led.fits = true ∧ ending.Fits ∧
    reducesOnly State.switchBrace Reduction.empty [.semi] = true ∧
    reducesOnly State.switchSemi Reduction.empty [] = true ∧
    onlyTakes 0 [(State.switchBrace, .t .leftBrace), (State.switchClose, .t .rightParen),
      (State.switchExpr, .n .expr), (State.switchParen, .t .leftParen),
      (State.switchWord, .t .kwSwitch), (gathering, .n .topStatements)]
      [(Reduction.switchBraces, 1), (Reduction.switchSemiBraces, 1)] = true ∧
    onlyTakes 0 [(State.switchSemi, .t .semi), (State.switchBrace, .t .leftBrace),
      (State.switchClose, .t .rightParen), (State.switchExpr, .n .expr),
      (State.switchParen, .t .leftParen), (State.switchWord, .t .kwSwitch),
      (gathering, .n .topStatements)]
      [(Reduction.switchSemiBraces, 2)] = true := by
  unfold Ending.Fits
  decide +kernel

theorem clause_actions : actionAt State.switchClose .leftBrace = .shift State.switchBrace ∧
    actionAt State.switchBrace .semi = .shift State.switchSemi ∧
    actionAt State.switchCases .rightBrace = .shift State.switchEnd ∧
    actionAt State.switchSemiCases .rightBrace = .shift State.switchSemiEnd ∧
    actionAtEnd State.switchEnd = .reduce Reduction.switchBraces ∧
    actionAtEnd State.switchSemiEnd = .reduce Reduction.switchSemiBraces ∧
    actionAt State.switchClose .colon = .shift State.switchColon ∧
    actionAt State.switchColon .semi = .shift State.colonSemi ∧
    actionAt State.colonCases .kwEndswitch = .shift State.endswitch ∧
    actionAt State.colonSemiCases .kwEndswitch = .shift State.semiEndswitch ∧
    actionAt State.endswitch .semi = .shift State.endswitchSemi ∧
    actionAt State.semiEndswitch .semi = .shift State.semiEndswitchSemi ∧
    actionAtEnd State.endswitchSemi = .reduce Reduction.switchColon ∧
    actionAtEnd State.semiEndswitchSemi = .reduce Reduction.switchSemiColon ∧
    actionAtEnd State.switchBody = .reduce Reduction.switch ∧
    target? State.switchClose (.n .switchBody) = some State.switchBody ∧
    target? State.switchBrace (.n .cases) = some State.switchCases ∧
    target? State.switchSemi (.n .cases) = some State.switchSemiCases := by
  decide

theorem production_clauses :
    productions[Reduction.switchBraces]? = some
      (rule .switchBody [.t .leftBrace, .n .cases, .t .rightBrace]
      fun _ cs _ => cs) ∧
    productions[Reduction.switchSemiBraces]? = some (rule .switchBody
      [.t .leftBrace, .t .semi, .n .cases, .t .rightBrace] fun _ _ cs _ => cs) ∧
    productions[Reduction.switchColon]? = some
      (rule .switchBody [.t .colon, .n .cases, .t .kwEndswitch, .t .semi]
      fun _ cs _ _ => cs) ∧
    productions[Reduction.switchSemiColon]? = some (rule .switchBody
      [.t .colon, .t .semi, .n .cases, .t .kwEndswitch, .t .semi] fun _ _ cs _ _ => cs) :=
  ⟨rfl, rfl, rfl, rfl⟩

/-- Clauses between braces are a body, and so are they behind a colon. -/
theorem plain_moves (b : Braces) (c : Colons .kwEndswitch) {cs : List Tree}
    (hlead : ahead (xs ++ [b.right]) ≠ some .semi)
    (h : Moves file State.switchBrace ⟨[], xs ++ [b.right]⟩
      ⟨[⟨State.switchCases, .n .cases, cs⟩], [b.right]⟩) :
    Moves file State.switchClose ⟨[], b.around xs⟩ ⟨[⟨State.switchBody, .n .switchBody, cs⟩], []⟩ ∧
      Moves file State.switchClose ⟨[], c.around xs⟩
        ⟨[⟨State.switchBody, .n .switchBody, cs⟩], []⟩ := by
  obtain ⟨hopen, -, hclose, -, hbraces, -, hcolon, -, hstop, -, hsemi, -, hcolons, -, -, hbody,
    -⟩ := clause_actions
  obtain ⟨-, hspan, -, hending, hstart, -⟩ := tables_fit
  have hnext : ∀ k ∈ ahead (xs ++ [b.right]), k ∉ [Kind.semi] := by
    intro k hk hsemi
    rw [List.mem_singleton] at hsemi
    subst hsemi
    exact hlead hk
  constructor
  · refine .head (.shift_kind b.left_kind hopen) (.tail (.tail
      (Moves.onto [⟨State.switchBrace, .t .leftBrace, b.left⟩] h)
        (.shift_kind b.right_kind hclose)) ?_)
    exact .reduce_rule production_clauses.1 hbraces rfl rfl hbody
  · have hinside : Moves file State.switchColon ⟨[], xs ++ [c.stop, c.semi]⟩
        ⟨[⟨State.colonCases, .n .cases, cs⟩], [c.stop, c.semi]⟩ :=
      Span.moves hspan hending rfl (by decide) (by decide) b.right_kind c.stop_kind
        (first_empty h hstart hnext) h
    refine .head (.shift_kind c.colon_kind hcolon) (.tail (.tail (.tail
      (Moves.onto [⟨State.switchColon, .t .colon, c.colon⟩] hinside)
        (.shift_kind c.stop_kind hstop))
      (.shift_kind c.semi_kind hsemi)) ?_)
    exact .reduce_rule production_clauses.2.2.1 hcolons rfl rfl hbody

/-- The same for clauses behind a semicolon. -/
theorem led_moves (b : Braces) (c : Colons .kwEndswitch) {lead : Token} (hlead : lead.kind = .semi)
    {cs : List Tree}
    (h : Moves file State.switchSemi ⟨[], xs ++ [b.right]⟩
      ⟨[⟨State.switchSemiCases, .n .cases, cs⟩], [b.right]⟩) :
    Moves file State.switchClose ⟨[], b.around (lead :: xs)⟩
      ⟨[⟨State.switchBody, .n .switchBody, cs⟩], []⟩ ∧
      Moves file State.switchClose ⟨[], c.around (lead :: xs)⟩
        ⟨[⟨State.switchBody, .n .switchBody, cs⟩], []⟩ := by
  obtain ⟨hopen, hled, -, hclose, -, hbraces, hcolon, hled', -, hstop, -, hsemi, -, hcolons, -,
    hbody, -⟩ := clause_actions
  obtain ⟨-, -, hspan, hending, -, hstart, -⟩ := tables_fit
  constructor
  · refine .head (.shift_kind b.left_kind hopen) (.head (.shift_kind hlead hled) (.tail (.tail
      (Moves.onto
        [⟨State.switchSemi, .t .semi, lead⟩, ⟨State.switchBrace, .t .leftBrace, b.left⟩] h)
      (.shift_kind b.right_kind hclose)) ?_))
    exact .reduce_rule production_clauses.2.1 hbraces rfl rfl hbody
  · have hinside : Moves file State.colonSemi ⟨[], xs ++ [c.stop, c.semi]⟩
        ⟨[⟨State.colonSemiCases, .n .cases, cs⟩], [c.stop, c.semi]⟩ :=
      Span.moves hspan hending rfl (by decide) (by decide) b.right_kind c.stop_kind
        (first_empty h hstart (by simp)) h
    refine .head (.shift_kind c.colon_kind hcolon) (.head (.shift_kind hlead hled') (.tail (.tail
      (.tail (Moves.onto [⟨State.colonSemi, .t .semi, lead⟩,
        ⟨State.switchColon, .t .colon, c.colon⟩] hinside)
      (.shift_kind c.stop_kind hstop)) (.shift_kind c.semi_kind hsemi)) ?_))
    exact .reduce_rule production_clauses.2.2.2 hcolons rfl rfl hbody

/-- With its clauses, the statement is whole. -/
theorem closes (file : Option String) (h : Head .kwSwitch)
    (hfs : fs.map (·.symbol) = form.slots.reverse) :
    ∃ e, ∀ cs, Move file gathering ⟨⟨State.switchBody, .n .switchBody, cs⟩ :: form.frames h fs, []⟩
      ⟨[⟨State.statement, .n .statement, node h.word.line .switch [e, .list cs]⟩], []⟩ := by
  obtain ⟨_, e, _, rfl, hnil⟩ := frames_cons hfs
  cases List.map_eq_nil_iff.mp hnil
  have hp : productions[Reduction.switch]? = some (rule .statement
      [.t .kwSwitch, .t .leftParen, .n .expr, .t .rightParen, .n .switchBody]
      fun w _ e _ arms => node w.line .switch [e, .list arms]) := rfl
  obtain ⟨-, -, -, -, -, -, -, -, -, -, -, -, -, -, hwhole, -⟩ := clause_actions
  exact ⟨e, fun cs => .reduce_rule hp hwhole rfl rfl rfl⟩

/-- The frames of the head and of the brace behind it, in a source. -/
def opened (h : Head .kwSwitch) (b : Braces) (e : Tree) : List Frame :=
  ⟨State.switchBrace, .t .leftBrace, b.left⟩ ::
    (form.frames h [⟨State.switchExpr, .n .expr, e⟩] ++ [gathered []])

/-- Where a source goes on behind a brace and a semicolon, clauses are read up to the brace. -/
theorem exists_led {h : Head .kwSwitch} {b : Braces} {e : Tree} {lead : Token} {trees : List Tree}
    (hx : Closed xs) (hp : Moves file 0
      ⟨⟨State.switchSemi, .t .semi, lead⟩ :: opened h b e, xs ++ [b.right]⟩
      ⟨[gathered trees], []⟩) :
    ∃ cs, Moves file State.switchSemi ⟨[], xs ++ [b.right]⟩
      ⟨[⟨State.switchSemiCases, .n .cases, cs⟩], [b.right]⟩ := by
  obtain ⟨-, -, -, -, -, -, -, honly⟩ := tables_fit
  obtain ⟨up, ts, p, n, pr, hup, hfound, hpr, hsymbols⟩ :=
    Moves.taken hp (by simp [opened]) rfl honly
  obtain ⟨rfl, rfl⟩ := Prod.mk.inj (List.mem_singleton.mp hfound)
  cases production_clauses.2.1.symm.trans hpr
  obtain ⟨q₁, r, _, rfl, hsymbols'⟩ := frames_cons hsymbols
  obtain ⟨q₂, cs, _, rfl, hnil⟩ := frames_cons hsymbols'
  cases List.map_eq_nil_iff.mp hnil
  have hclosing : Kind.rightBrace ∈ closings := by decide
  obtain ⟨-, hmoves⟩ := Moves.closing hup hclosing (b.right_kind ▸ hclosing) hx rfl
  obtain ⟨-, -, -, -, -, -, -, -, -, -, -, -, -, -, -, -, -, hbehind⟩ := clause_actions
  cases hbehind.symm.trans (Moves.linked hmoves trivial).1
  exact ⟨cs, hmoves⟩

/-- The same where there is no semicolon. -/
theorem exists_plain {h : Head .kwSwitch} {b : Braces} {e : Tree} {trees : List Tree}
    (hx : Closed xs) (hlead : ahead (xs ++ [b.right]) ≠ some .semi)
    (hp : Moves file 0 ⟨opened h b e, xs ++ [b.right]⟩ ⟨[gathered trees], []⟩) :
    ∃ cs, Moves file State.switchBrace ⟨[], xs ++ [b.right]⟩
      ⟨[⟨State.switchCases, .n .cases, cs⟩], [b.right]⟩ := by
  obtain ⟨-, -, -, -, -, -, honly, -⟩ := tables_fit
  obtain ⟨up, ts, p, n, pr, hup, hfound, hpr, hsymbols⟩ :=
    Moves.taken hp (by simp [opened]) rfl honly
  simp only [List.mem_cons, Prod.mk.injEq, List.not_mem_nil, or_false] at hfound
  obtain ⟨rfl, rfl⟩ | ⟨rfl, rfl⟩ := hfound
  · cases production_clauses.1.symm.trans hpr
    obtain ⟨q₁, r, _, rfl, hsymbols'⟩ := frames_cons hsymbols
    obtain ⟨q₂, cs, _, rfl, hnil⟩ := frames_cons hsymbols'
    cases List.map_eq_nil_iff.mp hnil
    have hclosing : Kind.rightBrace ∈ closings := by decide
    obtain ⟨-, hmoves⟩ := Moves.closing hup hclosing (b.right_kind ▸ hclosing) hx rfl
    obtain ⟨-, -, -, -, -, -, -, -, -, -, -, -, -, -, -, -, hbehind, -⟩ := clause_actions
    cases hbehind.symm.trans (Moves.linked hmoves trivial).1
    exact ⟨cs, hmoves⟩
  · -- With a semicolon at the bottom, that is what the clauses start with.
    cases production_clauses.2.1.symm.trans hpr
    obtain ⟨q₁, r, _, rfl, hsymbols'⟩ := frames_cons hsymbols
    obtain ⟨q₂, cs, _, rfl, hsymbols''⟩ := frames_cons hsymbols'
    obtain ⟨q₃, lead, _, rfl, hnil⟩ := frames_cons hsymbols''
    cases List.map_eq_nil_iff.mp hnil
    obtain ⟨ts', hfirst, -⟩ := Moves.settle hup
      (show _ = [⟨q₁, .t .rightBrace, r⟩, ⟨q₂, .n .cases, cs⟩] ++ ⟨q₃, .t .semi, lead⟩ :: []
        from rfl)
    obtain ⟨t, ht, -, hnone, -⟩ := Moves.shifted hfirst rfl
    rw [moves_nil hnone] at hlead
    exact absurd (congrArg some ht) hlead

/-- The clauses of a source are read behind its head, and also behind a colon. -/
theorem clauses_moves (h : Head .kwSwitch) (b : Braces) (c : Colons .kwEndswitch)
    {trees : List Tree} (hx : Closed xs) (hp : parsed file (h.tokens ++ b.around xs) = .ok trees) :
    ∃ cs, Moves file State.switchClose ⟨[], b.around xs⟩
      ⟨[⟨State.switchBody, .n .switchBody, cs⟩], []⟩ ∧
      Moves file State.switchClose ⟨[], c.around xs⟩
        ⟨[⟨State.switchBody, .n .switchBody, cs⟩], []⟩ := by
  obtain ⟨fs, hfs, hstate, hhead⟩ := Construct.head_moves tables_fit.1 h hp
  obtain ⟨q, e, _, rfl, hnil⟩ := frames_cons hfs
  cases List.map_eq_nil_iff.mp hnil
  obtain rfl : q = State.switchExpr := hstate
  obtain ⟨hopen, hled, -⟩ := clause_actions
  have hbrace : Moves file 0 ⟨[], h.tokens ++ b.around xs⟩ ⟨opened h b e, xs ++ [b.right]⟩ :=
    .tail ((form.start_moves tables_fit.1 file h _).trans
      (Moves.onto (b := 0) [gathered []] (hhead _))) (.shift_kind b.left_kind hopen)
  by_cases hlead : ahead (xs ++ [b.right]) = some .semi
  · obtain ⟨lead, ys, rfl⟩ : ∃ lead ys, xs = lead :: ys := by
      cases xs with
      | nil => cases (Option.some.inj hlead).symm.trans b.right_kind
      | cons lead ys => exact ⟨lead, ys, rfl⟩
    have hsemi : lead.kind = .semi := Option.some.inj hlead
    have hy : Closed ys := by simpa [Closed, depth, hsemi, openings, closings] using hx
    obtain ⟨cs, hcs⟩ := exists_led hy
      (Moves.resume (hbrace.tail (.shift_kind hsemi hled)) (parsed_ok_iff.mp hp) (by simp))
    exact ⟨cs, led_moves b c hsemi hcs⟩
  · obtain ⟨cs, hcs⟩ := exists_plain hx hlead
      (Moves.resume hbrace (parsed_ok_iff.mp hp) (by simp))
    exact ⟨cs, plain_moves b c hlead hcs⟩

/-- Clauses behind a colon make the same tree as between braces. -/
theorem parsed_clauses (h : Head .kwSwitch) (b : Braces) (c : Colons .kwEndswitch)
    {trees : List Tree} (hx : Closed xs) (hp : parsed file (h.tokens ++ b.around xs) = .ok trees) :
    ∃ t, trees = [t] ∧ parsed file (h.tokens ++ c.around xs) = .ok [t] := by
  obtain ⟨cs, hbraces, hcolons⟩ := clauses_moves h b c hx hp
  obtain ⟨fs, hfs, -, hhead⟩ := Construct.head_moves tables_fit.1 h hp
  obtain ⟨e, hclose⟩ := closes file h hfs
  have hparsed := Construct.parsed_of_body tables_fit.1 (hhead _) hbraces (hclose cs)
  refine ⟨_, Except.ok.inj (hp.symm.trans hparsed), ?_⟩
  exact Construct.parsed_of_body tables_fit.1 (hhead _) hcolons (hclose cs)

end Switch

/-- Nothing in the trees of a source differs from itself. -/
theorem proper_of_parsed {ts : List Token} {trees : List Tree} (h : parsed file ts = .ok trees) :
    ∀ t ∈ trees, t.proper = true := by
  obtain ⟨-, -, d, -, hd⟩ := run_ok .nil (Prod.ext h rfl :
    ((Stream.finished ()).prepend () ts).parse file = (.ok trees, _))
  exact fun t ht => (d.made hd t ht).proper

/-- The statements between braces may as well stand between a colon and a word: where they are a
block, a loop with that block and the loop with its statements behind a colon are read, and their
trees are equal. Clauses between braces and behind a colon are read into the same tree. -/
theorem colons_same_braces (file : Option String) :
    (∀ (l : Loop) (h : Head l.word) (b : Braces) (c : Colons l.stop) (ts : List Token) (t : Tree),
      Opens file h.tokens → parsed file (b.around ts) = .ok [t] →
      ∃ fields t', parsed file (h.tokens ++ b.around ts) =
          .ok [node h.word.line l.kind (fields ++ [t])] ∧
        parsed file (h.tokens ++ c.around ts) =
          .ok [node h.word.line l.kind (fields ++ [t'])] ∧
        (node h.word.line l.kind (fields ++ [t])).same
          (node h.word.line l.kind (fields ++ [t'])) = true) ∧
    ∀ (h : Head .kwSwitch) (b : Braces) (c : Colons .kwEndswitch) (ts : List Token)
      (trees : List Tree), Closed ts → parsed file (h.tokens ++ b.around ts) = .ok trees →
      ∃ t, trees = [t] ∧ parsed file (h.tokens ++ c.around ts) = .ok [t] ∧ t.same t = true := by
  constructor
  · intro l h b c ts t hh hb
    obtain ⟨fields, ss, rfl, hbraces, hcolons⟩ := l.parsed_forms h b c hh hb
    refine ⟨fields, _, hbraces, hcolons, ?_⟩
    have hproper := proper_of_parsed hbraces _ (List.mem_singleton.mpr rfl)
    simp only [node, Tree.proper_node, List.forall_mem_append, List.forall_mem_singleton] at hproper
    obtain ⟨hfields, hstatements⟩ := hproper
    have hbodies : Tree.sameAll [node b.left.line .block [.list ss]]
        [node c.colon.line .block [.list ss]] = true := by
      simpa [node, Tree.sameAll, Tree.same] using Tree.same_self _ hstatements
    simpa [node, Tree.same] using Tree.sameAll_append (Tree.properAll_iff.mpr hfields) hbodies
  · intro h b c ts trees hts hp
    obtain ⟨t, rfl, hcolons⟩ := Switch.parsed_clauses h b c hts hp
    exact ⟨t, rfl, hcolons,
      Tree.same_self t (proper_of_parsed hcolons t (List.mem_singleton.mpr rfl))⟩

/-- A word and a variable in parentheses. -/
def wordTokens (k : Kind) (text : String) : List Token :=
  [⟨k, text, 1, 0⟩, ⟨.leftParen, "(", 1, 0⟩, ⟨.var, "$a", 1, 0⟩, ⟨.rightParen, ")", 1, 0⟩]

/-- A loop without end. -/
def foreverTokens : List Token :=
  [⟨.kwFor, "for", 2, 0⟩, ⟨.leftParen, "(", 2, 0⟩, ⟨.semi, ";", 2, 0⟩, ⟨.semi, ";", 2, 0⟩,
    ⟨.rightParen, ")", 2, 0⟩, ⟨.colon, ":", 2, 0⟩, ⟨.kwEndfor, "endfor", 2, 0⟩,
    ⟨.semi, ";", 2, 0⟩]

/-- The body of one loop is another that has a colon itself, and that of one clause is empty. -/
theorem colons_same_braces_nested :
    ∃ t₁ t₂ t₃,
      parsed none (wordTokens .kwWhile "while" ++ ⟨.leftBrace, "\x7b", 1, 0⟩ ::
        (foreverTokens ++ [⟨.rightBrace, "\x7d", 3, 0⟩])) = .ok [t₁] ∧
      parsed none (wordTokens .kwWhile "while" ++ ⟨.colon, ":", 1, 0⟩ ::
        (foreverTokens ++ [⟨.kwEndwhile, "endwhile", 3, 0⟩, ⟨.semi, ";", 3, 0⟩])) = .ok [t₂] ∧
      t₁.same t₂ = true ∧
      parsed none (wordTokens .kwSwitch "switch" ++ ⟨.leftBrace, "\x7b", 1, 0⟩ ::
        ([⟨.kwDefault, "default", 2, 0⟩, ⟨.colon, ":", 2, 0⟩] ++ [⟨.rightBrace, "\x7d", 3, 0⟩])) =
          .ok [t₃] ∧
      parsed none (wordTokens .kwSwitch "switch" ++ ⟨.colon, ":", 1, 0⟩ ::
        ([⟨.kwDefault, "default", 2, 0⟩, ⟨.colon, ":", 2, 0⟩] ++
          [⟨.kwEndswitch, "endswitch", 3, 0⟩, ⟨.semi, ";", 3, 0⟩])) = .ok [t₃] := by
  obtain ⟨hloops, hswitch⟩ := colons_same_braces none
  obtain ⟨t, hhead⟩ : ∃ t, parsed none (wordTokens .kwWhile "while" ++ [⟨.semi, ";", 1, 0⟩]) =
    .ok [t] := exists_parsed_one (by decide)
  obtain ⟨block, hblock⟩ : ∃ t, parsed none (⟨.leftBrace, "\x7b", 1, 0⟩ ::
    (foreverTokens ++ [⟨.rightBrace, "\x7d", 3, 0⟩])) = .ok [t] :=
    exists_parsed_one (by decide)
  obtain ⟨t₃, hclauses⟩ : ∃ t, parsed none (wordTokens .kwSwitch "switch" ++
    ⟨.leftBrace, "\x7b", 1, 0⟩ :: ([⟨.kwDefault, "default", 2, 0⟩, ⟨.colon, ":", 2, 0⟩] ++
      [⟨.rightBrace, "\x7d", 3, 0⟩])) = .ok [t] := exists_parsed_one (by decide)
  obtain ⟨fields, t', h₁, h₂, hsame⟩ := hloops .whileLoop
    ⟨⟨.kwWhile, "while", 1, 0⟩, ⟨.leftParen, "(", 1, 0⟩, [⟨.var, "$a", 1, 0⟩],
      ⟨.rightParen, ")", 1, 0⟩, rfl, rfl, rfl, rfl⟩
    ⟨⟨.leftBrace, "\x7b", 1, 0⟩, ⟨.rightBrace, "\x7d", 3, 0⟩, rfl, rfl⟩
    ⟨⟨.colon, ":", 1, 0⟩, ⟨.kwEndwhile, "endwhile", 3, 0⟩, ⟨.semi, ";", 3, 0⟩, rfl, rfl, rfl⟩
    foreverTokens block ⟨_, _, hhead⟩ hblock
  obtain ⟨t, ht, h₃, -⟩ := hswitch
    ⟨⟨.kwSwitch, "switch", 1, 0⟩, ⟨.leftParen, "(", 1, 0⟩, [⟨.var, "$a", 1, 0⟩],
      ⟨.rightParen, ")", 1, 0⟩, rfl, rfl, rfl, rfl⟩
    ⟨⟨.leftBrace, "\x7b", 1, 0⟩, ⟨.rightBrace, "\x7d", 3, 0⟩, rfl, rfl⟩
    ⟨⟨.colon, ":", 1, 0⟩, ⟨.kwEndswitch, "endswitch", 3, 0⟩, ⟨.semi, ";", 3, 0⟩, rfl, rfl, rfl⟩
    [⟨.kwDefault, "default", 2, 0⟩, ⟨.colon, ":", 2, 0⟩] [t₃] rfl hclauses
  cases ht
  exact ⟨_, _, t₃, h₁, h₂, hsame, hclauses, h₃⟩

end Docblock
