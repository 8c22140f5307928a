import Docblock.Grammar.Statement
import Docblock.Grammar.Literal

/-! All productions, and the precedences that settle between shifting and reducing. -/
namespace Docblock.Grammar

/-- Every production; the tables of the automaton count them from zero in this order. -/
def productions : List Production :=
  topRules ++ innerRules ++ statementRules ++ armRules ++ varListRules ++ functionRules ++
  parameterRules ++ classRules ++ memberRules ++ exprRules ++ operatorRules ++ arrayRules ++
  argumentRules ++ classNameRules ++ callRules ++ variableRules ++ scalarRules ++
  staticScalarRules ++ encapsRules

inductive Associativity where
  | left | right | none
  deriving DecidableEq

/-- The operators of each level, from the loosest to the tightest. -/
def precedences : List (Associativity × List Token.Kind) := [
  (.left, [.kwInclude, .kwIncludeOnce, .kwEval, .kwRequire, .kwRequireOnce]),
  (.left, [.comma]),
  (.left, [.logicalOr]),
  (.left, [.logicalXor]),
  (.left, [.logicalAnd]),
  (.right, [.kwPrint]),
  (.left, [.equals, .plusEqual, .minusEqual, .mulEqual, .divEqual, .concatEqual, .modEqual,
    .andEqual, .orEqual, .xorEqual, .shiftLeftEqual, .shiftRightEqual]),
  (.left, [.question, .colon]),
  (.left, [.booleanOr]),
  (.left, [.booleanAnd]),
  (.left, [.bitOr]),
  (.left, [.bitXor]),
  (.left, [.bitAnd]),
  (.none, [.isEqual, .isNotEqual, .isIdentical, .isNotIdentical]),
  (.none, [.isSmaller, .isSmallerOrEqual, .isGreater, .isGreaterOrEqual]),
  (.left, [.shiftLeft, .shiftRight]),
  (.left, [.plus, .minus, .concat]),
  (.left, [.mul, .div, .mod]),
  (.right, [.booleanNot]),
  (.none, [.kwInstanceof]),
  (.right, [.bitNot, .inc, .dec, .intCast, .doubleCast, .stringCast, .arrayCast, .objectCast,
    .boolCast, .unsetCast, .silence]),
  (.right, [.leftBracket]),
  (.none, [.kwNew, .kwClone]),
  (.left, [.kwEndif]),
  (.right, [.kwStatic, .kwAbstract, .kwFinal, .kwPrivate, .kwProtected, .kwPublic])]

/-- A level, counted from one, and how operators of the level group. -/
structure Precedence where
  level : Nat
  associativity : Associativity
  deriving DecidableEq

/-- The precedence of a kind among levels that start after `below`. Kinds without one are below
all others and group to the right. -/
def precedenceFrom (below : Nat) (k : Token.Kind) :
    List (Associativity × List Token.Kind) → Precedence
  | [] => ⟨0, .right⟩
  | (a, ks) :: rest =>
    if ks.contains k then ⟨below + 1, a⟩ else precedenceFrom (below + 1) k rest

def precedence (k : Token.Kind) : Precedence := precedenceFrom 0 k precedences

/-- The last token kind among some symbols. -/
def lastKind? : List Symbol → Option Token.Kind
  | [] => none
  | .t k :: ss => (lastKind? ss).or (some k)
  | .n _ :: ss => lastKind? ss

/-- A production has the precedence of its last token. -/
def Production.precedence (p : Production) : Precedence :=
  match lastKind? p.rhs with
  | none => ⟨0, .right⟩
  | some k => Grammar.precedence k

/-- What to do where a token may be shifted and a production reduced. -/
inductive Choice where
  | shift | reduce | neither
  deriving DecidableEq

/-- The higher level wins; on one level its associativity decides. -/
def choose (p : Production) (k : Token.Kind) : Choice :=
  let mine := p.precedence
  let other := Grammar.precedence k
  if other.level < mine.level then .reduce
  else if mine.level < other.level then .shift
  else
    match mine.associativity with
    | .left => .reduce
    | .right => .shift
    | .none => .neither

end Docblock.Grammar
