/-! The kinds of token, and the names under which they are listed. -/
namespace Docblock.Token

inductive Kind where
  -- Reserved words.
  | kwArray | kwAs | kwBreak | kwCase | kwClass | kwConst | kwContinue | kwDeclare | kwDefault
  | kwDo | kwEcho | kwElse | kwElseif | kwEmpty | kwEnddeclare | kwEndfor | kwEndforeach | kwEndif
  | kwEndswitch | kwEndwhile | kwEval | kwExit | kwExtends | kwFor | kwForeach | kwFunction
  | kwGlobal | kwIf | kwInclude | kwIncludeOnce | kwInstanceof | kwIsset | kwList | kwNew
  | kwPrint | kwRequire | kwRequireOnce | kwReturn | kwStatic | kwSwitch | kwUnset | kwUse | kwVar
  | kwWhile | kwFinal | kwInterface | kwImplements | kwPublic | kwPrivate | kwProtected
  | kwAbstract | kwClone | kwTry | kwCatch | kwThrow | kwNamespace
  -- White space and tags, which the grammar never sees.
  | whitespace | openTag | openTagWithEcho | closeTag
  -- Operators.
  | plus | minus | mul | div | mod | bitAnd | bitOr | bitNot | bitXor | shiftLeft | shiftRight
  | booleanAnd | booleanOr | booleanNot | isSmaller | isGreater | isSmallerOrEqual
  | isGreaterOrEqual | isEqual | isNotEqual | isIdentical | isNotIdentical
  -- Assignments.
  | equals | mulEqual | divEqual | modEqual | plusEqual | minusEqual | shiftLeftEqual
  | shiftRightEqual | andEqual | orEqual | xorEqual | concatEqual
  -- Marks.
  | inc | dec | objectOperator | doubleArrow | doubleColon | leftParen | rightParen | leftBracket
  | rightBracket | leftBrace | rightBrace | dollar | comma | concat | question | colon | semi
  | silence | backslash
  -- Casts.
  | arrayCast | boolCast | doubleCast | intCast | objectCast | stringCast | unsetCast
  -- Text outside the code.
  | inlineHtml
  -- Names of the place they stand in.
  | magicDir | magicFile | magicLine | magicFunction | magicClass | magicMethod | magicNamespace
  -- Operators spelt as words, and the end of the code.
  | logicalAnd | logicalOr | logicalXor | haltCompiler
  -- Names, literals and the parts of interpolated text.
  | ident | var | integer | double | offsetNumber | singleQuoted | encapsed | quote | dollarCurly
  | varName | curlyOpen | startHeredoc | endHeredoc | comment | docComment
  deriving DecidableEq

namespace Kind

/-- The name of a kind in listings. -/
def name : Kind → String
  | .kwArray => "ARRAY"
  | .kwAs => "AS"
  | .kwBreak => "BREAK"
  | .kwCase => "CASE"
  | .kwClass => "CLASS"
  | .kwConst => "CONST"
  | .kwContinue => "CONTINUE"
  | .kwDeclare => "DECLARE"
  | .kwDefault => "DEFAULT"
  | .kwDo => "DO"
  | .kwEcho => "ECHO"
  | .kwElse => "ELSE"
  | .kwElseif => "ELSEIF"
  | .kwEmpty => "EMPTY"
  | .kwEnddeclare => "ENDDECLARE"
  | .kwEndfor => "ENDFOR"
  | .kwEndforeach => "ENDFOREACH"
  | .kwEndif => "ENDIF"
  | .kwEndswitch => "ENDSWITCH"
  | .kwEndwhile => "ENDWHILE"
  | .kwEval => "EVAL"
  | .kwExit => "EXIT"
  | .kwExtends => "EXTENDS"
  | .kwFor => "FOR"
  | .kwForeach => "FOREACH"
  | .kwFunction => "FUNCTION"
  | .kwGlobal => "GLOBAL"
  | .kwIf => "IF"
  | .kwInclude => "INCLUDE"
  | .kwIncludeOnce => "INCLUDE_ONCE"
  | .kwInstanceof => "INSTANCEOF"
  | .kwIsset => "ISSET"
  | .kwList => "LIST"
  | .kwNew => "NEW"
  | .kwPrint => "PRINT"
  | .kwRequire => "REQUIRE"
  | .kwRequireOnce => "REQUIRE_ONCE"
  | .kwReturn => "RETURN"
  | .kwStatic => "STATIC"
  | .kwSwitch => "SWITCH"
  | .kwUnset => "UNSET"
  | .kwUse => "USE"
  | .kwVar => "VAR"
  | .kwWhile => "WHILE"
  | .kwFinal => "FINAL"
  | .kwInterface => "INTERFACE"
  | .kwImplements => "IMPLEMENTS"
  | .kwPublic => "PUBLIC"
  | .kwPrivate => "PRIVATE"
  | .kwProtected => "PROTECTED"
  | .kwAbstract => "ABSTRACT"
  | .kwClone => "CLONE"
  | .kwTry => "TRY"
  | .kwCatch => "CATCH"
  | .kwThrow => "THROW"
  | .kwNamespace => "NAMESPACE"
  | .whitespace => "WHITESPACE"
  | .openTag => "OPEN_TAG"
  | .openTagWithEcho => "OPEN_TAG_WITH_ECHO"
  | .closeTag => "CLOSE_TAG"
  | .plus => "PLUS"
  | .minus => "MINUS"
  | .mul => "MUL"
  | .div => "DIV"
  | .mod => "MOD"
  | .bitAnd => "AND"
  | .bitOr => "OR"
  | .bitNot => "NOT"
  | .bitXor => "XOR"
  | .shiftLeft => "SL"
  | .shiftRight => "SR"
  | .booleanAnd => "BOOLEAN_AND"
  | .booleanOr => "BOOLEAN_OR"
  | .booleanNot => "BOOLEAN_NOT"
  | .isSmaller => "IS_SMALLER"
  | .isGreater => "IS_GREATER"
  | .isSmallerOrEqual => "IS_SMALLER_OR_EQUAL"
  | .isGreaterOrEqual => "IS_GREATER_OR_EQUAL"
  | .isEqual => "IS_EQUAL"
  | .isNotEqual => "IS_NOT_EQUAL"
  | .isIdentical => "IS_IDENTICAL"
  | .isNotIdentical => "IS_NOT_IDENTICAL"
  | .equals => "EQUALS"
  | .mulEqual => "MUL_EQUAL"
  | .divEqual => "DIV_EQUAL"
  | .modEqual => "MOD_EQUAL"
  | .plusEqual => "PLUS_EQUAL"
  | .minusEqual => "MINUS_EQUAL"
  | .shiftLeftEqual => "SL_EQUAL"
  | .shiftRightEqual => "SR_EQUAL"
  | .andEqual => "AND_EQUAL"
  | .orEqual => "OR_EQUAL"
  | .xorEqual => "XOR_EQUAL"
  | .concatEqual => "CONCAT_EQUAL"
  | .inc => "INC"
  | .dec => "DEC"
  | .objectOperator => "OBJECT_OPERATOR"
  | .doubleArrow => "DOUBLE_ARROW"
  | .doubleColon => "DOUBLE_COLON"
  | .leftParen => "LPAREN"
  | .rightParen => "RPAREN"
  | .leftBracket => "LBRACKET"
  | .rightBracket => "RBRACKET"
  | .leftBrace => "LBRACE"
  | .rightBrace => "RBRACE"
  | .dollar => "DOLLAR"
  | .comma => "COMMA"
  | .concat => "CONCAT"
  | .question => "QUESTION"
  | .colon => "COLON"
  | .semi => "SEMI"
  | .silence => "AT"
  | .backslash => "NS_SEPARATOR"
  | .arrayCast => "ARRAY_CAST"
  | .boolCast => "BOOL_CAST"
  | .doubleCast => "DOUBLE_CAST"
  | .intCast => "INT_CAST"
  | .objectCast => "OBJECT_CAST"
  | .stringCast => "STRING_CAST"
  | .unsetCast => "UNSET_CAST"
  | .inlineHtml => "INLINE_HTML"
  | .magicDir => "DIR"
  | .magicFile => "FILE"
  | .magicLine => "LINE"
  | .magicFunction => "FUNC_C"
  | .magicClass => "CLASS_C"
  | .magicMethod => "METHOD_C"
  | .magicNamespace => "NS_C"
  | .logicalAnd => "LOGICAL_AND"
  | .logicalOr => "LOGICAL_OR"
  | .logicalXor => "LOGICAL_XOR"
  | .haltCompiler => "HALT_COMPILER"
  | .ident => "STRING"
  | .var => "VARIABLE"
  | .integer => "LNUMBER"
  | .double => "DNUMBER"
  | .offsetNumber => "NUM_STRING"
  | .singleQuoted => "CONSTANT_ENCAPSED_STRING"
  | .encapsed => "ENCAPSED_AND_WHITESPACE"
  | .quote => "QUOTE"
  | .dollarCurly => "DOLLAR_OPEN_CURLY_BRACES"
  | .varName => "STRING_VARNAME"
  | .curlyOpen => "CURLY_OPEN"
  | .startHeredoc => "START_HEREDOC"
  | .endHeredoc => "END_HEREDOC"
  | .comment => "COMMENT"
  | .docComment => "DOC_COMMENT"

end Kind
end Docblock.Token
