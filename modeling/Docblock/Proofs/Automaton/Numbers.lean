import Docblock.Automaton.Table

/-! The numbers that the tables give to states and productions, by name. A state is named for what
has been read last in it, and a production for its left side and what tells it from the others. -/
namespace Docblock.Automaton

/-- The state in which all that has been read are statements. -/
def gathering : Nat := 2

/-- The group of edges with the brace that closes a namespace. -/
abbrev closingEdges : Nat := 286

namespace State

/-! A source and its statements. -/

abbrev blank : Nat := 3
abbrev topStatement : Nat := 4
abbrev statement : Nat := 5
abbrev expr : Nat := 27
abbrev exprSemi : Nat := 138

/-! Namespaces, and the words of a name. -/

abbrev namespaceWord : Nat := 10
abbrev namespaceName : Nat := 102
abbrev namespaceSemi : Nat := 247
abbrev namespaceBrace : Nat := 248
abbrev namespaceStatements : Nat := 401
abbrev namespaceEnd : Nat := 501
abbrev name : Nat := 93
abbrev nameBackslash : Nat := 236
abbrev nameLonger : Nat := 388

/-! Braces around statements. -/

abbrev brace : Nat := 13
abbrev braceStatements : Nat := 112
abbrev braceBlank : Nat := 113
abbrev braceEnd : Nat := 259

/-! Conditionals. -/

abbrev ifWord : Nat := 14
abbrev ifParen : Nat := 114
abbrev ifExpr : Nat := 265
abbrev ifClose : Nat := 418
abbrev ifStatement : Nat := 512
abbrev elseifs : Nat := 591
abbrev elseifsBlank : Nat := 592
abbrev elseifWord : Nat := 663
abbrev elseifParen : Nat := 707
abbrev elseifExpr : Nat := 744
abbrev elseifClose : Nat := 767
abbrev elseifStatement : Nat := 780
abbrev elsePart : Nat := 662
abbrev elseBlank : Nat := 664
abbrev elseWord : Nat := 665
abbrev elseStatement : Nat := 708

/-! Loops, from the word on: the parenthesis, what stands in it, and the two forms of the body. -/

abbrev whileWord : Nat := 15
abbrev whileParen : Nat := 115
abbrev whileExpr : Nat := 266
abbrev whileClose : Nat := 419
abbrev whileBody : Nat := 514
abbrev whileStatement : Nat := 515
abbrev whileColon : Nat := 516
abbrev whileStatements : Nat := 594
abbrev endwhile : Nat := 668
abbrev endwhileSemi : Nat := 713
abbrev forWord : Nat := 17
abbrev forParen : Nat := 119
abbrev forExprs : Nat := 670
abbrev forClose : Nat := 714
abbrev forBody : Nat := 748
abbrev forStatement : Nat := 749
abbrev forColon : Nat := 750
abbrev forStatements : Nat := 771
abbrev endfor : Nat := 782
abbrev endforSemi : Nat := 789
abbrev foreachWord : Nat := 18
abbrev foreachParen : Nat := 120
abbrev foreachTarget : Nat := 597
abbrev foreachClose : Nat := 671
abbrev foreachBody : Nat := 715
abbrev foreachStatement : Nat := 716
abbrev foreachColon : Nat := 717
abbrev foreachStatements : Nat := 751
abbrev endforeach : Nat := 772
abbrev endforeachSemi : Nat := 783
abbrev declareWord : Nat := 32
abbrev declareParen : Nat := 168
abbrev declareDirectives : Nat := 318
abbrev declareClose : Nat := 434
abbrev declareBody : Nat := 531
abbrev declareStatement : Nat := 532
abbrev declareColon : Nat := 533
abbrev declareStatements : Nat := 607
abbrev enddeclare : Nat := 680
abbrev enddeclareSemi : Nat := 726

/-! The clauses of a switch, in braces and behind a colon. -/

abbrev switchWord : Nat := 19
abbrev switchParen : Nat := 121
abbrev switchExpr : Nat := 274
abbrev switchClose : Nat := 424
abbrev switchBody : Nat := 523
abbrev switchBrace : Nat := 524
abbrev switchCases : Nat := 601
abbrev switchSemi : Nat := 602
abbrev switchBlank : Nat := 603
abbrev switchEnd : Nat := 673
abbrev switchSemiCases : Nat := 676
abbrev switchSemiEnd : Nat := 722
abbrev switchColon : Nat := 525
abbrev colonCases : Nat := 604
abbrev colonSemi : Nat := 605
abbrev endswitch : Nat := 677
abbrev colonSemiCases : Nat := 678
abbrev endswitchSemi : Nat := 723
abbrev semiEndswitch : Nat := 724
abbrev semiEndswitchSemi : Nat := 754
abbrev defaultStatements : Nat := 753
abbrev caseStatements : Nat := 773

/-! Where something is thrown, and the other places of an expression. -/

abbrev throwWord : Nat := 31
abbrev throwExpr : Nat := 167
abbrev throwSemi : Nat := 317
abbrev returnWord : Nat := 22
abbrev plus : Nat := 51
abbrev minus : Nat := 52
abbrev staticWord : Nat := 24
abbrev staticInExpr : Nat := 124

/-! Variables and their properties. -/

abbrev var : Nat := 100
abbrev compoundVar : Nat := 99
abbrev referenceVar : Nat := 97
abbrev indirectVar : Nat := 94
abbrev baseVar : Nat := 79
abbrev baseWithCalls : Nat := 71
abbrev varExpr : Nat := 38
abbrev objectOperator : Nat := 231
abbrev objectProperty : Nat := 370
abbrev propertyName : Nat := 371
abbrev methodArguments : Nat := 478

/-! Binary operators, and the operands behind them, are in the order of the operators. -/

abbrev firstOperator : Nat := 139
abbrev firstOperation : Nat := 287

/-! Arrays, constants and interpolated text. -/

abbrev arrayParen : Nat := 199
abbrev arrayPairs : Nat := 356
abbrev arrayComma : Nat := 466
abbrev arrayArrow : Nat := 469
abbrev arrayNextArrow : Nat := 645
abbrev backslash : Nat := 78
abbrev namespaceBackslash : Nat := 104
abbrev quote : Nat := 74
abbrev quoteParts : Nat := 232
abbrev heredoc : Nat := 75
abbrev heredocParts : Nat := 234
abbrev dollarCurly : Nat := 380
abbrev curlyOpen : Nat := 381

/-! Static values. -/

abbrev constWord : Nat := 11
abbrev constEquals : Nat := 253
abbrev staticBackslash : Nat := 409
abbrev staticPlus : Nat := 411
abbrev staticMinus : Nat := 412
abbrev staticNamespaceBackslash : Nat := 506
abbrev staticArrayParen : Nat := 509
abbrev staticArrayPairs : Nat := 588
abbrev staticArrayComma : Nat := 660
abbrev staticArrayArrow : Nat := 661
abbrev staticArrayNextArrow : Nat := 743

/-! Functions, their parameters and the default values. -/

abbrev functionWord : Nat := 35
abbrev functionParen : Nat := 437
abbrev parameterComma : Nat := 537
abbrev functionBrace : Nat := 682
abbrev newBackslash : Nat := 192
abbrev newNamespaceBackslash : Nat := 346
abbrev varEquals : Nat := 539
abbrev classVarEquals : Nat := 615
abbrev arrayVarEquals : Nat := 617
abbrev refVarEquals : Nat := 619
abbrev classRefVarEquals : Nat := 686
abbrev arrayRefVarEquals : Nat := 688

end State

namespace Reduction

/-! A source and its statements. -/

abbrev start : Nat := 0
abbrev statementsMore : Nat := 1
abbrev statementsNone : Nat := 2
abbrev topStatement : Nat := 3
abbrev topFunction : Nat := 5
abbrev namespaceLine : Nat := 8
abbrev namespaceBraces : Nat := 10
abbrev constants : Nat := 11
abbrev constantsOne : Nat := 20
abbrev constant : Nat := 21
abbrev innerNone : Nat := 23
abbrev empty : Nat := 371

/-! Statements. -/

abbrev braces : Nat := 29
abbrev ifElse : Nat := 30
abbrev whileLoop : Nat := 32
abbrev forLoop : Nat := 34
abbrev foreachLoop : Nat := 35
abbrev switch : Nat := 36
abbrev returnValue : Nat := 42
abbrev exprStatement : Nat := 47
abbrev throwValue : Nat := 53
abbrev declare : Nat := 54

/-! Bodies and clauses. -/

abbrev declareStatement : Nat := 57
abbrev declareColon : Nat := 58
abbrev elseifsNone : Nat := 59
abbrev elseifsMore : Nat := 60
abbrev elseNone : Nat := 61
abbrev elsePart : Nat := 62
abbrev whileStatement : Nat := 67
abbrev whileColon : Nat := 68
abbrev forStatement : Nat := 73
abbrev forColon : Nat := 74
abbrev foreachStatement : Nat := 79
abbrev foreachColon : Nat := 80
abbrev switchBraces : Nat := 81
abbrev switchSemiBraces : Nat := 82
abbrev switchColon : Nat := 83
abbrev switchSemiColon : Nat := 84
abbrev casesNone : Nat := 85

/-! Functions and their parameters. -/

abbrev function : Nat := 104
abbrev referenceNone : Nat := 106
abbrev parametersMore : Nat := 107
abbrev parametersOne : Nat := 108
abbrev parametersNone : Nat := 109
abbrev parameter : Nat := 110
abbrev classParameter : Nat := 111
abbrev arrayParameter : Nat := 112
abbrev refParameter : Nat := 113
abbrev classRefParameter : Nat := 114
abbrev arrayRefParameter : Nat := 115
abbrev parameterDefault : Nat := 116
abbrev classParameterDefault : Nat := 117
abbrev arrayParameterDefault : Nat := 118
abbrev refParameterDefault : Nat := 119
abbrev classRefParameterDefault : Nat := 120
abbrev arrayRefParameterDefault : Nat := 121

/-! Expressions. The operations are in the order of the operators. -/

abbrev exprVar : Nat := 164
abbrev exprScalar : Nat := 170
abbrev exprArray : Nat := 171
abbrev exprPlus : Nat := 225
abbrev exprMinus : Nat := 226
abbrev firstOperation : Nat := 200

/-! Arrays and arguments. -/

abbrev arrayNone : Nat := 245
abbrev arrayPairs : Nat := 246
abbrev arrayMoreValue : Nat := 248
abbrev arrayValue : Nat := 250
abbrev arrayMorePair : Nat := 252
abbrev arrayPair : Nat := 254
abbrev commaNone : Nat := 255
abbrev comma : Nat := 256
abbrev argumentsNone : Nat := 259

/-! Names. -/

abbrev className : Nat := 272
abbrev classGlobalName : Nat := 273
abbrev classNamespaceName : Nat := 274
abbrev classStatic : Nat := 275
abbrev nameLonger : Nat := 355
abbrev name : Nat := 356

/-! Variables and their properties. -/

abbrev methodArguments : Nat := 289
abbrev methodArgumentsNone : Nat := 290
abbrev varProperty : Nat := 291
abbrev varExpr : Nat := 292
abbrev baseWithCalls : Nat := 293
abbrev propertiesNone : Nat := 296
abbrev baseVar : Nat := 298
abbrev indirectVar : Nat := 301
abbrev referenceVar : Nat := 307
abbrev compoundVar : Nat := 308
abbrev objectProperty : Nat := 312
abbrev dimensionsNone : Nat := 314
abbrev propertyName : Nat := 317

/-! Scalars. -/

abbrev scalarCommon : Nat := 321
abbrev quoted : Nat := 322
abbrev heredoc : Nat := 323
abbrev varName : Nat := 324
abbrev constantName : Nat := 325
abbrev constantGlobalName : Nat := 326
abbrev constantNamespaceName : Nat := 327
abbrev integer : Nat := 330
abbrev double : Nat := 331
abbrev singleQuoted : Nat := 332
abbrev magicLine : Nat := 333
abbrev magicFile : Nat := 334
abbrev magicDir : Nat := 335
abbrev magicClass : Nat := 336
abbrev magicMethod : Nat := 337
abbrev magicFunction : Nat := 338
abbrev magicNamespace : Nat := 339

/-! Static values. -/

abbrev staticCommon : Nat := 340
abbrev staticQuotedNone : Nat := 341
abbrev staticQuoted : Nat := 342
abbrev staticName : Nat := 343
abbrev staticGlobalName : Nat := 344
abbrev staticNamespaceName : Nat := 345
abbrev staticPlus : Nat := 346
abbrev staticMinus : Nat := 347
abbrev staticArray : Nat := 348
abbrev staticNone : Nat := 349
abbrev staticPairs : Nat := 350
abbrev staticMoreValue : Nat := 351
abbrev staticValue : Nat := 352
abbrev staticMorePair : Nat := 353
abbrev staticPair : Nat := 354

/-! Interpolated text. -/

abbrev partsVar : Nat := 357
abbrev partsNone : Nat := 358
abbrev partsText : Nat := 359
abbrev partVar : Nat := 360
abbrev partProperty : Nat := 362
abbrev partDollarCurly : Nat := 363
abbrev partCurly : Nat := 365

end Reduction
end Docblock.Automaton
