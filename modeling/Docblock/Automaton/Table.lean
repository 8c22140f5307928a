import Docblock.Grammar.Precedence

/-! The LALR(1) automaton of the productions, before precedences settle its conflicts: the states,
where they lead, and what they reduce. -/
namespace Docblock.Automaton

open Grammar

/-- A state: the numbers of its groups of edges, and the numbers of the productions that end in
it. With each production comes the set of tokens that may follow, as the bits of a number. -/
structure Row where
  edges : List Nat
  reductions : List (Nat × Nat)

/-- The bit of what comes next: zero for the end. -/
def bitOf : Option Token.Kind → Nat
  | none => 0
  | some k => k.ctorIdx + 1

/-- An entry of a list that is cut into pages of 32. -/
def paged? {α : Type} (pages : List (List α)) (i : Nat) : Option α :=
  pages[i / 32]?.bind (·[i % 32]?)

/-- The production that ends in a state before what comes next. -/
def Row.reduction? (r : Row) (ahead : Option Token.Kind) : Option Nat :=
  (r.reductions.find? fun p => p.2.testBit (bitOf ahead)).map (·.1)

/-- Edges that leave the same states, in pages of 32 groups. -/
def edgeGroups : List (List (List (Symbol × Nat))) := [
  [[(.n .start, 1), (.n .topStatements, 2)], [(.n .empty, 3)], [(.n .topStatement, 4),
    (.n .statement, 5), (.n .comment, 6), (.n .functionDeclaration, 7), (.n .classDeclaration, 8),
    (.t .haltCompiler, 9), (.t .kwNamespace, 10), (.t .kwConst, 11), (.t .kwUse, 12)],
    [(.t .leftBrace, 13), (.t .kwIf, 14), (.t .kwWhile, 15), (.t .kwDo, 16), (.t .kwFor, 17),
    (.t .kwForeach, 18), (.t .kwSwitch, 19), (.t .kwBreak, 20), (.t .kwContinue, 21),
    (.t .kwReturn, 22), (.t .kwGlobal, 23), (.t .kwStatic, 24), (.t .kwEcho, 25),
    (.t .inlineHtml, 26), (.n .expr, 27), (.t .kwUnset, 28), (.t .semi, 29), (.t .kwTry, 30),
    (.t .kwThrow, 31), (.t .kwDeclare, 32)], [(.t .comment, 33), (.t .docComment, 34)],
    [(.t .kwFunction, 35), (.n .classType, 36), (.t .kwInterface, 37), (.t .kwClass, 68),
    (.t .kwAbstract, 69), (.t .kwFinal, 70)], [(.n .varExpr, 38), (.t .kwNew, 39),
    (.t .kwClone, 40), (.t .kwList, 41), (.n .scalar, 42), (.t .kwArray, 43), (.t .kwIsset, 44),
    (.t .kwEmpty, 45), (.t .kwEval, 46), (.t .kwExit, 47), (.t .kwPrint, 48), (.t .silence, 49),
    (.t .leftParen, 50), (.t .plus, 51), (.t .minus, 52), (.t .bitNot, 53), (.t .booleanNot, 54),
    (.t .inc, 55), (.t .dec, 56), (.t .intCast, 57), (.t .doubleCast, 58), (.t .stringCast, 59),
    (.t .arrayCast, 60), (.t .objectCast, 61), (.t .boolCast, 62), (.t .unsetCast, 63),
    (.t .kwInclude, 64), (.t .kwIncludeOnce, 65), (.t .kwRequire, 66), (.t .kwRequireOnce, 67),
    (.n .classConstant, 72), (.n .commonScalar, 73), (.t .quote, 74), (.t .startHeredoc, 75),
    (.n .namespaceName, 77), (.t .backslash, 78), (.n .className, 81), (.n .varClassName, 82)],
    [(.n .baseWithCalls, 71), (.n .baseVar, 79), (.n .functionCall, 80), (.n .indirectVar, 94),
    (.n .varWithoutObjects, 96)], [(.t .varName, 76)], [(.t .integer, 83), (.t .double, 84),
    (.t .singleQuoted, 85), (.t .magicLine, 86), (.t .magicFile, 87), (.t .magicDir, 88),
    (.t .magicClass, 89), (.t .magicMethod, 90), (.t .magicFunction, 91),
    (.t .magicNamespace, 92)], [(.t .ident, 93)], [(.n .staticMember, 95),
    (.n .referenceVar, 97)], [(.t .dollar, 98), (.n .compoundVar, 99), (.t .var, 100)],
    [(.t .leftParen, 101)], [(.n .namespaceName, 102), (.t .leftBrace, 103)],
    [(.t .backslash, 104)], [(.n .constantDeclarations, 105), (.n .constantDeclaration, 106)],
    [(.t .ident, 107)], [(.n .useDeclarations, 108), (.n .useDeclaration, 109)],
    [(.n .namespaceName, 110), (.t .backslash, 111)], [(.n .innerStatements, 112)],
    [(.n .empty, 113)], [(.t .leftParen, 114)], [(.t .leftParen, 115)], [(.n .statement, 116)],
    [(.t .kwFunction, 117)], [(.t .kwNamespace, 118)], [(.t .leftParen, 119)],
    [(.t .leftParen, 120)], [(.t .leftParen, 121)], [(.t .semi, 122), (.n .expr, 123)],
    [(.t .kwStatic, 124)]],
  [[(.t .semi, 125), (.n .expr, 126)], [(.t .semi, 127), (.n .expr, 128)],
    [(.n .globalVars, 129), (.n .globalVar, 130)], [(.t .var, 131), (.t .dollar, 132)],
    [(.n .staticVars, 133), (.n .staticVar, 134)], [(.t .var, 135)], [(.n .echoExprs, 136),
    (.n .expr, 137)], [(.t .semi, 138)], [(.t .booleanAnd, 139), (.t .booleanOr, 140),
    (.t .logicalAnd, 141), (.t .logicalOr, 142), (.t .logicalXor, 143), (.t .bitAnd, 144),
    (.t .bitOr, 145), (.t .bitXor, 146), (.t .concat, 147), (.t .plus, 148), (.t .minus, 149),
    (.t .mul, 150), (.t .div, 151), (.t .shiftLeft, 152), (.t .shiftRight, 153), (.t .mod, 154),
    (.t .isIdentical, 155), (.t .isNotIdentical, 156), (.t .isEqual, 157), (.t .isNotEqual, 158),
    (.t .isSmaller, 159), (.t .isSmallerOrEqual, 160), (.t .isGreater, 161),
    (.t .isGreaterOrEqual, 162), (.t .kwInstanceof, 163), (.t .question, 164)],
    [(.t .leftParen, 165)], [(.t .leftBrace, 166)], [(.n .expr, 167)], [(.t .leftParen, 168)],
    [(.n .isReference, 169)], [(.t .bitAnd, 170), (.n .empty, 171)], [(.t .ident, 172)],
    [(.t .ident, 173)], [(.t .equals, 174), (.t .plusEqual, 175), (.t .minusEqual, 176),
    (.t .mulEqual, 177), (.t .divEqual, 178), (.t .concatEqual, 179), (.t .modEqual, 180),
    (.t .andEqual, 181), (.t .orEqual, 182), (.t .xorEqual, 183), (.t .shiftLeftEqual, 184),
    (.t .shiftRightEqual, 185), (.t .inc, 186), (.t .dec, 187)], [(.n .classReference, 188),
    (.n .className, 189), (.n .dynamicReference, 190), (.n .baseVar, 194), (.n .indirectVar, 195),
    (.n .varClassName, 196)], [(.n .namespaceName, 191), (.t .backslash, 192),
    (.t .kwNamespace, 193)], [(.n .expr, 197)], [(.t .leftParen, 198)], [(.t .leftParen, 199)],
    [(.t .leftParen, 200)], [(.t .leftParen, 201)], [(.t .leftParen, 202)],
    [(.t .leftParen, 203)], [(.n .expr, 204)], [(.n .expr, 205)], [(.n .expr, 206)],
    [(.n .expr, 207)], [(.n .expr, 208)]],
  [[(.n .expr, 209)], [(.n .expr, 210)], [(.n .varExpr, 211)], [(.n .namespaceName, 212),
    (.t .backslash, 213), (.t .kwNamespace, 214), (.n .className, 215), (.n .varClassName, 216)],
    [(.n .varExpr, 217)], [(.n .expr, 218)], [(.n .expr, 219)], [(.n .expr, 220)],
    [(.n .expr, 221)], [(.n .expr, 222)], [(.n .expr, 223)], [(.n .expr, 224)], [(.n .expr, 225)],
    [(.n .expr, 226)], [(.n .expr, 227)], [(.n .expr, 228)], [(.t .kwClass, 229)],
    [(.t .kwClass, 230)], [(.t .objectOperator, 231)], [(.n .encapsList, 232)],
    [(.n .empty, 233)], [(.n .encapsList, 234)], [(.t .leftParen, 235)], [(.t .backslash, 236)],
    [(.n .namespaceName, 237)], [(.t .doubleColon, 238)], [(.t .doubleColon, 239)],
    [(.t .leftParen, 240)], [(.t .leftBracket, 241), (.t .leftBrace, 242)],
    [(.n .indirectVar, 243), (.t .leftBrace, 244)], [(.n .referenceVar, 245)],
    [(.t .rightParen, 246)]],
  [[(.t .semi, 247), (.t .leftBrace, 248)], [(.n .topStatements, 249)],
    [(.n .namespaceName, 250)], [(.t .semi, 251), (.t .comma, 252)], [(.t .equals, 253)],
    [(.t .semi, 254), (.t .comma, 255)], [(.t .kwAs, 256)], [(.n .namespaceName, 257)],
    [(.n .innerStatement, 258), (.n .statement, 260), (.n .comment, 261),
    (.n .functionDeclaration, 262), (.n .classDeclaration, 263), (.t .haltCompiler, 264)],
    [(.t .rightBrace, 259)], [(.n .expr, 265)], [(.n .expr, 266)], [(.t .kwWhile, 267)],
    [(.n .isReference, 268)], [(.n .forExprs, 269)], [(.n .empty, 270), (.n .forExprs1, 271),
    (.n .expr, 272)], [(.n .expr, 273)], [(.n .expr, 274)], [(.t .semi, 275)], [(.t .semi, 276)],
    [(.t .semi, 277)], [(.t .semi, 278), (.t .comma, 279)], [(.n .varExpr, 280),
    (.t .leftBrace, 281)], [(.t .semi, 282), (.t .comma, 283)], [(.t .equals, 284)],
    [(.t .semi, 285), (.t .comma, 286)], [(.n .expr, 287)], [(.n .expr, 288)], [(.n .expr, 289)],
    [(.n .expr, 290)], [(.n .expr, 291)], [(.n .expr, 292)]],
  [[(.n .expr, 293)], [(.n .expr, 294)], [(.n .expr, 295)], [(.n .expr, 296)], [(.n .expr, 297)],
    [(.n .expr, 298)], [(.n .expr, 299)], [(.n .expr, 300)], [(.n .expr, 301)], [(.n .expr, 302)],
    [(.n .expr, 303)], [(.n .expr, 304)], [(.n .expr, 305)], [(.n .expr, 306)], [(.n .expr, 307)],
    [(.n .expr, 308)], [(.n .expr, 309)], [(.n .expr, 310)], [(.n .expr, 311)], [(.n .expr, 312)],
    [(.n .unsetVars, 313), (.n .unsetVar, 314)], [(.n .varExpr, 315)],
    [(.n .innerStatements, 316)], [(.t .semi, 317)], [(.n .directives, 318), (.t .ident, 319)],
    [(.t .ident, 320)], [(.t .leftParen, 321)], [(.n .extendsClause, 322), (.n .empty, 323),
    (.t .kwExtends, 324)], [(.n .interfaceExtends, 325), (.t .kwExtends, 326), (.n .empty, 327)],
    [(.n .expr, 328), (.t .bitAnd, 329)], [(.n .expr, 330)], [(.n .expr, 331)]],
  [[(.n .expr, 332)], [(.n .expr, 333)], [(.n .expr, 334)], [(.n .expr, 335)], [(.n .expr, 336)],
    [(.n .expr, 337)], [(.n .expr, 338)], [(.n .expr, 339)], [(.n .expr, 340)],
    [(.n .constructorArguments, 341), (.t .leftParen, 342), (.n .empty, 343)],
    [(.t .doubleColon, 344)], [(.n .namespaceName, 345)], [(.t .backslash, 346)],
    [(.t .objectOperator, 347)], [(.t .doubleColon, 348)], [(.n .listTargets, 349)],
    [(.n .listTarget, 350)], [(.n .varExpr, 351), (.n .empty, 352), (.t .kwList, 353)],
    [(.n .arrayPairs, 354), (.n .empty, 355), (.n .arrayPairs1, 356), (.t .bitAnd, 357),
    (.n .expr, 358)], [(.n .issetVars, 359), (.n .varExpr, 360)], [(.n .expr, 361)],
    [(.n .expr, 362)], [(.t .rightParen, 363), (.n .expr, 364)], [(.t .rightParen, 365)],
    [(.n .namespaceName, 366)], [(.t .backslash, 367)], [(.t .doubleColon, 368)],
    [(.t .doubleColon, 369)], [(.n .objectProperty, 370)], [(.n .propertyName, 371),
    (.n .varWithoutObjects, 372), (.t .ident, 373), (.t .leftBrace, 374)],
    [(.n .indirectVar, 375)], [(.t .quote, 376)]],
  [[(.n .encapsVar, 377), (.t .encapsed, 378), (.t .var, 379), (.t .dollarCurly, 380),
    (.t .curlyOpen, 381)], [(.t .endHeredoc, 382)], [(.n .arguments, 383)], [(.n .argument, 384),
    (.n .empty, 385)], [(.n .expr, 386), (.t .bitAnd, 387)], [(.t .ident, 388)],
    [(.t .leftParen, 389)], [(.t .ident, 390)], [(.n .varWithoutObjects, 391)],
    [(.t .ident, 392)], [(.n .varWithoutObjects, 393)], [(.n .arguments, 394)],
    [(.n .dimension, 395)], [(.n .expr, 396), (.n .empty, 397)], [(.n .expr, 398)],
    [(.n .expr, 399)], [(.t .semi, 400)], [(.n .topStatements, 401)], [(.t .rightBrace, 402)],
    [(.t .leftParen, 403)], [(.n .constantDeclaration, 404)], [(.n .staticScalar, 405)],
    [(.n .commonScalar, 406), (.t .quote, 407), (.n .namespaceName, 408), (.t .backslash, 409),
    (.t .kwNamespace, 410), (.t .plus, 411), (.t .minus, 412), (.t .kwArray, 413)],
    [(.n .useDeclaration, 414)], [(.t .ident, 415)], [(.t .kwAs, 416)], [(.t .leftParen, 417)],
    [(.t .rightParen, 418)], [(.t .rightParen, 419)], [(.t .leftParen, 420)], [(.t .semi, 421)],
    [(.t .comma, 422)]],
  [[(.t .kwAs, 423)], [(.t .rightParen, 424)], [(.n .globalVar, 425)], [(.n .expr, 426)],
    [(.n .staticVar, 427)], [(.n .staticScalar, 428)], [(.n .expr, 429)], [(.t .colon, 430)],
    [(.t .rightParen, 431), (.t .comma, 432)], [(.t .rightBrace, 433)], [(.t .rightParen, 434),
    (.t .comma, 435)], [(.t .equals, 436)], [(.t .leftParen, 437)], [(.n .parameters, 438)],
    [(.n .parameter, 439), (.n .empty, 440)], [(.t .var, 441), (.n .className, 442),
    (.t .kwArray, 443), (.t .bitAnd, 444)], [(.n .implementsClause, 445), (.t .kwImplements, 446),
    (.n .empty, 447)], [(.n .qualifiedName, 448)], [(.n .namespaceName, 449),
    (.t .backslash, 450), (.t .kwNamespace, 451)], [(.t .leftBrace, 452)],
    [(.n .interfaces, 453)], [(.n .qualifiedName, 454)], [(.n .expr, 455)],
    [(.n .arguments, 456)], [(.n .varWithoutObjects, 457)], [(.n .namespaceName, 458)],
    [(.n .objectProperty, 459)], [(.n .varWithoutObjects, 460)], [(.t .rightParen, 461)],
    [(.t .comma, 462)], [(.t .leftParen, 463)], [(.t .rightParen, 464)]],
  [[(.n .possibleComma, 465), (.t .comma, 466)], [(.n .empty, 467)], [(.n .varExpr, 468)],
    [(.t .doubleArrow, 469)], [(.t .rightParen, 470), (.t .comma, 471)], [(.t .rightParen, 472)],
    [(.t .rightParen, 473)], [(.t .rightParen, 474)], [(.n .namespaceName, 475)],
    [(.t .ident, 476)], [(.t .ident, 477)], [(.n .methodArguments, 478)], [(.t .leftParen, 479),
    (.n .empty, 480)], [(.n .dimensions, 481), (.n .empty, 482)], [(.n .expr, 483)],
    [(.t .leftBracket, 484), (.t .objectOperator, 485)], [(.n .expr, 486), (.t .varName, 487)],
    [(.n .varExpr, 488)], [(.t .comma, 489)], [(.t .rightParen, 490)], [(.n .varExpr, 491)],
    [(.n .arguments, 492)], [(.t .leftParen, 493)], [(.t .leftParen, 494)],
    [(.t .leftParen, 495)], [(.t .leftParen, 496)], [(.t .rightParen, 497)],
    [(.t .rightBracket, 498)], [(.t .rightBrace, 499)], [(.t .rightBrace, 500)],
    [(.t .rightBrace, 501)], [(.n .arguments, 502)]],
  [[(.t .quote, 503), (.t .encapsed, 504)], [(.n .namespaceName, 505)], [(.t .backslash, 506)],
    [(.n .staticScalar, 507)], [(.n .staticScalar, 508)], [(.t .leftParen, 509)],
    [(.t .ident, 510)], [(.t .rightParen, 511)], [(.n .statement, 512), (.t .colon, 513)],
    [(.n .whileBody, 514), (.n .statement, 515), (.t .colon, 516)], [(.n .expr, 517)],
    [(.n .forExprs, 518)], [(.n .expr, 519)], [(.n .foreachVar, 520)], [(.t .var, 521),
    (.t .bitAnd, 522)], [(.n .switchBody, 523), (.t .leftBrace, 524), (.t .colon, 525)],
    [(.t .rightBrace, 526)], [(.n .expr, 527)], [(.t .semi, 528)], [(.n .unsetVar, 529)],
    [(.t .kwCatch, 530)], [(.n .declareBody, 531), (.n .statement, 532), (.t .colon, 533)],
    [(.t .ident, 534)], [(.n .staticScalar, 535)], [(.n .parameters, 536)], [(.t .comma, 537)],
    [(.t .rightParen, 538)], [(.t .equals, 539)], [(.t .var, 540), (.t .bitAnd, 541)],
    [(.t .var, 542), (.t .bitAnd, 543)], [(.t .var, 544)], [(.t .leftBrace, 545)]],
  [[(.n .interfaces, 546)], [(.n .namespaceName, 547)], [(.t .backslash, 548)],
    [(.n .classStatements, 549)], [(.n .empty, 550)], [(.t .comma, 551)], [(.t .rightParen, 552)],
    [(.n .dynamicProperties, 553), (.n .empty, 554)], [(.t .equals, 555)],
    [(.n .listTarget, 556)], [(.n .listTargets, 557)], [(.t .bitAnd, 558), (.n .expr, 559)],
    [(.t .bitAnd, 560), (.n .expr, 561)], [(.n .varExpr, 562)], [(.n .properties, 563),
    (.n .empty, 564)], [(.n .arguments, 565)], [(.t .leftBracket, 566), (.t .leftBrace, 567)],
    [(.t .rightBrace, 568)], [(.n .encapsOffset, 569), (.t .ident, 570), (.t .offsetNumber, 571),
    (.t .var, 572)], [(.t .ident, 573)], [(.t .rightBrace, 574)], [(.t .leftBracket, 575)],
    [(.t .rightBrace, 576)], [(.n .argument, 577)], [(.t .rightParen, 578)],
    [(.n .arguments, 579)], [(.n .arguments, 580)], [(.n .arguments, 581)],
    [(.n .arguments, 582)], [(.t .rightParen, 583)], [(.t .quote, 584)],
    [(.n .namespaceName, 585)]],
  [[(.n .staticPairs, 586), (.n .empty, 587), (.n .staticPairs1, 588), (.n .staticScalar, 589)],
    [(.t .semi, 590)], [(.n .elseifs, 591), (.n .empty, 592)], [(.n .innerStatements, 593)],
    [(.n .innerStatements, 594)], [(.t .rightParen, 595)], [(.t .semi, 596)],
    [(.n .foreachTarget, 597), (.n .empty, 598), (.t .doubleArrow, 599)], [(.t .var, 600)],
    [(.n .cases, 601), (.t .semi, 602)], [(.n .empty, 603)], [(.n .cases, 604), (.t .semi, 605)],
    [(.t .leftParen, 606)], [(.n .innerStatements, 607)], [(.t .equals, 608)],
    [(.t .rightParen, 609)], [(.n .parameter, 610)], [(.n .closureVars, 611), (.t .kwUse, 612),
    (.n .empty, 613)], [(.n .staticScalar, 614)], [(.t .equals, 615)], [(.t .var, 616)],
    [(.t .equals, 617)], [(.t .var, 618)], [(.t .equals, 619)], [(.n .classStatements, 620)],
    [(.n .namespaceName, 621)], [(.t .rightBrace, 622)], [(.n .classStatement, 623),
    (.n .methodModifiers, 624), (.n .comment, 625), (.n .varModifiers, 626),
    (.n .classConstants, 627), (.n .modifiers1, 628), (.n .empty, 629), (.t .kwVar, 630),
    (.t .kwConst, 631), (.n .modifier, 632)], [(.t .kwPublic, 633), (.t .kwProtected, 634),
    (.t .kwPrivate, 635), (.t .kwStatic, 636), (.t .kwAbstract, 637), (.t .kwFinal, 638)],
    [(.n .qualifiedName, 639)], [(.n .dynamicProperty, 640), (.t .objectOperator, 641)],
    [(.n .expr, 642)]],
  [[(.t .rightParen, 643)], [(.n .varExpr, 644)], [(.t .doubleArrow, 645)], [(.n .varExpr, 646)],
    [(.n .property, 647), (.t .objectOperator, 648)], [(.t .rightParen, 649)],
    [(.n .dimension, 650)], [(.n .expr, 651)], [(.t .rightBracket, 652)], [(.n .expr, 653)],
    [(.t .rightParen, 654)], [(.t .rightParen, 655)], [(.t .rightParen, 656)],
    [(.t .rightParen, 657)], [(.t .rightParen, 658)], [(.n .possibleComma, 659),
    (.t .comma, 660)], [(.t .doubleArrow, 661)], [(.n .elsePart, 662), (.t .kwElseif, 663),
    (.n .empty, 664), (.t .kwElse, 665)], [(.n .colonElseifs, 666), (.n .empty, 667)],
    [(.t .kwEndwhile, 668)], [(.t .semi, 669)], [(.n .forExprs, 670)], [(.t .rightParen, 671)],
    [(.n .foreachVar, 672)], [(.t .rightBrace, 673)], [(.t .kwCase, 674), (.t .kwDefault, 675)],
    [(.n .cases, 676)], [(.t .kwEndswitch, 677)], [(.n .cases, 678)], [(.n .qualifiedName, 679)],
    [(.t .kwEnddeclare, 680)], [(.n .staticScalar, 681)]],
  [[(.t .leftBrace, 682)], [(.t .leftBrace, 683)], [(.t .leftParen, 684)],
    [(.n .staticScalar, 685)], [(.t .equals, 686)], [(.n .staticScalar, 687)],
    [(.t .equals, 688)], [(.n .staticScalar, 689)], [(.t .rightBrace, 690)],
    [(.t .kwFunction, 691)], [(.n .classVars, 692), (.t .var, 693)], [(.t .semi, 694),
    (.t .comma, 695)], [(.n .modifier, 696)], [(.t .ident, 697)], [(.n .objectProperty, 698)],
    [(.t .bitAnd, 699), (.n .expr, 700)], [(.n .objectProperty, 701)], [(.t .rightBracket, 702)],
    [(.t .rightBrace, 703)], [(.t .rightBracket, 704)], [(.n .staticScalar, 705)],
    [(.n .staticScalar, 706)], [(.t .leftParen, 707)], [(.n .statement, 708)],
    [(.n .colonElse, 709), (.t .kwElseif, 710), (.n .empty, 711), (.t .kwElse, 712)],
    [(.t .semi, 713)], [(.t .rightParen, 714)], [(.n .foreachBody, 715), (.n .statement, 716),
    (.t .colon, 717)], [(.n .expr, 718)], [(.n .caseSeparator, 719)], [(.t .colon, 720),
    (.t .semi, 721)], [(.t .rightBrace, 722)]],
  [[(.t .semi, 723)], [(.t .kwEndswitch, 724)], [(.t .var, 725)], [(.t .semi, 726)],
    [(.n .innerStatements, 727)], [(.n .innerStatements, 728)], [(.n .closureVars1, 729),
    (.t .bitAnd, 730), (.t .var, 731)], [(.n .staticScalar, 732)], [(.n .staticScalar, 733)],
    [(.n .isReference, 734)], [(.t .semi, 735), (.t .comma, 736)], [(.t .equals, 737)],
    [(.t .ident, 738)], [(.t .equals, 739)], [(.n .varExpr, 740)], [(.n .methodArguments, 741)],
    [(.t .rightBrace, 742)], [(.t .doubleArrow, 743)], [(.n .expr, 744)], [(.t .kwEndif, 745)],
    [(.t .leftParen, 746)], [(.t .colon, 747)], [(.n .forBody, 748), (.n .statement, 749),
    (.t .colon, 750)], [(.n .innerStatements, 751)], [(.n .caseSeparator, 752)],
    [(.n .innerStatements, 753)], [(.t .semi, 754)], [(.t .rightParen, 755)],
    [(.t .rightBrace, 756)], [(.t .rightBrace, 757)], [(.t .rightParen, 758), (.t .comma, 759)],
    [(.t .var, 760)]],
  [[(.t .ident, 761)], [(.t .var, 762)], [(.n .staticScalar, 763)], [(.t .equals, 764)],
    [(.n .staticScalar, 765)], [(.n .staticScalar, 766)], [(.t .rightParen, 767)],
    [(.t .semi, 768)], [(.n .expr, 769)], [(.n .innerStatements, 770)],
    [(.n .innerStatements, 771)], [(.t .kwEndforeach, 772)], [(.n .innerStatements, 773)],
    [(.t .leftBrace, 774)], [(.t .bitAnd, 775), (.t .var, 776)], [(.t .leftParen, 777)],
    [(.t .equals, 778)], [(.n .staticScalar, 779)], [(.n .statement, 780)],
    [(.t .rightParen, 781)], [(.t .kwEndfor, 782)], [(.t .semi, 783)],
    [(.n .innerStatements, 784)], [(.t .var, 785)], [(.n .parameters, 786)],
    [(.n .staticScalar, 787)], [(.t .colon, 788)], [(.t .semi, 789)], [(.t .rightBrace, 790)],
    [(.t .rightParen, 791)], [(.n .innerStatements, 792)], [(.n .moreCatches, 793),
    (.n .empty, 794)]],
  [[(.n .methodBody, 795), (.t .leftBrace, 796), (.t .semi, 797)], [(.t .kwCatch, 798)],
    [(.n .innerStatements, 799)], [(.t .leftParen, 800)], [(.t .rightBrace, 801)],
    [(.n .qualifiedName, 802)], [(.t .var, 803)], [(.t .rightParen, 804)], [(.t .leftBrace, 805)],
    [(.n .innerStatements, 806)], [(.t .rightBrace, 807)]]]

/-- The groups of edges that leave a state and the productions that end there, each with the set
of tokens that may follow, in pages of 32 states. -/
def rows : List (List Row) := [
  [⟨[0, 1], [(371, 0xd55f1ffff85118000041061b877ff7f604deb)]⟩, ⟨[], []⟩,
    ⟨[2, 3, 4, 5, 6, 7, 8, 9, 10, 11, 12], [(0, 0x1)]⟩,
    ⟨[], [(2, 0xd55f1ffff87118000041061b877ff7f604deb)]⟩,
    ⟨[], [(1, 0xd55f1ffff87118000041061b877ff7f604deb)]⟩,
    ⟨[], [(3, 0xd55f1ffff87118000041061b877ff7f604deb)]⟩,
    ⟨[], [(4, 0xd55f1ffff87118000041061b877ff7f604deb)]⟩,
    ⟨[], [(5, 0xd55f1ffff87118000041061b877ff7f604deb)]⟩,
    ⟨[], [(6, 0xd55f1ffff87118000041061b877ff7f604deb)]⟩, ⟨[13], []⟩, ⟨[10, 14, 15], []⟩,
    ⟨[16, 17], []⟩, ⟨[10, 18, 19], []⟩,
    ⟨[20, 21], [(371, 0xd55f1ffff87118000041061b873ff7f604daa)]⟩, ⟨[22], []⟩, ⟨[23], []⟩,
    ⟨[3, 6, 7, 8, 9, 10, 11, 12, 24, 25, 26], []⟩, ⟨[27], []⟩, ⟨[28], []⟩, ⟨[29], []⟩,
    ⟨[6, 7, 8, 9, 10, 11, 12, 25, 26, 30, 31], []⟩,
    ⟨[6, 7, 8, 9, 10, 11, 12, 25, 26, 31, 32], []⟩,
    ⟨[6, 7, 8, 9, 10, 11, 12, 25, 26, 31, 33], []⟩, ⟨[34, 35], []⟩,
    ⟨[36, 37], [(275, 0x8000000000000000000000000)]⟩,
    ⟨[6, 7, 8, 9, 10, 11, 12, 25, 26, 31, 38], []⟩,
    ⟨[], [(46, 0xd55f1ffff87118000041061b877ff7f7ffffb)]⟩, ⟨[39, 40], []⟩, ⟨[41], []⟩,
    ⟨[], [(49, 0xd55f1ffff87118000041061b877ff7f7ffffb)]⟩, ⟨[42], []⟩,
    ⟨[6, 7, 8, 9, 10, 11, 12, 25, 26, 31, 43], []⟩],
  [⟨[44], []⟩, ⟨[], [(369, 0xd55f1ffff87118000041061bf7fff7f7ffffb)]⟩,
    ⟨[], [(370, 0xd55f1ffff87118000041061bf7fff7f7ffffb)]⟩,
    ⟨[45, 46], [(371, 0x2000000010000000000000000000000000)]⟩, ⟨[47], []⟩, ⟨[48], []⟩,
    ⟨[49], [(164, 0xe0000faa40007fbefe000000080000004)]⟩, ⟨[10, 11, 12, 31, 50, 51], []⟩,
    ⟨[6, 7, 8, 9, 10, 11, 12, 25, 26, 31, 52], []⟩, ⟨[53], []⟩,
    ⟨[], [(170, 0xe0000faa40007fbefe000000080000004)]⟩, ⟨[54], []⟩, ⟨[55], []⟩, ⟨[56], []⟩,
    ⟨[57], []⟩, ⟨[58], [(176, 0xe0000faa40007fbefe000000080000004)]⟩,
    ⟨[6, 7, 8, 9, 10, 11, 12, 25, 26, 31, 59], []⟩,
    ⟨[6, 7, 8, 9, 10, 11, 12, 25, 26, 31, 60], []⟩,
    ⟨[6, 7, 8, 9, 10, 11, 12, 25, 26, 31, 61], []⟩,
    ⟨[6, 7, 8, 9, 10, 11, 12, 25, 26, 31, 62], []⟩,
    ⟨[6, 7, 8, 9, 10, 11, 12, 25, 26, 31, 63], []⟩,
    ⟨[6, 7, 8, 9, 10, 11, 12, 25, 26, 31, 64], []⟩,
    ⟨[6, 7, 8, 9, 10, 11, 12, 25, 26, 31, 65], []⟩, ⟨[7, 10, 11, 12, 31, 66, 67], []⟩,
    ⟨[7, 10, 11, 12, 31, 67, 68], []⟩, ⟨[6, 7, 8, 9, 10, 11, 12, 25, 26, 31, 69], []⟩,
    ⟨[6, 7, 8, 9, 10, 11, 12, 25, 26, 31, 70], []⟩,
    ⟨[6, 7, 8, 9, 10, 11, 12, 25, 26, 31, 71], []⟩,
    ⟨[6, 7, 8, 9, 10, 11, 12, 25, 26, 31, 72], []⟩,
    ⟨[6, 7, 8, 9, 10, 11, 12, 25, 26, 31, 73], []⟩,
    ⟨[6, 7, 8, 9, 10, 11, 12, 25, 26, 31, 74], []⟩,
    ⟨[6, 7, 8, 9, 10, 11, 12, 25, 26, 31, 75], []⟩],
  [⟨[6, 7, 8, 9, 10, 11, 12, 25, 26, 31, 76], []⟩,
    ⟨[6, 7, 8, 9, 10, 11, 12, 25, 26, 31, 77], []⟩,
    ⟨[6, 7, 8, 9, 10, 11, 12, 25, 26, 31, 78], []⟩,
    ⟨[6, 7, 8, 9, 10, 11, 12, 25, 26, 31, 79], []⟩,
    ⟨[], [(124, 0x2000000000000000000000000000000000)]⟩, ⟨[80], []⟩, ⟨[81], []⟩,
    ⟨[82], [(292, 0xe0000faa5fffffbefe000000080000004)]⟩,
    ⟨[], [(320, 0xe0000faa40007fbefe000000080000004)]⟩,
    ⟨[], [(321, 0xe0000faa40007fbefe000000080000004)]⟩,
    ⟨[83, 84], [(371, 0xb84000000000000000000000000000000000)]⟩,
    ⟨[84, 85], [(371, 0x2a84000000000000000000000000000000000)]⟩,
    ⟨[], [(324, 0xe0000faa40007fbefe000000080000004)]⟩,
    ⟨[86, 87], [(272, 0x8000000000000000000000000), (325, 0xe0000faa40007fbefe000000080000004)]⟩,
    ⟨[10, 88], []⟩, ⟨[], [(293, 0xe0000faa7fffffbefe000000080000004)]⟩,
    ⟨[], [(294, 0xe0000faa7fffffbefe000000080000004)]⟩, ⟨[89], []⟩, ⟨[90], []⟩,
    ⟨[], [(330, 0xe0000faa40007fbefe000000080000004)]⟩,
    ⟨[], [(331, 0xe0000faa40007fbefe000000080000004)]⟩,
    ⟨[], [(332, 0xe0000faa40007fbefe000000080000004)]⟩,
    ⟨[], [(333, 0xe0000faa40007fbefe000000080000004)]⟩,
    ⟨[], [(334, 0xe0000faa40007fbefe000000080000004)]⟩,
    ⟨[], [(335, 0xe0000faa40007fbefe000000080000004)]⟩,
    ⟨[], [(336, 0xe0000faa40007fbefe000000080000004)]⟩,
    ⟨[], [(337, 0xe0000faa40007fbefe000000080000004)]⟩,
    ⟨[], [(338, 0xe0000faa40007fbefe000000080000004)]⟩,
    ⟨[], [(339, 0xe0000faa40007fbefe000000080000004)]⟩,
    ⟨[], [(356, 0x4e0002fbbc0007fbefe000800080000004)]⟩,
    ⟨[], [(298, 0xe0000faa7fffffbefe000000080000004), (319, 0x10000000000000000000000000)]⟩,
    ⟨[], [(299, 0xe0000fab7fffffbefe000000080000004)]⟩],
  [⟨[91], []⟩,
    ⟨[92], [(301, 0xe0000fab7fffffbefe000000080000004), (304, 0x8000000000000000000000000)]⟩,
    ⟨[12, 93, 94], []⟩, ⟨[], [(307, 0xe0000fbfffffffbefe000000080000004)]⟩,
    ⟨[], [(308, 0xe0000fbfffffffbefe000000080000004)]⟩, ⟨[95], []⟩, ⟨[87, 96], []⟩,
    ⟨[1, 97], [(371, 0xd55f1ffff87118000041061b877ff7f604dea)]⟩, ⟨[10, 98], []⟩, ⟨[99], []⟩,
    ⟨[], [(20, 0x8800000000000000000000000000)]⟩, ⟨[100], []⟩, ⟨[101], []⟩,
    ⟨[], [(14, 0x8800000000000000000000000000)]⟩,
    ⟨[87, 102], [(15, 0x8800000000000000000000000000)]⟩, ⟨[10, 103], []⟩,
    ⟨[3, 4, 5, 6, 7, 8, 9, 10, 11, 12, 26, 104, 105], []⟩,
    ⟨[], [(23, 0xd55f1ffff87118000041061b873ff7f7fffba)]⟩,
    ⟨[6, 7, 8, 9, 10, 11, 12, 25, 26, 31, 106], []⟩,
    ⟨[6, 7, 8, 9, 10, 11, 12, 25, 26, 31, 107], []⟩, ⟨[108], []⟩,
    ⟨[46, 109], [(371, 0x10000000000000000000000000)]⟩, ⟨[15], []⟩,
    ⟨[6, 7, 8, 9, 10, 11, 12, 25, 26, 31, 110, 111], [(371, 0x8000000000000000000000000000)]⟩,
    ⟨[6, 7, 8, 9, 10, 11, 12, 25, 26, 31, 112], []⟩,
    ⟨[6, 7, 8, 9, 10, 11, 12, 25, 26, 31, 113], []⟩,
    ⟨[], [(37, 0xd55f1ffff87118000041061b877ff7f7ffffb)]⟩, ⟨[40, 114], []⟩,
    ⟨[], [(275, 0x4e0000fabc0007fbefe000000080000004)]⟩,
    ⟨[], [(39, 0xd55f1ffff87118000041061b877ff7f7ffffb)]⟩, ⟨[40, 115], []⟩,
    ⟨[], [(41, 0xd55f1ffff87118000041061b877ff7f7ffffb)]⟩],
  [⟨[40, 116], []⟩, ⟨[117], []⟩, ⟨[], [(91, 0x8800000000000000000000000000)]⟩,
    ⟨[], [(92, 0x8800000000000000000000000000)]⟩, ⟨[7, 10, 11, 12, 31, 67, 118], []⟩, ⟨[119], []⟩,
    ⟨[], [(96, 0x8800000000000000000000000000)]⟩, ⟨[120], [(98, 0x8800000000000000000000000000)]⟩,
    ⟨[121], []⟩, ⟨[40], [(100, 0x8800000000000000000000000000)]⟩,
    ⟨[], [(47, 0xd55f1ffff87118000041061b877ff7f7ffffb)]⟩,
    ⟨[6, 7, 8, 9, 10, 11, 12, 25, 26, 31, 122], []⟩,
    ⟨[6, 7, 8, 9, 10, 11, 12, 25, 26, 31, 123], []⟩,
    ⟨[6, 7, 8, 9, 10, 11, 12, 25, 26, 31, 124], []⟩,
    ⟨[6, 7, 8, 9, 10, 11, 12, 25, 26, 31, 125], []⟩,
    ⟨[6, 7, 8, 9, 10, 11, 12, 25, 26, 31, 126], []⟩,
    ⟨[6, 7, 8, 9, 10, 11, 12, 25, 26, 31, 127], []⟩,
    ⟨[6, 7, 8, 9, 10, 11, 12, 25, 26, 31, 128], []⟩,
    ⟨[6, 7, 8, 9, 10, 11, 12, 25, 26, 31, 129], []⟩,
    ⟨[6, 7, 8, 9, 10, 11, 12, 25, 26, 31, 130], []⟩,
    ⟨[6, 7, 8, 9, 10, 11, 12, 25, 26, 31, 131], []⟩,
    ⟨[6, 7, 8, 9, 10, 11, 12, 25, 26, 31, 132], []⟩,
    ⟨[6, 7, 8, 9, 10, 11, 12, 25, 26, 31, 133], []⟩,
    ⟨[6, 7, 8, 9, 10, 11, 12, 25, 26, 31, 134], []⟩,
    ⟨[6, 7, 8, 9, 10, 11, 12, 25, 26, 31, 135], []⟩,
    ⟨[6, 7, 8, 9, 10, 11, 12, 25, 26, 31, 136], []⟩,
    ⟨[6, 7, 8, 9, 10, 11, 12, 25, 26, 31, 137], []⟩,
    ⟨[6, 7, 8, 9, 10, 11, 12, 25, 26, 31, 138], []⟩,
    ⟨[6, 7, 8, 9, 10, 11, 12, 25, 26, 31, 139], []⟩,
    ⟨[6, 7, 8, 9, 10, 11, 12, 25, 26, 31, 140], []⟩,
    ⟨[6, 7, 8, 9, 10, 11, 12, 25, 26, 31, 141], []⟩,
    ⟨[6, 7, 8, 9, 10, 11, 12, 25, 26, 31, 142], []⟩],
  [⟨[6, 7, 8, 9, 10, 11, 12, 25, 26, 31, 143], []⟩,
    ⟨[6, 7, 8, 9, 10, 11, 12, 25, 26, 31, 144], []⟩,
    ⟨[6, 7, 8, 9, 10, 11, 12, 25, 26, 31, 145], []⟩,
    ⟨[6, 7, 8, 9, 10, 11, 12, 25, 26, 31, 146], []⟩,
    ⟨[6, 7, 8, 9, 10, 11, 12, 25, 26, 31, 147], []⟩, ⟨[7, 10, 11, 12, 31, 67, 148, 149], []⟩,
    ⟨[21, 150], [(371, 0xd55f1ffff87118000041061b873ff7f604daa)]⟩, ⟨[40, 151], []⟩, ⟨[152], []⟩,
    ⟨[153, 154], []⟩, ⟨[], [(105, 0x2000000010000000000000000000000000)]⟩,
    ⟨[], [(106, 0x2000000010000000000000000000000000)]⟩,
    ⟨[155], [(371, 0x100000000000000800000000000)]⟩,
    ⟨[156], [(371, 0x100000000000000000000000000)]⟩,
    ⟨[6, 7, 8, 9, 10, 11, 12, 25, 26, 31, 157], []⟩,
    ⟨[6, 7, 8, 9, 10, 11, 12, 25, 26, 31, 158], []⟩,
    ⟨[6, 7, 8, 9, 10, 11, 12, 25, 26, 31, 159], []⟩,
    ⟨[6, 7, 8, 9, 10, 11, 12, 25, 26, 31, 160], []⟩,
    ⟨[6, 7, 8, 9, 10, 11, 12, 25, 26, 31, 161], []⟩,
    ⟨[6, 7, 8, 9, 10, 11, 12, 25, 26, 31, 162], []⟩,
    ⟨[6, 7, 8, 9, 10, 11, 12, 25, 26, 31, 163], []⟩,
    ⟨[6, 7, 8, 9, 10, 11, 12, 25, 26, 31, 164], []⟩,
    ⟨[6, 7, 8, 9, 10, 11, 12, 25, 26, 31, 165], []⟩,
    ⟨[6, 7, 8, 9, 10, 11, 12, 25, 26, 31, 166], []⟩,
    ⟨[6, 7, 8, 9, 10, 11, 12, 25, 26, 31, 167], []⟩,
    ⟨[6, 7, 8, 9, 10, 11, 12, 25, 26, 31, 168], []⟩,
    ⟨[], [(232, 0xe0000faa40007fbefe000000080000004)]⟩,
    ⟨[], [(233, 0xe0000faa40007fbefe000000080000004)]⟩,
    ⟨[169], [(371, 0xe0000faa40007fbefe000000080000004)]⟩,
    ⟨[170], [(270, 0xe0000fab40007fbefe000000080000004)]⟩,
    ⟨[], [(271, 0xe0000fab40007fbefe000000080000004)]⟩,
    ⟨[87], [(272, 0x4e0000fabc0007fbefe000000080000004)]⟩],
  [⟨[10, 171], []⟩, ⟨[172], []⟩, ⟨[173], [(277, 0xe0000fab40007fbefe000000080000004)]⟩,
    ⟨[], [(298, 0xe0000fab60007fbefe000000080000004)]⟩, ⟨[174], []⟩,
    ⟨[40], [(168, 0xe0000faa40007fbefe000000080000004)]⟩,
    ⟨[7, 10, 11, 12, 31, 67, 175, 176, 177], [(371, 0x820000000000000000000000000)]⟩,
    ⟨[6, 7, 8, 9, 10, 11, 12, 25, 26, 31, 178], [(371, 0x20000000000000000000000000)]⟩,
    ⟨[7, 10, 11, 12, 31, 67, 179], []⟩, ⟨[6, 7, 8, 9, 10, 11, 12, 25, 26, 31, 180], []⟩,
    ⟨[6, 7, 8, 9, 10, 11, 12, 25, 26, 31, 181], []⟩,
    ⟨[6, 7, 8, 9, 10, 11, 12, 25, 26, 31, 182], []⟩,
    ⟨[40], [(179, 0xe0000faa40007fbefe000000080000004)]⟩,
    ⟨[40], [(180, 0xe0000faa40007fbefe000000080000004)]⟩, ⟨[40, 183], []⟩,
    ⟨[40], [(225, 0xe0000faa40007fbefe000000080000004)]⟩,
    ⟨[40], [(226, 0xe0000faa40007fbefe000000080000004)]⟩,
    ⟨[40], [(227, 0xe0000faa40007fbefe000000080000004)]⟩,
    ⟨[40], [(228, 0xe0000faa40007fbefe000000080000004)]⟩,
    ⟨[], [(230, 0xe0000faa40007fbefe000000080000004)]⟩,
    ⟨[86, 87], [(272, 0x8000000000000000000000000)]⟩, ⟨[10, 184], []⟩, ⟨[185], []⟩, ⟨[186], []⟩,
    ⟨[187], []⟩, ⟨[], [(231, 0xe0000faa40007fbefe000000080000004)]⟩,
    ⟨[40], [(234, 0xe0000faa40007fbefe000000080000004)]⟩,
    ⟨[40], [(235, 0xe0000faa40007fbefe000000080000004)]⟩,
    ⟨[40], [(236, 0xe0000faa40007fbefe000000080000004)]⟩,
    ⟨[40], [(237, 0xe0000faa40007fbefe000000080000004)]⟩,
    ⟨[40], [(238, 0xe0000faa40007fbefe000000080000004)]⟩,
    ⟨[40], [(239, 0xe0000faa40007fbefe000000080000004)]⟩],
  [⟨[40], [(240, 0xe0000faa40007fbefe000000080000004)]⟩,
    ⟨[40], [(241, 0xe0000faa40007fbefe000000080000004)]⟩,
    ⟨[40], [(242, 0xe0000faa40007fbefe000000080000004)]⟩,
    ⟨[40], [(243, 0xe0000faa40007fbefe000000080000004)]⟩,
    ⟨[40], [(244, 0xe0000faa40007fbefe000000080000004)]⟩,
    ⟨[], [(125, 0x2000000000000000000000000000000000)]⟩,
    ⟨[], [(126, 0x2000000000000000000000000000000000)]⟩, ⟨[12, 94, 188, 189, 190], []⟩,
    ⟨[191, 192], []⟩, ⟨[], [(358, 0x2b84000000000000000000000000000000000)]⟩, ⟨[192, 193], []⟩,
    ⟨[6, 7, 8, 9, 10, 11, 12, 25, 26, 31, 194, 195, 196], [(371, 0x820000000000000000000000000)]⟩,
    ⟨[197], []⟩,
    ⟨[87, 198], [(273, 0x8000000000000000000000000), (326, 0xe0000faa40007fbefe000000080000004)]⟩,
    ⟨[12, 94, 190, 199, 200], []⟩, ⟨[12, 94, 190, 201, 202], []⟩,
    ⟨[6, 7, 8, 9, 10, 11, 12, 25, 26, 31, 195, 196, 203], [(371, 0x820000000000000000000000000)]⟩,
    ⟨[6, 7, 8, 9, 10, 11, 12, 25, 26, 31, 204, 205], [(371, 0x80000000000000000000000000)]⟩,
    ⟨[6, 7, 8, 9, 10, 11, 12, 25, 26, 31, 206], []⟩,
    ⟨[], [(300, 0xe0000fab7fffffbefe000000080000004)]⟩,
    ⟨[6, 7, 8, 9, 10, 11, 12, 25, 26, 31, 207], []⟩,
    ⟨[92], [(301, 0xe0000fab7fffffbefe000000080000004)]⟩, ⟨[208], []⟩,
    ⟨[], [(8, 0xd55f1ffff87118000041061b877ff7f604deb)]⟩,
    ⟨[1, 209], [(371, 0xd55f1ffff87118000041061b877ff7f604dea)]⟩,
    ⟨[2, 3, 4, 5, 6, 7, 8, 9, 10, 11, 12, 210], []⟩,
    ⟨[87, 211], [(274, 0x8000000000000000000000000), (327, 0xe0000faa40007fbefe000000080000004)]⟩,
    ⟨[], [(11, 0xd55f1ffff87118000041061b877ff7f604deb)]⟩, ⟨[17, 212], []⟩,
    ⟨[9, 10, 213, 214], []⟩, ⟨[], [(12, 0xd55f1ffff87118000041061b877ff7f604deb)]⟩,
    ⟨[10, 19, 215], []⟩],
  [⟨[216], []⟩, ⟨[87, 217], [(16, 0x8800000000000000000000000000)]⟩,
    ⟨[], [(22, 0xd55f1ffff87118000041061b873ff7f7fffba)]⟩,
    ⟨[], [(29, 0xd55f1ffff87118000041061b877ff7f7ffffb)]⟩,
    ⟨[], [(24, 0xd55f1ffff87118000041061b873ff7f7fffba)]⟩,
    ⟨[], [(25, 0xd55f1ffff87118000041061b873ff7f7fffba)]⟩,
    ⟨[], [(26, 0xd55f1ffff87118000041061b873ff7f7fffba)]⟩,
    ⟨[], [(27, 0xd55f1ffff87118000041061b873ff7f7fffba)]⟩, ⟨[218], []⟩, ⟨[40, 219], []⟩,
    ⟨[40, 220], []⟩, ⟨[221], []⟩, ⟨[154], []⟩, ⟨[222], []⟩,
    ⟨[], [(69, 0x8020000000000000000000000000)]⟩, ⟨[223], [(70, 0x8020000000000000000000000000)]⟩,
    ⟨[40], [(72, 0x8820000000000000000000000000)]⟩, ⟨[40, 224], []⟩, ⟨[40, 225], []⟩,
    ⟨[], [(38, 0xd55f1ffff87118000041061b877ff7f7ffffb)]⟩,
    ⟨[], [(40, 0xd55f1ffff87118000041061b877ff7f7ffffb)]⟩,
    ⟨[], [(42, 0xd55f1ffff87118000041061b877ff7f7ffffb)]⟩,
    ⟨[], [(43, 0xd55f1ffff87118000041061b877ff7f7ffffb)]⟩, ⟨[35, 226], []⟩,
    ⟨[], [(93, 0x8800000000000000000000000000)]⟩, ⟨[6, 7, 8, 9, 10, 11, 12, 25, 26, 31, 227], []⟩,
    ⟨[], [(44, 0xd55f1ffff87118000041061b877ff7f7ffffb)]⟩, ⟨[37, 228], []⟩,
    ⟨[9, 10, 214, 229], []⟩, ⟨[], [(45, 0xd55f1ffff87118000041061b877ff7f7ffffb)]⟩,
    ⟨[6, 7, 8, 9, 10, 11, 12, 25, 26, 31, 230], []⟩,
    ⟨[40], [(200, 0xe0000faa40007fbefe000000080000004)]⟩],
  [⟨[40], [(201, 0xe0000faa40007fbefe000000080000004)]⟩,
    ⟨[40], [(202, 0xe0000faa40007fbefe000000080000004)]⟩,
    ⟨[40], [(203, 0xe0000faa40007fbefe000000080000004)]⟩,
    ⟨[40], [(204, 0xe0000faa40007fbefe000000080000004)]⟩,
    ⟨[40], [(205, 0xe0000faa40007fbefe000000080000004)]⟩,
    ⟨[40], [(206, 0xe0000faa40007fbefe000000080000004)]⟩,
    ⟨[40], [(207, 0xe0000faa40007fbefe000000080000004)]⟩,
    ⟨[40], [(208, 0xe0000faa40007fbefe000000080000004)]⟩,
    ⟨[40], [(209, 0xe0000faa40007fbefe000000080000004)]⟩,
    ⟨[40], [(210, 0xe0000faa40007fbefe000000080000004)]⟩,
    ⟨[40], [(211, 0xe0000faa40007fbefe000000080000004)]⟩,
    ⟨[40], [(212, 0xe0000faa40007fbefe000000080000004)]⟩,
    ⟨[40], [(213, 0xe0000faa40007fbefe000000080000004)]⟩,
    ⟨[40], [(214, 0xe0000faa40007fbefe000000080000004)]⟩,
    ⟨[40], [(215, 0xe0000faa40007fbefe000000080000004)]⟩,
    ⟨[40], [(216, 0xe0000faa40007fbefe000000080000004)]⟩,
    ⟨[40], [(217, 0xe0000faa40007fbefe000000080000004)]⟩,
    ⟨[40], [(218, 0xe0000faa40007fbefe000000080000004)]⟩,
    ⟨[40], [(219, 0xe0000faa40007fbefe000000080000004)]⟩,
    ⟨[40], [(220, 0xe0000faa40007fbefe000000080000004)]⟩,
    ⟨[40], [(221, 0xe0000faa40007fbefe000000080000004)]⟩,
    ⟨[40], [(222, 0xe0000faa40007fbefe000000080000004)]⟩,
    ⟨[40], [(223, 0xe0000faa40007fbefe000000080000004)]⟩,
    ⟨[40], [(224, 0xe0000faa40007fbefe000000080000004)]⟩, ⟨[40, 231], []⟩, ⟨[232], []⟩,
    ⟨[], [(102, 0x820000000000000000000000000)]⟩, ⟨[], [(103, 0x820000000000000000000000000)]⟩,
    ⟨[3, 4, 5, 6, 7, 8, 9, 10, 11, 12, 26, 104, 233], []⟩,
    ⟨[], [(53, 0xd55f1ffff87118000041061b877ff7f7ffffb)]⟩, ⟨[234], []⟩, ⟨[235], []⟩],
  [⟨[236], []⟩, ⟨[10, 31, 51, 237, 238, 239], [(371, 0x820000000000000000000000000)]⟩,
    ⟨[240], [(371, 0x100000000000000000000000000)]⟩, ⟨[], [(127, 0x100000000000000800000000000)]⟩,
    ⟨[10, 241, 242], []⟩, ⟨[243], []⟩, ⟨[10, 242, 244, 245], []⟩,
    ⟨[], [(137, 0x100000000000000000000000000)]⟩,
    ⟨[40], [(165, 0xe0000faa40007fbefe000000080000004)]⟩,
    ⟨[6, 7, 8, 9, 10, 11, 12, 25, 26, 31, 246], []⟩,
    ⟨[40], [(189, 0xe0000faa40007fbefe000000080000004)]⟩,
    ⟨[40], [(190, 0xe0000faa40007fbefe000000080000004)]⟩,
    ⟨[40], [(191, 0xe0000faa40007fbefe000000080000004)]⟩,
    ⟨[40], [(192, 0xe0000faa40007fbefe000000080000004)]⟩,
    ⟨[40], [(193, 0xe0000faa40007fbefe000000080000004)]⟩,
    ⟨[40], [(194, 0xe0000faa40007fbefe000000080000004)]⟩,
    ⟨[40], [(195, 0xe0000faa40007fbefe000000080000004)]⟩,
    ⟨[40], [(196, 0xe0000faa40007fbefe000000080000004)]⟩,
    ⟨[40], [(197, 0xe0000faa40007fbefe000000080000004)]⟩,
    ⟨[40], [(198, 0xe0000faa40007fbefe000000080000004)]⟩,
    ⟨[40], [(199, 0xe0000faa40007fbefe000000080000004)]⟩,
    ⟨[], [(167, 0xe0000faa40007fbefe000000080000004)]⟩,
    ⟨[6, 7, 8, 9, 10, 11, 12, 25, 26, 31, 195, 196, 247], [(371, 0x820000000000000000000000000)]⟩,
    ⟨[], [(263, 0xe0000faa40007fbefe000000080000004)]⟩, ⟨[12, 94, 190, 248], []⟩,
    ⟨[87], [(273, 0x4e0000fabc0007fbefe000000080000004)]⟩, ⟨[10, 249], []⟩,
    ⟨[12, 94, 189, 190, 250], []⟩, ⟨[12, 94, 190, 251], []⟩, ⟨[252, 253], []⟩,
    ⟨[], [(185, 0x820000000000000000000000000)]⟩, ⟨[], [(186, 0x820000000000000000000000000)]⟩],
  [⟨[], [(187, 0x820000000000000000000000000)]⟩, ⟨[254], []⟩, ⟨[255], []⟩,
    ⟨[], [(245, 0x20000000000000000000000000)]⟩,
    ⟨[256, 257], [(371, 0x20000000000000000000000000)]⟩, ⟨[7, 10, 11, 12, 31, 67, 258], []⟩,
    ⟨[40, 259], [(250, 0x820000000000000000000000000)]⟩, ⟨[260], []⟩,
    ⟨[], [(183, 0x820000000000000000000000000)]⟩, ⟨[40, 261], []⟩, ⟨[40, 262], []⟩,
    ⟨[], [(177, 0xe0000faa40007fbefe000000080000004)]⟩, ⟨[40, 263], []⟩,
    ⟨[], [(181, 0xe0000faa40007fbefe000000080000004)]⟩,
    ⟨[87, 198], [(273, 0x8000000000000000000000000)]⟩, ⟨[10, 264], []⟩,
    ⟨[12, 94, 190, 200, 265], []⟩, ⟨[12, 94, 190, 202, 266], []⟩,
    ⟨[267, 268], [(371, 0xe0000faa7fffffbefe000000080000004)]⟩,
    ⟨[269], [(371, 0xe0000fbf7fffffbefe000000080000004)]⟩,
    ⟨[], [(313, 0xe0000fab7fffffbefe000000080000004)]⟩,
    ⟨[], [(317, 0xe0000fbf7fffffbefe000000080000004)]⟩,
    ⟨[6, 7, 8, 9, 10, 11, 12, 25, 26, 31, 270], []⟩,
    ⟨[], [(319, 0xe0000fab7fffffbefe000000080000004)]⟩,
    ⟨[], [(322, 0xe0000faa40007fbefe000000080000004)]⟩,
    ⟨[], [(357, 0x2b84000000000000000000000000000000000)]⟩,
    ⟨[], [(359, 0x2b84000000000000000000000000000000000)]⟩,
    ⟨[271], [(360, 0x2b84000000000000000000000000000000000)]⟩,
    ⟨[6, 7, 9, 10, 11, 12, 25, 26, 31, 272], []⟩, ⟨[7, 10, 11, 12, 31, 67, 273], []⟩,
    ⟨[], [(323, 0xe0000faa40007fbefe000000080000004)]⟩, ⟨[274, 275], []⟩],
  [⟨[], [(258, 0x820000000000000000000000000)]⟩, ⟨[], [(259, 0x820000000000000000000000000)]⟩,
    ⟨[40], [(260, 0x820000000000000000000000000)]⟩, ⟨[7, 10, 11, 12, 31, 67, 276], []⟩,
    ⟨[], [(355, 0x4e0002fbbc0007fbefe000800080000004)]⟩,
    ⟨[6, 7, 8, 9, 10, 11, 12, 25, 26, 31, 195, 196, 277], [(371, 0x820000000000000000000000000)]⟩,
    ⟨[278], [(328, 0xe0000faa40007fbefe000000080000004)]⟩,
    ⟨[279], [(302, 0xe0000faa7fffffbefe000000080000004)]⟩,
    ⟨[280], [(329, 0xe0000faa40007fbefe000000080000004)]⟩,
    ⟨[281], [(303, 0xe0000faa7fffffbefe000000080000004)]⟩, ⟨[274, 282], []⟩, ⟨[283], []⟩,
    ⟨[40], [(310, 0x80000000000000000000000000)]⟩, ⟨[], [(311, 0x80000000000000000000000000)]⟩,
    ⟨[40, 284], []⟩, ⟨[40, 285], []⟩, ⟨[], [(7, 0xd55f1ffff87118000041061b877ff7f604deb)]⟩,
    ⟨[2, 3, 4, 5, 6, 7, 8, 9, 10, 11, 12, 286], []⟩,
    ⟨[], [(9, 0xd55f1ffff87118000041061b877ff7f604deb)]⟩,
    ⟨[6, 7, 8, 9, 10, 11, 12, 25, 26, 31, 195, 196, 287], [(371, 0x820000000000000000000000000)]⟩,
    ⟨[], [(19, 0x8800000000000000000000000000)]⟩, ⟨[], [(21, 0x8800000000000000000000000000)]⟩,
    ⟨[], [(340, 0x8824000000000000000000000000)]⟩, ⟨[288], []⟩,
    ⟨[87], [(343, 0x8824000000000000000000000000)]⟩, ⟨[10, 289], []⟩, ⟨[290], []⟩,
    ⟨[9, 10, 214, 291], []⟩, ⟨[9, 10, 214, 292], []⟩, ⟨[293], []⟩,
    ⟨[], [(13, 0x8800000000000000000000000000)]⟩, ⟨[], [(17, 0x8800000000000000000000000000)]⟩],
  [⟨[294], []⟩, ⟨[295], []⟩, ⟨[3, 6, 7, 8, 9, 10, 11, 12, 25, 26, 296], []⟩,
    ⟨[3, 6, 7, 8, 9, 10, 11, 12, 25, 26, 297], []⟩,
    ⟨[6, 7, 8, 9, 10, 11, 12, 25, 26, 31, 298], []⟩,
    ⟨[6, 7, 8, 9, 10, 11, 12, 25, 26, 31, 111, 299], [(371, 0x8000000000000000000000000000)]⟩,
    ⟨[6, 7, 8, 9, 10, 11, 12, 25, 26, 31, 300], []⟩, ⟨[301, 302], []⟩, ⟨[303], []⟩,
    ⟨[], [(90, 0x8800000000000000000000000000)]⟩, ⟨[40, 304], []⟩,
    ⟨[], [(95, 0x8800000000000000000000000000)]⟩, ⟨[], [(97, 0x8800000000000000000000000000)]⟩,
    ⟨[40], [(99, 0x8800000000000000000000000000)]⟩,
    ⟨[6, 7, 8, 9, 10, 11, 12, 25, 26, 31, 305], []⟩, ⟨[306], []⟩,
    ⟨[7, 10, 11, 12, 31, 67, 149, 307], []⟩, ⟨[308], []⟩,
    ⟨[3, 6, 7, 8, 9, 10, 11, 12, 25, 26, 309], []⟩, ⟨[310], []⟩, ⟨[9, 10, 214, 311], []⟩,
    ⟨[10, 31, 51, 238, 239, 312], [(371, 0x820000000000000000000000000)]⟩, ⟨[313, 314], []⟩,
    ⟨[], [(108, 0x820000000000000000000000000)]⟩, ⟨[], [(109, 0x820000000000000000000000000)]⟩,
    ⟨[315], [(110, 0x820000000000000000000000000)]⟩, ⟨[316], []⟩, ⟨[317], []⟩, ⟨[318], []⟩,
    ⟨[319], []⟩, ⟨[10, 242, 245, 320], []⟩, ⟨[], [(133, 0x100000000000000000000000000)]⟩],
  [⟨[], [(128, 0x100000000000000800000000000)]⟩,
    ⟨[87], [(129, 0x4000000900000000000000800000000000)]⟩, ⟨[10, 321], []⟩, ⟨[322], []⟩,
    ⟨[323, 324], [(371, 0xc00000000020000000000000f288004000040)]⟩,
    ⟨[325], [(136, 0x100000000000000000000000000)]⟩, ⟨[], [(135, 0x900000000000000000000000000)]⟩,
    ⟨[40], [(166, 0xe0000faa40007fbefe000000080000004)]⟩, ⟨[274, 326], []⟩,
    ⟨[], [(302, 0xe0000fab60007fbefe000000080000004)]⟩,
    ⟨[87], [(274, 0x4e0000fabc0007fbefe000000080000004)]⟩,
    ⟨[327], [(371, 0xe0000fab60007fbefe000000080000004)]⟩,
    ⟨[], [(303, 0xe0000fab60007fbefe000000080000004)]⟩, ⟨[328], []⟩,
    ⟨[7, 10, 11, 12, 31, 67, 177, 329], [(371, 0x820000000000000000000000000)]⟩,
    ⟨[7, 10, 11, 12, 31, 67, 176, 177, 330], [(371, 0x820000000000000000000000000)]⟩,
    ⟨[], [(171, 0xe0000faa40007fbefe000000080000004)]⟩,
    ⟨[], [(246, 0x20000000000000000000000000)]⟩,
    ⟨[6, 7, 8, 9, 10, 11, 12, 25, 26, 31, 331], [(256, 0x20000000000000000000000000)]⟩,
    ⟨[], [(255, 0x20000000000000000000000000)]⟩, ⟨[], [(249, 0x820000000000000000000000000)]⟩,
    ⟨[6, 7, 8, 9, 10, 11, 12, 25, 26, 31, 332], []⟩,
    ⟨[], [(173, 0xe0000faa40007fbefe000000080000004)]⟩, ⟨[7, 10, 11, 12, 31, 67, 333], []⟩,
    ⟨[], [(174, 0xe0000faa40007fbefe000000080000004)]⟩,
    ⟨[], [(175, 0xe0000faa40007fbefe000000080000004)]⟩,
    ⟨[], [(178, 0xe0000faa40007fbefe000000080000004)]⟩,
    ⟨[87, 211], [(274, 0x8000000000000000000000000)]⟩, ⟨[278], []⟩, ⟨[280], []⟩,
    ⟨[334], [(371, 0xe0000faa7fffffbefe000000080000004)]⟩,
    ⟨[6, 7, 8, 9, 10, 11, 12, 25, 26, 31, 195, 196, 335], [(371, 0x820000000000000000000000000)]⟩],
  [⟨[], [(290, 0xe0000faa7fffffbefe000000080000004)]⟩,
    ⟨[336], [(312, 0xe0000fab7fffffbefe000000080000004)]⟩,
    ⟨[], [(314, 0xe0000fbf7fffffbefe000000080000004)]⟩, ⟨[40, 337], []⟩, ⟨[338], []⟩, ⟨[339], []⟩,
    ⟨[40, 340], []⟩, ⟨[341], [(324, 0xe000032000007fbefe000000080000000)]⟩, ⟨[342], []⟩,
    ⟨[6, 7, 8, 9, 10, 11, 12, 25, 26, 31, 196, 343], []⟩,
    ⟨[], [(281, 0xe0000faa7fffffbefe000000080000004)]⟩,
    ⟨[], [(261, 0x820000000000000000000000000)]⟩, ⟨[274, 344], []⟩,
    ⟨[6, 7, 8, 9, 10, 11, 12, 25, 26, 31, 195, 196, 345], [(371, 0x820000000000000000000000000)]⟩,
    ⟨[6, 7, 8, 9, 10, 11, 12, 25, 26, 31, 195, 196, 346], [(371, 0x820000000000000000000000000)]⟩,
    ⟨[6, 7, 8, 9, 10, 11, 12, 25, 26, 31, 195, 196, 347], [(371, 0x820000000000000000000000000)]⟩,
    ⟨[6, 7, 8, 9, 10, 11, 12, 25, 26, 31, 195, 196, 348], [(371, 0x820000000000000000000000000)]⟩,
    ⟨[], [(288, 0xe0000faa7fffffbefe000000080000004)]⟩,
    ⟨[], [(305, 0xe0000fbfffffffbefe000000080000004)]⟩,
    ⟨[], [(306, 0xe0000fbfffffffbefe000000080000004)]⟩,
    ⟨[], [(309, 0xe0000fbfffffffbefe000000080000004)]⟩,
    ⟨[], [(10, 0xd55f1ffff87118000041061b877ff7f604deb)]⟩, ⟨[274, 349], []⟩,
    ⟨[], [(341, 0x8824000000000000000000000000)]⟩, ⟨[350], []⟩,
    ⟨[87], [(344, 0x8824000000000000000000000000)]⟩, ⟨[10, 351], []⟩,
    ⟨[], [(346, 0x8824000000000000000000000000)]⟩, ⟨[], [(347, 0x8824000000000000000000000000)]⟩,
    ⟨[9, 10, 214, 352], [(371, 0x20000000000000000000000000)]⟩,
    ⟨[], [(18, 0x8800000000000000000000000000)]⟩, ⟨[353], []⟩],
  [⟨[354], [(371, 0xd55f1ffff87118000041061b877ff7f7ffffb)]⟩,
    ⟨[21, 355], [(371, 0xd55f1ffff85118000041061b873ff7f647daa)]⟩,
    ⟨[], [(32, 0xd55f1ffff87118000041061b877ff7f7ffffb)]⟩,
    ⟨[], [(67, 0xd55f1ffff87118000041061b877ff7f7ffffb)]⟩,
    ⟨[21, 356], [(371, 0xd55f1ffff85118000041061b873ff7f704daa)]⟩, ⟨[40, 357], []⟩, ⟨[358], []⟩,
    ⟨[40], [(71, 0x8820000000000000000000000000)]⟩,
    ⟨[359], [(371, 0x20000000000000000000000000)]⟩, ⟨[], [(75, 0x24000000000000000000000000)]⟩,
    ⟨[360], []⟩, ⟨[], [(36, 0xd55f1ffff87118000041061b877ff7f7ffffb)]⟩,
    ⟨[361, 362], [(371, 0x200000000000000000000000210)]⟩, ⟨[362, 363], [(371, 0x80210)]⟩,
    ⟨[], [(94, 0x8800000000000000000000000000)]⟩,
    ⟨[40], [(229, 0xe0000faa40007fbefe000000080000004)]⟩,
    ⟨[], [(48, 0xd55f1ffff87118000041061b877ff7f7ffffb)]⟩,
    ⟨[], [(101, 0x820000000000000000000000000)]⟩, ⟨[364], []⟩,
    ⟨[], [(54, 0xd55f1ffff87118000041061b877ff7f7ffffb)]⟩,
    ⟨[], [(57, 0xd55f1ffff87118000041061b877ff7f7ffffb)]⟩,
    ⟨[21, 365], [(371, 0xd55f1ffff85118000041061b873ff7f60cdaa)]⟩, ⟨[366], []⟩,
    ⟨[], [(55, 0x820000000000000000000000000)]⟩, ⟨[313, 367], []⟩, ⟨[10, 31, 51, 239, 368], []⟩,
    ⟨[369], [(371, 0x100000000000000000000000000)]⟩, ⟨[9, 10, 214, 370], []⟩,
    ⟨[371], [(111, 0x820000000000000000000000000)]⟩, ⟨[372], []⟩,
    ⟨[373], [(112, 0x820000000000000000000000000)]⟩, ⟨[374], []⟩],
  [⟨[375], [(113, 0x820000000000000000000000000)]⟩,
    ⟨[324, 376], [(371, 0xc00000000020000000000000f288004000040)]⟩,
    ⟨[325], [(132, 0x100000000000000000000000000)]⟩,
    ⟨[87], [(130, 0x4000000900000000000000800000000000)]⟩, ⟨[10, 377], []⟩,
    ⟨[4, 378, 379, 380], [(371, 0x4000000)]⟩,
    ⟨[], [(139, 0xc00000000020000000000000f288004000040)]⟩, ⟨[10, 242, 381], []⟩,
    ⟨[], [(262, 0xe0000faa40007fbefe000000080000004)]⟩,
    ⟨[382], [(276, 0xe0000fab40007fbefe000000080000004)]⟩,
    ⟨[], [(279, 0xe0000fab60007fbefe000000080000004)]⟩,
    ⟨[6, 7, 8, 9, 10, 11, 12, 25, 26, 31, 383], []⟩, ⟨[], [(184, 0x820000000000000000000000000)]⟩,
    ⟨[253, 384], []⟩, ⟨[7, 10, 11, 12, 31, 67, 385], []⟩,
    ⟨[40, 386], [(248, 0x820000000000000000000000000)]⟩, ⟨[7, 10, 11, 12, 31, 67, 387], []⟩,
    ⟨[40], [(254, 0x820000000000000000000000000)]⟩, ⟨[], [(182, 0x820000000000000000000000000)]⟩,
    ⟨[388], [(291, 0xe0000faa5fffffbefe000000080000004)]⟩,
    ⟨[], [(296, 0xe0000faa7fffffbefe000000080000004)]⟩, ⟨[274, 389], []⟩,
    ⟨[6, 7, 8, 9, 10, 11, 12, 25, 26, 31, 205, 390], [(371, 0x80000000000000000000000000)]⟩,
    ⟨[6, 7, 8, 9, 10, 11, 12, 25, 26, 31, 391], []⟩,
    ⟨[], [(318, 0xe0000fbf7fffffbefe000000080000004)]⟩, ⟨[392], []⟩,
    ⟨[], [(366, 0x80000000000000000000000000)]⟩, ⟨[], [(367, 0x80000000000000000000000000)]⟩,
    ⟨[], [(368, 0x80000000000000000000000000)]⟩,
    ⟨[], [(362, 0x2b84000000000000000000000000000000000)]⟩,
    ⟨[], [(363, 0x2b84000000000000000000000000000000000)]⟩,
    ⟨[6, 7, 8, 9, 10, 11, 12, 25, 26, 31, 393], []⟩],
  [⟨[], [(365, 0x2b84000000000000000000000000000000000)]⟩,
    ⟨[], [(257, 0x820000000000000000000000000)]⟩,
    ⟨[], [(282, 0xe0000faa7fffffbefe000000080000004)]⟩, ⟨[274, 394], []⟩, ⟨[274, 395], []⟩,
    ⟨[274, 396], []⟩, ⟨[274, 397], []⟩, ⟨[], [(283, 0xe0000faa7fffffbefe000000080000004)]⟩,
    ⟨[], [(342, 0x8824000000000000000000000000)]⟩,
    ⟨[87], [(345, 0x8824000000000000000000000000)]⟩, ⟨[398], []⟩,
    ⟨[], [(349, 0x20000000000000000000000000)]⟩,
    ⟨[257, 399], [(371, 0x20000000000000000000000000)]⟩,
    ⟨[400], [(352, 0x820000000000000000000000000)]⟩,
    ⟨[], [(28, 0xd55f1ffff87118000041061b873ff7f7fffba)]⟩,
    ⟨[401], [(371, 0xd55f1ffff87118000041061b877ff7f7ffffb)]⟩,
    ⟨[], [(59, 0xd55f1ffff87118000041061b877ff7f7ffffb)]⟩,
    ⟨[3, 4, 5, 6, 7, 8, 9, 10, 11, 12, 26, 104, 402], [(371, 0x43000)]⟩,
    ⟨[3, 4, 5, 6, 7, 8, 9, 10, 11, 12, 26, 104, 403], []⟩, ⟨[404], []⟩,
    ⟨[6, 7, 8, 9, 10, 11, 12, 25, 26, 31, 111, 405], [(371, 0x20000000000000000000000000)]⟩,
    ⟨[406], []⟩, ⟨[], [(77, 0x20000000000000000000000000)]⟩, ⟨[302, 407], []⟩,
    ⟨[], [(76, 0x24000000000000000000000000)]⟩, ⟨[408, 409], []⟩,
    ⟨[362, 410], [(371, 0x200000000000000000000000210)]⟩,
    ⟨[], [(85, 0x200000000000000000000080210)]⟩, ⟨[409, 411], []⟩, ⟨[362, 412], [(371, 0x80210)]⟩,
    ⟨[10, 242, 413], []⟩, ⟨[3, 4, 5, 6, 7, 8, 9, 10, 11, 12, 26, 104, 414], []⟩],
  [⟨[9, 10, 214, 415], []⟩, ⟨[416], []⟩, ⟨[], [(107, 0x820000000000000000000000000)]⟩,
    ⟨[417], []⟩, ⟨[418], []⟩, ⟨[], [(265, 0x100000000000000000000000000)]⟩,
    ⟨[], [(116, 0x820000000000000000000000000)]⟩, ⟨[9, 10, 214, 419], []⟩,
    ⟨[420], [(114, 0x820000000000000000000000000)]⟩, ⟨[9, 10, 214, 421], []⟩,
    ⟨[422], [(115, 0x820000000000000000000000000)]⟩, ⟨[9, 10, 214, 423], []⟩,
    ⟨[4, 379, 380, 424], [(371, 0x4000000)]⟩,
    ⟨[87], [(131, 0x4000000900000000000000800000000000)]⟩,
    ⟨[], [(123, 0xd55f1ffff87118000041061b877ff7f7ffffb)]⟩,
    ⟨[], [(138, 0xc00000000020000000000000f288004000040)]⟩, ⟨[425], []⟩,
    ⟨[], [(141, 0xc00000000020000000000000f288004000040)]⟩, ⟨[426], []⟩, ⟨[427], []⟩,
    ⟨[380, 428], [(150, 0x4000000000000000000000000000000000), (152, 0x4000000)]⟩,
    ⟨[], [(153, 0x4000000)]⟩, ⟨[], [(151, 0x4000000000000000000000000000000000)]⟩, ⟨[429], []⟩,
    ⟨[], [(157, 0x400000000000000000000f208004000000)]⟩,
    ⟨[], [(158, 0x400000000000000000000f208004000000)]⟩,
    ⟨[], [(159, 0x400000000000000000000f208004000000)]⟩,
    ⟨[], [(160, 0x400000000000000000000f208004000000)]⟩,
    ⟨[], [(161, 0x400000000000000000000f208004000000)]⟩,
    ⟨[], [(162, 0x400000000000000000000f208004000000)]⟩,
    ⟨[], [(163, 0x400000000000000000000f208004000000)]⟩,
    ⟨[], [(134, 0x900000000000000000000000000)]⟩],
  [⟨[], [(278, 0xe0000fab60007fbefe000000080000004)]⟩, ⟨[12, 94, 189, 190, 430], []⟩,
    ⟨[40], [(169, 0xe0000faa40007fbefe000000080000004)]⟩,
    ⟨[], [(188, 0x820000000000000000000000000)]⟩, ⟨[], [(247, 0x820000000000000000000000000)]⟩,
    ⟨[6, 7, 8, 9, 10, 11, 12, 25, 26, 31, 431], []⟩, ⟨[], [(253, 0x820000000000000000000000000)]⟩,
    ⟨[], [(295, 0xe0000faa7fffffbefe000000080000004)]⟩, ⟨[12, 94, 189, 190, 432], []⟩,
    ⟨[], [(289, 0xe0000faa7fffffbefe000000080000004)]⟩, ⟨[433], []⟩, ⟨[40, 434], []⟩,
    ⟨[], [(361, 0x2b84000000000000000000000000000000000)]⟩, ⟨[40, 435], []⟩,
    ⟨[], [(284, 0xe0000faa7fffffbefe000000080000004)]⟩,
    ⟨[], [(285, 0xe0000faa7fffffbefe000000080000004)]⟩,
    ⟨[], [(286, 0xe0000faa7fffffbefe000000080000004)]⟩,
    ⟨[], [(287, 0xe0000faa7fffffbefe000000080000004)]⟩,
    ⟨[], [(348, 0x8824000000000000000000000000)]⟩, ⟨[], [(350, 0x20000000000000000000000000)]⟩,
    ⟨[9, 10, 214, 436], [(256, 0x20000000000000000000000000)]⟩, ⟨[9, 10, 214, 437], []⟩,
    ⟨[], [(30, 0xd55f1ffff87118000041061b877ff7f7ffffb)]⟩, ⟨[438], []⟩,
    ⟨[], [(61, 0xd55f1ffff87118000041061b877ff7f7ffffb)]⟩,
    ⟨[3, 6, 7, 8, 9, 10, 11, 12, 25, 26, 439], []⟩, ⟨[440], [(371, 0x40000)]⟩,
    ⟨[], [(63, 0x43000)]⟩, ⟨[441], []⟩, ⟨[], [(33, 0xd55f1ffff87118000041061b877ff7f7ffffb)]⟩,
    ⟨[442], []⟩, ⟨[3, 6, 7, 8, 9, 10, 11, 12, 25, 26, 443], []⟩],
  [⟨[], [(78, 0x20000000000000000000000000)]⟩,
    ⟨[], [(81, 0xd55f1ffff87118000041061b877ff7f7ffffb)]⟩,
    ⟨[6, 7, 8, 9, 10, 11, 12, 25, 26, 31, 444], []⟩, ⟨[445, 446], []⟩, ⟨[409, 447], []⟩,
    ⟨[448], []⟩, ⟨[409, 449], []⟩, ⟨[450], []⟩, ⟨[451], []⟩,
    ⟨[], [(56, 0x820000000000000000000000000)]⟩,
    ⟨[21, 452], [(371, 0xd55f1ffff87118000041061b873ff7f604daa)]⟩,
    ⟨[21, 453], [(371, 0xd55f1ffff87118000041061b873ff7f604daa)]⟩, ⟨[454], []⟩,
    ⟨[], [(117, 0x820000000000000000000000000)]⟩, ⟨[9, 10, 214, 455], []⟩,
    ⟨[], [(118, 0x820000000000000000000000000)]⟩, ⟨[9, 10, 214, 456], []⟩,
    ⟨[], [(119, 0x820000000000000000000000000)]⟩,
    ⟨[], [(122, 0xd55f1ffff87118000041061b877ff7f7ffffb)]⟩,
    ⟨[46, 457], [(371, 0x2000000000000000000000000000000000)]⟩, ⟨[458], []⟩,
    ⟨[459], [(147, 0x8800000000000000000000000000)]⟩,
    ⟨[], [(143, 0xc00000000020000000000000f288004000040)]⟩, ⟨[460], []⟩,
    ⟨[], [(156, 0x400000000000000000000f208004000000)]⟩, ⟨[461], []⟩,
    ⟨[], [(280, 0xe0000fab60007fbefe000000080000004)]⟩, ⟨[7, 10, 11, 12, 31, 67, 462], []⟩,
    ⟨[40], [(252, 0x820000000000000000000000000)]⟩,
    ⟨[268, 463], [(371, 0xe0000faa7fffffbefe000000080000004)]⟩,
    ⟨[], [(315, 0xe0000fbf7fffffbefe000000080000004)]⟩,
    ⟨[], [(316, 0xe0000fbf7fffffbefe000000080000004)]⟩],
  [⟨[464], []⟩, ⟨[465], [(351, 0x820000000000000000000000000)]⟩,
    ⟨[], [(354, 0x820000000000000000000000000)]⟩, ⟨[6, 7, 8, 9, 10, 11, 12, 25, 26, 31, 466], []⟩,
    ⟨[], [(62, 0xd55f1ffff87118000041061b877ff7f7ffffb)]⟩, ⟨[467], []⟩, ⟨[468], []⟩,
    ⟨[], [(65, 0x40000)]⟩, ⟨[469], []⟩, ⟨[], [(68, 0xd55f1ffff87118000041061b877ff7f7ffffb)]⟩,
    ⟨[3, 6, 7, 8, 9, 10, 11, 12, 25, 26, 470], []⟩,
    ⟨[], [(35, 0xd55f1ffff87118000041061b877ff7f7ffffb)]⟩,
    ⟨[], [(79, 0xd55f1ffff87118000041061b877ff7f7ffffb)]⟩,
    ⟨[21, 471], [(371, 0xd55f1ffff85118000041061b873ff7f624daa)]⟩, ⟨[40, 446, 472], []⟩,
    ⟨[21, 473], [(371, 0xd55f1ffff87118000041061b873ff7f684fba)]⟩,
    ⟨[], [(88, 0xd55f1ffff87118000041061b873ff7f684fba)]⟩,
    ⟨[], [(89, 0xd55f1ffff87118000041061b873ff7f684fba)]⟩,
    ⟨[], [(82, 0xd55f1ffff87118000041061b877ff7f7ffffb)]⟩,
    ⟨[], [(83, 0xd55f1ffff87118000041061b877ff7f7ffffb)]⟩, ⟨[474], []⟩, ⟨[475], []⟩,
    ⟨[], [(58, 0xd55f1ffff87118000041061b877ff7f7ffffb)]⟩,
    ⟨[3, 4, 5, 6, 7, 8, 9, 10, 11, 12, 26, 104, 476], []⟩,
    ⟨[3, 4, 5, 6, 7, 8, 9, 10, 11, 12, 26, 104, 477], []⟩, ⟨[478], []⟩, ⟨[479], []⟩,
    ⟨[], [(269, 0x820000000000000000000000000)]⟩, ⟨[], [(120, 0x820000000000000000000000000)]⟩,
    ⟨[], [(121, 0x820000000000000000000000000)]⟩, ⟨[480], []⟩,
    ⟨[], [(142, 0xc00000000020000000000000f288004000040)]⟩],
  [⟨[481], []⟩, ⟨[9, 10, 214, 482], []⟩, ⟨[483], []⟩, ⟨[9, 10, 214, 484], []⟩,
    ⟨[], [(251, 0x820000000000000000000000000)]⟩,
    ⟨[], [(297, 0xe0000faa7fffffbefe000000080000004)]⟩,
    ⟨[], [(364, 0x2b84000000000000000000000000000000000)]⟩, ⟨[9, 10, 214, 485], []⟩,
    ⟨[40, 486], []⟩, ⟨[487], []⟩, ⟨[6, 7, 8, 9, 10, 11, 12, 25, 26, 31, 488], []⟩,
    ⟨[21, 489], [(371, 0xd55f1ffff85118000041061b873ff7f644daa)]⟩,
    ⟨[], [(34, 0xd55f1ffff87118000041061b877ff7f7ffffb)]⟩,
    ⟨[], [(73, 0xd55f1ffff87118000041061b877ff7f7ffffb)]⟩,
    ⟨[21, 490], [(371, 0xd55f1ffff85118000041061b873ff7f614daa)]⟩,
    ⟨[3, 4, 5, 6, 7, 8, 9, 10, 11, 12, 26, 104, 491], []⟩,
    ⟨[21, 492], [(371, 0xd55f1ffff87118000041061b873ff7f684fba)]⟩,
    ⟨[3, 4, 5, 6, 7, 8, 9, 10, 11, 12, 26, 104], [(87, 0x200000000000000000000080210)]⟩,
    ⟨[], [(84, 0xd55f1ffff87118000041061b877ff7f7ffffb)]⟩, ⟨[493], []⟩,
    ⟨[], [(104, 0xd55f1ffff87118000041061b877ff7f7ffffb)]⟩,
    ⟨[], [(172, 0xe0000faa40007fbefe000000080000004)]⟩,
    ⟨[], [(264, 0x100000000000000000000000000)]⟩, ⟨[494], []⟩,
    ⟨[], [(268, 0x820000000000000000000000000)]⟩, ⟨[495], []⟩,
    ⟨[496], [(146, 0x8800000000000000000000000000)]⟩,
    ⟨[], [(145, 0x8800000000000000000000000000)]⟩, ⟨[9, 10, 214, 497], []⟩,
    ⟨[], [(149, 0x8800000000000000000000000000)]⟩, ⟨[], [(353, 0x820000000000000000000000000)]⟩,
    ⟨[3, 6, 7, 8, 9, 10, 11, 12, 25, 26, 498], []⟩],
  [⟨[], [(31, 0xd55f1ffff87118000041061b877ff7f7ffffb)]⟩, ⟨[40, 499], []⟩,
    ⟨[3, 4, 5, 6, 7, 8, 9, 10, 11, 12, 26, 104], [(66, 0x40000)]⟩,
    ⟨[3, 4, 5, 6, 7, 8, 9, 10, 11, 12, 26, 104, 500], []⟩, ⟨[501], []⟩,
    ⟨[3, 4, 5, 6, 7, 8, 9, 10, 11, 12, 26, 104], [(86, 0x200000000000000000000080210)]⟩,
    ⟨[21, 502], [(371, 0xd55f1ffff87118000041061b873ff7f604daa)]⟩, ⟨[503], []⟩,
    ⟨[], [(267, 0x820000000000000000000000000)]⟩,
    ⟨[10, 31, 51, 238, 239, 504], [(371, 0x820000000000000000000000000)]⟩,
    ⟨[9, 10, 214, 505], []⟩, ⟨[], [(148, 0x8800000000000000000000000000)]⟩,
    ⟨[], [(60, 0xd55f1ffff87118000041061b877ff7f7ffffb)]⟩, ⟨[506], []⟩, ⟨[507], []⟩,
    ⟨[], [(80, 0xd55f1ffff87118000041061b877ff7f7ffffb)]⟩,
    ⟨[3, 4, 5, 6, 7, 8, 9, 10, 11, 12, 26, 104, 508], []⟩,
    ⟨[], [(266, 0x820000000000000000000000000)]⟩, ⟨[313, 509], []⟩,
    ⟨[], [(144, 0x8800000000000000000000000000)]⟩,
    ⟨[21, 510], [(371, 0xd55f1ffff85118000041061b873ff7f647daa)]⟩,
    ⟨[], [(74, 0xd55f1ffff87118000041061b877ff7f7ffffb)]⟩,
    ⟨[511], [(371, 0xd55f1ffff87118000041061f877ff7f7ffffb)]⟩, ⟨[512], []⟩,
    ⟨[3, 4, 5, 6, 7, 8, 9, 10, 11, 12, 26, 104], [(64, 0x43000)]⟩,
    ⟨[513], [(50, 0xd55f1ffff87118000041061b877ff7f7ffffb)]⟩,
    ⟨[], [(52, 0xd55f1ffff87118000041061f877ff7f7ffffb)]⟩,
    ⟨[], [(140, 0xc00000000020000000000000f288004000040)]⟩,
    ⟨[21, 514], [(371, 0xd55f1ffff87118000041061b873ff7f604daa)]⟩,
    ⟨[], [(155, 0xc00000000020000000000000f288004000040)]⟩, ⟨[515], []⟩,
    ⟨[3, 4, 5, 6, 7, 8, 9, 10, 11, 12, 26, 104, 516], []⟩],
  [⟨[10, 242, 517], []⟩, ⟨[], [(154, 0xc00000000020000000000000f288004000040)]⟩, ⟨[518], []⟩,
    ⟨[519], []⟩, ⟨[520], []⟩, ⟨[21, 521], [(371, 0xd55f1ffff87118000041061b873ff7f604daa)]⟩,
    ⟨[3, 4, 5, 6, 7, 8, 9, 10, 11, 12, 26, 104, 522], []⟩,
    ⟨[], [(51, 0xd55f1ffff87118000041061f877ff7f7ffffb)]⟩]]

/-- The state in which a whole source has been read. -/
def accepting : Nat := 1

end Docblock.Automaton
