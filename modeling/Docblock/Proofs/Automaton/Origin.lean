import Docblock.Proofs.Automaton.Run
import Docblock.Proofs.Grammar.Fault

/-! The ways back from a state: what a production reduces there stands on top of the stack. -/
namespace Docblock.Automaton

open Token Grammar

/-- The group of edges that leads to each state but the first, in pages of 32 states. -/
def entrances : List (List Nat) := [
  [0, 0, 0, 1, 2, 2, 2, 2, 2, 2, 2, 2, 2, 3, 3, 3, 3, 3, 3, 3, 3, 3, 3, 3, 3, 3, 3, 3, 3, 3, 3, 3],
    [3, 4, 4, 5, 5, 5, 6, 6, 6, 6, 6, 6, 6, 6, 6, 6, 6, 6, 6, 6, 6, 6, 6, 6, 6, 6, 6, 6, 6, 6, 6,
    6], [6, 6, 6, 6, 5, 5, 5, 7, 6, 6, 6, 6, 8, 6, 6, 7, 7, 6, 6, 9, 9, 9, 9, 9, 9, 9, 9, 9, 9, 10,
    7, 11], [7, 11, 12, 12, 12, 13, 14, 14, 15, 16, 16, 17, 18, 18, 19, 19, 20, 21, 22, 23, 24, 25,
    26, 27, 28, 29, 30, 30, 31, 32, 32, 33], [33, 34, 34, 35, 35, 36, 36, 37, 38, 38, 39, 40, 40,
    40, 40, 40, 40, 40, 40, 40, 40, 40, 40, 40, 40, 40, 40, 40, 40, 40, 40, 40], [40, 40, 40, 40,
    40, 41, 42, 43, 44, 45, 46, 46, 47, 48, 49, 49, 49, 49, 49, 49, 49, 49, 49, 49, 49, 49, 49, 49,
    50, 50, 50, 51], [51, 51, 50, 50, 50, 52, 53, 54, 55, 56, 57, 58, 59, 60, 61, 62, 63, 64, 65,
    66, 67, 67, 67, 67, 67, 68, 69, 70, 71, 72, 73, 74], [75, 76, 77, 78, 79, 80, 81, 82, 83, 84,
    85, 86, 87, 88, 89, 90, 91, 92, 92, 93, 93, 94, 95, 96, 96, 97, 98, 99, 99, 100, 101, 101],
    [102, 103, 104, 105, 104, 104, 104, 104, 104, 106, 107, 108, 109, 110, 111, 111, 111, 112, 113,
    114, 115, 116, 117, 117, 118, 118, 119, 119, 120, 121, 121, 122], [123, 124, 125, 126, 127,
    128, 129, 130, 131, 132, 133, 134, 135, 136, 137, 138, 139, 140, 141, 142, 143, 144, 145, 146,
    147, 148, 148, 149, 150, 151, 152, 152], [153, 154, 155, 155, 155, 156, 156, 156, 157, 157,
    158, 159, 160, 161, 162, 163, 164, 165, 166, 167, 168, 169, 169, 169, 170, 171, 172, 173, 174,
    175, 176, 177], [177, 177, 178, 178, 178, 178, 178, 179, 179, 180, 181, 182, 182, 183, 184,
    185, 186, 187, 188, 189, 189, 189, 189, 190, 191, 192, 192, 192, 192, 192, 193, 194], [195,
    195, 196, 196, 197, 198, 199, 200, 201, 202, 203, 204, 205, 205, 206, 207, 208, 209, 210, 211,
    212, 213, 214, 214, 214, 214, 214, 214, 214, 214, 215, 216], [217, 218, 219, 220, 221, 222,
    223, 224, 225, 226, 227, 228, 229, 230, 231, 232, 232, 233, 234, 234, 235, 236, 237, 238, 238,
    239, 239, 239, 239, 240, 240, 240], [241, 242, 242, 242, 243, 244, 245, 246, 247, 248, 249,
    250, 251, 252, 253, 254, 255, 256, 256, 257, 258, 259, 260, 260, 261, 262, 263, 264, 265, 266,
    267, 268], [268, 269, 269, 270, 271, 271, 272, 272, 273, 274, 275, 276, 277, 278, 279, 280,
    281, 282, 283, 284, 285, 286, 287, 288, 288, 289, 290, 291, 292, 293, 294, 295], [296, 296,
    297, 297, 297, 298, 299, 300, 301, 302, 302, 303, 303, 303, 304, 305, 306, 307, 308, 309, 309,
    309, 310, 311, 312, 313, 314, 315, 316, 316, 317, 317], [318, 319, 320, 321, 322, 323, 324,
    325, 326, 327, 327, 328, 329, 330, 331, 331, 332, 332, 333, 334, 334, 335, 336, 336, 337, 338,
    338, 338, 338, 339, 340, 341], [342, 343, 344, 345, 346, 347, 348, 349, 350, 351, 352, 352,
    352, 352, 353, 354, 354, 355, 356, 357, 358, 359, 359, 359, 360, 361, 361, 362, 363, 363, 364,
    365], [366, 367, 368, 369, 369, 369, 370, 371, 372, 373, 374, 375, 376, 377, 378, 379, 379,
    379, 379, 379, 379, 379, 379, 379, 379, 380, 380, 380, 380, 380, 380, 381], [382, 382, 383,
    384, 385, 386, 387, 388, 388, 389, 390, 391, 392, 393, 394, 395, 396, 397, 398, 399, 399, 400,
    401, 401, 401, 401, 402, 402, 403, 404, 405, 406], [407, 408, 409, 409, 410, 411, 412, 413,
    414, 415, 416, 417, 418, 419, 420, 421, 422, 423, 424, 425, 426, 426, 427, 427, 428, 429, 430,
    431, 431, 432, 433, 434], [435, 436, 437, 438, 439, 440, 440, 440, 440, 441, 442, 443, 443,
    443, 444, 445, 446, 446, 447, 448, 449, 450, 451, 452, 453, 454, 454, 454, 455, 456, 457, 458],
    [458, 459, 460, 461, 462, 463, 464, 465, 466, 467, 468, 469, 470, 470, 470, 471, 472, 473, 474,
    475, 476, 477, 478, 478, 479, 480, 481, 482, 483, 484, 485, 486], [487, 488, 489, 490, 491,
    492, 493, 494, 494, 495, 496, 497, 498, 499, 500, 501, 502, 503, 504, 505, 506, 507, 508, 509,
    510, 511, 511, 512, 512, 512, 513, 514], [515, 516, 517, 518, 519, 520, 521, 522]]

/-- What is known of the states that a group of edges leaves. -/
inductive Origin where
  /-- All of them. -/
  | few (states : List Nat)
  /-- Some nonterminals that lead on from each of them. -/
  | many (gotos : List Nonterminal)

/-- The origins of the groups of edges, in pages of 32 groups. -/
def origins : List (List Origin) := [
  [.few [0], .many [.topStatements], .few [2, 249, 401], .many [.statement, .expr, .className],
    .many [.comment], .many [.functionDeclaration, .classDeclaration, .classType, .expr],
    .many [.expr, .className, .functionCall, .staticMember, .scalar, .classConstant,
    .namespaceName], .many [.varExpr, .baseWithCalls, .functionCall, .baseVar, .varWithoutObjects],
    .many [.scalar], .many [.commonScalar], .many [.namespaceName], .many [.baseVar, .indirectVar,
    .varClassName, .referenceVar], .many [.indirectVar, .referenceVar, .compoundVar], .few [9],
    .few [10], .few [10, 118], .few [11], .few [11, 252], .few [12], .few [12, 255], .few [13],
    .many [.innerStatements], .few [14], .few [15], .few [16], .many [.expr], .many [.className,
    .functionCall, .scalar], .few [17], .few [18], .few [19], .few [20], .many [.className]],
    [.few [21], .few [22], .few [23], .few [23, 279], .few [24], .few [24, 283], .few [25],
    .few [27], .few [27, 123, 126, 128, 137, 167, 197, 204, 205, 206, 207, 208, 209, 210, 218, 219,
    220, 221, 222, 223, 224, 225, 226, 227, 228, 265, 266, 272, 273, 274, 287, 288, 289, 290, 291,
    292, 293, 294, 295, 296, 297, 298, 299, 300, 301, 302, 303, 304, 305, 306, 307, 308, 309, 310,
    311, 312, 328, 330, 331, 332, 333, 334, 335, 336, 337, 338, 339, 340, 358, 361, 362, 364, 386,
    396, 398, 399, 426, 429, 455, 483, 486, 517, 519, 527, 559, 561, 642, 651, 653, 700, 718, 744,
    769], .few [28], .few [30], .few [31], .few [32], .few [35], .many [.isReference], .few [36],
    .few [37], .few [38], .few [39], .many [.className, .namespaceName], .few [40], .few [41],
    .few [43], .few [44], .few [45], .few [46], .few [47], .few [48], .few [49], .few [50],
    .few [51], .few [52]], [.few [53], .few [54], .few [55], .many [.className, .functionCall,
    .staticMember, .namespaceName], .few [56], .few [57], .few [58], .few [59], .few [60],
    .few [61], .few [62], .few [63], .few [64], .few [65], .few [66], .few [67], .few [69],
    .few [70], .few [71], .few [74], .few [74, 75], .few [75], .few [77, 212], .few [77, 102, 110,
    191, 212, 237, 250, 257, 345, 366, 408, 449, 458, 475, 505, 547, 585, 621], .few [78],
    .few [81], .few [82], .few [96], .few [97, 245], .few [98], .many [.indirectVar,
    .referenceVar], .few [101]], [.few [102], .few [103], .few [104], .few [105], .few [107],
    .few [108], .few [110], .few [111], .few [112, 316, 593, 594, 607, 727, 728, 751, 753, 770,
    771, 773, 784, 792, 799, 806], .few [112], .few [114], .few [115], .few [116], .few [117],
    .few [119], .many [.forExprs, .forExprs1, .expr], .few [120], .few [121], .few [123],
    .few [126], .few [128], .few [129], .few [132], .few [133], .few [135], .few [136], .few [139],
    .few [140], .few [141], .few [142], .few [143], .few [144]], [.few [145], .few [146],
    .few [147], .few [148], .few [149], .few [150], .few [151], .few [152], .few [153], .few [154],
    .few [155], .few [156], .few [157], .few [158], .few [159], .few [160], .few [161], .few [162],
    .few [163], .few [164], .few [165], .few [165, 432], .few [166], .few [167], .few [168],
    .few [169], .few [169, 268], .few [172], .few [173], .few [174], .few [175], .few [176]],
    [.few [177], .few [178], .few [179], .few [180], .few [181], .few [182], .few [183],
    .few [184], .few [185], .few [188], .few [189], .few [192], .few [193], .few [194], .few [196],
    .few [198], .few [198, 463], .many [.listTarget], .few [199], .few [200], .few [201],
    .few [202], .few [203], .few [206], .few [213], .few [214], .few [215], .few [216], .few [231],
    .many [.objectProperty, .propertyName], .many [.varWithoutObjects], .few [232]], [.few [232,
    234], .few [234], .few [235], .many [.arguments], .many [.expr, .argument], .few [236],
    .few [237, 366], .few [238], .few [238, 368], .few [239], .few [239, 369], .few [240],
    .few [241], .few [241, 566], .few [242], .few [244], .few [246], .few [248], .few [249],
    .few [250, 475], .few [252], .few [253], .many [.staticScalar, .namespaceName], .few [255],
    .few [256], .few [257], .few [264], .few [265], .few [266], .few [267], .few [269],
    .few [271]], [.few [273], .few [274], .few [279], .few [281], .few [283], .few [284],
    .few [286], .few [312], .few [313], .few [316], .few [318], .few [319], .few [320], .few [321],
    .many [.parameters], .many [.parameter], .few [322], .few [324], .many [.qualifiedName,
    .namespaceName], .few [325], .few [326], .few [326, 446], .few [329], .few [342], .few [344],
    .few [346], .few [347], .few [348], .few [349], .few [349, 557], .few [353], .few [354]],
    [.few [356], .few [356, 588], .few [357], .few [358], .few [359], .few [361], .few [362],
    .few [364], .few [367], .few [368], .few [369], .few [370], .few [370, 701], .few [371],
    .few [374], .few [379], .few [380], .few [381], .few [383, 394, 456, 492, 502, 565, 579, 580,
    581, 582], .few [383], .few [387], .few [389], .few [390, 476], .few [391], .few [392, 477],
    .few [393], .few [394], .few [395], .few [398], .few [399], .few [401], .few [403]],
    [.few [407], .few [409], .few [410], .few [411], .few [412], .few [413], .few [416],
    .few [417], .few [418], .few [419], .few [420], .few [421], .few [422], .few [423], .few [423,
    599], .few [424], .few [426], .few [430], .few [431], .few [432], .few [433], .few [434],
    .few [435], .few [436], .few [437], .few [438, 536, 786], .few [438], .few [441], .few [442],
    .few [443], .few [444], .few [445]], [.few [446], .few [450], .few [451], .few [452],
    .few [452, 545], .few [453, 546], .few [456], .few [459], .few [461], .few [462], .few [463],
    .few [466], .few [469], .few [471], .few [478], .few [479], .few [481], .few [483], .few [484],
    .few [485], .few [486], .few [487], .few [488], .few [489], .few [492], .few [493], .few [494],
    .few [495], .few [496], .few [502], .few [504], .few [506]], [.few [509], .few [511],
    .few [512], .few [513], .few [516], .few [517], .few [518], .few [520], .few [522], .few [524],
    .many [.cases], .few [525], .few [530], .few [533], .few [534], .few [536], .few [537],
    .few [538], .few [539], .few [540], .few [541], .few [542], .few [543], .few [544], .few [545],
    .few [548], .few [549], .few [549, 620], .many [.modifier], .few [551], .few [553],
    .few [555]], [.few [557], .few [558], .few [559], .few [560], .few [563], .few [565],
    .few [566], .few [567], .few [569], .few [575], .few [579], .few [580], .few [581], .few [582],
    .few [586], .few [588], .few [589], .few [591], .few [593], .few [594], .few [595], .few [596],
    .few [597], .few [599], .few [601], .few [601, 604, 676, 678], .few [602], .few [604],
    .few [605], .few [606], .few [607], .few [608]], [.few [609], .few [611], .few [612],
    .few [615], .few [616], .few [617], .few [618], .few [619], .few [620], .few [624], .few [626],
    .few [627], .few [628], .few [631], .few [641], .few [645], .few [648], .few [650], .few [651],
    .few [653], .few [660], .few [661], .few [663], .few [665], .few [666], .few [668], .few [670],
    .few [671], .few [674], .few [675], .few [675, 718], .few [676]], [.few [677], .few [678],
    .few [679], .few [680], .few [682], .few [683], .few [684], .few [686], .few [688], .few [691],
    .few [692], .few [693], .few [695], .few [697], .few [699], .few [701], .few [704], .few [705],
    .few [707], .few [709], .few [710], .few [712], .few [714], .few [717], .few [718], .few [719],
    .few [724], .few [725], .few [727], .few [728], .few [729], .few [730]], [.few [734],
    .few [736], .few [737], .few [738], .few [739], .few [743], .few [744], .few [745], .few [746],
    .few [747], .few [750], .few [751], .few [752], .few [755], .few [759], .few [761], .few [762],
    .few [764], .few [767], .few [769], .few [771], .few [772], .few [774], .few [775], .few [777],
    .few [778], .few [781], .few [782], .few [784], .few [786], .few [788], .few [790]],
    [.few [791], .few [793], .few [796], .few [798], .few [799], .few [800], .few [802],
    .few [803], .few [804], .few [805], .few [806]]]

/-- Whether a check holds of every entry of a list of pages, with its number. -/
def pagedAll {α : Type} (check : Nat → α → Bool) (pages : List (List α)) : Bool :=
  pages.zipIdx.all fun page => page.1.zipIdx.all fun entry => check (32 * page.2 + entry.2) entry.1

theorem pagedAll_get {α : Type} {check : Nat → α → Bool} {pages : List (List α)} {i : Nat} {a : α}
    (h : pagedAll check pages = true) (hi : paged? pages i = some a) : check i a = true := by
  obtain ⟨page, hp, ha⟩ := Option.bind_eq_some_iff.mp hi
  have hpage := List.all_eq_true.mp h (page, i / 32) (List.mem_zipIdx_iff_getElem?.mpr hp)
  have hentry := List.all_eq_true.mp hpage (a, i % 32) (List.mem_zipIdx_iff_getElem?.mpr ha)
  rwa [Nat.div_add_mod] at hentry

/-- The start of a list, cut into a number of pages. -/
def pagesOf {α : Type} (as : List α) : Nat → List (List α)
  | 0 => []
  | n + 1 => as.take 32 :: pagesOf (as.drop 32) n

theorem getElem?_of_pagesOf {α : Type} {as : List α} {n i : Nat} {a : α}
    (h : paged? (pagesOf as n) i = some a) : as[i]? = some a := by
  induction n generalizing as i with
  | zero => cases h
  | succ n ih =>
    by_cases hi : i < 32
    · rw [paged?, Nat.div_eq_of_lt hi, Nat.mod_eq_of_lt hi] at h
      simpa [pagesOf, List.getElem?_take, hi] using h
    · have hdiv : i / 32 = (i - 32) / 32 + 1 := by omega
      have hmod : i % 32 = (i - 32) % 32 := by omega
      have hrest : paged? (pagesOf (as.drop 32) n) (i - 32) = some a := by
        rw [paged?, hdiv, hmod] at h
        exact h
      have hat := ih hrest
      rwa [List.getElem?_drop, Nat.add_sub_cancel' (Nat.le_of_not_lt hi)] at hat

def groupAt (g : Nat) : List (Symbol × Nat) := (paged? edgeGroups g).getD []

/-- The symbol that is read on the way into a state. -/
def symbolInto (q : Nat) : Option Symbol :=
  (paged? entrances q).bind fun g => ((groupAt g).find? fun e => e.2 == q).map (·.1)

/-- The origin of the edges that lead to a state. -/
def originOf (q : Nat) : Option Origin := (paged? entrances q).bind (paged? origins)

/-- The nonterminals among some edges, as the bits of a number. -/
def gotoBits (es : List (Symbol × Nat)) : Nat :=
  es.foldr (fun e bits => match e.1 with
    | .n v => bits ||| 1 <<< v.ctorIdx
    | .t _ => bits) 0

/-- The nonterminals that lead on from a state, as the bits of a number. -/
def Row.gotos (r : Row) : Nat := r.edges.foldr (fun g bits => bits ||| gotoBits (groupAt g)) 0

def leadsOn (q : Nat) (v : Nonterminal) : Bool :=
  (paged? rows q).any fun r => r.gotos.testBit v.ctorIdx

/-- Whether the symbols, the last one first, lead back from a state and only to states from which
the nonterminal leads on. -/
def back (v : Nonterminal) : List Symbol → Nat → Bool
  | [], q => leadsOn q v
  | s :: ss, q =>
    symbolInto q == some s &&
      match originOf q with
      | some (.few qs) => qs.all (back v ss)
      | some (.many vs) => ss.isEmpty && vs.contains v
      | none => false

/-- Every edge leads into its state from the group, and by the symbol, that are noted for it. -/
theorem entrances_fit : pagedAll (fun g es => es.all fun e =>
    paged? entrances e.2 == some g && symbolInto e.2 == some e.1) edgeGroups = true := by
  decide +kernel

/-- Every state is among the origins of its edges, or has what all those origins lead on by. -/
theorem origins_fit : pagedAll (fun q r => r.edges.all fun g => match paged? origins g with
    | some (.few qs) => qs.contains q
    | some (.many vs) => vs.all fun v => r.gotos.testBit v.ctorIdx
    | none => false) rows = true := by
  decide +kernel

/-- The right side of every production that a state reduces leads back from it. -/
theorem reductions_fit : pagedAll (fun q r => r.reductions.all fun e =>
    (paged? (pagesOf productions 12) e.1).any fun p => back p.lhs p.rhs.reverse q) rows = true := by
  decide +kernel

variable {Reader : Type} {file : Option String} {stack : List Frame} {read : List Token}
  {n q x : Nat} {s : Symbol} {v : Nonterminal}

/-- The groups that an edge can come from. -/
theorem target?_eq_some (h : target? q s = some x) :
    ∃ r g es, paged? rows q = some r ∧ g ∈ r.edges ∧ paged? edgeGroups g = some es ∧
      (s, x) ∈ es := by
  obtain ⟨r, hr, hf⟩ := Option.bind_eq_some_iff.mp h
  obtain ⟨g, hg, hl⟩ := List.exists_of_findSome?_eq_some hf
  obtain ⟨es, hes, hx⟩ := Option.bind_eq_some_iff.mp hl
  obtain ⟨l₁, l₂, he, -⟩ := List.lookup_eq_some_iff.mp hx
  exact ⟨r, g, es, hr, hg, hes, he ▸ List.mem_append_right l₁ List.mem_cons_self⟩

theorem testBit_gotoBits {es : List (Symbol × Nat)}
    (h : (gotoBits es).testBit v.ctorIdx = true) : ∃ x, (Symbol.n v, x) ∈ es := by
  induction es with
  | nil => simp [gotoBits] at h
  | cons e es ih =>
    obtain ⟨s, x⟩ := e
    cases s with
    | t k =>
      obtain ⟨y, hy⟩ := ih h
      exact ⟨y, List.mem_cons_of_mem _ hy⟩
    | n w =>
      simp only [gotoBits, List.foldr_cons, Nat.testBit_or, Bool.or_eq_true] at h
      obtain h | h := h
      · obtain ⟨y, hy⟩ := ih h
        exact ⟨y, List.mem_cons_of_mem _ hy⟩
      · rw [Nat.one_shiftLeft, Nat.testBit_two_pow] at h
        have hidx := of_decide_eq_true h
        have hw : w = v := by rw [← w.ofNat_ctorIdx, hidx, v.ofNat_ctorIdx]
        exact ⟨x, by simp [hw]⟩

theorem testBit_gotos {r : Row} (h : r.gotos.testBit v.ctorIdx = true) :
    ∃ g ∈ r.edges, (gotoBits (groupAt g)).testBit v.ctorIdx = true := by
  unfold Row.gotos at h
  generalize r.edges = gs at h ⊢
  induction gs with
  | nil => simp at h
  | cons g gs ih =>
    simp only [List.foldr_cons, Nat.testBit_or, Bool.or_eq_true] at h
    obtain h | h := h
    · obtain ⟨g', hg, hb⟩ := ih h
      exact ⟨g', List.mem_cons_of_mem g hg, hb⟩
    · exact ⟨g, List.mem_cons_self, h⟩

/-- A nonterminal that is said to lead on has an edge. -/
theorem target?_of_leadsOn (h : leadsOn q v = true) : (target? q (.n v)).isSome = true := by
  simp only [leadsOn, Option.any_eq_true] at h
  obtain ⟨r, hr, hv⟩ := h
  obtain ⟨g, hg, hb⟩ := testBit_gotos hv
  obtain ⟨x, hx⟩ := testBit_gotoBits hb
  simp only [target?, hr, Option.bind_some, List.findSome?_isSome_iff]
  refine ⟨g, hg, ?_⟩
  cases hes : paged? edgeGroups g with
  | none => simp [groupAt, hes] at hx
  | some es =>
    simp only [groupAt, hes, Option.getD_some] at hx
    simp only [Option.bind_some, List.lookup_isSome_iff]
    exact ⟨_, hx, by simp⟩

/-- What an edge says about the state it leads to and the state it leaves. -/
theorem origin_of_target? (h : target? q s = some x) :
    symbolInto x = some s ∧ match originOf x with
      | some (.few qs) => q ∈ qs
      | some (.many vs) => ∀ v ∈ vs, leadsOn q v = true
      | none => False := by
  obtain ⟨r, g, es, hr, hg, hes, hx⟩ := target?_eq_some h
  have hinto := List.all_eq_true.mp (pagedAll_get entrances_fit hes) _ hx
  simp only [Bool.and_eq_true, beq_iff_eq] at hinto
  refine ⟨hinto.2, ?_⟩
  have hfrom := List.all_eq_true.mp (pagedAll_get origins_fit hr) _ hg
  simp only [originOf, hinto.1, Option.bind_some]
  split at hfrom
  · rename_i ho
    simpa [ho] using hfrom
  · rename_i ho
    simpa [ho, leadsOn, hr] using hfrom
  · cases hfrom

/-- No edge leads to the first state. -/
theorem symbolInto_first : symbolInto 0 = none := rfl

theorem take_concat {ss : List Symbol} {vs : Values ss} {below : List Frame} (f : Frame)
    (h : take ss stack = some (vs, below)) :
    ∃ ws, take (ss ++ [f.symbol]) (f :: stack) = some (ws, below) := by
  induction ss generalizing below with
  | nil =>
    cases h
    exact ⟨(f.value, ()), by simp [take]⟩
  | cons s ss ih =>
    simp only [take] at h
    split at h
    · cases h
    · cases h
    · rename_i vs' g below' ht
      obtain ⟨ws, hw⟩ := ih ht
      split at h
      · rename_i hs
        cases h
        exact ⟨(hs ▸ g.value, ws), by simp [take, hw, hs]⟩
      · cases h

/-- Frames are taken off by their symbols. -/
theorem take_symbols {ss : List Symbol} (fs below : List Frame)
    (h : fs.map (·.symbol) = ss.reverse) : ∃ vs, take ss (fs ++ below) = some (vs, below) := by
  obtain rfl : ss = (fs.map (·.symbol)).reverse := by rw [h, List.reverse_reverse]
  clear h
  induction fs with
  | nil => exact ⟨(), rfl⟩
  | cons f fs ih =>
    obtain ⟨vs, hv⟩ := ih
    rw [List.map_cons, List.reverse_cons]
    exact take_concat f hv

/-- The symbols that lead back from the state of a built stack are those of its top frames. -/
theorem back_built {ss : List Symbol} (hb : Built file 0 stack read n)
    (h : back v ss (stateOf stack) = true) :
    ∃ fs below, stack = fs ++ below ∧ fs.map (·.symbol) = ss ∧
      (target? (stateOf below) (.n v)).isSome = true := by
  induction ss generalizing stack read n with
  | nil => exact ⟨[], stack, rfl, rfl, target?_of_leadsOn h⟩
  | cons s ss ih =>
    simp only [back, Bool.and_eq_true, beq_iff_eq] at h
    cases hb with
    | nil => simp [stateOf, symbolInto_first] at h
    | @push below ts m f tree hb he hv =>
      obtain ⟨hinto, horigin⟩ := origin_of_target? he
      simp only [stateOf] at h
      have hs : f.symbol = s := Option.some.inj (hinto.symm.trans h.1)
      obtain ⟨-, h⟩ := h
      split at h
      · rename_i qs ho
        simp only [ho] at horigin
        obtain ⟨fs, rest, rfl, hfs, hgoto⟩ := ih hb (List.all_eq_true.mp h _ horigin)
        exact ⟨f :: fs, rest, rfl, by simp [hs, hfs], hgoto⟩
      · rename_i vs ho
        simp only [ho] at horigin
        simp only [Bool.and_eq_true, List.isEmpty_iff, List.contains_iff_mem] at h
        obtain ⟨rfl, hmem⟩ := h
        exact ⟨[f], below, rfl, by simp [hs], target?_of_leadsOn (horigin v hmem)⟩
      · cases h

theorem reduction?_of_action {s : Stream Reader} {p : Nat} (h : actionBefore q s = .reduce p) :
    ∃ ahead, reduction? q ahead = some p := by
  cases s with
  | failed => cases h
  | finished =>
    simp only [actionBefore, actionAtEnd] at h
    split at h
    · cases h
    · split at h
      · rename_i hr
        cases h
        exact ⟨_, hr⟩
      · cases h
  | cons t r rest =>
    simp only [actionBefore, actionAt, settle] at h
    split at h
    · rename_i hr
      split at h
      · cases h
      · split at h
        · cases h
        · cases h
          exact ⟨_, hr⟩
        · cases h
    · cases h
    · rename_i hr
      cases h
      exact ⟨_, hr⟩
    · cases h

/-- Every production that a state reduces leads back from it. -/
theorem back_of_reduction? {p : Nat} {ahead : Option Kind} (h : reduction? q ahead = some p) :
    ∃ pr, productions[p]? = some pr ∧ back pr.lhs pr.rhs.reverse q = true := by
  obtain ⟨r, hr, hp⟩ := Option.bind_eq_some_iff.mp h
  obtain ⟨e, he, rfl⟩ := Option.map_eq_some_iff.mp hp
  have hfit := List.all_eq_true.mp (pagedAll_get reductions_fit hr) e (List.mem_of_find?_eq_some he)
  obtain ⟨pr, hpr, hback⟩ := Option.any_eq_true _ _ |>.mp hfit
  exact ⟨pr, getElem?_of_pagesOf hpr, hback⟩

/-- A reduction in the state of a built stack fails only where its action does, for the sake of a
token that has been read. -/
theorem reduce_built_error {s : Stream Reader} {p : Nat} {e : ParseError}
    (hb : Built file 0 stack read n) (h : actionBefore (stateOf stack) s = .reduce p)
    (hr : reduce file p stack = .error e) :
    ∃ f, e = .fault f ∧ ∃ t ∈ read, faultAs t t.kind = some f := by
  obtain ⟨ahead, ha⟩ := reduction?_of_action h
  obtain ⟨pr, hpr, hback⟩ := back_of_reduction? ha
  obtain ⟨fs, below, rfl, hfs, hgoto⟩ := back_built hb hback
  obtain ⟨vs, hvs⟩ := take_symbols fs below hfs
  obtain ⟨q, hq⟩ := Option.isSome_iff_exists.mp hgoto
  simp only [reduce, hpr, hvs, hq] at hr
  split at hr
  · rename_i f ha
    cases hr
    obtain ⟨forest, read', n', hv, -, rfl, -⟩ := take_built hb hvs
    obtain ⟨t, ht, hf⟩ := forest.exists_fault (List.mem_of_getElem? hpr) hv ha
    exact ⟨f, rfl, t, List.mem_append_right _ ht, hf⟩
  · cases hr

/-- Below the first state there is nothing. -/
theorem built_first (hb : Built file 0 stack read n) (h : stateOf stack = 0) : stack = [] := by
  cases hb with
  | nil => rfl
  | push f tree hb he hv =>
    have hinto := (origin_of_target? he).1
    simp only [stateOf] at h
    rw [h, symbolInto_first] at hinto
    cases hinto

/-- Below a state that only the first state leads to there is nothing. -/
theorem built_alone (hb : Built file 0 stack read n) (hs : symbolInto (stateOf stack) = some s)
    (ho : originOf (stateOf stack) = some (.few [0])) :
    ∃ v, stack = [⟨stateOf stack, s, v⟩] := by
  cases hb with
  | nil => cases hs
  | push f tree hb he hv =>
    simp only [stateOf] at hs ho ⊢
    obtain ⟨hinto, hfrom⟩ := origin_of_target? he
    simp only [ho, List.mem_singleton] at hfrom
    obtain ⟨state, symbol, value⟩ := f
    cases hs.symm.trans hinto
    rw [built_first hb hfrom]
    exact ⟨value, rfl⟩

theorem accepting_of_action (h : actionAtEnd q = .accept) : q = accepting := by
  simp only [actionAtEnd] at h
  split at h
  · assumption
  · split at h <;> cases h

theorem symbolInto_accepting : symbolInto accepting = some (.n .start) := rfl

theorem originOf_accepting : originOf accepting = some (.few [0]) := by
  have hgroup : paged? entrances accepting = some 0 := rfl
  rw [originOf, hgroup]
  rfl

/-- In the accepting state only the value of a whole source is on the stack. -/
theorem result_built_ok (hb : Built file 0 stack read n)
    (h : actionAtEnd (stateOf stack) = .accept) : ∃ ts, result stack = .ok ts := by
  have hstate := accepting_of_action h
  obtain ⟨ts, hstack⟩ := built_alone hb (hstate ▸ symbolInto_accepting)
    (hstate ▸ originOf_accepting)
  exact ⟨ts, by rw [hstack, result]⟩

end Docblock.Automaton
