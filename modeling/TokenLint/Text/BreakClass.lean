import TokenLint.Text.Runs

/-!
# Line break classes of characters

Each character has one class of the Unicode line breaking algorithm, after the classes that it
leaves to others are resolved. The table gives the classes of all code points as runs from zero
upward, each a letter for the class and, when it is not one, the run's length.
-/
namespace TokenLint.Text

inductive BreakClass where
  | alphabetic
  | breakAfter
  | breakBefore
  | breakBoth
  | slash
  | carriageReturn
  | closeParenthesis
  | closePunctuation
  | combiningMark
  | contingentBreak
  | emojiBase
  | emojiModifier
  | exclamation
  | glue
  | hangulSyllable
  | hebrewLetter
  | hyphen
  | ideograph
  | inseparable
  | infixNumeric
  | hangulLead
  | hangulTail
  | hangulVowel
  | lineFeed
  | mandatoryBreak
  | nextLine
  | nonstarter
  | numeric
  | openPunctuation
  | postfixNumeric
  | prefixNumeric
  | quotation
  | regionalIndicator
  | space
  | wordJoiner
  | zeroWidthSpace
  | zeroWidthJoiner
  deriving DecidableEq, Repr

namespace BreakClass

/-- Every class, in the order of the letters in the table. -/
def all : List BreakClass :=
  [.alphabetic, .breakAfter, .breakBefore, .breakBoth,
   .slash, .carriageReturn, .closeParenthesis, .closePunctuation,
   .combiningMark, .contingentBreak, .emojiBase, .emojiModifier,
   .exclamation, .glue, .hangulSyllable, .hebrewLetter,
   .hyphen, .ideograph, .inseparable, .infixNumeric,
   .hangulLead, .hangulTail, .hangulVowel, .lineFeed,
   .mandatoryBreak, .nextLine, .nonstarter, .numeric,
   .openPunctuation, .postfixNumeric, .prefixNumeric, .quotation,
   .regionalIndicator, .space, .wordJoiner, .zeroWidthSpace,
   .zeroWidthJoiner]

def table : String :=
  (String.join
   ["I9 B X Y2 F I18 h M f A e d A f c G A e T Q T E b10 T2 A3 M A27 c e G A29 c B H A I6 Z ",
    "I26 N c d e3 A5 f A B A2 d e A2 C A6 f A3 c A520 C A3 C A18 C A32 I79 N I12 N7 I13 A14 T ",
    "A260 I7 A255 T B A4 e A I45 B I A I2 A I2 M I A8 P27 A4 P4 A22 d3 T2 A2 I11 M I M3 A43 ",
    "I21 b10 d b2 A3 I A99 M A I7 A2 I6 A2 I2 A I4 A2 b10 A23 I A30 I27 A91 I11 A15 b10 A33 I9 ",
    "A4 T M A3 I e2 A22 I4 A I9 A I3 A I5 A43 I3 A60 I8 A42 I24 A I33 A54 I3 A I18 A I7 A10 I2 ",
    "B2 b10 A17 I3 A56 I A I7 A2 I2 A2 I3 A9 I A10 I2 A2 b10 A2 d2 A5 d A e A2 I A2 I3 A56 I A ",
    "I5 A4 I2 A2 I3 A3 I A20 b10 I2 A3 I A11 I3 A56 I A I8 A I3 A I3 A20 I2 A2 b10 A e A8 I6 A ",
    "I3 A56 I A I7 A2 I2 A2 I3 A7 I3 A10 I2 A2 b10 A18 I A59 I5 A3 I3 A I4 A9 I A14 b10 A9 e ",
    "A6 I5 A55 I A I7 A I3 A I4 A7 I2 A11 I2 A2 b10 A7 C A9 I3 C A55 I A I7 A I3 A I4 A7 I2 ",
    "A11 I2 A2 b10 A3 I A12 I4 A55 I2 A I7 A I3 A I4 A9 I A10 I2 A2 b10 A9 d A7 I3 A70 I A4 I6 ",
    "A I A I8 A6 b10 A2 I2 A61 I A2 I7 A4 e A7 I8 A b10 B2 A85 I A2 I9 A11 I7 A b10 A39 C4 A ",
    "C2 N C2 B N M5 N A M A3 I2 A6 b10 A10 B I A I A I c H c H I2 A49 I14 B I5 B I2 A5 I11 A ",
    "I36 A B2 A6 I A9 C2 B C A5 N2 A80 I20 A b10 B2 A10 I4 A4 I3 A I3 A2 I7 A3 I4 A13 I12 A I ",
    "b10 I4 A98 U96 W72 V88 A349 I3 A B A158 B A639 B A26 c H A78 B3 A36 I4 A28 I3 B2 A27 I2 ",
    "A30 I2 A64 I32 B2 a A B A B e A I A2 b10 A24 M2 B2 C A M2 A I3 N I b10 A107 I2 A34 I A118 ",
    "I12 A4 I12 A8 M2 b10 A128 b10 A61 I5 A57 I10 A I29 A2 I b10 A6 b10 A22 I31 A49 I5 A47 I17 ",
    "A11 b10 B2 A B4 A10 I9 A9 B2 A I3 A30 I13 A2 b10 A44 I14 A48 I20 A3 B5 b10 A6 b10 A36 B2 ",
    "A80 I3 A I21 A4 I A6 I A2 I3 A198 I13 N I46 N I3 A509 C A2 B7 N B3 j I k I2 B N B2 D A3 ",
    "f2 c f3 c f A4 S3 B Y2 I5 N d8 A f2 A a2 A6 T c H a3 A12 B d B4 A B3 i A5 I10 A13 c H A14 ",
    "c H A17 e7 d e14 d e4 d e2 d e d e15 I33 A18 d A5 d A12 e A251 e2 A219 S A24 c H c H A14 ",
    "R2 A13 c H A197 R4 A524 R4 A16 R2 A2 R A R3 K R2 A25 R3 A44 R A22 R A61 R12 A4 R A R3 A ",
    "R2 A3 R2 A2 R A2 R3 A8 R A6 R5 A R2 K R A2 R8 A3 R2 K4 A77 f6 A M2 R A3 c H c H c H c H c ",
    "H c H c H A79 c H A31 c H c H c H c H c H A403 c H c H c H c H c H c H c H c H c H c H c ",
    "H A63 c H c H A32 c H A753 I3 A7 M B3 A M B A112 B A14 I A96 I32 f14 B8 A B c B A2 f2 A2 ",
    "f2 c H c H c H c H B4 M A B2 A B2 A5 D2 B3 A B2 c B8 A B A B2 A3 M2 c H c H c H c H B A34 ",
    "R26 A R89 A12 R214 A26 R12 A4 B H2 R2 a R2 c H c H c H c H c H R2 c H c H c H c H a c H2 ",
    "R10 I6 R5 I R5 a2 R3 A a R a R a R a R a R25 a R31 a R a R a R6 a R6 a2 A2 I2 a4 R a2 R a ",
    "R a R a R a R25 a R31 a R a R a R6 a R6 a2 R4 a4 R A5 R43 A R94 A R84 A12 a16 R31 A R40 ",
    "A8 R7024 A64 R21013 a R1143 A3 R55 A55 B2 A269 B M B A16 b10 A69 I4 A I10 A32 I2 A80 I2 A ",
    "B5 A266 I A3 I A4 I A23 I5 A4 I A11 d A59 C2 M2 A8 I2 A50 I18 A8 B2 b10 A6 I18 A10 C A2 I ",
    "b10 A28 I8 B2 A23 I13 A12 U29 A3 I4 A47 I14 A6 B3 A6 b10 A11 I A10 b10 A47 I14 A12 I A8 ",
    "I2 A2 b10 A3 B3 A27 I3 A50 I A I3 A2 I2 A5 I2 A I A41 I5 B2 A3 I2 A236 I8 B I2 A2 b10 A6 ",
    "O11172 A12 W23 A4 V49 A8452 R512 A29 P I P10 A P13 A P5 A P A P2 A P2 A P10 A494 H c A188 ",
    "d A3 I16 T H2 T2 M2 c H S A6 I16 R5 c H c H c H c H c H c H c H c H R2 c H R7 H R H A a2 ",
    "M2 R c H c H c H R8 A R e d R A147 i A M R2 e d R2 c H R2 H R H R11 a2 R3 M R27 c R H R29 ",
    "c R H R c H2 c H2 a R a10 R45 a2 R31 A3 R6 A2 R6 A2 R6 A2 R3 A3 d e R3 e2 A18 I3 J A259 ",
    "B3 A250 I A226 I A149 I5 A36 B A48 B A207 b10 A941 B A199 B A225 I3 A I2 A5 I4 A40 I3 A4 ",
    "I A16 B8 A141 I2 A9 B6 S A66 B7 A484 I4 A8 b10 A369 I2 B A79 I3 A70 I11 A49 I4 A122 I3 ",
    "A53 I15 B2 A29 b10 I A2 I2 A10 I4 A45 I11 A3 B4 I A45 b10 A6 I3 A36 I14 A b10 B4 A I2 A44 ",
    "I A C A10 I3 A48 I14 A4 B2 A B I4 A I2 b10 A C A B3 A76 I12 B2 A B2 A I A2 I A103 B A53 ",
    "I12 A5 b10 A6 I4 A55 I2 A I7 A2 I2 A2 I3 A9 I A10 I2 A2 I7 A3 I5 A192 I18 A4 B4 A b10 B2 ",
    "A2 I A81 I20 A12 b10 A213 I7 A2 I9 C B2 M2 A3 B15 A4 I2 A82 I17 B2 A13 b10 A6 C13 A62 I13 ",
    "A8 b10 A83 I15 A4 b10 A2 B3 A237 I15 A165 b10 A70 I6 A I2 A2 I4 A I A I2 B3 A9 b10 A119 ",
    "I7 A2 I7 A C A I A28 I10 A40 I7 A I4 C A B4 C A I A9 I11 A46 I16 B3 A C3 B2 A93 C10 A293 ",
    "I8 A I8 A B5 A10 b10 A22 C M A32 I22 A I14 A122 I6 A3 I A I2 A I7 A I A8 b10 A48 I5 A I2 ",
    "A I5 A8 b10 A329 I4 A9 I2 A I A48 I7 A3 I5 B2 R11 b10 A131 d4 A30 B A1136 B5 A3555 c3 H3 ",
    "A36 H A3 c H c H A239 c H2 A180 N7 c H N3 c H c H I A6 I15 A4472 c H A9360 b10 A4 B2 A80 ",
    "b10 A38 I5 B A58 I7 B3 A10 B A11 b10 A829 B2 A182 I A I55 A7 I4 A77 a4 N A11 I2 A14 R6136 ",
    "A8 R768 A512 R9 A8951 R291 A15 a A29 a3 A2 a A14 a4 A8 R396 A2465 I2 B I4 A4700 I46 A2 ",
    "I23 A542 I5 A3 I22 A2 I7 A30 I4 A148 I3 A1417 b50 A512 I55 A4 I50 A8 I A14 I A2 B4 A16 I5 ",
    "A I15 A1360 I7 A I17 A2 I7 A I2 A I5 A100 I A160 I7 A9 b10 A356 I A61 I4 b10 A5 e A492 I4 ",
    "b10 A982 I7 A109 I7 A5 b10 A4 c2 A844 d A3 d A847 R256 A13 R3 A93 R3 A61 R57 g26 R389 K ",
    "R22 A2 R23 A2 R5 A R5 K3 R2 K R2 K3 R46 L5 R66 K2 R2 K11 R21 K19 R3 K R4 K3 R K3 R7 K R K ",
    "R14 A R A R A R5 K R4 A R A2 R77 A7 R16 A14 R13 A24 R42 K2 R4 K R21 K R4 K2 R61 A8 R24 A6 ",
    "R75 K3 R3 K5 A38 f3 a3 A4 R35 K R16 K3 R9 K R11 K R51 A116 R12 A85 R43 A12 R4 A56 R8 A10 ",
    "R6 A40 R8 A30 R82 A12 K R2 K R8 K8 R6 K R9 K10 R2 K3 R56 K R61 K2 R K2 R K R17 K3 R K13 ",
    "R34 A84 R111 K3 R42 K9 R7 A240 b10 A6 R1022 A2 R65534 A2 R65534 A655363 I A30 I96 A128 ",
    "I240 A196112"])

/-- The classes of all code points from zero, with the lengths of the runs. -/
def runs : List (BreakClass × Nat) :=
  (Runs.lettered table).map fun (letter, n) =>
    (all[if letter.isUpper then letter.toNat - 65 else letter.toNat - 71]?.getD .alphabetic, n)

def ofChar (c : Char) : BreakClass := (Runs.lookup runs c.toNat).getD .alphabetic

end BreakClass
end TokenLint.Text
