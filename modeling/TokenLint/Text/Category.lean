import TokenLint.Text.Runs

/-!
# General categories of characters

Each character has one general category of the Unicode character database. The table gives the
categories of all code points as runs from zero upward, each a letter for the category and, when
it is not one, the run's length.
-/
namespace TokenLint.Text

inductive Category where
  | uppercaseLetter
  | lowercaseLetter
  | titlecaseLetter
  | modifierLetter
  | otherLetter
  | nonspacingMark
  | spacingMark
  | enclosingMark
  | decimalNumber
  | letterNumber
  | otherNumber
  | connectorPunctuation
  | dashPunctuation
  | openPunctuation
  | closePunctuation
  | initialPunctuation
  | finalPunctuation
  | otherPunctuation
  | mathSymbol
  | currencySymbol
  | modifierSymbol
  | otherSymbol
  | spaceSeparator
  | lineSeparator
  | paragraphSeparator
  | control
  | format
  | surrogate
  | privateUse
  | unassigned
  deriving DecidableEq, Repr

namespace Category

/-- Every category, in the order of the letters in the table. -/
def all : List Category :=
  [.uppercaseLetter, .lowercaseLetter, .titlecaseLetter, .modifierLetter,
   .otherLetter, .nonspacingMark, .spacingMark, .enclosingMark,
   .decimalNumber, .letterNumber, .otherNumber, .connectorPunctuation,
   .dashPunctuation, .openPunctuation, .closePunctuation, .initialPunctuation,
   .finalPunctuation, .otherPunctuation, .mathSymbol, .currencySymbol,
   .modifierSymbol, .otherSymbol, .spaceSeparator, .lineSeparator,
   .paragraphSeparator, .control, .format, .surrogate,
   .privateUse, .unassigned]

def table : String :=
  (String.join
   ["Z32 W R3 T R3 N O R S R M R2 I10 R2 S3 R2 A26 N R O U L U B26 N S O S Z33 W R T4 V R U V ",
    "E P S a V U V S K2 U B R2 U K E Q K3 R A23 S A7 B24 S B8 A B A B A B A B A B A B A B A B ",
    "A B A B A B A B A B A B A B A B A B A B A B A B A B A B A B A B A B A B A B A B2 A B A B ",
    "A B A B A B A B A B A B2 A B A B A B A B A B A B A B A B A B A B A B A B A B A B A B A B ",
    "A B A B A B A B A B A B A B A2 B A B A B3 A2 B A B A2 B A3 B2 A4 B A2 B A3 B3 A2 B A2 B A ",
    "B A B A2 B A B2 A B A2 B A3 B A B A2 B2 E A B3 E4 A C B A C B A C B A B A B A B A B A B A ",
    "B A B A B2 A B A B A B A B A B A B A B A B A B2 A C B A B A3 B A B A B A B A B A B A B A ",
    "B A B A B A B A B A B A B A B A B A B A B A B A B A B A B A B A B A B A B A B A B A B A ",
    "B7 A2 B A2 B2 A B A4 B A B A B A B A B69 E2 B26 D18 U4 D12 U14 D5 U7 D U D U17 F112 A B A ",
    "B D U A B d2 D B3 R A d4 U2 A R A3 d A d A2 B A17 d A9 B35 A B2 A3 B3 A B A B A B A B A B ",
    "A B A B A B A B A B A B A B5 A B S A B A2 B2 A51 B48 A B A B A B A B A B A B A B A B A B ",
    "A B A B A B A B A B A B A B A B V F5 H2 A B A B A B A B A B A B A B A B A B A B A B A B A ",
    "B A B A B A B A B A B A B A B A B A B A B A B A B A B A B A2 B A B A B A B A B A B A B2 A ",
    "B A B A B A B A B A B A B A B A B A B A B A B A B A B A B A B A B A B A B A B A B A B A B ",
    "A B A B A B A B A B A B A B A B A B A B A B A B A B A B A B A B A B A B A B A B A B A B A ",
    "B A B A B d A38 d2 D R6 B41 R M d2 V2 T d F45 M F R F2 R F2 R F d8 E27 d4 E4 R2 d11 a6 S3 ",
    "R2 T R2 V2 F11 R a R3 E32 D E10 F21 I10 R4 E2 F E99 R E F7 a V F6 D2 F2 V F4 E2 I10 E3 V2 ",
    "E R14 d a E F E30 F27 d2 E89 F11 E d14 I10 E33 F9 D2 V R3 D d2 F T2 E22 F4 D F9 D F3 D F5 ",
    "d2 R15 d E25 F3 d2 R d E11 d5 E24 U E7 a2 d5 F9 E41 D F24 a F32 G E54 F G F E G3 F8 G4 F ",
    "G2 E F7 E10 F2 R2 I10 R D E15 F G2 d E8 d2 E2 d2 E22 d E7 d E d3 E4 d2 F E G3 F4 d2 G2 d2 ",
    "G2 F E d8 G d4 E2 d E3 F2 d2 I10 E2 T2 K6 V T E R F d2 F2 G d E6 d4 E2 d2 E22 d E7 d E2 d ",
    "E2 d E2 d2 F d G3 F2 d4 F2 d2 F3 d3 F d7 E4 d E d7 I10 F2 E3 F R d10 F2 G d E9 d E3 d E22 ",
    "d E7 d E2 d E5 d2 F E G3 F5 d F2 G d G2 F d2 E d15 E2 F2 d2 I10 R T d7 E F6 d F G2 d E8 ",
    "d2 E2 d2 E22 d E7 d E2 d E5 d2 F E G F G F4 d2 G2 d2 G2 F d7 F2 G d4 E2 d E3 F2 d2 I10 V ",
    "E K6 d10 F E d E6 d3 E3 d E4 d3 E2 d E d E2 d3 E2 d3 E3 d3 E12 d4 G2 F G2 d3 G3 d G3 F d2 ",
    "E d6 G d14 I10 K3 V6 T V d5 F G3 F E8 d E3 d E23 d E16 d2 F E F3 G4 d F3 d F4 d7 F2 d E3 ",
    "d E2 d2 E2 F2 d2 I10 d7 R K7 V E F G2 R E8 d E3 d E23 d E10 d E5 d2 F E G F G5 d F G2 d ",
    "G2 F2 d7 G2 d5 E3 d E2 F2 d2 I10 d E2 G d12 F2 G2 E9 d E3 d E41 F2 E G3 F4 d G3 d G3 F E ",
    "V d4 E3 G K7 E3 F2 d2 I10 K9 V E6 d F G2 d E18 d3 E24 d E9 d E d2 E7 d3 F d4 G3 F3 d F d ",
    "G8 d6 I10 d2 G2 R d12 E48 F E2 F7 d4 T E6 D F8 R I10 R2 d37 E2 d E d E5 d E24 d E d E10 F ",
    "E2 F9 E d2 E5 d D d F7 d I10 d2 E4 d32 E V3 R15 V R V3 F2 V6 I10 K10 V F V F V F N O N O ",
    "G2 E8 d E36 d4 F14 G F5 R F2 E5 F11 d F36 d V8 F V6 d V2 R5 V4 R2 d37 E43 G2 F4 G F6 G F2 ",
    "G2 F2 E I10 R6 E6 G2 F2 E4 F3 E G3 E2 G7 E3 F4 E13 F G2 F2 G6 F E G I10 G3 F V2 A38 d A ",
    "d5 A d2 B43 R D B3 E329 d E4 d2 E7 d E d E4 d2 E41 d E4 d2 E33 d E4 d2 E7 d E d E4 d2 E15 ",
    "d E57 d E4 d2 E67 d2 F3 R9 K20 d3 E16 V10 d6 A86 d2 B6 d2 M E620 V R E17 W E26 N O d3 E75 ",
    "R3 J3 E8 d7 E18 F3 G d9 E19 F2 G R2 d9 E18 F2 d12 E13 d E3 d F2 d12 E52 F2 G F7 G8 F G2 ",
    "F11 R3 D R3 T E F d2 I10 d6 K10 d6 R6 M R4 F3 a F I10 d6 E35 D E53 d7 E5 F2 E34 F E d5 ",
    "E70 d10 E31 d F3 G4 F2 G3 d4 G2 F G6 F3 d4 V d3 R2 I10 E30 d2 E5 d11 E44 d4 E26 d6 I10 K ",
    "d3 V34 E23 F2 G2 F d2 R2 E53 G F G F7 d F G F G2 F8 G6 F10 d2 F I10 d6 I10 d6 R7 D R6 d2 ",
    "F14 H F31 d2 F12 d20 F4 G E47 F G F5 G F G5 F G2 E8 d R2 I10 R7 V10 F9 V9 R3 F2 G E30 G ",
    "F4 G2 F2 G F3 E2 I10 E44 F G F2 G3 F G F3 G2 d8 R4 E36 G8 F8 G2 F2 d3 R5 I10 d3 E3 I10 ",
    "E30 D6 R2 B9 A B d5 A43 d2 A3 R8 d8 F3 R F13 G F7 E4 F E6 F E2 G F2 E d5 B44 D63 B13 D ",
    "B34 D37 F64 A B A B A B A B A B A B A B A B A B A B A B A B A B A B A B A B A B A B A B A ",
    "B A B A B A B A B A B A B A B A B A B A B A B A B A B A B A B A B A B A B A B A B A B A B ",
    "A B A B A B A B A B A B A B A B A B A B A B A B A B A B A B A B A B A B A B A B A B A B A ",
    "B A B A B A B A B A B A B A B A B A B A B9 A B A B A B A B A B A B A B A B A B A B A B A ",
    "B A B A B A B A B A B A B A B A B A B A B A B A B A B A B A B A B A B A B A B A B A B A B ",
    "A B A B A B A B A B A B A B A B A B A B A B A B A B A B A B9 A8 B6 d2 A6 d2 B8 A8 B8 A8 ",
    "B6 d2 A6 d2 B8 d A d A d A d A B8 A8 B14 d2 B8 C8 B8 C8 B8 C8 B5 d B2 A4 C U B U3 B3 d B2 ",
    "A4 C U3 B4 d2 B2 A4 d U3 B8 A5 U3 d2 B3 d B2 A4 C U2 d W11 a5 M6 R2 P Q N P2 Q N P R8 X Y ",
    "a5 W R9 P Q R4 L2 R3 S N O R11 S R L R10 W a5 d a10 K D d2 K6 S3 N O D K10 S3 N O d D13 ",
    "d3 T34 d14 F13 H4 F H3 F12 d15 V2 A V4 A V2 B A3 B2 A3 B V A V2 S A5 V6 A V A V A V A4 V ",
    "B A4 B E4 B V2 B2 A2 S5 A B4 V S V2 B V K16 J35 A B J4 K V2 d4 S5 V5 S2 V4 S V2 S V2 S V7 ",
    "S V31 S2 V2 S V S V31 S268 V8 N O N O V20 S2 V7 N O V81 S V30 S25 V40 S6 V72 d22 V11 d21 ",
    "K60 V78 K22 V183 S V9 S V54 S8 V111 S V248 N O N O N O N O N O N O N O K30 V44 S5 N O S31 ",
    "N O N O N O N O N O S16 V256 S131 N O N O N O N O N O N O N O N O N O N O N O S63 N O N O ",
    "S32 N O S258 V48 S21 V2 S6 V39 d2 V138 A48 B48 A B A3 B2 A B A B A B A4 B A B2 A B6 D2 A3 ",
    "B A B A B A B A B A B A B A B A B A B A B A B A B A B A B A B A B A B A B A B A B A B A B ",
    "A B A B A B A B A B A B A B A B A B A B A B A B A B A B A B A B A B A B A B A B A B A B A ",
    "B A B A B A B A B2 V6 A B A B F3 A B d5 R4 K R2 B38 d B d5 B d2 E56 d7 D R d14 F E23 d9 ",
    "E7 d E7 d E7 d E7 d E7 d E7 d E7 d E7 d F32 R2 P Q P Q R3 P Q R P Q R9 M R2 M R P Q R2 P ",
    "Q N O N O N O N O R5 D R10 M2 R4 M R N R13 V2 R3 N O N O N O N O M d34 V26 d V89 d12 V214 ",
    "d26 V16 W R3 V D E J N O N O N O N O N O V2 N O N O N O N O M N O2 V J9 F4 G2 M D5 V2 J3 ",
    "D E R V2 d E86 d2 F2 U2 D2 E M E90 R D3 E d5 E43 d E94 d V2 K4 V10 E32 V38 d9 V E16 V31 d ",
    "K10 V30 K8 V K15 V32 K10 V39 K15 V320 E6592 V64 E21013 D E1143 d3 V55 d9 E40 D6 R2 E268 D ",
    "R3 E16 I10 E2 d20 A B A B A B A B A B A B A B A B A B A B A B A B A B A B A B A B A B A B ",
    "A B A B A B A B A B E F H3 R F10 R D A B A B A B A B A B A B A B A B A B A B A B A B A B ",
    "A B D2 F2 E70 J10 F2 R6 d8 U23 D9 U2 A B A B A B A B A B A B A B3 A B A B A B A B A B A B ",
    "A B A B A B A B A B A B A B A B A B A B A B A B A B A B A B A B A B A B A B A B A B A B A ",
    "B A B A B D B8 A B A B A2 B A B A B A B A B D U2 A B A B E A B A B3 A B A B A B A B A B A ",
    "B A B A B A B A B A5 B A5 B A B A B A B A B A B A B A B A4 B A B A2 B A B A B A B A B A B ",
    "A B A B A d20 D4 A B E D2 B E7 F E3 F E4 F E23 G2 F2 G V4 F d3 K6 V2 T V d6 E52 R4 d8 G2 ",
    "E50 G16 F2 d8 R2 I10 d6 F18 E6 R3 E R E2 F I10 E28 F8 R2 E23 F11 G2 d11 R E29 d3 F3 G E47 ",
    "F G2 F4 G2 F2 G3 R13 d D I10 d4 R2 E5 F D E9 I10 E5 d E41 F6 G2 F2 G2 F2 d9 E3 F E8 F G ",
    "d2 I10 d2 R4 E16 D E6 V3 E G F G E50 F E F3 E2 F2 E5 F2 E F E d24 E2 D R2 E11 G F2 G2 R2 ",
    "E D2 G F d10 E6 d2 E6 d2 E6 d9 E7 d E7 d B43 U D4 B9 D U2 d4 B80 E35 G2 F G2 F G2 R G F ",
    "d2 I10 d6 E11172 d12 E23 d4 E49 d4 b2048 c6400 E366 d2 E106 d38 B7 d12 B5 d5 E F E10 S ",
    "E13 d E5 d E d E2 d E2 d E108 U17 V16 E363 O N V16 E64 V2 E54 V8 d32 E12 T V3 F16 R7 N O ",
    "R d6 F16 R M2 L2 N O N O N O N O N O N O N O N O R2 N O R4 L3 R3 d R4 M N O N O N O R3 S ",
    "M S3 d R T R2 d4 E5 d E135 d2 a d R3 T R3 N O R S R M R2 I10 R2 S3 R2 A26 N R O U L U B26 ",
    "N S O S N O R N O R2 E10 D E45 D2 E31 d3 E6 d2 E6 d2 E6 d2 E3 d3 T2 S U V T2 d V S4 V2 ",
    "d10 a3 V2 d2 E12 d E26 d E19 d E2 d E15 d2 E14 d34 E123 d5 R3 d4 K45 d3 V9 J53 K4 V17 K2 ",
    "V3 d V13 d3 V d47 V45 F d130 E29 d3 E49 d15 F K27 d4 E32 K4 d9 E20 J E8 J d5 E38 F5 d5 ",
    "E30 d R E36 d4 E8 R J5 d42 A40 B40 E78 d2 I10 d6 A36 d4 B36 d4 E40 d8 E52 d11 R A11 d A15 ",
    "d A7 d A2 d B11 d B15 d B7 d B2 d3 E52 d12 E311 d9 E22 d10 E8 d24 D6 d D42 d D9 d69 E6 d2 ",
    "E d E44 d E2 d3 E d2 E23 d R K8 E23 V2 K7 E31 d8 K9 d48 E19 d E2 d5 K5 E22 K6 d3 R E26 d5 ",
    "R E26 d38 E56 d4 K2 E2 K16 d2 K46 E F3 d F2 d5 F4 E4 d E3 d E29 d2 F3 d4 F K9 d7 R9 d7 ",
    "E29 K2 R E29 K3 d32 E8 V E28 F2 d4 K5 R7 d9 E54 d3 R7 E22 d2 K8 E19 d5 K8 E18 d7 R4 d12 ",
    "K7 d80 E73 d55 A51 d13 B51 d7 K6 E36 F4 d8 I10 d6 I10 E4 D E A22 d3 F5 M D B22 d8 S2 d208 ",
    "K31 d E42 d F2 M d2 E2 d16 E3 D E2 d8 R V8 d33 F6 E29 K10 E d8 E22 F11 K4 R5 d22 E18 F4 ",
    "R4 d38 E21 K7 d20 E23 d9 G F G E53 F15 R7 d4 K20 I10 F E2 F2 E d9 F3 G E45 G3 F4 G2 F2 R2 ",
    "a R4 F d10 a d2 E25 d7 I10 d6 F3 E36 F5 G F8 d I10 R4 E G2 E d8 E35 F R2 E d9 F2 G E48 G3 ",
    "F9 G2 E4 R4 F4 R G F I10 E R E R3 d K20 d11 E18 d E25 G3 F3 G2 F G F2 R6 F E2 F d62 E7 d ",
    "E d E4 d E15 d E10 R d6 E47 F G3 F8 d5 I10 d6 F2 G2 d E8 d2 E2 d2 E22 d E7 d E2 d E5 d F2 ",
    "E G2 F G4 d2 G2 d2 G3 d2 E d6 G d5 E5 G2 d2 F7 d3 F5 d11 E10 d E d2 E d E38 d E G3 F6 d G ",
    "d2 G d G4 d G2 F G F E F E R2 d R2 d8 F2 d29 E53 G3 F8 G2 F3 G F E4 R5 I10 R2 d R F E3 ",
    "d30 E48 G3 F6 G F G4 F2 G F2 E2 R E d8 I10 d166 E47 G3 F4 d2 G4 F2 G F2 R23 E4 F2 d34 E48 ",
    "G3 F8 G2 F G F2 R3 E d11 I10 d6 R13 d19 E43 F G F G2 F6 G F E R d6 I10 d6 I20 d28 E27 d2 ",
    "F G F G2 F4 G F5 d4 I10 K2 R3 V E7 d185 E44 G3 F9 G F2 R d100 A32 B32 I10 K9 d12 E8 d2 E ",
    "d2 E8 d E2 d E24 G6 d G2 d2 F2 G F E G E G F R3 d9 I10 d70 E8 d2 E39 G3 F4 d2 F2 G4 F E R ",
    "E G d27 E F10 E40 F6 G E F4 R8 F d8 E F6 G2 F3 E46 F13 G F2 R3 E R5 d13 E73 d7 R10 d86 F ",
    "G F3 G F G d88 E33 R d14 I10 d6 E9 d E37 G F7 d F6 G F E R5 d10 I10 K19 d3 R2 E30 d2 F22 ",
    "d G F7 G F2 G F2 d73 E7 d E2 d E38 F6 d3 F d F2 d F7 E F d8 I10 d6 E6 d E2 d E32 G5 d F2 ",
    "d G2 F G F E d7 I10 d6 E41 D E2 d4 I10 d246 E19 F2 G2 R2 d7 F2 E G E13 d E34 G2 F5 d3 G2 ",
    "F G F R13 I10 F d85 E d15 K21 V8 T4 V17 d13 R E922 d102 J111 d R5 d11 E196 d2636 E97 R2 ",
    "d13 E1072 a16 F E6 F15 d10 E3995 d5 E583 d6841 E30 F12 G3 F3 I10 d1734 E569 d7 E31 d I10 ",
    "d4 R2 E79 d I10 d6 E30 d2 F5 R d10 E48 F7 R5 V4 D4 R V d10 I10 d K7 d E21 d5 E19 d432 D3 ",
    "E40 D2 R3 I10 d198 A32 B32 K23 R4 d5 A25 d2 B25 d44 E75 d4 F E G55 d7 F4 D13 d64 D2 R D F ",
    "d11 G2 D2 J3 d9 E7382 d41 E32 d97 E115 d8701 D4 d D7 d D2 d E291 d15 E d29 E3 d2 E d14 E4 ",
    "d8 E396 d2308 E107 d5 E13 d3 E9 d7 E10 d2 V F2 R a4 d3932 V240 I10 V3 d3 V436 d6 V23 d15 ",
    "V16 S d15 F46 d2 F23 d9 V116 d60 V246 d10 V39 d2 V60 G2 F3 V3 G6 a8 F8 V2 F7 V30 F4 V61 ",
    "d21 V66 F3 V d122 K20 d12 K20 d12 V87 d9 K25 d135 A26 B26 A26 B7 d B18 A26 B26 A d A2 d2 ",
    "A d2 A2 d2 A4 d A8 B4 d B d B7 d B11 A26 B26 A2 d A4 d2 A8 d A7 d B26 A2 d A4 d A5 d A d3 ",
    "A7 d B26 A26 B26 A26 B26 A26 B26 A26 B26 A26 B26 A26 B28 d2 A25 S B25 S B6 A25 S B25 S B6 ",
    "A25 S B25 S B6 A25 S B25 S B6 A25 S B25 S B6 A B d2 I50 V512 F55 V4 F50 V8 F V14 F V2 R5 ",
    "d15 F5 d F15 d1104 B10 E B20 d6 B6 d213 F7 d F17 d2 F7 d F2 d F5 d5 D62 d33 F d112 E45 d3 ",
    "F7 D7 d2 I10 d4 E V d320 E30 F d17 E44 F4 I10 d5 T d464 E27 D F4 I10 d214 E30 F2 E I10 d4 ",
    "R d192 E31 d E3 F E2 F E7 F2 E5 F d8 E D d224 E7 d E4 d E2 d E15 d E197 d2 K9 F7 d41 A34 ",
    "B34 F7 D d4 I10 d4 R2 d785 K59 V K3 T K4 d76 K45 V K15 d194 E4 d E27 d E2 d E d2 E d E10 ",
    "d E4 d E d E d6 E d4 E d E d E d E3 d E2 d E d2 E d E d E d E d E d E2 d E d2 E4 d E7 d ",
    "E4 d E4 d E d E10 d E17 d5 E3 d E5 d E17 d52 S2 d270 V44 d4 V100 d12 V15 d2 V15 d V15 d ",
    "V37 d10 K13 V161 d56 V29 d13 V44 d4 V9 d7 V2 d14 V6 d154 V251 U5 V729 d3 V17 d3 V13 d3 ",
    "V218 d6 V12 d4 V d15 V12 d4 V56 d8 V10 d6 V40 d8 V30 d2 V12 d4 V2 d14 S9 d39 V344 d8 V14 ",
    "d2 V13 d3 V11 d3 V57 d V d4 V16 d2 V12 d4 V10 d7 V147 d V92 I10 V d1029 E42720 d32 E4382 ",
    "d2 E5774 d2 E7473 d15 E622 d2466 E542 d1506 E4939 d5 E8490 d707463 a d30 a96 d128 F240 ",
    "d65040 c65534 d2 c65534 d2"])

/-- The categories of all code points from zero, with the lengths of the runs. -/
def runs : List (Category × Nat) :=
  (Runs.lettered table).map fun (letter, n) =>
    (all[if letter.isUpper then letter.toNat - 65 else letter.toNat - 71]?.getD .unassigned, n)

/-- The general category of a character. -/
def ofChar (c : Char) : Category := (Runs.lookup runs c.toNat).getD .unassigned

def isLetter : Category → Bool
  | uppercaseLetter | lowercaseLetter | titlecaseLetter | modifierLetter | otherLetter => true
  | _ => false

def isMark : Category → Bool
  | nonspacingMark | spacingMark | enclosingMark => true
  | _ => false

def isNumber : Category → Bool
  | decimalNumber | letterNumber | otherNumber => true
  | _ => false

end Category
end TokenLint.Text
