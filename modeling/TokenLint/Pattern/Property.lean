import TokenLint.Pattern.CharSet

/-!
# Properties named in a pattern

Names are compared without case, blanks, dashes, underscores and a leading `is`.
-/
namespace TokenLint.Pattern.PropertyQuery

/-- Drops an `is` in any case from the front. -/
def withoutIs : List Char → List Char × Bool
  | a :: b :: cs =>
    if a.toLower == 'i' && b.toLower == 's' then (cs, true) else (a :: b :: cs, false)
  | cs => (cs, false)

/-- The form of a name that is compared. Of `isc` only a `c` is left, which would be another name,
so there the `is` is kept. -/
def normalize (name : String) : String :=
  let (cs, had) := withoutIs name.toList
  let kept := cs.filter fun c => c.toNat < 128 && c != ' ' && c != '_' && c != '-'
  let low := kept.map Char.toLower
  String.ofList (if had && low == ['c'] then ['i', 's', 'c'] else low)

/-- General categories, by the names of each and of their groups. -/
def categories : List (List String × List Text.Category) :=
  let letters := [.uppercaseLetter, .lowercaseLetter, .titlecaseLetter]
  [(["lu", "uppercaseletter"], [.uppercaseLetter]),
   (["ll", "lowercaseletter"], [.lowercaseLetter]),
   (["lt", "titlecaseletter"], [.titlecaseLetter]),
   (["lc", "casedletter"], letters),
   (["lm", "modifierletter"], [.modifierLetter]),
   (["lo", "otherletter"], [.otherLetter]),
   (["l", "letter"], letters ++ [.modifierLetter, .otherLetter]),
   (["mn", "nonspacingmark"], [.nonspacingMark]),
   (["mc", "spacingmark"], [.spacingMark]),
   (["me", "enclosingmark"], [.enclosingMark]),
   (["m", "mark", "combiningmark"], [.nonspacingMark, .spacingMark, .enclosingMark]),
   (["nd", "decimalnumber", "digit"], [.decimalNumber]),
   (["nl", "letternumber"], [.letterNumber]),
   (["no", "othernumber"], [.otherNumber]),
   (["n", "number"], [.decimalNumber, .letterNumber, .otherNumber]),
   (["pc", "connectorpunctuation"], [.connectorPunctuation]),
   (["pd", "dashpunctuation"], [.dashPunctuation]),
   (["ps", "openpunctuation"], [.openPunctuation]),
   (["pe", "closepunctuation"], [.closePunctuation]),
   (["pi", "initialpunctuation"], [.initialPunctuation]),
   (["pf", "finalpunctuation"], [.finalPunctuation]),
   (["po", "otherpunctuation"], [.otherPunctuation]),
   (["p", "punctuation", "punct"],
    [.connectorPunctuation, .dashPunctuation, .openPunctuation, .closePunctuation,
     .initialPunctuation, .finalPunctuation, .otherPunctuation]),
   (["sm", "mathsymbol"], [.mathSymbol]),
   (["sc", "currencysymbol"], [.currencySymbol]),
   (["sk", "modifiersymbol"], [.modifierSymbol]),
   (["so", "othersymbol"], [.otherSymbol]),
   (["s", "symbol"], [.mathSymbol, .currencySymbol, .modifierSymbol, .otherSymbol]),
   (["zs", "spaceseparator"], [.spaceSeparator]),
   (["zl", "lineseparator"], [.lineSeparator]),
   (["zp", "paragraphseparator"], [.paragraphSeparator]),
   (["z", "separator"], [.spaceSeparator, .lineSeparator, .paragraphSeparator]),
   (["cc", "control", "cntrl"], [.control]),
   (["cf", "format"], [.format]),
   (["co", "privateuse"], [.privateUse]),
   (["cn", "unassigned"], [.unassigned]),
   (["c", "other"], [.control, .format, .privateUse, .unassigned])]

/-- Names of other properties, of which no set can be asked for by the name alone. -/
def otherProperties : List String :=
  ["age", "bc", "bidiclass", "bidim", "bidimirrored", "bidimirroringglyph",
   "bidipairedbracket", "bidipairedbrackettype", "blk", "block", "bmg", "bpb", "bpt",
   "canonicalcombiningclass", "casefolding", "ccc", "ce", "cf",
   "changeswhennfkccasefolded", "cjkaccountingnumeric", "cjkcompatibilityvariant", "cjkiicore",
   "cjkirggsource", "cjkirghsource", "cjkirgjsource", "cjkirgkpsource", "cjkirgksource",
   "cjkirgmsource", "cjkirgssource", "cjkirgtsource", "cjkirguksource", "cjkirgusource",
   "cjkirgvsource", "cjkothernumeric", "cjkprimarynumeric", "cjkrsunicode", "compex",
   "compositionexclusion", "cwkcf", "decompositionmapping", "decompositiontype", "dm", "dt",
   "ea", "eastasianwidth", "equideo", "equivalentunifiedideograph", "expandsonnfc",
   "expandsonnfd", "expandsonnfkc", "expandsonnfkd", "fcnfkc", "fcnfkcclosure",
   "fullcompositionexclusion", "gc", "gcb", "generalcategory", "graphemeclusterbreak",
   "graphemelink", "grlink", "hangulsyllabletype", "hst", "idcompatmathcontinue",
   "idcompatmathstart", "incb", "indicconjunctbreak", "indicpositionalcategory",
   "indicsyllabiccategory", "inpc", "insc", "isc", "isocomment", "jamoshortname", "jg",
   "joininggroup", "joiningtype", "jsn", "jt", "kaccountingnumeric", "kcompatibilityvariant",
   "kehcat", "kehdesc", "kehfnum", "kehhg", "kehifao", "kehjsesh", "kehnomirror",
   "kehnorotate", "kiicore", "kirggsource", "kirghsource", "kirgjsource", "kirgkpsource",
   "kirgksource", "kirgmsource", "kirgssource", "kirgtsource", "kirguksource", "kirgusource",
   "kirgvsource", "kothernumeric", "kprimarynumeric", "krsunicode", "lb", "lc", "linebreak",
   "lowercasemapping", "mcm", "modifiercombiningmark", "na", "na1", "name", "namealias",
   "nfcqc", "nfcquickcheck", "nfdqc", "nfdquickcheck", "nfkccasefold", "nfkccf",
   "nfkcqc", "nfkcquickcheck", "nfkcscf", "nfkcsimplecasefold", "nfkdqc", "nfkdquickcheck",
   "nt", "numerictype", "numericvalue", "nv", "oalpha", "odi", "ogrext", "oidc", "oids",
   "olower", "omath", "otheralphabetic", "otherdefaultignorablecodepoint",
   "othergraphemeextend", "otheridcontinue", "otheridstart", "otherlowercase", "othermath",
   "otheruppercase", "oupper", "pcm", "prependedconcatenationmark", "sb", "sc", "scf", "script",
   "scriptextensions", "scx", "sentencebreak", "sfc", "simplecasefolding",
   "simplelowercasemapping", "simpletitlecasemapping", "simpleuppercasemapping", "slc", "stc",
   "suc", "tc", "titlecasemapping", "uc", "unicode1name", "unicoderadicalstroke",
   "uppercasemapping", "urs", "verticalorientation", "vo", "wb", "wordbreak", "xonfc", "xonfd",
   "xonfkc", "xonfkd"]

/-- Names that mean a category although a property has them too. -/
def categoryFirst : List String := ["cf", "sc", "lc"]

def ofCategories (cs : List Text.Category) : CharSet :=
  CharSet.unionAll (cs.map CharSet.category)

/-- The set of a category, if there is a category of the name; no character is a surrogate, so
that category is known but has no set. -/
def category? (name : String) : Option (Except Fault CharSet) :=
  match name with
  | "any" => some (.ok .all)
  | "ascii" => some (.ok (.range '\x00' '\x7F'))
  | "assigned" => some (.ok (.complement (.category .unassigned)))
  | "cs" | "surrogate" => some (.error .unknownPropertyValue)
  | _ =>
    (categories.find? (·.1.contains name)).map fun (_, cs) => .ok (ofCategories cs)

/-- The place of a script among the names; two scripts are known but have no characters. -/
def script? (name : String) : Option (Except Fault Nat) :=
  if ["hrkt", "katakanaorhiragana", "unknown", "zzzz"].contains name then
    some (.error .unknownPropertyValue)
  else
    (Text.Script.names.findIdx? fun ns => (ns.map normalize).contains name).map .ok

/-- The set that a query without a value asks for. -/
def plainSet (name : String) : Except Fault CharSet :=
  let property := if categoryFirst.contains name then none else Text.Property.find? name
  match property with
  | some p => .ok (.property p)
  | none =>
    if !categoryFirst.contains name && otherProperties.contains name then
      .error .unknownProperty
    else match category? name with
      | some set => set
      | none =>
        match script? name with
        | some place => place.map CharSet.script
        | none => .error .unknownProperty

/-- The set of the characters for which a property has a value. -/
def valuedSet (name value : String) : Except Fault CharSet :=
  match name with
  | "gc" | "generalcategory" => (category? value).getD (.error .unknownPropertyValue)
  | "sc" | "script" =>
    ((script? value).getD (.error .unknownPropertyValue)).map CharSet.script
  | "scx" | "scriptextensions" =>
    ((script? value).getD (.error .unknownPropertyValue)).map CharSet.scriptUse
  | _ =>
    if otherProperties.contains name || (Text.Property.find? name).isSome then
      .error .unknownPropertyValue
    else .error .unknownProperty

/-- The set that a query asks for. -/
def charSet : PropertyQuery → Except Fault CharSet
  | plain name => plainSet (normalize name)
  | valued name value => valuedSet (normalize name) (normalize value)

end TokenLint.Pattern.PropertyQuery
