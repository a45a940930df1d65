import TokenLint.Text.Runs

/-!
# Scripts of characters

The names of the scripts, and for all code points from zero upward the script, as runs. A few
characters belong to several scripts besides: their extensions.
-/
namespace TokenLint.Text.Script

/-- Each script's short name, long name and, rarely, another. -/
def namesTable : String :=
  (String.join
   ["Adlm/Adlam Aghb/Caucasian_Albanian Ahom/Ahom Arab/Arabic Armi/Imperial_Aramaic ",
    "Armn/Armenian Avst/Avestan Bali/Balinese Bamu/Bamum Bass/Bassa_Vah Batk/Batak ",
    "Beng/Bengali Bhks/Bhaiksuki Bopo/Bopomofo Brah/Brahmi Brai/Braille Bugi/Buginese ",
    "Buhd/Buhid Cakm/Chakma Cans/Canadian_Aboriginal Cari/Carian Cham/Cham Cher/Cherokee ",
    "Chrs/Chorasmian Copt/Coptic/Qaac Cpmn/Cypro_Minoan Cprt/Cypriot Cyrl/Cyrillic ",
    "Deva/Devanagari Diak/Dives_Akuru Dogr/Dogra Dsrt/Deseret Dupl/Duployan ",
    "Egyp/Egyptian_Hieroglyphs Elba/Elbasan Elym/Elymaic Ethi/Ethiopic Geor/Georgian ",
    "Glag/Glagolitic Gong/Gunjala_Gondi Gonm/Masaram_Gondi Goth/Gothic Gran/Grantha Grek/Greek ",
    "Gujr/Gujarati Guru/Gurmukhi Hang/Hangul Hani/Han Hano/Hanunoo Hatr/Hatran Hebr/Hebrew ",
    "Hira/Hiragana Hluw/Anatolian_Hieroglyphs Hmng/Pahawh_Hmong Hmnp/Nyiakeng_Puachue_Hmong ",
    "Hung/Old_Hungarian Ital/Old_Italic Java/Javanese Kali/Kayah_Li Kana/Katakana Kawi/Kawi ",
    "Khar/Kharoshthi Khmr/Khmer Khoj/Khojki Kits/Khitan_Small_Script Knda/Kannada Kthi/Kaithi ",
    "Lana/Tai_Tham Laoo/Lao Latn/Latin Lepc/Lepcha Limb/Limbu Lina/Linear_A Linb/Linear_B ",
    "Lisu/Lisu Lyci/Lycian Lydi/Lydian Mahj/Mahajani Maka/Makasar Mand/Mandaic Mani/Manichaean ",
    "Marc/Marchen Medf/Medefaidrin Mend/Mende_Kikakui Merc/Meroitic_Cursive ",
    "Mero/Meroitic_Hieroglyphs Mlym/Malayalam Modi/Modi Mong/Mongolian Mroo/Mro ",
    "Mtei/Meetei_Mayek Mult/Multani Mymr/Myanmar Nagm/Nag_Mundari Nand/Nandinagari ",
    "Narb/Old_North_Arabian Nbat/Nabataean Newa/Newa Nkoo/Nko Nshu/Nushu Ogam/Ogham ",
    "Olck/Ol_Chiki Orkh/Old_Turkic Orya/Oriya Osge/Osage Osma/Osmanya Ougr/Old_Uyghur ",
    "Palm/Palmyrene Pauc/Pau_Cin_Hau Perm/Old_Permic Phag/Phags_Pa Phli/Inscriptional_Pahlavi ",
    "Phlp/Psalter_Pahlavi Phnx/Phoenician Plrd/Miao Prti/Inscriptional_Parthian Rjng/Rejang ",
    "Rohg/Hanifi_Rohingya Runr/Runic Samr/Samaritan Sarb/Old_South_Arabian Saur/Saurashtra ",
    "Sgnw/SignWriting Shaw/Shavian Shrd/Sharada Sidd/Siddham Sind/Khudawadi Sinh/Sinhala ",
    "Sogd/Sogdian Sogo/Old_Sogdian Sora/Sora_Sompeng Soyo/Soyombo Sund/Sundanese ",
    "Sylo/Syloti_Nagri Syrc/Syriac Tagb/Tagbanwa Takr/Takri Tale/Tai_Le Talu/New_Tai_Lue ",
    "Taml/Tamil Tang/Tangut Tavt/Tai_Viet Telu/Telugu Tfng/Tifinagh Tglg/Tagalog Thaa/Thaana ",
    "Thai/Thai Tibt/Tibetan Tirh/Tirhuta Tnsa/Tangsa Toto/Toto Ugar/Ugaritic Vaii/Vai ",
    "Vith/Vithkuqi Wara/Warang_Citi Wcho/Wancho Xpeo/Old_Persian Xsux/Cuneiform Yezi/Yezidi ",
    "Yiii/Yi Zanb/Zanabazar_Square Zinh/Inherited/Qaai Zyyy/Common Zzzz/Unknown Gara/Garay ",
    "Gukh/Gurung_Khema Krai/Kirat_Rai Onao/Ol_Onal Sunu/Sunuwar Todr/Todhri Tutg/Tulu_Tigalari ",
    "Berf/Beria_Erfe Sidt/Sidetic Tayo/Tai_Yo Tols/Tolong_Siki"])

def names : List (List String) :=
  ((splitOn ' ' namesTable.toList).map fun entry =>
    (splitOn '/' entry).map String.ofList)

/-- Pairs of one more than a script's place among the names, or zero for none, and a run's
length. -/
def table : String :=
  (String.join
   ["163 65 70 26 163 6 70 26 163 47 70 1 163 15 70 1 163 5 70 23 163 1 70 31 163 1 70 449 163 ",
    "39 70 5 163 5 14 2 163 20 162 112 44 4 163 1 44 3 164 2 44 4 163 1 44 1 164 4 44 1 163 1 ",
    "44 1 163 1 44 3 164 1 44 1 164 1 44 20 164 1 44 63 25 14 44 16 28 133 162 2 28 169 164 1 ",
    "6 38 164 2 6 50 164 2 6 3 164 1 51 55 164 8 51 27 164 4 51 6 164 11 4 5 163 1 4 6 163 1 4 ",
    "14 163 1 4 3 163 1 4 32 163 1 4 10 162 11 4 26 162 1 4 108 163 1 4 34 135 14 164 1 135 60 ",
    "164 2 135 3 4 48 146 50 164 14 99 59 164 2 99 3 120 46 164 2 120 15 164 1 80 28 164 2 80 ",
    "1 164 1 135 11 164 5 4 34 164 5 4 75 163 1 4 29 29 81 162 4 29 15 163 2 29 26 12 4 164 1 ",
    "12 8 164 2 12 2 164 2 12 22 164 1 12 7 164 1 12 1 164 3 12 4 164 2 12 9 164 2 12 2 164 2 ",
    "12 4 164 8 12 1 164 4 12 2 164 1 12 5 164 2 12 25 164 2 46 3 164 1 46 6 164 4 46 2 164 2 ",
    "46 22 164 1 46 7 164 1 46 2 164 1 46 2 164 1 46 2 164 2 46 1 164 1 46 5 164 4 46 2 164 2 ",
    "46 3 164 3 46 1 164 7 46 4 164 1 46 1 164 7 46 17 164 10 45 3 164 1 45 9 164 1 45 3 164 1 ",
    "45 22 164 1 45 7 164 1 45 2 164 1 45 5 164 2 45 10 164 1 45 3 164 1 45 3 164 2 45 1 164 ",
    "15 45 4 164 2 45 12 164 7 45 7 164 1 104 3 164 1 104 8 164 2 104 2 164 2 104 22 164 1 104 ",
    "7 164 1 104 2 164 1 104 5 164 2 104 9 164 2 104 2 164 2 104 3 164 7 104 3 164 4 104 2 164 ",
    "1 104 5 164 2 104 18 164 10 140 2 164 1 140 6 164 3 140 3 164 1 140 4 164 3 140 2 164 1 ",
    "140 1 164 1 140 2 164 3 140 2 164 3 140 3 164 3 140 12 164 4 140 5 164 3 140 3 164 1 140 ",
    "4 164 2 140 1 164 6 140 1 164 14 140 21 164 5 143 13 164 1 143 3 164 1 143 23 164 1 143 ",
    "16 164 2 143 9 164 1 143 3 164 1 143 4 164 7 143 2 164 1 143 3 164 1 143 2 164 2 143 4 ",
    "164 2 143 10 164 7 143 9 66 13 164 1 66 3 164 1 66 23 164 1 66 10 164 1 66 5 164 2 66 9 ",
    "164 1 66 3 164 1 66 4 164 7 66 2 164 5 66 3 164 1 66 4 164 2 66 10 164 1 66 3 164 12 87 ",
    "13 164 1 87 3 164 1 87 51 164 1 87 3 164 1 87 6 164 4 87 16 164 2 87 26 164 1 128 3 164 1 ",
    "128 18 164 3 128 24 164 1 128 9 164 1 128 1 164 2 128 7 164 3 128 1 164 4 128 6 164 1 128 ",
    "1 164 1 128 8 164 6 128 10 164 2 128 3 164 12 147 58 164 4 163 1 147 28 164 37 69 2 164 1 ",
    "69 1 164 1 69 5 164 1 69 24 164 1 69 1 164 1 69 23 164 2 69 5 164 1 69 1 164 1 69 7 164 1 ",
    "69 10 164 2 69 4 164 32 148 72 164 1 148 36 164 4 148 39 164 1 148 36 164 1 148 15 164 1 ",
    "148 7 163 4 148 2 164 37 93 160 38 38 164 1 38 1 164 5 38 1 164 2 38 43 163 1 38 4 47 256 ",
    "37 73 164 1 37 4 164 2 37 7 164 1 37 1 164 1 37 4 164 2 37 41 164 1 37 4 164 2 37 33 164 ",
    "1 37 4 164 2 37 7 164 1 37 1 164 1 37 4 164 2 37 15 164 1 37 57 164 1 37 4 164 2 37 67 ",
    "164 2 37 32 164 3 37 26 164 6 23 86 164 2 23 6 164 2 20 640 101 29 164 3 119 75 163 3 119 ",
    "11 164 7 145 22 164 9 145 1 49 21 163 2 164 9 18 20 164 12 136 13 164 1 136 3 164 1 136 2 ",
    "164 12 63 94 164 2 63 10 164 6 63 10 164 6 89 2 163 2 89 1 163 1 89 20 164 6 89 89 164 7 ",
    "89 43 164 5 20 70 164 10 72 31 164 1 72 12 164 4 72 12 164 4 72 1 164 3 72 12 138 30 164 ",
    "2 138 5 164 11 139 44 164 4 139 26 164 6 139 11 164 3 139 2 63 32 17 28 164 2 17 2 68 63 ",
    "164 1 68 29 164 2 68 11 164 6 68 10 164 6 68 14 164 2 162 46 164 2 162 12 164 20 8 77 164 ",
    "1 8 50 133 64 11 52 164 8 11 4 71 56 164 3 71 15 164 3 71 3 102 48 28 11 164 5 38 43 164 ",
    "2 38 3 133 8 164 8 162 3 163 1 162 13 163 1 162 7 163 4 162 1 163 6 162 1 163 3 162 2 163 ",
    "1 164 5 70 38 44 5 28 1 70 49 44 5 70 4 44 5 70 13 28 1 70 70 44 1 162 64 70 256 44 22 ",
    "164 2 44 6 164 2 44 38 164 2 44 6 164 2 44 8 164 1 44 1 164 1 44 1 164 1 44 1 164 1 44 31 ",
    "164 2 44 53 164 1 44 15 164 1 44 14 164 2 44 6 164 1 44 19 164 2 44 3 164 1 44 9 164 1 ",
    "163 12 162 2 163 87 164 1 163 11 70 1 164 2 163 11 70 1 163 15 164 1 70 13 164 3 163 34 ",
    "164 14 162 33 164 15 163 38 44 1 163 3 70 2 163 6 70 1 163 27 70 1 163 17 70 41 163 3 164 ",
    "4 163 666 164 22 163 11 164 21 163 928 16 256 163 628 164 2 163 138 39 96 70 32 25 116 ",
    "164 5 25 7 38 38 164 1 38 1 164 5 38 1 164 2 144 56 164 7 144 2 164 14 144 1 37 23 164 9 ",
    "37 7 164 1 37 7 164 1 37 7 164 1 37 7 164 1 37 7 164 1 37 7 164 1 37 7 164 1 37 7 164 1 ",
    "28 32 163 94 164 34 48 26 164 1 48 89 164 12 48 214 164 26 163 21 48 1 163 1 48 1 163 25 ",
    "48 9 162 4 47 2 163 8 48 4 163 4 164 1 52 86 164 2 162 2 163 2 52 3 163 1 60 90 163 2 60 ",
    "3 164 5 14 43 164 1 47 94 164 1 163 16 14 32 163 38 164 9 163 1 60 16 47 31 164 1 163 64 ",
    "47 31 163 81 60 47 163 1 60 88 163 168 48 6592 163 64 48 20992 160 1165 164 3 160 55 164 ",
    "9 75 48 153 300 164 20 28 96 9 88 164 8 163 34 70 102 163 3 70 82 164 20 70 15 134 45 164 ",
    "3 163 10 164 6 111 56 164 8 122 70 164 8 122 12 164 6 29 32 59 46 163 1 59 1 117 36 164 ",
    "11 117 1 47 29 164 3 58 78 164 1 163 1 58 10 164 4 58 2 93 31 164 1 22 55 164 9 22 14 164 ",
    "2 22 10 164 2 22 4 93 32 142 67 164 24 142 5 91 23 164 10 37 6 164 2 37 6 164 2 37 6 164 ",
    "9 37 7 164 1 37 7 164 1 70 43 163 1 70 9 44 1 70 4 163 2 164 4 23 80 91 46 164 2 91 10 ",
    "164 6 47 11172 164 12 47 23 164 4 47 49 164 4 0 2048 164 6400 48 366 164 2 48 106 164 38 ",
    "70 7 164 12 6 5 164 5 51 26 164 1 51 5 164 1 51 1 164 1 51 2 164 1 51 2 164 1 51 10 4 494 ",
    "163 2 4 144 164 32 4 16 162 16 163 10 164 6 162 14 28 2 163 35 164 1 163 19 164 1 163 4 ",
    "164 4 4 5 164 1 4 135 164 2 163 1 164 1 163 32 70 26 163 6 70 26 163 11 60 10 163 1 60 45 ",
    "163 2 47 31 164 3 47 6 164 2 47 6 164 2 47 6 164 2 47 3 164 3 163 7 164 1 163 7 164 10 ",
    "163 5 164 2 74 12 164 1 74 26 164 1 74 19 164 1 74 2 164 1 74 15 164 2 74 14 164 34 74 ",
    "123 164 5 163 3 164 4 163 45 164 3 163 9 44 79 164 1 163 13 164 3 44 1 164 47 163 45 162 ",
    "1 164 130 76 29 164 3 21 49 164 15 162 1 163 27 164 4 57 36 164 9 57 3 42 27 164 5 110 43 ",
    "164 5 152 30 164 1 152 1 157 36 164 4 157 14 164 42 32 80 124 48 106 30 164 2 106 10 164 ",
    "6 105 36 164 4 105 36 164 4 35 40 164 8 2 52 164 11 2 1 154 11 164 1 154 15 164 1 154 7 ",
    "164 1 154 2 164 1 154 11 164 1 154 15 164 1 154 7 164 1 154 2 164 3 170 52 164 12 73 311 ",
    "164 9 73 22 164 10 73 8 164 24 70 6 164 1 70 42 164 1 70 9 164 69 27 6 164 2 27 1 164 1 ",
    "27 44 164 1 27 2 164 3 27 1 164 2 27 1 5 22 164 1 5 9 108 32 97 31 164 8 97 9 164 48 50 ",
    "19 164 1 50 2 164 5 50 5 114 28 164 3 114 1 77 26 164 5 77 1 173 26 164 38 86 32 85 24 ",
    "164 4 85 20 164 2 85 46 62 4 164 1 62 2 164 5 62 8 164 1 62 3 164 1 62 29 164 2 62 3 164 ",
    "4 62 10 164 7 62 9 164 7 121 32 96 32 164 32 81 39 164 4 81 12 164 9 7 54 164 3 7 7 116 ",
    "22 164 2 116 8 112 19 164 5 112 8 113 18 164 7 113 4 164 12 113 7 164 80 103 73 164 55 56 ",
    "51 164 13 56 51 164 7 56 6 118 40 164 8 118 10 164 6 165 38 164 3 165 29 164 8 165 2 164 ",
    "208 4 31 164 1 159 42 164 1 159 3 164 2 159 2 164 16 4 6 164 8 4 9 164 33 4 6 130 40 164 ",
    "8 129 42 164 22 107 26 164 38 24 28 164 20 36 23 164 9 15 78 164 4 15 36 164 9 15 1 67 67 ",
    "164 10 67 1 164 2 131 25 164 7 131 10 164 6 19 53 164 1 19 18 164 8 78 39 164 9 125 96 ",
    "164 1 128 20 164 11 64 18 164 1 64 47 164 62 92 7 164 1 92 1 164 1 92 4 164 1 92 15 164 1 ",
    "92 11 164 6 127 59 164 5 127 10 164 6 43 4 164 1 43 8 164 2 43 2 164 2 43 22 164 1 43 7 ",
    "164 1 43 2 164 1 43 5 164 1 162 1 43 9 164 2 43 2 164 2 43 3 164 2 43 1 164 6 43 1 164 5 ",
    "43 7 164 2 43 7 164 3 43 5 164 11 171 10 164 1 171 1 164 2 171 1 164 1 171 38 164 1 171 ",
    "10 164 1 171 1 164 2 171 1 164 1 171 4 164 1 171 10 164 1 171 2 164 8 171 2 164 29 98 92 ",
    "164 1 98 5 164 30 149 72 164 8 149 10 164 166 126 54 164 2 126 38 164 34 88 69 164 11 88 ",
    "10 164 6 89 13 164 19 137 58 164 6 137 10 164 6 93 20 164 28 3 27 164 2 3 15 164 4 3 23 ",
    "164 185 31 60 164 100 155 83 164 12 155 1 30 7 164 2 30 1 164 2 30 8 164 1 30 2 164 1 30 ",
    "30 164 1 30 2 164 2 30 12 164 9 30 10 164 70 95 8 164 2 95 46 164 2 95 11 164 27 161 72 ",
    "164 8 132 83 164 13 20 16 109 57 164 7 29 10 164 86 125 8 164 88 169 34 164 14 169 10 164 ",
    "6 13 9 164 1 13 45 164 1 13 14 164 10 13 29 164 3 82 32 164 2 82 22 164 1 82 14 164 73 41 ",
    "7 164 1 41 2 164 1 41 44 164 3 41 1 164 1 41 2 164 1 41 9 164 8 41 10 164 6 40 6 164 1 40 ",
    "2 164 1 40 37 164 1 40 2 164 1 40 6 164 7 40 10 164 6 175 44 164 4 175 10 164 246 79 25 ",
    "164 7 61 17 164 1 61 41 164 3 61 29 164 85 75 1 164 15 140 50 164 13 140 1 158 922 164 ",
    "102 158 111 164 1 158 5 164 11 158 196 164 2636 26 99 164 13 34 1110 164 10 34 3995 164 5 ",
    "53 583 164 6841 166 58 164 1734 9 569 164 7 90 31 164 1 90 10 164 4 90 2 150 79 164 1 150 ",
    "10 164 6 10 30 164 2 10 6 164 10 54 70 164 10 54 10 164 1 54 7 164 1 54 21 164 5 54 19 ",
    "164 432 167 58 164 198 83 91 164 5 172 25 164 2 172 25 164 44 115 75 164 4 115 57 164 7 ",
    "115 17 164 64 141 1 100 1 48 2 65 1 164 11 48 7 164 9 141 6912 65 470 164 41 65 1 141 31 ",
    "164 97 141 115 164 8701 60 4 164 1 60 7 164 1 60 2 164 1 60 1 52 287 60 3 164 15 52 1 164 ",
    "29 52 3 164 2 60 1 164 14 60 4 164 8 100 396 164 2308 33 107 164 5 33 13 164 3 33 9 164 7 ",
    "33 10 164 2 33 4 163 4 164 3932 163 253 164 3 163 436 164 6 163 23 164 15 163 17 164 15 ",
    "162 46 164 2 162 23 164 9 163 116 164 60 163 246 164 10 163 39 164 2 163 62 162 3 163 17 ",
    "162 8 163 2 162 7 163 30 162 4 163 61 164 21 44 70 164 122 163 20 164 12 163 20 164 12 ",
    "163 87 164 9 163 25 164 135 163 85 164 1 163 71 164 1 163 2 164 2 163 1 164 2 163 2 164 2 ",
    "163 4 164 1 163 12 164 1 163 1 164 1 163 7 164 1 163 65 164 1 163 4 164 2 163 8 164 1 163 ",
    "7 164 1 163 28 164 1 163 4 164 1 163 5 164 1 163 1 164 3 163 7 164 1 163 340 164 2 163 ",
    "292 164 2 163 50 123 652 164 15 123 5 164 1 123 15 164 1104 70 31 164 6 70 6 164 213 39 7 ",
    "164 1 39 17 164 2 39 7 164 1 39 2 164 1 39 5 164 5 28 62 164 33 28 1 164 112 55 45 164 3 ",
    "55 14 164 2 55 10 164 4 55 2 164 320 151 31 164 17 156 58 164 5 156 1 164 464 94 42 164 ",
    "214 168 43 164 4 168 1 164 192 174 31 164 1 174 22 164 8 174 2 164 224 37 7 164 1 37 4 ",
    "164 1 37 2 164 1 37 15 164 1 84 197 164 2 84 16 164 41 1 76 164 4 1 10 164 4 1 2 164 785 ",
    "163 68 164 76 163 61 164 194 4 4 164 1 4 27 164 1 4 2 164 1 4 1 164 2 4 1 164 1 4 10 164 ",
    "1 4 4 164 1 4 1 164 1 4 1 164 6 4 1 164 4 4 1 164 1 4 1 164 1 4 1 164 1 4 3 164 1 4 2 164 ",
    "1 4 1 164 2 4 1 164 1 4 1 164 1 4 1 164 1 4 1 164 1 4 1 164 1 4 2 164 1 4 1 164 2 4 4 164 ",
    "1 4 7 164 1 4 4 164 1 4 4 164 1 4 1 164 1 4 10 164 1 4 17 164 5 4 3 164 1 4 5 164 1 4 17 ",
    "164 52 4 2 164 270 163 44 164 4 163 100 164 12 163 15 164 2 163 15 164 1 163 15 164 1 163 ",
    "37 164 10 163 174 164 56 163 26 52 1 163 2 164 13 163 44 164 4 163 9 164 7 163 2 164 14 ",
    "163 6 164 154 163 985 164 3 163 17 164 3 163 13 164 3 163 218 164 6 163 12 164 4 163 1 ",
    "164 15 163 12 164 4 163 56 164 8 163 10 164 6 163 40 164 8 163 30 164 2 163 12 164 4 163 ",
    "2 164 14 163 9 164 39 163 344 164 8 163 14 164 2 163 13 164 3 163 11 164 3 163 57 164 1 ",
    "163 1 164 4 163 16 164 2 163 12 164 4 163 10 164 7 163 147 164 1 163 103 164 1029 48 ",
    "42720 164 32 48 4382 164 2 48 5774 164 2 48 7473 164 15 48 622 164 2466 48 542 164 1506 ",
    "48 4939 164 5 48 8490 164 707463 163 1 164 30 163 96 164 128 162 240 164 196112"])

def runs : List (Nat × Nat) := Runs.pairs (Runs.numbers table)

/-- The place among the names of a character's script. -/
def ofChar? (c : Char) : Option Nat :=
  match Runs.lookup runs c.toNat with
  | some (n + 1) => some n
  | _ => none

/-- Sets of scripts, and the code points that belong to all of a set, as single ones or as a
first one with a count. -/
def extensionsTable : String :=
  (String.join
   ["Avst,Cari,Copt,Dupl,Elba,Geor,Glag,Gong,Goth,Grek,Hani,Latn,Lydi,Mahj,Perm,Shaw=183 ",
    "Beng,Cyrl,Deva,Latn,Lisu,Thai,Toto=700 Bopo,Latn=711,713+3,729 Latn,Lisu=717 ",
    "Latn,Thai=727 Cher,Copt,Cyrl,Grek,Latn,Perm,Tale,Sunu=768 ",
    "Cher,Cyrl,Grek,Latn,Osge,Tale,Sunu,Todr=769 Cher,Cyrl,Latn,Tfng=770 ",
    "Glag,Latn,Syrc,Thai,Sunu=771 Aghb,Cher,Copt,Cyrl,Goth,Grek,Latn,Osge,Syrc,Tfng,Todr=772 ",
    "Copt,Elba,Glag,Goth,Kana,Latn=773 Cyrl,Grek,Latn,Perm,Tfng=774 ",
    "Copt,Dupl,Hebr,Latn,Perm,Syrc,Tale,Tfng,Todr=775 ",
    "Armn,Cyrl,Dupl,Goth,Grek,Hebr,Latn,Perm,Syrc,Tale,Tfng=776 Latn,Tfng=777 ",
    "Dupl,Latn,Syrc=778 Cher,Cyrl,Latn,Osge=779 Cher,Latn,Tale=780 Latn,Sunu=781,784 ",
    "Ethi,Latn=782 Cyrl,Latn,Todr=785 Grek,Latn,Perm,Todr=787 ",
    "Cher,Dupl,Kana,Latn,Syrc,Tfng=803 Cher,Dupl,Latn,Syrc=804 Latn,Syrc=805,814 ",
    "Latn,Syrc,Sunu=813 Cher,Latn,Syrc=816 Aghb,Cher,Goth,Latn,Syrc,Thai,Sunu=817 ",
    "Grek=834,837,7616+2 Latn,Osge=856 Aghb,Latn,Todr=862 Latn=867+13 Copt,Grek=884+2 ",
    "Cyrl,Perm=1155 Cyrl,Glag=1156,1159,11843,42607 Cyrl,Latn=1157+2 Armn,Geor,Glag=1417 ",
    "Arab,Nkoo,Rohg,Syrc,Thaa,Yezi,Gara=1548,1563 Arab,Syrc,Thaa=1564 ",
    "Adlm,Arab,Nkoo,Rohg,Syrc,Thaa,Yezi,Gara=1567 ",
    "Adlm,Arab,Mand,Mani,Ougr,Phlp,Rohg,Sogd,Syrc=1600 Arab,Syrc=1611+11,1648 ",
    "Arab,Thaa,Yezi=1632+10 Arab,Rohg=1748 ",
    "Beng,Deva,Gran,Gujr,Guru,Knda,Latn,Mlym,Nand,Newa,Orya,Shrd,Taml,Telu,Tirh=2385 ",
    "Beng,Deva,Gran,Gujr,Guru,Knda,Latn,Mlym,Newa,Orya,Taml,Telu,Tirh=2386 ",
    "Beng,Deva,Dogr,Gong,Gonm,Gran,Gujr,Guru,Knda,Mahj,Mlym,Nand,Orya,Sind,Sinh,Sylo,Takr,Taml,",
    "Telu,Tirh,Onao=2404 ",
    "Beng,Deva,Dogr,Gong,Gonm,Gran,Gujr,Guru,Knda,Limb,Mahj,Mlym,Nand,Orya,Sind,Sinh,Sylo,Takr,",
    "Taml,Telu,Tirh,Gukh,Onao=2405 Deva,Dogr,Kthi,Mahj=2406+10 Beng,Cakm,Sylo=2534+10 ",
    "Guru,Mult=2662+10 Gujr,Khoj=2790+10 Gran,Taml=3046+14,70401,70403,70459+2,73680+2,73683 ",
    "Knda,Nand,Tutg=3302+10 Cakm,Mymr,Tale=4160+10 Geor,Glag,Latn=4347 Runr=5867+3 ",
    "Buhd,Hano,Tagb,Tglg=5941+2 Mong,Phag=6146+2,6149 Beng,Deva,Gran,Knda=7376,7378 ",
    "Deva=7377,7380,7387,7390+2,7395+6,7404,7406+4 Deva,Gran,Knda=7379 ",
    "Beng,Deva,Newa,Telu,Tirh=7381 Beng,Deva,Telu=7382 Deva,Newa,Shrd=7383 ",
    "Beng,Deva,Newa,Telu=7384 Deva,Shrd=7385,7388+2,7392 Deva,Knda,Mlym,Orya,Taml,Telu=7386 ",
    "Beng,Deva=7393,7413+2 Deva,Newa,Tirh=7394 Deva,Nand,Newa=7401 Beng,Deva,Shrd=7402 ",
    "Deva,Newa=7403 Beng,Deva,Newa,Shrd=7405 ",
    "Beng,Deva,Gran,Knda,Mlym,Nand,Orya,Sinh,Telu,Tirh,Tutg=7410 Deva,Gran=7411,7416+2 ",
    "Deva,Gran,Knda,Tutg=7412 Beng=7415 Nand=7418 Cyrl,Latn,Syrc=7672 Syrc=7674 ",
    "Latn,Mong,Phag=8239 Adlm,Arab=8271 Cari,Geor,Glag,Hung,Lyci,Orkh=8282 ",
    "Cari,Grek,Hung,Mero=8285 Deva,Gran,Latn=8432 Copt,Latn=11799 Avst,Orkh=11824 ",
    "Avst,Cari,Geor,Hung,Kthi,Lydi,Samr=11825 Dupl=11836,113824+4 Adlm,Arab,Hung=11841 ",
    "Hani,Tang=12272+16,12783 Bopo,Hang,Hani,Hira,Kana,Mong,Yiii=12289 ",
    "Bopo,Hang,Hani,Hira,Kana,Mong,Phag,Yiii=12290 ",
    "Bopo,Hang,Hani,Hira,Kana=12291,12307,12316+4,12336,12343,65093+2 ",
    "Hani=12294,12350+2,12688+16,12736+38,12832+40,12928+49,12992+12,13055,13144+25,13179+5,132",
    "80+31,119648+18,127568+2 Bopo,Hang,Hani,Hira,Kana,Mong,Tibt,Yiii=12296+2 ",
    "Bopo,Hang,Hani,Hira,Kana,Lisu,Mong,Tibt,Yiii=12298+2 ",
    "Bopo,Hang,Hani,Hira,Kana,Yiii=12300+6,12308+8,12539,65377+5 Bopo,Hani=12330+4 ",
    "Hira,Kana=12337+5,12441+4,12448,12540,65392,65438+2 Hani,Hira,Kana=12348+2 ",
    "Hani,Latn=42752+8 ",
    "Deva,Dogr,Gujr,Guru,Khoj,Knda,Kthi,Mahj,Mlym,Modi,Nand,Shrd,Sind,Takr,Tirh,Tutg=43056+3 ",
    "Deva,Dogr,Gujr,Guru,Khoj,Knda,Kthi,Mahj,Modi,Nand,Shrd,Sind,Takr,Tirh,Tutg=43059+3 ",
    "Deva,Dogr,Gujr,Guru,Khoj,Kthi,Mahj,Modi,Sind,Takr,Tirh=43062+2,43065 ",
    "Deva,Dogr,Gujr,Guru,Khoj,Kthi,Mahj,Modi,Shrd,Sind,Takr,Tirh=43064 Beng,Deva,Tutg=43249 ",
    "Deva,Taml=43251 Kali,Latn,Mymr=43310 Bugi,Java=43471 Arab,Nkoo=64830+2 ",
    "Arab,Thaa=65010,65021 Cpmn,Cprt,Linb=65792+2 Cprt,Linb=65794,65847+9 ",
    "Cprt,Lina,Linb=65799+45 Arab,Copt=66272+28 Mani,Ougr=68338"])

/-- A set of scripts by place, and the ranges of code points, each with its length. -/
structure Extension where
  scripts : List Nat
  ranges : List (Nat × Nat)

def place? (shortName : List Char) : Option Nat :=
  names.findIdx? fun entry => entry.head? == some (String.ofList shortName)

def extensionRange (cs : List Char) : Nat × Nat :=
  match splitOn '+' cs with
  | [first, count] => (Runs.number first, Runs.number count)
  | _ => (Runs.number cs, 1)

def extensions : List Extension :=
  (splitOn ' ' extensionsTable.toList).filterMap fun entry =>
    match splitOn '=' entry with
    | [scripts, ranges] =>
      some ⟨(splitOn ',' scripts).filterMap place?, (splitOn ',' ranges).map extensionRange⟩
    | _ => none

/-- Whether a character belongs to a script, by its extensions where it has any. -/
def hasScript (script : Nat) (c : Char) : Bool :=
  match extensions.find? fun e =>
      e.ranges.any fun (first, count) => first ≤ c.toNat && c.toNat < first + count with
  | some e => e.scripts.contains script
  | none => ofChar? c == some script

end TokenLint.Text.Script
