/-
  RequestRouter/Unicode/Script.lean
  =================================
  **Scripts.**

  The script of a character is the writing system that it belongs to.
-/
import RequestRouter.Unicode.Table

namespace RequestRouter.Unicode

def scriptTables : List NamedTable :=
  [⟨["adlm", "adlam"],
    ["go6DrCEJEB"]⟩,
   ⟨["aghb", "caucasianalbanian"],
    ["wphCzBLA"]⟩,
   ⟨["ahom"],
    ["g4lCaCOEW"]⟩,
   ⟨["arab", "arabic"],
    ["gwBEBFBNBCBfBJLZBrDBhBwCvBwHhBFqCBcwy8BtPCvEgBPwDEBmEj7DejCFIIhBFg43BDBaBBBACABJBDBABAGAEAB",
     "ABABCBBBACABABABABABBBACDBGBDBDBABJBQFCBEBQ0BB"]⟩,
   ⟨["armi", "imperialaramaic"],
    ["giiCVBI"]⟩,
   ⟨["armn", "armenian"],
    ["xpBlBCxBCCjs9BE"]⟩,
   ⟨["avst", "avestan"],
    ["g4iC1BDG"]⟩,
   ⟨["bali", "balinese"],
    ["g4GsCBxB"]⟩,
   ⟨["bamu", "bamum"],
    ["g1pB3CoowB4R"]⟩,
   ⟨["bass", "bassavah"],
    ["w26CdCF"]⟩,
   ⟨["batk", "batak"],
    ["g-GzBID"]⟩,
   ⟨["beng", "bengali"],
    ["gsCDBHCBCVBGBADDCICBCDIAEBBECY"]⟩,
   ⟨["bhks", "bhaiksuki"],
    ["ggnCIBsBBNKc"]⟩,
   ⟨["bopo", "bopomofo"],
    ["qXB5wLqBwDf"]⟩,
   ⟨["brah", "brahmi"],
    ["ggkCtCEjBJA"]⟩,
   ⟨["brai", "braille"],
    ["ggK_H"]⟩,
   ⟨["bugi", "buginese"],
    ["gwGbCB"]⟩,
   ⟨["buhd", "buhid"],
    ["g6FT"]⟩,
   ⟨["cakm", "chakma"],
    ["gokC0BBR"]⟩,
   ⟨["cans", "canadianaboriginal"],
    ["ggF_TwRlC6tgCP"]⟩,
   ⟨["cari", "carian"],
    ["g1gCwB"]⟩,
   ⟨["cham"],
    ["gwqB2BJNCJCD"]⟩,
   ⟨["cher", "cherokee"],
    ["g9E1CCFy7lBvC"]⟩,
   ⟨["chrs", "chorasmian"],
    ["w9jCb"]⟩,
   ⟨["copt", "coptic", "qaac"],
    ["ifNwkKzDFG"]⟩,
   ⟨["cpmn", "cyprominoan"],
    ["w8rCiD"]⟩,
   ⟨["cprt", "cypriot"],
    ["ggiCFCABrBBBDACA"]⟩,
   ⟨["cyrl", "cyrillic"],
    ["ggBkECoFw6FKgFAsCAnjEfgie_Cu8VBgw4B9BhBA"]⟩,
   ⟨["deva", "devanagari"],
    ["goCwCEOCZg7nBfgwcJ"]⟩,
   ⟨["diak", "divesakuru"],
    ["gomCGCACHBBBdBBCLJJ"]⟩,
   ⟨["dogr", "dogra"],
    ["ggmC7B"]⟩,
   ⟨["dsrt", "deseret"],
    ["gghCvC"]⟩,
   ⟨["dupl", "duployan"],
    ["ggvDqDFMDIHJCD"]⟩,
   ⟨["egyp", "egyptianhieroglyphs"],
    ["ggsC1iBK68D"]⟩,
   ⟨["elba", "elbasan"],
    ["gohCnB"]⟩,
   ⟨["elym", "elymaic"],
    ["g_jCW"]⟩,
   ⟨["ethi", "ethiopic"],
    ["gwEoCBDCGBABDCoBBDCgBBDCGBABDCOB4BBDCiCCfDZmvGWJGBGBGBGBGBGBGBGipfFCFCFJGBGxlvCGBDBBBO"]⟩,
   ⟨["geor", "georgian"],
    ["glElBBAFACqBBDw8CqBCCgiElBBAFA"]⟩,
   ⟨["glag", "glagolitic"],
    ["ggL_Cg9sDGBQCGBBBE"]⟩,
   ⟨["gong", "gunjalagondi"],
    ["grnCFBBBkBBBBFHJ"]⟩,
   ⟨["gonm", "masaramgondi"],
    ["gonCGBBBrBDABBBIIJ"]⟩,
   ⟨["goth", "gothic"],
    ["w5gCa"]⟩,
   ⟨["gran", "grantha"],
    ["g4kCDBHCBCVBGBBBECICBCCCAGAFGCGDE"]⟩,
   ⟨["grek", "greek"],
    ["wbDBCCDBAEABABCBABTB-BOPmpGEyBEEE0CAgKVCFClBCFCHBABABABeC0BBOBNCFBSCCBInJA-xiBA6uVuCRA_i0Bl",
     "C"]⟩,
   ⟨["gujr", "gujarati"],
    ["h0CCBIBCBVBGBBBECJBCBCCAPDCLHG"]⟩,
   ⟨["guru", "gurmukhi"],
    ["hwCCBFEBCVBGBBBBBBCABEEBCCDAHDBAHQ"]⟩,
   ⟨["hang", "hangul"],
    ["goE_HuxHBhI9CxDehCeh3dcjUj9KMWEwBk9JeDFCFCFCC"]⟩,
   ⟨["hani", "han"],
    ["g0LZB4CM1GvBABAZIODke_tGgC_vUgoWtLCpDoodBMGpgkB_2pBgB9oECt0FCwpHPtTitC9QivBq6EFppI"]⟩,
   ⟨["hano", "hanunoo"],
    ["g5FU"]⟩,
   ⟨["hatr", "hatran"],
    ["gniCSBBFE"]⟩,
   ⟨["hebr", "hebrew"],
    ["xsB2BIaEFop9BZBEBABBBBBJ"]⟩,
   ⟨["hira", "hiragana"],
    ["hiM1CGCh7_C-ISAdCtlQA"]⟩,
   ⟨["hluw", "anatolianhieroglyphs"],
    ["ggxCmS"]⟩,
   ⟨["hmng", "pahawhhmong"],
    ["g46ClCKJBGBUFS"]⟩,
   ⟨["hmnp", "nyiakengpuachuehmong"],
    ["go4DsBDNCJEB"]⟩,
   ⟨["hung", "oldhungarian"],
    ["gkjCyBNyBHF"]⟩,
   ⟨["ital", "olditalic"],
    ["g4gCjBJC"]⟩,
   ⟨["java", "javanese"],
    ["gsqBtCCJEB"]⟩,
   ⟨["kali", "kayahli"],
    ["goqBtBBA"]⟩,
   ⟨["kana", "katakana"],
    ["hlM5CCCwHPwGuBB3CugzBJBsByisBDBGBBBA_ICyBAOD"]⟩,
   ⟨["kawi"],
    ["g4nCQBoBDc"]⟩,
   ⟨["khar", "kharoshthi"],
    ["gwiCDBBFHBCBcCCEJHI"]⟩,
   ⟨["khmr", "khmer"],
    ["g8F9CCJGJmPf"]⟩,
   ⟨["khoj", "khojki"],
    ["gwkCRBuB"]⟩,
   ⟨["kits", "khitansmallscript"],
    ["k_7CA74G1OpBA"]⟩,
   ⟨["knda", "kannada"],
    ["gkDMBCBWBJBECIBCBDHBFCBDCJBC"]⟩,
   ⟨["kthi", "kaithi"],
    ["gkkCiCKA"]⟩,
   ⟨["lana", "taitham"],
    ["gxG-BBcCKGJGN"]⟩,
   ⟨["laoo", "lao"],
    ["h0DBBABEBXBABWCEBABGBJCD"]⟩,
   ⟨["latn", "latin"],
    ["hCZGZvBAPAFWBeBgOnBE7wGlBGwBFDFMBlChC_HxLANAQMtEBGAbARoB32Cfi1elDDxCUOwZqBBIBD28TG6gBZGZlhC",
     "FBpBBIl61BeGF"]⟩,
   ⟨["lepc", "lepcha"],
    ["ggH3BDODC"]⟩,
   ⟨["limb", "limbu"],
    ["goGeBLELEADL"]⟩,
   ⟨["lina", "lineara"],
    ["gwhC2JJVKH"]⟩,
   ⟨["linb", "linearb"],
    ["gggCLBZBSBBBOCNiB6D"]⟩,
   ⟨["lisu"],
    ["wmpBvBw1eA"]⟩,
   ⟨["lyci", "lycian"],
    ["g0gCc"]⟩,
   ⟨["lydi", "lydian"],
    ["gpiCZFA"]⟩,
   ⟨["mahj", "mahajani"],
    ["wqkCmB"]⟩,
   ⟨["maka", "makasar"],
    ["g3nCY"]⟩,
   ⟨["mand", "mandaic"],
    ["giCbCA"]⟩,
   ⟨["mani", "manichaean"],
    ["g2iCmBEL"]⟩,
   ⟨["marc", "marchen"],
    ["wjnCfCVBN"]⟩,
   ⟨["medf", "medefaidrin"],
    ["gy7C6C"]⟩,
   ⟨["mend", "mendekikakui"],
    ["gg6DkGCP"]⟩,
   ⟨["merc", "meroiticcursive"],
    ["gtiCXETCtB"]⟩,
   ⟨["mero", "meroitichieroglyphs"],
    ["gsiCf"]⟩,
   ⟨["mlym", "malayalam"],
    ["goDMBCByBBCBFEPCZ"]⟩,
   ⟨["modi"],
    ["gwlCkCLJ"]⟩,
   ⟨["mong", "mongolian"],
    ["ggGBCABTG4CHqB1t_BM"]⟩,
   ⟨["mroo", "mro"],
    ["gy6CeBJEB"]⟩,
   ⟨["mtei", "meeteimayek"],
    ["g3qBWpGtBCJ"]⟩,
   ⟨["mult", "multani"],
    ["g0kCGBABDBOBK"]⟩,
   ⟨["mymr", "myanmar"],
    ["ggE_EgqmBehDfwibT"]⟩,
   ⟨["nagm", "nagmundari"],
    ["wm5DpB"]⟩,
   ⟨["nand", "nandinagari"],
    ["gtmCHCtBCK"]⟩,
   ⟨["narb", "oldnortharabian"],
    ["g0iCf"]⟩,
   ⟨["nbat", "nabataean"],
    ["gkiCeII"]⟩,
   ⟨["newa"],
    ["gglC7CBE"]⟩,
   ⟨["nkoo", "nko"],
    ["g-B6BCC"]⟩,
   ⟨["nshu", "nushu"],
    ["h_7CAusQrM"]⟩,
   ⟨["ogam", "ogham"],
    ["g0Fc"]⟩,
   ⟨["olck", "olchiki"],
    ["wiHvB"]⟩,
   ⟨["orkh", "oldturkic"],
    ["ggjCoC"]⟩,
   ⟨["orya", "oriya"],
    ["h4CCBHCBCVBGBBBECICBCCHCEBBECR"]⟩,
   ⟨["osge", "osage"],
    ["wlhCjBEjB"]⟩,
   ⟨["osma", "osmanya"],
    ["gkhCdCJ"]⟩,
   ⟨["ougr", "olduyghur"],
    ["w7jCZ"]⟩,
   ⟨["palm", "palmyrene"],
    ["gjiCf"]⟩,
   ⟨["pauc", "paucinhau"],
    ["g2mC4B"]⟩,
   ⟨["perm", "oldpermic"],
    ["w6gCqB"]⟩,
   ⟨["phag", "phagspa"],
    ["giqB3B"]⟩,
   ⟨["phli", "inscriptionalpahlavi"],
    ["g7iCSFH"]⟩,
   ⟨["phlp", "psalterpahlavi"],
    ["g8iCRHDMG"]⟩,
   ⟨["phnx", "phoenician"],
    ["goiCbDA"]⟩,
   ⟨["plrd", "miao"],
    ["g47CqCE4BHQ"]⟩,
   ⟨["prti", "inscriptionalparthian"],
    ["g6iCVCH"]⟩,
   ⟨["rjng", "rejang"],
    ["wpqBjBLA"]⟩,
   ⟨["rohg", "hanifirohingya"],
    ["gojCnBIJ"]⟩,
   ⟨["runr", "runic"],
    ["g1FqCDK"]⟩,
   ⟨["samr", "samaritan"],
    ["ggCtBCO"]⟩,
   ⟨["sarb", "oldsoutharabian"],
    ["gziCf"]⟩,
   ⟨["saur", "saurashtra"],
    ["gkqBlCIL"]⟩,
   ⟨["sgnw", "signwriting"],
    ["gg2DrUPEBO"]⟩,
   ⟨["shaw", "shavian"],
    ["wihCvB"]⟩,
   ⟨["shrd", "sharada"],
    ["gskC_CgsCH"]⟩,
   ⟨["sidd", "siddham"],
    ["gslC1BClB"]⟩,
   ⟨["sind", "khudawadi"],
    ["w1kC6BFJ"]⟩,
   ⟨["sinh", "sinhala"],
    ["hsDCBRDXBIBACGDAEFBABHGJCCs_gCT"]⟩,
   ⟨["sogd", "sogdian"],
    ["w5jCpB"]⟩,
   ⟨["sogo", "oldsogdian"],
    ["g4jCnB"]⟩,
   ⟨["sora", "sorasompeng"],
    ["wmkCYHJ"]⟩,
   ⟨["soyo", "soyombo"],
    ["wymCyC"]⟩,
   ⟨["sund", "sundanese"],
    ["g8G_BgIH"]⟩,
   ⟨["sylo", "sylotinagri"],
    ["ggqBsB"]⟩,
   ⟨["syrc", "syriac"],
    ["g4BNB7BCCwIK"]⟩,
   ⟨["tagb", "tagbanwa"],
    ["g7FMBCBB"]⟩,
   ⟨["takr", "takri"],
    ["g0lC5BGJ"]⟩,
   ⟨["tale", "taile"],
    ["wqGdCE"]⟩,
   ⟨["talu", "newtailue"],
    ["gsGrBEZGKDB"]⟩,
   ⟨["taml", "tamil"],
    ["i8CBBFDCBDDBBABBDBDCDLEEDCBDCAGAOUl-kCxBNA"]⟩,
   ⟨["tang", "tangut"],
    ["g_7CAf_3GgQehDyD"]⟩,
   ⟨["tavt", "taiviet"],
    ["g0qBiCYE"]⟩,
   ⟨["telu", "telugu"],
    ["ggDMBCBWBPCIBCBDHBBCBBCDCJHI"]⟩,
   ⟨["tfng", "tifinagh"],
    ["wpL3BHBOA"]⟩,
   ⟨["tglg", "tagalog"],
    ["g4FVJA"]⟩,
   ⟨["thaa", "thaana"],
    ["g8BxB"]⟩,
   ⟨["thai"],
    ["hwD5BFb"]⟩,
   ⟨["tibt", "tibetan"],
    ["g4DnCBjBEmBBjBBOBGEB"]⟩,
   ⟨["tirh", "tirhuta"],
    ["gklCnCIJ"]⟩,
   ⟨["tnsa", "tangsa"],
    ["wz6CuCBJ"]⟩,
   ⟨["toto"],
    ["w04De"]⟩,
   ⟨["ugar", "ugaritic"],
    ["g8gCdBA"]⟩,
   ⟨["vaii", "vai"],
    ["gopBrJ"]⟩,
   ⟨["vith", "vithkuqi"],
    ["wrhCKBOBGBBBKBOBGBB"]⟩,
   ⟨["wara", "warangciti"],
    ["glmCyCMA"]⟩,
   ⟨["wcho", "wancho"],
    ["g24D5BFA"]⟩,
   ⟨["xpeo", "oldpersian"],
    ["g9gCjBEN"]⟩,
   ⟨["xsux", "cuneiform"],
    ["ggoC5cmDuDBELjG"]⟩,
   ⟨["yezi", "yezidi"],
    ["g0jCpBBCCB"]⟩,
   ⟨["yiii", "yi"],
    ["ggoBskBD2B"]⟩,
   ⟨["zanb", "zanabazarsquare"],
    ["gwmCnC"]⟩,
   ⟨["zinh", "inherited", "qaai"],
    ["gYvD1IBkOKaAgXD7qEtBCLkPCBMBGEAGADBmG_BsQBiGgB55DDrDBlrzBPQNveAiHA6iEAk-uBtBCWgRCRHCGeDy6rY",
     "vH"]⟩,
   ⟨["zyyy", "common"],
    ["AgCaFauBBOBEXAfAhOmBFECT0DAJAGABA9TAGAOADAgBA8EAkQAhEB5mBA1MDiJAvvBCnCBrGBBAtmBANAHDBFBCCAl",
     "YLC2CBKDKBORhB-BlBBCCFBaBQpBCE5UWKV_cgIzTCpEgQ9CyMUBABYPHED7CBDA6CBzEPgBlBJAwB_BfwCvBA4CnFg",
     "uG_BgoWhBmDClFJ0HAgFArMAOByuUBwGJWiBBSBDzEABfaFaKKAtBBgCGBGKEiICEsBDIwCMzBsBkHaktuBD86D8HDz",
     "NGWPQ_CzD8B1HKmBC9BDQIBHdE8B1GTMTM2CJYnE0CBmCBBCACBCDBLBABGBgCBDCHBGBbBDBEBADGBzKCjJCxBxjFj",
     "CsC8BiWrBEjDMOCOBOBkBKtF4BZBBNrBEIHBOF6E4eDQDMD5GGLEAPLE3BIJGnBIdCLEBOInB3KINCMDKD4BBAEPCLE",
     "JHyEBmDmghYAe_C"]⟩,
   ⟨["gara", "garay"],
    ["gqjClBDcIB"]⟩,
   ⟨["gukh", "gurungkhema"],
    ["go4C5B"]⟩,
   ⟨["krai", "kiratrai"],
    ["gq7C5B"]⟩,
   ⟨["onao", "olonal"],
    ["wu5DqBEA"]⟩,
   ⟨["sunu", "sunuwar"],
    ["g-mChBOJ"]⟩,
   ⟨["todr", "todhri"],
    ["guhCzB"]⟩,
   ⟨["tutg", "tulutigalari"],
    ["g8kCJBACABlBBJBACABDBJBBIB"]⟩,
   ⟨["berf", "beriaerfe"],
    ["g17CYCY"]⟩,
   ⟨["sidt", "sidetic"],
    ["gqiCZ"]⟩,
   ⟨["tayo", "taiyo"],
    ["g25DeBVIB"]⟩,
   ⟨["tols", "tolongsiki"],
    ["wtnCrBEJ"]⟩]

end RequestRouter.Unicode
