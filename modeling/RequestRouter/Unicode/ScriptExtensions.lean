/-
  RequestRouter/Unicode/ScriptExtensions.lean
  ===========================================
  **Script extensions.**

  A character that several scripts share extends each of them. Only the scripts whose extended set
  differs from the plain one are listed.
-/
import RequestRouter.Unicode.Table

namespace RequestRouter.Unicode

/-- The characters that each script uses, where they differ from its own. -/
def scriptExtensionTables : List NamedTable :=
  [⟨["adlm", "adlam"],
    ["_wBAgBAuwGAxvDA-1uDrCEJEB"]⟩,
   ⟨["aghb", "caucasianalbanian"],
    ["kYAsBAsBAxugCzBLA"]⟩,
   ⟨["arab", "arabic"],
    ["gwBEB2GBhBwCvBwHhBFqCBcv6FAxvDAuozB_TgBPwDEBmEjfbk7CejCFIIhBFg43BDBaBBBACABJBDBABAGAEABABAB",
     "CBBBACABABABABABBBACDBGBDBDBABJBQFCBEBQ0BB"]⟩,
   ⟨["armn", "armenian"],
    ["oYAoRlBCxBCCjs9BE"]⟩,
   ⟨["avst", "avestan"],
    ["3FA4rLBum3B1BDG"]⟩,
   ⟨["beng", "bengali"],
    ["8VA00BBRBaDBHCBCVBGBADDCICBCDIAEBBECYx2EABACBBAIAIACAEACC5_iBA"]⟩,
   ⟨["bopo", "bopomofo"],
    ["nWABCNAQB1oLCEJBMKDCAGAjGAJqBwDflkzBB6IE"]⟩,
   ⟨["bugi", "buginese"],
    ["gwGbCBv9jBA"]⟩,
   ⟨["buhd", "buhid"],
    ["15FBJT"]⟩,
   ⟨["cakm", "chakma"],
    ["mvCJwyBJ2lgC0BBR"]⟩,
   ⟨["cari", "carian"],
    ["3FAi9HACAzuDAuj1BwB"]⟩,
   ⟨["cher", "cherokee"],
    ["gYCBAGBWBLBujE1CCFy7lBvC"]⟩,
   ⟨["copt", "coptic", "qaac"],
    ["3FAoSADBBAsDBsDNwkKzDFG3IAom1Bb"]⟩,
   ⟨["cpmn", "cyprominoan"],
    ["gogCBu0LiD"]⟩,
   ⟨["cprt", "cypriot"],
    ["gogCCEsBDIg2BFCABrBBBDACA"]⟩,
   ⟨["cyrl", "cyrillic"],
    ["8VAjCCBABABACAFAuHvJw6FKgFAsCA_DAn_DfjCA8_d_Cu8VBgw4B9BhBA"]⟩,
   ⟨["deva", "devanagari"],
    ["8VAjyByCCqBw6EmBBB2fA_5hBJmFfgwcJ"]⟩,
   ⟨["dogr", "dogra"],
    ["krCLg2nBJm-b7B"]⟩,
   ⟨["dupl", "duployan"],
    ["3FAvSBBAYB34KAjujDqDFMDIHJCH"]⟩,
   ⟨["elba", "elbasan"],
    ["3FAtSA6vgCnB"]⟩,
   ⟨["ethi", "ethiopic"],
    ["uYAx3DoCBDCGBABDCoBBDCgBBDCGBABDCOB4BBDCiCCfDZmvGWJGBGBGBGBGBGBGBGipfFCFCFJGBGxlvCGBDBBBO"]⟩,
   ⟨["geor", "georgian"],
    ["3FAxmBA24ClBBAFACvBw8CqBCC6cAllDlBBAFAjIA"]⟩,
   ⟨["glag", "glagolitic"],
    ["3FArSABA-LACAhIAx7CA-6DAl9C_CjPArheAwsuCGBQCGBBBE"]⟩,
   ⟨["gong", "gunjalagondi"],
    ["3FAslCB6_kCFBBBkBBBBFHJ"]⟩,
   ⟨["gonm", "masaramgondi"],
    ["krCB68kCGBBBrBDABBBIIJ"]⟩,
   ⟨["goth", "gothic"],
    ["3FAsSBCAoBA-__Ba"]⟩,
   ⟨["gran", "grantha"],
    ["xqCBRBgUN8mEABBeCDB2fAvw8BDBHCBCVBGBBBEBJCBCCCAGAFGCGDE7iDBBA"]⟩,
   ⟨["grek", "greek"],
    ["3FAoSBCABABAKAuBACAqBHCDBAEABABCBABTB-BOPmpGEyBEEE0CC-JVCFClBCFCHBABABABeC0BBOBNCFBSCCBI-CA",
     "oGA-xiBA6uVuCRA_i0BlC"]⟩,
   ⟨["gujr", "gujarati"],
    ["xqCBRB7ICBIBCBVBGBBBECJBCBCCAPDCLHGwpnBJ"]⟩,
   ⟨["guru", "gurmukhi"],
    ["xqCBRB7ECBFEBCVBGBBBBBBCABEEBCCDAHDBAHQ5tnBJ"]⟩,
   ⟨["hang", "hangul"],
    ["goE_HhwHCEJBMOCGAjGA1B9CxDehCeh3dcjUj9KMWEwBpyJB6IE6BeDFCFCFCC"]⟩,
   ⟨["hani", "han"],
    ["3FAouLZB4CM1GaPBCBMBMBMCAGI7FA0EPgBlBJAwBnB4BwBPLzBA4CYKEgDeB_tGgC_vUg4BH4vUtLCpDrbB6IE8jcB",
     "MGp7YR-2HButD_2pBgB9oECt0FCwpHPtTitC9QivBq6EFppI"]⟩,
   ⟨["hano", "hanunoo"],
    ["g5FW"]⟩,
   ⟨["hebr", "hebrew"],
    ["nYBoU2BIaEFop9BZBEBABBBBBJ"]⟩,
   ⟨["hira", "hiragana"],
    ["hgMCEJBMQFBAEBD1CCH6CBoqzBB6IEKAtBBhjsB-ISAdCtlQA"]⟩,
   ⟨["hung", "oldhungarian"],
    ["6iIACAzuDAPA-x3ByBNyBHF"]⟩,
   ⟨["java", "javanese"],
    ["gsqBtCBKEB"]⟩,
   ⟨["kali", "kayahli"],
    ["goqBvB"]⟩,
   ⟨["kana", "katakana"],
    ["lYAdA9mLCEJBMQFBAEB7CDD_CwHPwGuBB3Ct3yBB6I-BwisBDBGBBBA_ICyBAOD"]⟩,
   ⟨["khoj", "khojki"],
    ["m3CJgqnBJmuaRBuB"]⟩,
   ⟨["knda", "kannada"],
    ["xqCBRB6YMBCBWBJBECIBCBDHBFCBDCJBC8-DABBGAXABA75iBF"]⟩,
   ⟨["kthi", "kaithi"],
    ["mrCJhmJA-veJmiaiCKA"]⟩,
   ⟨["latn", "latin"],
    ["hCZGZvBAMACAFWBeBgODAKABCBAJABAGEbOBBBAPCHBBBmBAFAEM1IBqmBBo9BAkgDlBGwBFDFMBlC5BAH_HvJAhCAN",
     "AQMzCA5BBGAbARoB32Cf3MAoneHalDDxCUOuJAhQqBBIBD28TG6gBZGZlhCFBpBBIl61BeGF"]⟩,
   ⟨["limb", "limbu"],
    ["lrCA68DeBLELEADL"]⟩,
   ⟨["lina", "lineara"],
    ["nogCsBsmB2JJVKH"]⟩,
   ⟨["linb", "linearb"],
    ["gggCLBZBSBBBOCNiB6DFCEsBDI"]⟩,
   ⟨["lisu"],
    ["8VAQA8pLBkmdvBw1eA"]⟩,
   ⟨["lyci", "lycian"],
    ["6iIAlx4Bc"]⟩,
   ⟨["lydi", "lydian"],
    ["3FA5rLAu32BZFA"]⟩,
   ⟨["mahj", "mahajani"],
    ["3FAslCLg2nBJ2oamB"]⟩,
   ⟨["mand", "mandaic"],
    ["gyBA_PbCA"]⟩,
   ⟨["mani", "manichaean"],
    ["gyBA_jhCmBEL"]⟩,
   ⟨["mero", "meroitichieroglyphs"],
    ["9iIAip6Bf"]⟩,
   ⟨["mlym", "malayalam"],
    ["xqCBRB6cMBCByBBCBFEPCZ66DAXA95iBC"]⟩,
   ⟨["modi"],
    ["whqBJmubkCLJ"]⟩,
   ⟨["mong", "mongolian"],
    ["ggGZG4CHqBk8BAx-DBFD0y5BM"]⟩,
   ⟨["mult", "multani"],
    ["mzCJwgiCGBABDBOBK"]⟩,
   ⟨["mymr", "myanmar"],
    ["ggE_EukmBAxFehDfwibT"]⟩,
   ⟨["nand", "nandinagari"],
    ["xqCASBgcJ5_DAIAHA15iBFqrcHCtBCK"]⟩,
   ⟨["newa"],
    ["xqCBi8EABBJAGABABAy49B7CBE"]⟩,
   ⟨["nkoo", "nko"],
    ["swBAOADAgN6BCC-p9BB"]⟩,
   ⟨["orkh", "oldturkic"],
    ["6iIA1uDAvu3BoC"]⟩,
   ⟨["orya", "oriya"],
    ["xqCBRB7MCBHCBCVBGBBBECICBCCHCEBBECRirEAXA"]⟩,
   ⟨["osge", "osage"],
    ["hYACAGAsCA3qgCjBEjB"]⟩,
   ⟨["ougr", "olduyghur"],
    ["gyBAxlhCA9jBZ"]⟩,
   ⟨["perm", "oldpermic"],
    ["3FAoSAFCKAvLAs2_BqB"]⟩,
   ⟨["phag", "phagspa"],
    ["igGBBAphCAy-DA9he3B"]⟩,
   ⟨["phlp", "psalterpahlavi"],
    ["gyBA_phCRHDMG"]⟩,
   ⟨["rohg", "hanifirohingya"],
    ["swBAOADAgBAzEArxhCnBIJ"]⟩,
   ⟨["runr", "runic"],
    ["g1F4C"]⟩,
   ⟨["samr", "samaritan"],
    ["ggCtBCOyvJA"]⟩,
   ⟨["shaw", "shavian"],
    ["3FA48gCvB"]⟩,
   ⟨["shrd", "sharada"],
    ["xqCAl8EABACBCAJACAi6iBFCAnqa_CgsCH"]⟩,
   ⟨["sind", "khudawadi"],
    ["krCBq2nBJ2za6BFJ"]⟩,
   ⟨["sinh", "sinhala"],
    ["krCB7gBCBRDXBIBACGDAEFBABHGJCC93DAun9BT"]⟩,
   ⟨["sogd", "sogdian"],
    ["gyBAvniCpB"]⟩,
   ⟨["sylo", "sylotinagri"],
    ["krCBgEJwwnBsB"]⟩,
   ⟨["syrc", "syriac"],
    ["jYBCBBAYCHBBB6WAOBCAgBAKKaAvENB7BCCwIKtsFABA"]⟩,
   ⟨["tagb", "tagbanwa"],
    ["15FBpBMBCBB"]⟩,
   ⟨["takr", "takri"],
    ["krCBq2nBJmyb5BGJ"]⟩,
   ⟨["tale", "taile"],
    ["gYBFBDAzpDJmoCdCE"]⟩,
   ⟨["taml", "tamil"],
    ["xqCBRB8QBBFDCBDDBBABBDBDCDLEEDCBDCAGAOU_mEA4gjBAtwaABA3BBjkDxBNA"]⟩,
   ⟨["tang", "tangut"],
    ["w_LPvPAwvvCAf_3GgQehDyD"]⟩,
   ⟨["telu", "telugu"],
    ["xqCBRB6UMBCBWBPCIBCBDHBBCBBCDCJHI1iEBBABAXA"]⟩,
   ⟨["tfng", "tifinagh"],
    ["iYABABDZAswK3BHBOA"]⟩,
   ⟨["tglg", "tagalog"],
    ["g4FVJAVB"]⟩,
   ⟨["thaa", "thaana"],
    ["swBAOBCAgCJ2IxBgy9BAKA"]⟩,
   ⟨["thai"],
    ["8VAaArBAtBAv2C5BFb"]⟩,
   ⟨["tibt", "tibetan"],
    ["g4DnCBjBEmBBjBBOBGEBthID"]⟩,
   ⟨["tirh", "tirhuta"],
    ["xqCBRBv7EAMAPA95iBJmibnCIJ"]⟩,
   ⟨["toto"],
    ["8VAz-3De"]⟩,
   ⟨["yezi", "yezidi"],
    ["swBAOADAgCJ2giCpBBCCB"]⟩,
   ⟨["yiii", "yi"],
    ["hgMBFJCH_GAk4bskBD2B60WE"]⟩,
   ⟨["zinh", "inherited", "qaai"],
    ["vYACABODGCACPBBBRBEBDwvBB7qEtBCL2W1BBABEsQBiGfwo3BPQNveAiozBtBCWgRCRHCGeDy6rYvH"]⟩,
   ⟨["zyyy", "common"],
    ["AgCaFauBBLBBBEXAfAhOCBJBADABIBABFFECT-DAGABA9TA3GAkQA8qBA1MDnhELCgBBeBJBBBGBKDKBORhB-BlBBCC",
     "FBaBQpBCE5UWKV_cgIzTCpEgQWBXCJBDBABZiNADANANAVAxQXfAxBOMDhFJF_CfAguG_BooWZmDCweAOBk1UJWUCLB",
     "SBDzEABfaFaF_DGBGKEyMMzBsBjwyB8HDzNGWPQ_CzD8B1HKmBC9BDQIBHdE8B1GTMTM2CbGnE0CBmCBBCACBCDBLBA",
     "BGBgCBDCHBGBbBDBEBADGBzKCjJCxBxjFjCsC8BiWrBEjDMOCOBOBkBKtF4BZBBNrBEIXF6E4eDQDMD5GGLEAPLE3BI",
     "JGnBIdCLEBOInB3KINCMDKD4BBAEPCLEJHyEBmDmghYAe_C"]⟩,
   ⟨["gara", "garay"],
    ["swBAOADAg5hClBDcIB"]⟩,
   ⟨["gukh", "gurungkhema"],
    ["lrCA681C5B"]⟩,
   ⟨["onao", "olonal"],
    ["krCBqj3DqBEA"]⟩,
   ⟨["sunu", "sunuwar"],
    ["gYBBAJACAcADAukmChBOJ"]⟩,
   ⟨["todr", "todhri"],
    ["hYACACAJABAqCAhzgCzB"]⟩,
   ⟨["tutg", "tulutigalari"],
    ["mnDJigEABA75iBF7FAu0aJBACABlBBJBACABDBJBBIB"]⟩]

end RequestRouter.Unicode
