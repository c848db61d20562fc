/-
  RequestRouter/Unicode/Break.lean
  ================================
  **Classes of breaks.**

  Where a text may be broken into grapheme clusters, words and sentences depends on the classes of its
  characters.  The class of all other characters has no table.
-/
import RequestRouter.Unicode.Table

namespace RequestRouter.Unicode

/-- The characters of each class of breaks between grapheme clusters. -/
def graphemeBreakTables : List NamedTable :=
  [⟨["control", "cn"],
    ["AJBBBR_CgBNAurBAxvEA8_BACBYGxBPv03BAwHL0hNPgjiBDvmFHl0rYfgD_DwHvwD"]⟩,
   ⟨["cr"],
    ["NA"]⟩,
   ⟨["extend", "ex"],
    ["gYvDzIGnIsBBABBBBBAoCKwBUQAlDGCFCBBDjBAea7CK6BIJAYDBIBCBErBC7BIqBXBf3BABAEHEADGKBdA6BABACDI",
     "AJAKBaACB5BAEBEBCCDAeBDALB5BAEEBBEAUBWFBA6BABBBDIAHCKBeA7BABAMAJAoBADA3BABCFCBDHBLBdA6BACBB",
     "ADCBDHBLBcB5BBBACDIAJAKBdAoCAEACCBAIAxCACGMHiDACILGpCBbABABA3BNBEBBFKBjBJAmDDBFBBCBZBECQDNA",
     "CBGAPA_VCydDcCdBeBgCBBGIACKJAtBCBA1DBiBA2DCEBJAGC7GBCA6BABGBABACHGJCAwBtBCLUDwBJECmBIMBgBDC",
     "F4BABBDABE4BHCB4ECBMBGEAGADBmG_BsQAjGgB-_CCtEAgDfqRFpDB0udDBJgBBwCBwIADAEAZBFA3EBaRNAmBHZKB",
     "AsBCwBACDCBCAkBAjCFCBCBMAIAvBAzBABCCBFBBAqBBIAuHACAEAw5TAhXPQPuLB9SAiHA1EEm0BCBBFDoBCEAlFB9",
     "RDhCE9JBtCFmCKxBD7DA2BOpBACBKCxBDCBHA9BCkBEBH-BAMB0BIBAIDCA_CCCDGACA9EADHVB5BBBABAMAJAOGDEj",
     "CACFBACABCECBAOB1CHCCBAXAxCACFBACABBBBrHACDGBBBbB1CHCABBqDABACHlDABACDBEjIIBB1HAKDEAwEDCBEA",
     "gBJoBFCDIAJFCCuBMBBmGABCBApGGBFBAyCVCGBBBB6DFDABBBGBAoCBDABA7KBLB0BEFCXAlnFAGOomLLDCguCE7BG",
     "4gBA_BDxCALBrlTBhzEtBCW-QEDFIHCGeD0EC79B2BExBIAOAWEBOwqBGBQCGBBBEkDAgFG3LA9BD8PD-HBzHACAHBF",
     "A6OGtDGw1CEghjY_CgEvH"]⟩,
   ⟨["l"],
    ["goE_CggmBc"]⟩,
   ⟨["lf"],
    ["KA"]⟩,
   ⟨["lv"],
    ["ggrBAbAbAbAbAbAbAbAbAbAbAbAbAbAbAbAbAbAbAbAbAbAbAbAbAbAbAbAbAbAbAbAbAbAbAbAbAbAbAbAbAbAbAbA",
     "bAbAbAbAbAbAbAbAbAbAbAbAbAbAbAbAbAbAbAbAbAbAbAbAbAbAbAbAbAbAbAbAbAbAbAbAbAbAbAbAbAbAbAbAbAb",
     "AbAbAbAbAbAbAbAbAbAbAbAbAbAbAbAbAbAbAbAbAbAbAbAbAbAbAbAbAbAbAbAbAbAbAbAbAbAbAbAbAbAbAbAbAbA",
     "bAbAbAbAbAbAbAbAbAbAbAbAbAbAbAbAbAbAbAbAbAbAbAbAbAbAbAbAbAbAbAbAbAbAbAbAbAbAbAbAbAbAbAbAbAb",
     "AbAbAbAbAbAbAbAbAbAbAbAbAbAbAbAbAbAbAbAbAbAbAbAbAbAbAbAbAbAbAbAbAbAbAbAbAbAbAbAbAbAbAbAbAbA",
     "bAbAbAbAbAbAbAbAbAbAbAbAbAbAbAbAbAbAbAbAbAbAbAbAbAbAbAbAbAbAbAbAbAbAbAbAbAbAbAbAbAbAbAbAbAb",
     "AbAbAbAbAbAbAbAbAbAbAbAbAbAbAbAbAbAbAbAbAbAbAbAbAbAbAbAbAbAbAbAbAbAbAbAbAbAbAbAbAbAbAbAbAbA",
     "bAbAbAbAbAbAbAbAbAbAbAbAbAbAbAbAbAbAbAbAbAbAbAbAbAbAbAbAbAbAbAbAbAbAbAbAbAbAbAbAbAbAbAbAbAb",
     "AbAbAbAbAbAbAbAbAbAbAbAbAbAbAbAbAbAbAbAbAbAbAbAbAbAbAbAbAbAbAbAbAbAbAbAbA"]⟩,
   ⟨["lvt"],
    ["hgrBaBaBaBaBaBaBaBaBaBaBaBaBaBaBaBaBaBaBaBaBaBaBaBaBaBaBaBaBaBaBaBaBaBaBaBaBaBaBaBaBaBaBaBa",
     "BaBaBaBaBaBaBaBaBaBaBaBaBaBaBaBaBaBaBaBaBaBaBaBaBaBaBaBaBaBaBaBaBaBaBaBaBaBaBaBaBaBaBaBaBaB",
     "aBaBaBaBaBaBaBaBaBaBaBaBaBaBaBaBaBaBaBaBaBaBaBaBaBaBaBaBaBaBaBaBaBaBaBaBaBaBaBaBaBaBaBaBaBa",
     "BaBaBaBaBaBaBaBaBaBaBaBaBaBaBaBaBaBaBaBaBaBaBaBaBaBaBaBaBaBaBaBaBaBaBaBaBaBaBaBaBaBaBaBaBaB",
     "aBaBaBaBaBaBaBaBaBaBaBaBaBaBaBaBaBaBaBaBaBaBaBaBaBaBaBaBaBaBaBaBaBaBaBaBaBaBaBaBaBaBaBaBaBa",
     "BaBaBaBaBaBaBaBaBaBaBaBaBaBaBaBaBaBaBaBaBaBaBaBaBaBaBaBaBaBaBaBaBaBaBaBaBaBaBaBaBaBaBaBaBaB",
     "aBaBaBaBaBaBaBaBaBaBaBaBaBaBaBaBaBaBaBaBaBaBaBaBaBaBaBaBaBaBaBaBaBaBaBaBaBaBaBaBaBaBaBaBaBa",
     "BaBaBaBaBaBaBaBaBaBaBaBaBaBaBaBaBaBaBaBaBaBaBaBaBaBaBaBaBaBaBaBaBaBaBaBaBaBaBaBaBaBaBaBaBaB",
     "aBaBaBaBaBaBaBaBaBaBaBaBaBaBaBaBaBaBaBaBaBaBaBaBaBaBaBaBaBaBaBaBaBaBaBaBa"]⟩,
   ⟨["prepend", "pp"],
    ["gwBF3GAxBAgMBwCArjBAu7gCAPA0HBtQAtrBABAiKF8VA7NA"]⟩,
   ⟨["regionalindicator", "ri"],
    ["mv8DZ"]⟩,
   ⟨["spacingmark", "sm"],
    ["joCA3BACCIDBByBB7BBGBCB2BA6BCiCA6BCIABB1BB8BAGBCByDABBDCBC0BC9BD9BB6BACABBuBAOB7BBFCBC1BBsC",
     "BGGTB_BA_DAqEB_BAxFAJBZBsBAx5BAHHBB6KDCCEBBFgHB6BABAVFxEA5BDgCAeAEB_BACCBA1BHIBrFAVAr5iBBCA",
     "4CByBPuEAwBAwBBEBCBvDBCBYA9EACBFAtHBBBBBBAzgZABA_DAtBCEBzDAYB7BAwBCJAOA9CCDBsFCfB7BABDCBCBV",
     "B1CBPABBnDCIBDArDBGABBBACAuHBGDCAxDCIBBAtDABBuDAHAlICJA4HEBBHABAuECIDEA0CAdB-BApGADABAnGAOA",
     "qDAHACA1GEEBBA-KBMAwBBIBqvQCkxD2B"]⟩,
   ⟨["t"],
    ["otE3CruxBwB"]⟩,
   ⟨["v"],
    ["grEnCowxBW8slBADD"]⟩,
   ⟨["zwj"],
    ["tgIA"]⟩]

/-- The characters of each class of breaks between words. -/
def wordBreakTables : List NamedTable :=
  [⟨["aletter", "le"],
    ["hCZGZvBAKACABAFWBeB_OGhBwDEBBCDBAGABCBABTByCBqEIlFBlBCDBABoBBAoDAsBqBjBBBiDBAPBHBKCCAPBBdd4",
     "CLAYgBJBEAFVEAJADAXYHKFXBGQpB6B1BDASAHJPPEHCBCVBGBADDDAQANBBCOBKAIFEBCVBGBBBBBBfDBATCQIBCBV",
     "BGBBBEDASAPBXALHCBCVBGBBBEDAeBBCPARABFDCBDDBBABBDBDCDLWA0BHBCBWBPDAaCBBCBeAEHBCBWBJBEDAeCBB",
     "PBRIBCBoBCAQAFCICYFFRDXBIBACG5JA_BHBjBbEzIlBBAFACqBBsKBDCGBABDCoBBDCgBBDCGBABDCOB4BBDCiClBP",
     "Q1CCFDrTCQBZFqCDKHRNSOROMBCvF4CHEChBBAFlCKehHWuHuBRH2BdNBKrBajBpBCKjBCKFqBCCpBDBFBBDAF_FgC1",
     "ICFClBCFCHBABABABeC0BBGBADCBGDDCFEMFCBG0DANAQMlDAEACJBADEGABABABDBKCDFEEARoBtZzB24BkHGDDBMl",
     "BBAFAC3BHAQWJGBGBGBGBGBGBGBGwCA1OA1BBoGqBB9CRfgybskBjCtBCsIDPKBUuBQeCvCY0GUQBCBDBWdzBOxB-BF",
     "DABBLbKWZcHuBcAwBoBXCBH0EKHCMFCFCFJGBGB5BGyDdj9KMWEwBk4IGME4BhDhBqLS_BC1BoBL0DEBmEkBZGZlCeD",
     "FCFCFCCjBLBZBSBBBOCNiB6DlC0BrIcDwBvBfNdFlBKdCjBEHBEqB9ESjBEjBEnBIzBMKBOBGBBBKBOBGBBDzBM2JJV",
     "KHYFBpBBIlCFCABrBBBDACWKWJehCSBBKVKZGZmB3BGBgCAPDBCBcqBcDcjBHBbb1BKVKSNRuDoC3ByBNyBNjBmBbJW",
     "6HpBGBQF4BcKAIVqBRuBUbWM0B5BBCANsBgBYajBdACAIiBDAMvBODVABAjBRBYTB_BGBABDBOBJHuBmBHCBCVBGBBB",
     "EDASAMEeJBACABlBBAZABAsB0BSDUCevBUBBA4FuBpBDkBvBUA7BqBNAnKrB0D_BfHCACHBBBXPABA-CHCmBQABAcAK",
     "nBHAVALtBTASoCnGgBfIBkBRAxBdwDGBBBlBVAZFBBBfOAXrBkISPABMBhB8DAvC5cmDuDRjGsyCgDPvhBRFZ68DFmS",
     "51Gdi3B4RHeRuCRdSvBQDfUFSwNsBzG_BgBYCYsBqCFAiCMgCBBA8gTqDFMDIHJm7F0CBmCBBCACBCDBLBABGBgCBDC",
     "HBGBbBDBEBADGBzKCYBYBeBYBeBYBeBYBeBYBH05BeGFlI9ByEsBKGQAhKdSrBkPbkHdCAvGeBCBBBGCEJBgHGBDBBB",
     "OBkG7BjCHA0lBDBaBBBACABJBDBABAGAEABABABCBBBACABABABABABBBACDBGBDBDBABJBQFCBEBQ0TZGZGZ"]⟩,
   ⟨["cr"],
    ["NA"]⟩,
   ⟨["doublequote", "dq"],
    ["iBA"]⟩,
   ⟨["extend"],
    ["gYvDzIGnIsBBABBBBBAoCKwBUQAlDGCFCBBDjBAea7CK6BIJAYDBIBCBErBC7BIqBXBgB2BCBRBGKBdC4BABGCBCCJA",
     "KBaACC4BABEEBCCDAeBDALC4BABHBCBCUBWFBC4BABGCBCCHCKBeA7BEDCBDJAoBE3BABGBCBDHBLBdC4BABGBCBDHB",
     "LBPAMD3BBBGBCBDJAKBdCmCAEFBABHSB9BACGMHiDACILGpCBbABABAEBxBTBBFKBjBJAkDTXDECBCCGDDNLBAKD_VC",
     "ydDcCdBeBgCfJAtBCBA1DBiBA2DLEL7GE5BJBcCAwBtBCLUEvBQmBIMCeM4BNwBT4ECBUEAGACCmG_BsQAjGgB-_CCt",
     "EAgDfqRFpDB0udDBJgBBwCBwIADAEAXEEAzCByBRaRNAmBHZMsBDvBNkBAjCNMAIBtBCyBABCCBFBBApBEFBsHHBBw5",
     "TAhXPQPuLB9SAiHA1EEm0BCBBFDoBCEAlFB9RDhCE9JBtCFmCKxBD6DC1BOpBACBKDtBKHA9BCkBNQBsBAMCwBNIDBB",
     "8CLGACA9ELVD3BBBGCBCCJAKBCGDEjCIBACABDBEBAOByCRXAxCTrHGCIbByCQqDMlDOgIO1HFBBCDBABBtEGCGDAcJ",
     "oBGBDIAJKuBPmGHnGHBHyCVBN6DFDABBBGBAiCEBBBE7KDJBBAwBGDEXAlnFAGOomLRguCE7BG4gBAB2BHDxCALBrlT",
     "BhzEtBCW-QEDFIHCGeD0EC79B2BExBIAOAWEBOwqBGBQCGBBBEkDAgFG3LA9BD8PD-HBzHACAHBFA6OGtDGw1CEghjY",
     "_CgEvH"]⟩,
   ⟨["extendnumlet", "ex"],
    ["_CAv-HAPBTA-u3BBYCvHA"]⟩,
   ⟨["format", "fo"],
    ["tFAurBAxvEA__BBaExBEBJv03BA5HC0hNPgjiBDvmFHm0rYA"]⟩,
   ⟨["hebrewletter", "hl"],
    ["wuBaEDqp9BABJBMBEBABBBBBJ"]⟩,
   ⟨["katakana", "ka"],
    ["xhMElDBD6CBDwHPwGuBB3CugzB3ByisBDBGBBBA_ICyBAOD"]⟩,
   ⟨["lf"],
    ["KA"]⟩,
   ⟨["midletter", "ml"],
    ["6BA8DAvWA3OA0EAyxGArv3BAhCAkGA"]⟩,
   ⟨["midnum", "mn"],
    ["sBAOAiaAqQAiEB-CArMAriGArw3BADA3FAOA"]⟩,
   ⟨["midnumlet", "mb"],
    ["uBAp_HBKAtx3BA0FAGA"]⟩,
   ⟨["newline", "nl"],
    ["LB4DAi9HB"]⟩,
   ⟨["numeric", "nu"],
    ["wBJmuBF6CJBAxDASJmGJmGBwCAjEJ2DJ2DJ2DJ2DJ2DJ2DJ2DJ2DJ2DJgDJ2DJmCJ2IJmCJm6BJmBJsJJgEKlFJGJ2F",
     "J2CJmEJGJmuiBJmVJmBJmGJWJ2CJ2MJ24UJmsBJmkCJGJ8YJtCAPAiBJ8BJwEJ2IJ2KJ2DJ2LJmDJGTsCJmNJmDJ2UJ",
     "2CJ2HJmCJ2BJmLJ2uQJmpCJ2CJmEJ2QJ27XJ02CxBgqCJmNJ2PJ3HJ1aJ20EJ"]⟩,
   ⟨["regionalindicator", "ri"],
    ["mv8DZ"]⟩,
   ⟨["singlequote", "sq"],
    ["nBA"]⟩,
   ⟨["wsegspace"],
    ["gBA_yFA_rCGBC0CAg9DA"]⟩,
   ⟨["zwj"],
    ["tgIA"]⟩]

/-- The characters of each class of breaks between sentences. -/
def sentenceBreakTables : List NamedTable :=
  [⟨["aterm", "at"],
    ["uBA1_HAtx3BA7FA"]⟩,
   ⟨["close", "cl"],
    ["iBAECxBABAdABAtBAPA-zDD96BB7rCHZBKB2BBOB5TDdBwhBFHNvCBfJzMV_BDgBBigBNOBCJYASHrNJCHBC-ozBB3G",
     "BcPCBQFpFBxBABAdABABBBBy49BC"]⟩,
   ⟨["cr"],
    ["NA"]⟩,
   ⟨["extend", "ex"],
    ["gYvDzIGnIsBBABBBBBAoCKwBUQAlDGCFCBBDjBAea7CK6BIJAYDBIBCBErBC7BIqBXBgB2BCBRBGKBdC4BABGCBCCJA",
     "KBaACC4BABEEBCCDAeBDALC4BABHBCBCUBWFBC4BABGCBCCHCKBeA7BEDCBDJAoBE3BABGBCBDHBLBdC4BABGBCBDHB",
     "LBPAMD3BBBGBCBDJAKBdCmCAEFBABHSB9BACGMHiDACILGpCBbABABAEBxBTBBFKBjBJAkDTXDECBCCGDDNLBAKD_VC",
     "ydDcCdBeBgCfJAtBCBA1DBiBA2DLEL7GE5BJBcCAwBtBCLUEvBQmBIMCeM4BNwBT4ECBUEAGACCmG_BsQBiGgB-_CCt",
     "EAgDfqRFpDB0udDBJgBBwCBwIADAEAXEEAzCByBRaRNAmBHZMsBDvBNkBAjCNMAIBtBCyBABCCBFBBApBEFBsHHBBw5",
     "TAhXPQPuLB9SAiHA1EEm0BCBBFDoBCEAlFB9RDhCE9JBtCFmCKxBD6DC1BOpBACBKDtBKHA9BCkBNQBsBAMCwBNIDBB",
     "8CLGACA9ELVD3BBBGCBCCJAKBCGDEjCIBACABDBEBAOByCRXAxCTrHGCIbByCQqDMlDOgIO1HFBBCDBABBtEGCGDAcJ",
     "oBGBDIAJKuBPmGHnGHBHyCVBN6DFDABBBGBAiCEBBBE7KDJBBAwBGDEXAlnFAGOomLRguCE7BG4gBAB2BHDxCALBrlT",
     "BhzEtBCW-QEDFIHCGeD0EC79B2BExBIAOAWEBOwqBGBQCGBBBEkDAgFG3LA9BD8PD-HBzHACAHBFA6OGtDG12lY_CgE",
     "vH"]⟩,
   ⟨["format", "fo"],
    ["tFAurBAyHA-nEA8_BACBaExBEBJv03BA5HC0hNPgjiBDvmFHm0rYA"]⟩,
   ⟨["lf"],
    ["KA"]⟩,
   ⟨["lower", "lo"],
    ["hDZvBAKAEAkBXBHBABABABABABABABABABABABABABABABABABABABABABABABABABABABBBABABABABABABABBBABA",
     "BABABABABABABABABABABABABABABABABABABABABACABABCCABACADBEACADCCACABABACABBBACADABACBCCGACAC",
     "ABABABABABABABABBBABABABABABABABABBCABADABABABABABABABABABABABABABABABABABABABABABABABABABA",
     "BABABABGCACBBAEABABABABkCCiBHBeEsEABADACDSAbiBBBDCBABABABABABABABABABABABEBACACBzBvBBABABAB",
     "ABABABABABABABABABABABABABAJABABABABABABABABABABABABABABABABABABABABABABABABABABACABABABABA",
     "BABBBABABABABABABABABABABABABABABABABABABABABABABABABABABABABABABABABABABABABABABABABABABAB",
     "ABABABABAwBoBz7CA7XFikCIBA1D_FhCABABABABABABABABABABABABABABABABABABABABABABABABABABABABABA",
     "BABABABABABABABABABABABABABABABABABABABABABABABABABABABABABABABABABABABABABABABABABABABABIB",
     "ABABABABABABABABABABABABABABABABABABABABABABABABABABABABABABABABABABABABABABABABABABABABABA",
     "BABABIIFKHIHIFKHIHINCHIHIHIEBBGADCBBIDCBIHKCBB5DANAQMtDADBDAbAEAEACBIDEAhBPEAraZm6BvBBADBBA",
     "BABAEABBBHDABABABABABABABABABABABABABABABABABABABABABABABABABABABABABABABABABABABABABABABAB",
     "ABABABABABABABABABBHABAEAMlBBAFAzoeABABABABABABABABABABABABABABABABABABABABABABATABABABABAB",
     "ABABABABABABABABClEABABABABABABCBABABABABABABABABABABABABABABABABABABABABABABABABABABABABAB",
     "ABJBABACABABABABAEABACABCBABABABABABABABABABAFAFABABABABABABABAEABACABABABABABABABAVDBABC1Z",
     "qBBNGvCg6TGMEphBZtmBnBoEjB7EKBOBGBBjOACCBpBBIloByB9DV65CfgsVf7BYmqZZaGBRaZaDBABGBKaZaZaZaZa",
     "ZaZaZaZabcYBFaYBFaYBFaYBFaYBFBA05BJBTGFlI9B0lChB"]⟩,
   ⟨["numeric", "nu"],
    ["wBJmuBF6CJBBwDASJmGJmGBwCAjEJ2DJ2DJ2DJ2DJ2DJ2DJ2DJ2DJ2DJgDJ2DJmCJ2IJmCJm6BJmBJsJJgEKlFJGJ2F",
     "J2CJmEJGJmuiBJmVJmBJmGJWJ2CJ2MJ24UJmsBJmkCJGJ8YJtCAPAiBJ8BJwEJ2IJ2KJ2DJ2LJmDJGTsCJmNJmDJ2UJ",
     "2CJ2HJmCJ2BJmLJ2uQJmpCJ2CJmEJ2QJ27XJ02CxBgqCJmNJ2PJ3HJ1aJ20EJ"]⟩,
   ⟨["oletter", "le"],
    ["7NAEDwGBjBGGLaABAlEAkPA2DaEEsBqBjBBBiDBAPBHBKCCAQABdd4CLAYgBJBEAFVEAJADAXYHKFXBGQpB6B1BDASA",
     "HJPPEHCBCVBGBADDDAQANBBCOBKAIFEBCVBGBBBBBBfDBATCQIBCBVBGBBBEDASAPBXALHCBCVBGBBBEDAeBBCPARAB",
     "FDCBDDBBABBDBDCDLWA0BHBCBWBPDAaCBBCBeAEHBCBWBJBEDAeCBBPBRIBCBoBCAQAFCICYFFRDXBIBACG6BvBBBMG",
     "6BBBABEBXBABJBBJACEBAVDgBA_BHBjBbEzDqBUAQFEDDADBHCEMMAhCqBCrKBDCGBABDCoBBDCgBBDCGBABDCOB4BB",
     "DCiClBPxDrTCQBZFqCDKHRNSOROMBCPzBjBAEAjC4CHEChBBAFlCKexBdCELrBEZ2BWJ0ByCA9CuBRH2BdNBKrBajBp",
     "BCKjBSqBCCpBDBFBBDA6hBDnCCCDn9C3BHAQWJGBGBGBGBGBGBGBGwCA1OCZIHECEE1CGCB5CBDFqBB9CRfwBPgQ_tG",
     "gCs0VjCtBCsIDPKBiCAQAgBvCnBIoDAGAnDADGBCBDBWdzBOxB-BFDABBLbKWZcHuBcAQEBJKEBoBXCBHUWDADxBBAD",
     "BCECABAYCCKHCMFCFCFJGBGxEiBdj9KMWEwBkoItLCpDjCABJBMBEBABBBBBrDhBqLS_BC1BoBL0DEBmEpD3BCeDFCF",
     "CFCCjBLBZBSBBBOCNiB6DlC0BrIcDwBvBfNdFlBKdCjBEHBE6DtCiDnBIzB8CzBM2JJVKHZB9DFCABrBBBDACWKWJeh",
     "CSBBKVKZGZmB3BGBgCAPDBCBcqBcDcjBHBbb1BKVKSNRuDoC3FjBmBFfAwIpBGBQF4BcKAIVqBRuBUbWM0B5BBCANsB",
     "gBYajBdACAIiBDAMvBODVABAjBRBYTB_BGBABDBOBJHuBmBHCBCVBGBBBEDASAMEeJBACABlBBAZABAsB0BSDUCevBU",
     "BBA4FuBpBDkBvBUA7BqBNAnCalBG5FrBzGHCACHBBBXPABA-CHCmBQABAcAKnBHAVALtBTASoCnGgBfIBkBRAxBdwDG",
     "BBBlBVAZFBBBfOAXrBkISPABMBhB8DAvC5cmDuDRjGsyCgDPvhBRFZ68DFmS51Gdi3B4RHeRuCRdSvBQDfUFSwNsBzM",
     "qCFAiCMgCBBAOEJ1mHpBfhDyD9vIDBGBBBiJPAdCCAODIrMkoCqDFMDIHJwzIA1PsBKGQAhKdSrBkPbkHdCAvGeBCBB",
     "BGCEJBgHGBDBBBOBkGmEA0lBDBaBBBACABJBDBABAGAEABABABCBBBACABABABABABBBACDBGBDBDBABJBQFCBEBQkq",
     "E_2pBgB9oECt0FCwpHPtTitC9QivBq6EFppI"]⟩,
   ⟨["scontinue", "sc"],
    ["sBBMBiaA-OAuFBqPApgEAFAqgCBs_DAuwzBBBBcBdBCBCAKAoFBMBoCA"]⟩,
   ⟨["sep", "se"],
    ["lEAi9HB"]⟩,
   ⟨["sp"],
    ["JABBTA_DA_uFA_rCKkBAvBAg9DA"]⟩,
   ⟨["sterm", "st"],
    ["hBAdApqBAzEC0FArBC2HA9BABADBlJBk3BB2YAEBlYAmGB9EBtBAFA6JBiLDiFBKBCBdC7FBhCB8dBJCvlDCyJANAWB",
     "tNA8ndAuIBjHADA-LB2CB_CA4EBzECwEB5HAmxUACB_BBpFAdAhCA03CB9nBEsBD9FB1DD_DChEBGAQB4CBBBsDAqJB",
     "1DB1LBFOpDB5HClQABA7HB3CBkNB0VBqCBp5SBlEAhCBLApRBoJAmwTAovHA"]⟩,
   ⟨["upper", "up"],
    ["hCZlDWBGhBABABABABABABABABABABABABABABABABABABABABABABABABABABABACABABABABABABABACABABABABA",
     "BABABABABABABABABABABABABABABABABABABBBABADBBABBBCCDBBBCDBBBBABABBBACABBBCBABBDAHBBBBBBABAB",
     "ABABABABABACABABABABABABABABACBBABCBABABABABABABABABABABABABABABABABABABABABABABABABABABABA",
     "BAHBBBCABDBABABABAhJABADAIAGABCBABBBQBIjBACCDABABABABABABABABABABABAFACABBCyBwBABABABABABAB",
     "ABABABABABABABABABABAJABABABABABABABABABABABABABABABABABABABABABABABABABABABBBABABABABABACA",
     "BABABABABABABABABABABABABABABABABABABABABABABABABABABABABABABABABABABABABABABABABABABABABAB",
     "ABAClBp6ClBBAFAyW1CzkCA2LABABABABABABABABABABABABABABABABABABABABABABABABABABABABABABABABAB",
     "ABABABABABABABABABABABABABABABABABABABABABABABABABABABABABABABABABABABABABABABABABAJABABABA",
     "BABABABABABABABABABABABABABABABABABABABABABABABABABABABABABABABABABABABABABABABABABABABABAJ",
     "HIFKHIHIFLABABABAIHYHIHIHIELELDMELElIAEADCCCCADEGABABABDCDKBFAaPTAyZZw5BvBwBABCCABABABDBACA",
     "ICBABABABABABABABABABABABABABABABABABABABABABABABABABABABABABABABABABABABABABABABABABABABAB",
     "ABABABABAIABAEAtqeABABABABABABABABABABABABABABABABABABABABABABATABABABABABABABABABABABABABA",
     "nEABABABABABABADABABABABABABABABABABABABABABABABABABABABABABABABABABABABABABAKABABBBABABABA",
     "EABACABADABABABABABABABABABABEBEBABABABABABABABDBABBBABABABABABABABAYAr5VZlmBnBoEjB8EKBOBGB",
     "Bq3ByB9EV65CfgsVfgCYnqZZaZaZaABBCACBCDBHaZaBBDCHBGbBBDBEBADGbZaZaZaZaZaZeYhBYhBYhBYhBYhBA1p",
     "EhBugCZGZGZ"]⟩]

end RequestRouter.Unicode
