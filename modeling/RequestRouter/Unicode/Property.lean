/-
  RequestRouter/Unicode/Property.lean
  ===================================
  **Binary properties.**

  Properties that a character has or lacks.
-/
import RequestRouter.Unicode.Table

namespace RequestRouter.Unicode

/-- The characters with each binary property. -/
def propertyTables : List NamedTable :=
  [⟨["asciihexdigit", "ahex"],
    ["wBJHFaF"]⟩,
   ⟨["alphabetic", "alpha"],
    ["hCZGZvBAKAEAFWBeBpOELOEHABA2CAdRBBCDBAGABCBABTByCBqEIlFBlBCAGoBnBNBABBBBBAIaEDdKF3BBGOlDBHE",
     "HECKCCAQvBNkDYgBJBEAFXCSTYHKFXBGHAIpBKLDGGrCBPBCEONSBHCBCVBGBADDDHCBCBBAIAEBBEMBKAECBFEBCVB",
     "GBBBBBBEEEBCBEAHDBARFLCBIBCBVBGBBBEDIBCBBDAPDVDECBHCBCVBGBBBEDHCBCBJBEBBENAQBBFDCBDDBBABBDB",
     "DCDLEEDCBCDAGAoBMBCBWBPDHBCBCIBBCBBCDcDBHBCBWBJBEDHBCBCIBFCBDNCMMBCBoBCHBCBCBAFDHEWFBCBRDXB",
     "IBACGIFBABHSBN5BFGGAzBBBABEBXBABSBCCEBAGAODgBA_BHBjBESEPBjBjC2BBACEQ_BKDClBBAFACqBBsKBDCGBA",
     "BDCoBBDCgBBDCGBABDCOB4BBDCiClBPQ1CCFDrTCQBZFqCDKHTLUMTMMBCBBMzBCSOAEAjC4CHqBFlCKeBLEIXdCELr",
     "BEZ2BbE-BCTyBAXBLCxBzBBOBHzBpBCDKrBBKO2BWCKjBCKFqBCCpBDBFBBDAF_FThBL1ICFClBCFCHBABABABeC0BB",
     "GBADCBGDDCFEMFCBG0DANAQMlDAEACJBADEGABABABDBKCDFEEARoBtZzB24BkHGDDBMlBBAFAC3BHAQWJGBGBGBGBG",
     "BGBGBGBfvBA1OCZIHECEE1CGCB5CBDFqBB9CRfwBPgQ_tGgCs0VjCtBCsIDPKBUuBFHDwDnBICmDCxCUUBgBYzBMjCB",
     "AsBFDABCKgBFiBNcDyBBLPAQPKEB2BJNSWDkCBABAYCCPCDLFCFCFJGBGBqBBNG6DVj9KMWEwBkoItLCpDmBGMEFLBM",
     "BEBABBBBBrDhBqLS_BC1BoBL0DEBmEkBZGZL4CDFCFCFCCjBLBZBSBBBOCNiB6DlC0BrIcDwBvBfNdFqBFdCjBEHBEq",
     "B9ESjBEjBEnBIzBMKBOBGBBBKBOBGBBDzBM2JJVKHYFBpBBIlCFCABrBBBDACWKWJehCSBBKVKZGZmB3BGBgCDBBFHB",
     "CBcqBcDcjBHBbb1BKVKSNRuDoC3ByBNyBNnBiBbDAFW6HpBBBDBQFyBCDcKAIVqBRuBUbWJlCrBEK4BJANYXyBRDIiB",
     "DAJ_BBDJBKABAjBRBhBCAGD-BGBABDBOBJH4BXDBHCBCVBGBBBEDHCBCBDAGAFGcJBACABlBBJBACABDBBDABAsBhCB",
     "CBDUCehCCBBA4F1BCGZFiB-BBADA7B1BCAnCaCNVG5F4BnD_BfHCACHBBBdBBCBCD9CHCtBCFBABBbyBCJRnCFASoCn",
     "DH4CgBfIBsBBGBAxBdCVBNpCGBBBrBDABBBCBACBYFBBBkBBBBDBAXrBkIWJQBoBDCvDAvC5cmDuDRjGsyCgDPvhBRF",
     "Z68DFmS51GuBx2B4RHeRuCRdSvBQDfUFSwNsBzG_BgBYCYsBqCE4BHQgCBBAMGJ1mHpBfhDyD9vIDBGBBBiJPAdCCAO",
     "DIrMkoCqDFMDIHJEAh7F0CBmCBBCACBCDBLBABGBgCBDCHBGBbBDBEBADGBzKCYBYBeBYBeBYBeBYBeBYBH05BeGF1G",
     "GBQCGBBBEF9BhBAwDsBKGQAhKdSrBkPbkHdCAvGeBVIBgHGBDBBBOBkG7BjCDADA0lBDBaBBBACABJBDBABAGAEABAB",
     "ABCBBBACABABABABABBBACDBGBDBDBABJBQFCBEBQ0TZGZGZ2zD_2pBgB9oECt0FCwpHPtTitC9QivBq6EFppI"]⟩,
   ⟨["bidicontrol", "bidic"],
    ["8wBAxvGBaE3BD"]⟩,
   ⟨["bidimirrored", "bidim"],
    ["oBBSABAcABAdABAtBAPA-zDD96BB8sCBKB2BBOBxFAgGDDFDADBDDBDBABAEIFABRFDJBBABHBfCDFAJBCSFBJECBEX",
     "CPIDUBHB9hBNqCACDBBBCFDFCDNzMVCFBNIAHFDAEEBBCEEABCCBKFCBMSBDCABACABDFBGCYBLBEDBBCBEqBCHBnBF",
     "ABADEFCEADEBAgIAjQDDBBBOBCJrBHrNJCH9xzBFFBiFBSABAcABAdABABBBB371BA5BA5BA5BA5BA"]⟩,
   ⟨["caseignorable", "ci"],
    ["nBAGALAjBABAnCAEABAEACB3P_FEBEAJBBA7HGvGAFAxBsBBABBBBBAsBALFKKBAjBAKUQAlDHBJBDhBABAea7CK6BK",
     "EACAYXrBCsBAHBFIpB5B3BABAEHEADGKBNAPA6BAEDIAUBaACB5BAEBEBCCDAeBDALB5BAEEBBEAUBWFBA6BACABDIA",
     "HBLBeA9BAMAyBADA3BABCFCBDHBLBdA6BACAGAFBUBcB5BBEDIAUBdAoCAHCBA6CACGLIiDACIJABGpCBbABABA3BNB",
     "EBBFKBjBJAmDDBFBBCBZBECQDNACBGAPA-CAgTCydCdBeBeBgCBBGIACKDAFAtBEzBAhCBiBA2DCEBJAGC7GBCA6BAB",
     "GBABACHGJCAnBAItBCLUDwBABEBAFAoBIMBgBDCBBC4BABBDABC6BHCBgCFyCCBMBGEAGADByB-BNAiBkD9NABCLCNC",
     "NCNBMEIBKACACExBEBJBANAQMzBgBr8CBxDC9DAPAgDfvBA1OAkBDDEFA9CF9CC24bAinBFuIAiDDBJBAcDwCBOhBuC",
     "AXCmDDDBIADAEAZBFA3EBaRNAmBHZKuBCwBACDCBRAVBiCFCBCBMAIAjBALAzBABCCBFBBAbAOBFBBAkDEJC5DACAEA",
     "w5TAzEQ9RPDAMPiBACApFAHAGALAjBABAvBAtBBjCAVChQAiHA1EElgBFBpBBImSCBBFDoBCEAlFB9RDmBAaEBA7JBY",
     "A0BFmCKxBD7DA2BOpBACBKCxBDCBCAEAKAyBCkBEBH-BAMB0BIKDCA_CCCABBGACA9EADHVB5BBDAlBGDEmCFNABABA",
     "OB1CHCCBAXA0CFBAEBBBuHDGBBBbB1CHCABBqDABACFBAlDABACDBEjIIBBgIBBAEAwEDCBEAgBJoBFCDIAJFCCuBMB",
     "BmGABCBApGGBFBAyCVCGBBBB6DFDABBBGBAoCBDABAhCA5IBLB0BEFABAXA1mFQGOomLLDCguCE7BGJD8PCoBBiPA_B",
     "QgCBBBNB8_PDBGBB-kDBBD8yEtBCWgRCJPCGeD0EC79B2BExBIAOAWEBOwqBGBQCGBBBEF9BhBAgFNwLA9BD7PE-HBz",
     "HACAHBFAJAwOGtDHv1CEhgjYAe_CgEvH"]⟩,
   ⟨["cased"],
    ["hCZGZvBAKAEAFWBeBiGBDEvGCiBHBeEgDAqBDCBCDBAGABCBABTByCBqEIlFBlBJoB34ClBBAFACqBBDgV1CCFikCKF",
     "qBCCgC_FgC1ICFClBCFCHBABABABeC0BBGBADCBGDDCFEMFCBG0DANAQMlDAEACJBADEGABABABDBFEACDFEEARfDBx",
     "ZzB24BkHGDDBMlBBAFAyoetBSdkElDDDBsCUFBC1ZqBBNGvCg6TGMEpgBZGZllBvCgDjBEjB0DKBOBGBBBKBOBGBBjO",
     "ACCBpBBIlmByBNyB9CVKV64C_BgrV_BgBYCYspZ0CBmCBBCACBCDBLBABGBgCBDCHBGBbBDBEBADGBzKCYBYBeBYBeB",
     "YBeBYBeBYBH05BJBTGFlI9BykCjCs_BZGZGZ"]⟩,
   ⟨["changeswhencasefolded", "cwcf"],
    ["hCZ6CAKWBHgBABABABABABABABABABABABABABABABABABABABABABABABABABABABACABABABABABABABABBBABABA",
     "BABABABABABABABABABABABABABABABABABABABBBABABABBBABBBCCDBBBCDBBBBABABBBACABBBCBABBDAHBBBBBB",
     "ABABABABABABABACABABABABABABABABACBBABCBABABABABABABABABABABABABABABABABABABABABABABABABABA",
     "BABABAHBBBCABDBABABABA2HAqBABADAIAGABCBABBBQBIWAMCDBBABABABABABABABABABABABABBCBBABBCyBwBAB",
     "ABABABABABABABABABABABABABABABAJABABABABABABABABABABABABABABABABABABABABABABABABABABABBBABA",
     "BABABABACABABABABABABABABABABABABABABABABABABABABABABABABABABABABABABABABABABABABABABABABAB",
     "ABABABABABABAClBwBA44ClBBAFAqZFikCJGqBCCgKABABABABABABABABABABABABABABABABABABABABABABABABA",
     "BABABABABABABABABABABABABABABABABABABABABABABABABABABABABABABABABABABABABABABABABABABABABAB",
     "ABABABABAFBCABABABABABABABABABABABABABABABABABABABABABABABABABABABABABABABABABABABABABABABA",
     "BABABABABABABABABAJHIFKHIHIFLABABABAIHQvBCCCFFCCFLDMEFCCFpJADBGAtBPTAyZZw5BvBwBABCCABABABDB",
     "ACAICBABABABABABABABABABABABABABABABABABABABABABABABABABABABABABABABABABABABABABABABABABABA",
     "BABABABABABAIABAEAtqeABABABABABABABABABABABABABABABABABABABABABABATABABABABABABABABABABABAB",
     "ABAnEABABABABABABADABABABABABABABABABABABABABABABABABABABABABABABABABABABABABABAKABABBBABAB",
     "ABAEABACABADABABABABABABABABABABEBEBABABABABABABABDBABBBABABABABABABABAYA6bvCg6TGMEpgBZlmBn",
     "BoEjB8EKBOBGBBq3ByB9EV65CfgsVfgCYnyehB"]⟩,
   ⟨["changeswhencasemapped", "cwcm"],
    ["hCZGZ6BAKWBeB_BBzCBbCNCBBAE8CBRGaBBBABBDBBDBECABBCAHACABBDFFAKBmFAqBDCBDCBAGABCBABTBuBDgBBE",
     "BkEIlFBlBKmB44ClBBAFACqBCCgV1CCFikCKFqBCC5FADAQAxD7ECAB1DCFClBCFCHBABABABeC0BBGBADCBGDDCFEM",
     "FCBGpJADBGAbARfDBxZzB24BwDBBBBHlDHDDBMlBBAFAyoetBSbmENC9BJODCCEBYBsBYB8aAcvCg6TGMEpgBZGZllB",
     "vCgDjBEjB0DKBOBGBBBKBOBGBBj2ByBNyB9CVKV64C_BgrV_BgBYCYsxejC"]⟩,
   ⟨["changeswhenlowercased", "cwl"],
    ["hCZlDWBGhBABABABABABABABABABABABABABABABABABABABABABABABABABABABACABABABABABABABACABABABABA",
     "BABABABABABABABABABABABABABABABABABABBBABADBBABBBCCDBBBCDBBBBABABBBACABBBCBABBDAHBBBBBBABAB",
     "ABABABABABACABABABABABABABABACBBABCBABABABABABABABABABABABABABABABABABABABABABABABABABABABA",
     "BAHBBBCABDBABABABAhJABADAIAGABCBABBBQBIjBAIABABABABABABABABABABABAFACABBCyBwBABABABABABABAB",
     "ABABABABABABABABABAJABABABABABABABABABABABABABABABABABABABABABABABABABABABBBABABABABABACABA",
     "BABABABABABABABABABABABABABABABABABABABABABABABABABABABABABABABABABABABABABABABABABABABABAB",
     "AClBp6ClBBAFAyW1CzkCAGqBCCgKABABABABABABABABABABABABABABABABABABABABABABABABABABABABABABABA",
     "BABABABABABABABABABABABABABABABABABABABABABABABABABABABABABABABABABABABABABABABABABABAJABAB",
     "ABABABABABABABABABABABABABABABABABABABABABABABABABABABABABABABABABABABABABABABABABABABABABA",
     "BAJHIFKHIHIFLABABABAIHYHIHIHIELELDMELEpJADBGAtBPTAyZZw5BvBwBABCCABABABDBACAICBABABABABABABA",
     "BABABABABABABABABABABABABABABABABABABABABABABABABABABABABABABABABABABABABABABABABABAIABAEAt",
     "qeABABABABABABABABABABABABABABABABABABABABABABATABABABABABABABABABABABABABAnEABABABABABABAD",
     "ABABABABABABABABABABABABABABABABABABABABABABABABABABABABABABAKABABBBABABABAEABACABADABABABA",
     "BABABABABABABEBEBABABABABABABABDBABBBABABABABABABABAYAr5VZlmBnBoEjB8EKBOBGBBq3ByB9EV65CfgsV",
     "fgCYnyehB"]⟩,
   ⟨["changeswhentitlecased", "cwt"],
    ["hDZ6BApBXBHBABABABABABABABABABABABABABABABABABABABABABABABABABABABACABABABABABABABBBABABABA",
     "BABABABABABABABABABABABABABABABABABABACABABCCABACADAFACADCCACABABACAEACADABACADABAEABBBBBAB",
     "ABABABABABABABBBABABABABABABABABCBABADABABABABABABABABABABABABABABABABABABABADABABABABABABA",
     "BABAIACBBAEABABABABFBBBABBDBBDBECABBCAHACABBDFFAKBmFArBABADADCSAbiBBBDCBABABABABABABABABABA",
     "BABEBACACA0BvBBABABABABABABABABABABABABABABABABAJABABABABABABABABABABABABABABABABABABABABAB",
     "ABABABABABACABABABABABABBBABABABABABABABABABABABABABABABABABABABABABABABABABABABABABABABABA",
     "BABABABABABABABABABABABABABABAxBmBwzDFikCIBAuHADAQAyDABABABABABABABABABABABABABABABABABABAB",
     "ABABABABABABABABABABABABABABABABABABABABABABABABABABABABABABABABABABABABABABABABABABABABABA",
     "BABABABABABABABABABGFABABABABABABABABABABABABABABABABABABABABABABABABABABABABABABABABABABAB",
     "ABABABABABABABABABABABABIIFKHIHIFKHIHINCHIHIHIEBBGADCBBIDCBIHKCBB2KAhBPEAraZm6BvBBADBBABABA",
     "GACAKABABABABABABABABABABABABABABABABABABABABABABABABABABABABABABABABABABABABABABABABABABAB",
     "ABABABABABABAIABAEAMlBBAFAzoeABABABABABABABABABABABABABABABABABABABABABABATABABABABABABABAB",
     "ABABABABABAnEABABABABABABADABABABABABABABABABABABABABABABABABABABABABABABABABABABABABABAKAB",
     "ACABABABABAEAEABBCABABABABABABABABABALABABABABABABABAEABACABABABABABABABAaA8aAcvCg6TGMEphBZ",
     "tmBnBoEjB7EKBOBGBBj4ByB9DV65CfgsVf7BYuyehB"]⟩,
   ⟨["changeswhenuppercased", "cwu"],
    ["hDZ6BApBXBHBABABABABABABABABABABABABABABABABABABABABABABABABABABABACABABABABABABABBBABABABA",
     "BABABABABABABABABABABABABABABABABABABACABABCCABACADAFACADCCACABABACAEACADABACADABAFBBBBBBAB",
     "ABABABABABABBBABABABABABABABABBBBBADABABABABABABABABABABABABABABABABABABABADABABABABABABABA",
     "BAIACBBAEABABABABFBBBABBDBBDBECABBCAHACABBDFFAKBmFArBABADADCSAbiBBBDCBABABABABABABABABABABA",
     "BEBACACA0BvBBABABABABABABABABABABABABABABABABAJABABABABABABABABABABABABABABABABABABABABABAB",
     "ABABABABACABABABABABABBBABABABABABABABABABABABABABABABABABABABABABABABABABABABABABABABABABA",
     "BABABABABABABABABABABABABABAxBmBo6CqBCC4XFikCIBAuHADAQAyDABABABABABABABABABABABABABABABABAB",
     "ABABABABABABABABABABABABABABABABABABABABABABABABABABABABABABABABABABABABABABABABABABABABABA",
     "BABABABABABABABABABABABGFABABABABABABABABABABABABABABABABABABABABABABABABABABABABABABABABAB",
     "ABABABABABABABABABABABABABABIIFKHIHIFKHIHINC0BBBEABADCBBEADDCBIHKCBBEAxKAhBPEAraZm6BvBBADBB",
     "ABABAGACAKABABABABABABABABABABABABABABABABABABABABABABABABABABABABABABABABABABABABABABABABA",
     "BABABABABABABABABAIABAEAMlBBAFAzoeABABABABABABABABABABABABABABABABABABABABABABATABABABABABA",
     "BABABABABABABABAnEABABABABABABADABABABABABABABABABABABABABABABABABABABABABABABABABABABABABA",
     "BAKABACABABABABAEAEABBCABABABABABABABABABALABABABABABABABAEABACABABABABABABABAaA8aAcvCg6TGM",
     "EphBZtmBnBoEjB7EKBOBGBBj4ByB9DV65CfgsVf7BYuyehB"]⟩,
   ⟨["dash"],
    ["tBA8qBAzBAhyDAlgBApgCF9BAnBAPAmMAkgDACAfBEAcA-NATAvDAwszBBlBAKApFAgzDA-JA"]⟩,
   ⟨["defaultignorablecodepoint", "di"],
    ["tFAhVAsWAi6CBzyBB1CE7_BEaExBP0nEA7kzBPvHAgFAvCInlvBDvmFHl0rY__D"]⟩,
   ⟨["deprecated", "dep"],
    ["pKAppBAjoCABAphCBlmCF5VB2m3bA"]⟩,
   ⟨["diacritic", "dia"],
    ["-CABAnCAGAEACB3P-EBHFFRBEAJB9HExGA3BsBBABBBBBAjEHEBmEBEBDCjCa7CK6BKiBB-DHpBJQb9BAQADDcAqCAQ",
     "AuDAQAuDAQAvBC8BAQAHA3DAuDAQAuDAQAtDBQA8DAvDAMFBArDANErCBbABABAEBiCCBB-BAwDABBoBBEEZGBAKBhW",
     "C0dBeA0EKJA7KCkJAUHCAwBOCKDOCLoCAPAmBI2BB6BALBiCBgCFyCYEAGACCyB-BwBjBFLlBK9NABCLCNCNCNBwnDC",
     "9JA6PFpDD_CAyrdAMBBAcByCBOhBmDCmDAGBMAlBA3EAbR5BDkBA_CAMAkBA1EChCDzBAkDEJCgEBw5TAhYPuIABAvB",
     "AtBBjCA8XA_kBFBpBBI9TCEAlFB7RFmBAaEsMACCmCKxBDgGApBAoCB4DB-BAsCAJCoDByFBwCBQAYGDE5CCBBNB_CA",
     "DA7DB7HB-DA2DBzDAtIBiIBEA8EAzCASAxCAlNAiIABBxCAhCAnLBXAsnFO5mLAguCE7BG0RBiRQwCB-_PDBGBBh4Ht",
     "BCWgRCDFIHCGeDi0D9BiGG3LA9BD-XBgXGtDCBC"]⟩,
   ⟨["emoji"],
    ["jBAGAFJvDAEAt8HAMA4GAWA6CFPBvLBMAmFAZKECnGAnHBKAJA6BDBEJACACBCAEACABBCADADBICFABAFLLBCABBBA",
     "SACBSFBABBDBFACBEBLBFBCAFBBABBUBFFBDCAEACACFBACABABAGADAGAKBPACAEABAECBALBwBCJAOAOA0LBvOCTB",
     "zBAEA6mBAMA5SABAqrvDAqGAgFBMBOACJrCZBBXAUACIVBuFhBCvDCBBCCyCCCBmIB-BLFBXHBCHMACDCAEBNBCAIBJ",
     "AFCMCICCABAEAGADAG1CwBlCFHCDDJDABBDACJjHLEA7IuBBJB4FwDMDKD4BBAEPCLEJ"]⟩,
   ⟨["emojicomponent", "ecomp"],
    ["jBAGAFJz-HA1GArp3BA2-8BZ7PEwtBDszhY_C"]⟩,
   ⟨["emojimodifier", "emod"],
    ["7_8DE"]⟩,
   ⟨["emojimodifierbase", "ebase"],
    ["9wJA7GAQD3jzDA8BCCACC1DBCKVSDAECBCHABAYApGBEAVAEBuFCDEzCAQCJALA_RACAIHGAJJCC4BA9BBBBBARCBMl",
     "HCqBI"]⟩,
   ⟨["emojipresentation", "epres"],
    ["64IBtGDDACApQBVByBLrBATANAIBRBFBIAFAVAHBBAEACAHAEBcAjBABAECBA9BCYAOA7aBzBAEAulxDAqGA-FACJrC",
     "ZBAYAUACEBCVBuFgBMIBlCBVMqBEEMQDADmCBAB6FC-BNDBXSAaBNA2C0CwBlCGADCCDDDLBHIjHLEA7IuBBJB4FwDM",
     "DKD4BBAEPCLEJ"]⟩,
   ⟨["extendedpictographic", "extpict"],
    ["pFAEAt8HAMA4GAWA6CFPBvLBMAmFAZKECnGAnHBKAJA6BDBEJACACBCAEACABBCADADBICFABAFLLBCABBBASACBSFB",
     "ABBDBFACBEBLBFBCAFBBABBUBFFBDCAEACACFBACABABAGADAGAKBPACAEABAECBALBwBCJAOAOA0LBvOCTBzBAEA6m",
     "BAMA5SABAqrvDAnBDkDLPBPAOBlBJwDBMBOACJT3BbOKAUACIBDJWG7FCvDCBBCCyCCCBDF9HB-BLFBXHBCHMACDCAE",
     "BNBCAIBJAFCMCICCABAEAGADAG1CwBlCFHCQDABFCM6GlBMD4BHKFoBHeBMDCNJmBMuBBJB4F4CHOxEgI9f"]⟩,
   ⟨["extender", "ext"],
    ["3FA4QBubA5NA2TApEA5CAwXA_DAjqCA4BAjTAuMAkCAp8EArBEnDB9CC24bA2vBAieAWApEAsDAVB7jVAwgCBruBAbA",
     "EAnmBAlJA0DByPCvmBAgaAorTB8kBBBAOBoqcBxlBA0aC"]⟩,
   ⟨["graphemebase", "grbase"],
    ["gB-ChBMBxSwDHCFEGBABTB_GHlFBlBCxBCCuBABACACAJaEFRJLABtBVPBkDIAGBCAEfCABdd4CLAOqBJGDXEAJADAH",
     "OBYFABKFfQpB5B2BBABDIDBCHJCcBBBHCBCVBGBADDDABBGBCBBANBBCEXFABFEBCVBGBBBBBBECYDBAHJCCBAMABIB",
     "CBVBGBBBEDDIABBDAPBELHAIBBHCBCVBGBBBEDACAGBCBPBBCERLABFDCBDDBBABBDBDCDLFABBDCBCDAVUGCBHBCBW",
     "BPDADDTCBBCBEJHJBKBCBWBJBEDBCABBXCBBEJBCOKBCBoBCABBFCBCBBECBJEZCBBRDXBIBACGJBGGHJCCMvBBBLHI",
     "MlBBBABEBXBABJBBJACEBAJJCDgBXCaBABABNBjBSAFACExBHBFBMlBsBEAGACBCYCDDPEMBBCFBOBnBBAFAC4LBDCG",
     "BABDCoBBDCgBBDCGBABDCOB4BBDCiCFcDZG1CCFC8UD4CHRNSDBJROMBCPzBCAHHBBLIDJGJGKFJG4CHEChBBAFlCKe",
     "EDCCEBBFHADpBCELrBEZGKD4BCBD3BBAJABBIFNJGJGN2CvBKDDHBcJLCfEBG3BBACCBANvBIBFOD9BFqBCKLANAHDB",
     "FBCCAF_FgC1ICFClBCFCHBABABABeC0BBOBNCFBSCCBIBKFXHwBQBCaBMDhB-BrEE5UWKVz4BC4LDBFsBBAFAC3BHBP",
     "WJGBGBGBGBGBGBGBGhB9CiBZB4CM1Ga5BGPB1CEkDFqBB9CB1CJvBBszcD2BJ7KUuBEAKfCvCCFI8GUQBCBDBYCEEJG",
     "3BIjCKLYMBlBIYLAMdGvBBBEBCBBMBKEGBYBoBGBCBLCBHBACJCfByBBADBCECABAYQCHLFCFCFJGBGB7BE0DBBBDDJ",
     "Gj9KMWEwBkoItLCpDmBGMEFABXBEBABBBBBpUgBPQJWiBBSBDEEBmEE8ECeDFCFCFCCDGBGNBCLBZBSBBBOCNiB6DFC",
     "EsBD3CBMDAvBsBjEcDwBQaEjBJdFlBKdBkBENqB9ECJGjBEjBEnBIzBLLBOBGBBBKBOBGBBDzBM2JJVKHYFBpBBIlCF",
     "CABrBBBDACWBnCIIwBSBBFgBDaFamB3BETCuBPDBCBcKIHIH_BgBkBGLJ1BDcCaFZHDMGwCoC3ByBNyBHpBMJGlBIXI",
     "BwGeBpBDACBQFIInBnBIVLIWREDmBbUWJAB1BPGEdBBCAMwBEBCBBDOYHJJjBFAJRIiBBCLzBJABHEBBPBTLRBbDBEF",
     "BB_BGBABDBOBKGuBBCNJIBBHCBCVBGBBBEDABABDCBCBDAMGcJBACABlBBABBPABBDABCBBnB3BIBDABUBABCevBBBG",
     "ABBBACACDIJmFuBBBGDCACakByBIBBACDLJGMTqBBABBIBGJGTcaDABBEAJW5FuBJACAkDyCMHCACHBBBXBEBBGDBCJ",
     "JmCHCpBIDBDbAKnBGBEHJAGBDtBNACINoCHJ3CADABA4ChBOJGIBlBOABFKcDfZAHACArCGBBBlBVAJJGFBBBkBEBBA",
     "BAHJGrBEJ2HSCDJOBjBIBDW2CAPxBN6cmDuDBELjGsyCiDNvhBRFZ68DFmS51GdMCDJm2B4RHeBJEwCBJGdHAKvBHOK",
     "JBGBUFSwN5BmG6CFYCYsBqCF3BLMgCDOEJ1mHpBfhDyD9vIDBGBBBiJPAdCCAODIrMkoCqDFMDIHJCACAg7D8HDzNGW",
     "PQ_CzD8B1HKmBC7BFCWBHdE8BVhCDA6DTMTM2CJYnE0CBmCBBCACBCDBLBABGBgCBDCHBGBbBDBEBADGBzKCjJCxR3B",
     "DyBHBNBG0jBeGFlI9ByEsBKGCJEBgKdSrBEJFAwObEJ2GdCKEAgGeBCBBBGCEJBgHGBDBBBOBkGCIwBjCHAEJEBxYjC",
     "sC8BiGDBaBBBACABJBDBABAGAEABABABCBBBACABABABABABBBACDBGBDBDBABJBQFCBEBQ0BBuIrBEjDMOCOBOBkBK",
     "tF4BcNrBEIHBOF6E4eDQDMD5GGLEAPLE3BIJGnBIdCLEBOInB3KINCMDKD4BBAEPCLEJHyEBmDlgB_2pBgB9oECt0FC",
     "wpHPtTitC9QivBq6EFppI"]⟩,
   ⟨["graphemeextend", "grext"],
    ["gYvDzIGnIsBBABBBBBAoCKwBUQAlDGCFCBBDjBAea7CK6BIJAYDBIBCBErBC7BIqBXBf3BABAEHEADGKBdA6BABACDI",
     "AJAKBaACB5BAEBEBCCDAeBDALB5BAEEBBEAUBWFBA6BABBBDIAHCKBeA7BABAMAJAoBADA3BABCFCBDHBLBdA6BACBB",
     "ADCBDHBLBcB5BBBACDIAJAKBdAoCAEACCBAIAxCACGMHiDACILGpCBbABABA3BNBEBBFKBjBJAmDDBFBBCBZBECQDNA",
     "CBGAPA_VCydDcCdBeBgCBBGIACKJAtBCBA1DBiBA2DCEBJAGC7GBCA6BABGBABACHGJCAwBtBCLUDwBJECmBIMBgBDC",
     "F4BABBDABE4BHCB4ECBMBGEAGADBmG_BsQAjGgB-_CCtEAgDfqRFpDB0udDBJgBBwCBwIADAEAZBFA3EBaRNAmBHZKB",
     "AsBCwBACDCBCAkBAjCFCBCBMAIAvBAzBABCCBFBBAqBBIAuHACAEAw5TAhXPQPuLB9SAiHA1EEm0BCBBFDoBCEAlFB9",
     "RDhCE9JBtCFmCKxBD7DA2BOpBACBKCxBDCBHA9BCkBEBH-BAMB0BIBAIDCA_CCCDGACA9EADHVB5BBBABAMAJAOGDEj",
     "CACFBACABCECBAOB1CHCCBAXAxCACFBACABBBBrHACDGBBBbB1CHCABBqDABACHlDABACDBEjIIBB1HAKDEAwEDCBEA",
     "gBJoBFCDIAJFCCuBMBBmGABCBApGGBFBAyCVCGBBBB6DFDABBBGBAoCBDABA7KBLB0BEFCXAlnFAGOomLLDCguCE7BG",
     "4gBA_BDxCALBrlTBhzEtBCW-QEDFIHCGeD0EC79B2BExBIAOAWEBOwqBGBQCGBBBEkDAgFG3LA9BD8PD-HBzHACAHBF",
     "A6OGtDG12lY_CgEvH"]⟩,
   ⟨["hexdigit", "hex"],
    ["wBJHFaFp1_BJHFaF"]⟩,
   ⟨["idsbinaryoperator", "idsb"],
    ["w_LBCJxPA"]⟩,
   ⟨["idstrinaryoperator", "idst"],
    ["y_LB"]⟩,
   ⟨["idcontinue", "idc"],
    ["wBJHZEABZvBAKABACAFWBeBpOELOEHABAR0DBBCDBAGEBABTByCBqEBEClFBlBCAGoBIsBBABBBBBAIaEDdKFpCElDB",
     "HCJBSCAQ6BCkDO1BEACACtBSbEKFXBGHqCBgECJBSBHCBCVBGBADDCICBCDIAEBBECLKABACCBFEBCVBGBBBBBBCABE",
     "EBCCDAHDBAHPLCBIBCBVBGBBBECJBCBCCAPDCJJGBCBHCBCVBGBBBECICBCCHCEBBECJBAQBBFDCBDDBBABBDBDCDLE",
     "EDCBDCAGAOJQMBCBWBPCIBCBDHBBCBBCDCJQDBHBCBWBJBECIBCBDHBFCBDCJBCMMBCByBBCBEFDHECJKFBCBRDXBIB",
     "ACGDAEFBABHGJCBN5BFOBJnBBBABEBXBABWCEBABGBJCDgBAXBGJLABABAEJBjBETBRBjBJA5BpCGtCClBBAFACqBBs",
     "KBDCGBABDCoBBDCgBBDCGBABDCOB4BBDCiCCCJIOPQ1CCFDrTCQBZFqCDKHVJVLTMMBCBBMzCDAEBCJhBCBKG4CHqBF",
     "lCKeBLELKnBCELrBEZGKlBbE-BBcCKGJNAINBeCLUsCDJRIMzDM3BIJDwBCKFqBCCQCBmBF1QCFClBCFCHBABABABeC",
     "0BBGBADCBGDDCFEMFCBGPBxBBTAcANAQMzBMEADLRAEACJBACFGABABABPCDFEEARoB3zCkHGIMlBBAFAC3BHAPXJGB",
     "GBGBGBGBGBGBGBflQCZOBECEE1CCGB-CFqBB9CRfwBPgQ_tGgCs0VjCtBCsIDbUvBEJByDlBICmDCxCU2BEATzBMlCK",
     "JGXDABwBCjBMcDgCOKGeB2BJNCJGWDoCYCCPCEKFCFCFJGBGBqBBNG6DBBCJGj9KMWEwBkoItLCpDmBGMEFLBMBEBAB",
     "BBBBrDhBqLS_BC1BoBLEPQPDBYCgBEBmETJHZEABZK5CDFCFCFCCjBLBZBSBBBOCNiB6DlC0BoEAiEcDwBPAffNdFqB",
     "FdCjBEHBEqB9ECJGjBEjBEnBIzBMKBOBGBBBKBOBGBBDzBM2JJVKHYFBpBBIlCFCABrBBBDACWKWJehCSBBKVKZGZmB",
     "3BGBgCDBBFHBCBcCCEAgBcDcjBHBdZ1BKVKSNRuDoC3ByBNyBNnBIJGlBDEBW6HpBBBDBQFyBiBKAIgBfVqBUbWJmCf",
     "PJ7BHANYHJG0BBJEDIjBCAJkCEDBMBAjBRBkBGD-BGBABDBOBJH6BFJGDBHCBCVBGBBBEBJCBCCCAGAFGCGDELJBACA",
     "BlBBJBACABDBHNBdqCFJEDelCBAIJmF1BCIXFiBgCDALJmB4BHJGTcaCOEJGG5F6BlDpCVHCACHBBBdBBCIMJmCHCtB",
     "CHBBb-BIAIpCDASoCnDH4CgBPJGIBsBBIPJYdCVBNpCGBBBrBDABBBIIJGFBBBkBBBBFHJGrBEJ2HWJQBoBDENK1CAv",
     "C5cmDuDRjGsyCgDPvhBQVK68DFmS51G5Bm2B4RHeBJGuCBJGdCEL2BJDMJJUFSwNsBDJmG_BgBYCYsBqCE4BHQgCBBB",
     "LGJ1mHpBfhDyD9vIDBGBBBiJPAdCCAODIrMkoCqDFMDIHJDBxiEJmQtBCW-QEDFIHCGeD0EC7N0CBmCBBCACBCDBLBA",
     "BGBgCBDCHBGBbBDBEBADGBzKCYBYBeBYBeBYBeBYBeBYBHCxBgQ2BExBIAOAWEBOwiBeGF1GGBQCGBBBEF9BhBAwDsB",
     "DNCJEAhKeR5B2OpB2GqBlGeBVIBgHGBDBBBOBkGLGpBrCEJmlBDBaBBBACABJBDBABAGAEABABABCBBBACABABABABA",
     "BBBACDBGBDBDBABJBQFCBEBQ0pDJmgB_2pBgB9oECt0FCwpHPtTitC9QivBq6EFppImkzVvH"]⟩,
   ⟨["idstart", "ids"],
    ["hCZGZvBAKAEAFWBeBpOELOEHABAhEEBBCDBAGABCBABTByCBqEIlFBlBCAGoBnCaEDtBqBjBBBiDBAPBHBKCCAQABdd",
     "4CLAYgBJBEAFVEAJADAXYHKFXBGQpB6B1BDASAHJPPEHCBCVBGBADDDAQANBBCOBKAIFEBCVBGBBBBBBfDBATCQIBCB",
     "VBGBBBEDASAPBXALHCBCVBGBBBEDAeBBCPARABFDCBDDBBABBDBDCDLWA0BHBCBWBPDAaCBBCBeAEHBCBWBJBEDAeCB",
     "BPBRIBCBoBCAQAFCICYFFRDXBIBACG6BvBBBMG6BBBABEBXBABJBBJACEBAVDgBA_BHBjBbEzDqBUAQFEDDADBHCEMM",
     "ARlBBAFACqBBsKBDCGBABDCoBBDCgBBDCGBABDCOB4BBDCiClBPQ1CCFDrTCQBZFqCDKHRNSOROMBCPzBjBAEAjC4CH",
     "oBBAFlCKexBdCELrBEZ2BWJ0ByCA9CuBRH2BdNBKrBajBpBCKjBCKFqBCCpBDBFBBDAF_FgC1ICFClBCFCHBABABABe",
     "C0BBGBADCBGDDCFEMFCBG0DANAQMlDAEACJBACFGABABABPCDFEEARoB3zCkHGDDBMlBBAFAC3BHAQWJGBGBGBGBGBG",
     "BGBGmRCZIHECEE1CEEB5CBDFqBB9CRfwBPgQ_tGgCs0VjCtBCsIDPKBUuBQeCvCnBICmDCxCUQBCBDBWdzBOxB-BFDA",
     "BBLbKWZcHuBcAQEBJKEBoBXCBHUWDADxBBADBCECABAYCCKHCMFCFCFJGBGBqBBNGyDdj9KMWEwBkoItLCpDmBGMEFA",
     "BJBMBEBABBBBBrDhBqLS_BC1BoBL0DEBmEkBZGZL4CDFCFCFCCjBLBZBSBBBOCNiB6DlC0BrIcDwBvBfNdFlBKdCjBE",
     "HBEqB9ESjBEjBEnBIzBMKBOBGBBBKBOBGBBDzBM2JJVKHYFBpBBIlCFCABrBBBDACWKWJehCSBBKVKZGZmB3BGBgCAP",
     "DBCBcqBcDcjBHBbb1BKVKSNRuDoC3ByBNyBNjBmBbJW6HpBGBQF4BcKAIVqBRuBUbWM0B5BBCANsBgBYajBdACAIiBD",
     "AMvBODVABAjBRBYTB_BGBABDBOBJHuBmBHCBCVBGBBBEDASAMEeJBACABlBBAZABAsB0BSDUCevBUBBA4FuBpBDkBvB",
     "UA7BqBNAnCalBG5FrB0D_BfHCACHBBBXPABA-CHCmBQABAcAKnBHAVALtBTASoCnGgBfIBkBRAxBdwDGBBBlBVAZFBB",
     "BfOAXrBkISPABMBhB8DAvC5cmDuDRjGsyCgDPvhBRFZ68DFmS51Gdi3B4RHeRuCRdSvBQDfUFSwNsBzG_BgBYCYsBqC",
     "FAiCMgCBBAOEJ1mHpBfhDyD9vIDBGBBBiJPAdCCAODIrMkoCqDFMDIHJm7F0CBmCBBCACBCDBLBABGBgCBDCHBGBbBD",
     "BEBADGBzKCYBYBeBYBeBYBeBYBeBYBH05BeGFlI9ByEsBKGQAhKdSrBkPbkHdCAvGeBCBBBGCEJBgHGBDBBBOBkG7Bj",
     "CHA0lBDBaBBBACABJBDBABAGAEABABABCBBBACABABABABABBBACDBGBDBDBABJBQFCBEBQkqE_2pBgB9oECt0FCwpH",
     "PtTitC9QivBq6EFppI"]⟩,
   ⟨["ideographic", "ideo"],
    ["mgMBZIOCle_tGgC_vUgoWtLCpDqodANEJ1mHpBfhDyD97IrMkoT_2pBgB9oECt0FCwpHPtTitC9QivBq6EFppI"]⟩,
   ⟨["joincontrol", "joinc"],
    ["sgIB"]⟩,
   ⟨["logicalorderexception", "loe"],
    ["gyDE7DEw3CCCA6nkBBCABB"]⟩,
   ⟨["lowercase", "lower"],
    ["hDZvBAKAEAkBXBHBABABABABABABABABABABABABABABABABABABABABABABABABABABABBBABABABABABABABBBABA",
     "BABABABABABABABABABABABABABABABABABABABABACABABCCABACADBEACADCCACABABACABBBACADABACBCCGACAC",
     "ABABABABABABABABBBABABABABABABABABBCABADABABABABABABABABABABABABABABABABABABABABABABABABABA",
     "BABABABGCACBBAEABABABABkCCiBHBeEgDArBABADACDSAbiBBBDCBABABABABABABABABABABABEBACACBzBvBBABA",
     "BABABABABABABABABABABABABABABAJABABABABABABABABABABABABABABABABABABABABABABABABABABACABABAB",
     "ABABABBBABABABABABABABABABABABABABABABABABABABABABABABABABABABABABABABABABABABABABABABABABA",
     "BABABABABABAwBoBn6CqBBD4XFikCIBA1D_FhCABABABABABABABABABABABABABABABABABABABABABABABABABABA",
     "BABABABABABABABABABABABABABABABABABABABABABABABABABABABABABABABABABABABABABABABABABABABABAB",
     "ABABIBABABABABABABABABABABABABABABABABABABABABABABABABABABABABABABABABABABABABABABABABABABA",
     "BABABABABABIIFKHIHIFKHIHINCHIHIHIEBBGADCBBIDCBIHKCBB5DANAQMtDADBDAbAEAEACBIDEAhBPEAraZm6BvB",
     "BADBBABABAEABBBHDABABABABABABABABABABABABABABABABABABABABABABABABABABABABABABABABABABABABAB",
     "ABABABABABABABABABABABABBHABAEAMlBBAFAzoeABABABABABABABABABABABABABABABABABABABABABABATABAB",
     "ABABABABABABABABABABABClEABABABABABABCBABABABABABABABABABABABABABABABABABABABABABABABABABAB",
     "ABABABABJBABACABABABABAEABACABCBABABABABABABABABABAFAFABABABABABABABAEABACABABABABABABABAVD",
     "BABC1ZqBBNGvCg6TGMEphBZtmBnBoEjB7EKBOBGBBjOACCBpBBIloByB9DV65CfgsVf7BYmqZZaGBRaZaDBABGBKaZa",
     "ZaZaZaZaZaZaZabcYBFaYBFaYBFaYBFaYBFBA05BJBTGFlI9B0lChB"]⟩,
   ⟨["math"],
    ["rBAQCfAdABAtBAEAlBAfA4WCCAaBCCvQCtwGAbCLADANAODVELEhCMEADBEESAEACJBACFGADBCBBCBFDNBAkCXBFBB",
     "EBEfBAGBOrIIDUB6CAeaBAYALG9NBMJEFEBCBDEOABACFLHFB5BABAdDJCwK_BgI_PwBUCF8-zBA3ZFBAiFAQCdABAd",
     "ABAjEAGDhtDBgrwBAvoB0CBmCBBCACBCDBLBABGBgCBDCHBGBbBDBEBADGBzKCjJCxBgwFDBaBBBACABJBDBABAGAEA",
     "BABABCBBBACABABABABABBBACDBGBDBDBABJBQFCBEBQ0BB-uCI"]⟩,
   ⟨["noncharactercodepoint", "nchar"],
    ["wu_BfuQB-__BB-__BB-__BB-__BB-__BB-__BB-__BB-__BB-__BB-__BB-__BB-__BB-__BB-__BB-__BB-__BB"]⟩,
   ⟨["patternsyntax", "patsyn"],
    ["hBOKGaDBAaDiBGBABBBABBEAEADAXAfA44HXIOCSBJxJvWgF1TerjBgQ_DhMCEYPAtozBBlIB"]⟩,
   ⟨["patternwhitespace", "patws"],
    ["JESAkDAo8HBYB"]⟩,
   ⟨["quotationmark", "qmark"],
    ["iBAEAjEAPA86HHZBnwDApODNChxzBD9FAEA6CB"]⟩,
   ⟨["radical"],
    ["g0LZB4CM1G"]⟩,
   ⟨["regionalindicator", "ri"],
    ["mv8DZ"]⟩,
   ⟨["sentenceterminal", "sterm"],
    ["hBAMAQApqBAzEC0FArBC2HA9BABADBlJBk3BB2YAEBlYAmGB9EBtBAFA6JBiLDiFBKBCBdC7FBhCBkdAXBJCvlDCyJA",
     "NAWBtNA8ndAuIBjHADA-LB2CB_CA4EBzECwEB5HAmxUACB7BADBpFAMAQAhCA03CB9nBEsBD9FB1DD_DChEBGAQB4CB",
     "BBsDAqJB1DB1LBFOpDB5HClQABA7HB3CBkNB0VBqCBp5SBlEAhCBLApRBoJAmwTAovHA"]⟩,
   ⟨["softdotted", "sd"],
    ["pDBkGA5IAeA0BAUAgKAiDABApoGAzBANADAkEA9EAlNA2GBy5CAl9pDByBByBByBByBByBByBByBByBByBByBByBByB",
     "BmkCAxJBaA"]⟩,
   ⟨["terminalpunctuation", "term"],
    ["hBAKABALBDA-ZAIAhQA5BAoCAOABC0FArBKBArHB2BFBHfAlIB0nBBsFAEF3JB1YHlYA8DCnCB9ECDAnBDCB6JBiLDi",
     "FBKBBCdC7FE-BBkdAXBJCvlDCyJANAEAKABBDBsNB7ndBtICjHE-LB2CB_CA3ECzEC_DAQB5HAmxUACB5BCBDpFAKAB",
     "ALBDAhCACA6hBAwBAmkBAnGA2JB4EFkCF5CD4dEsBD9FGwDD_DChEBGAQB4CEsDAqJB1DCMBmLDDOpDB5HClQABA7HB",
     "3CBEB-MCtBAlUBqCBrpBE5vRBlEAhCCKApRBnJBmwTAnvHD"]⟩,
   ⟨["unifiedideograph", "uideo"],
    ["ggN_tGgC_vUuwWBBABBKABABBCC2uhC_2pBgB9oECt0FCwpHPtTitEq6EFppI"]⟩,
   ⟨["uppercase", "upper"],
    ["hCZlDWBGhBABABABABABABABABABABABABABABABABABABABABABABABABABABABACABABABABABABABACABABABABA",
     "BABABABABABABABABABABABABABABABABABABBBABADBBABBBCCDBBBCDBBBBABABBBACABBBCBABBDAHACACACABAB",
     "ABABABABABACABABABABABABABABACACABCBABABABABABABABABABABABABABABABABABABABABABABABABABABABA",
     "BAHBBBCABDBABABABAhJABADAIAGABCBABBBQBIjBACCDABABABABABABABABABABABAFACABBCyBwBABABABABABAB",
     "ABABABABABABABABABABAJABABABABABABABABABABABABABABABABABABABABABABABABABABABBBABABABABABACA",
     "BABABABABABABABABABABABABABABABABABABABABABABABABABABABABABABABABABABABABABABABABABABABABAB",
     "ABAClBp6ClBBAFAyW1CzkCAGqBCCgKABABABABABABABABABABABABABABABABABABABABABABABABABABABABABABA",
     "BABABABABABABABABABABABABABABABABABABABABABABABABABABABABABABABABABABABABABABABABABABABAJAB",
     "ABABABABABABABABABABABABABABABABABABABABABABABABABABABABABABABABABABABABABABABABABABABABABA",
     "BABAJHIFKHIHIFLABABABAIHoCDMDMDMELDmIAEADCCCCADEGABABABDCDKBFAaPTAyZZw5BvBwBABCCABABABDBACA",
     "ICBABABABABABABABABABABABABABABABABABABABABABABABABABABABABABABABABABABABABABABABABABABABAB",
     "ABABABABAIABAEAtqeABABABABABABABABABABABABABABABABABABABABABABATABABABABABABABABABABABABABA",
     "nEABABABABABABADABABABABABABABABABABABABABABABABABABABABABABABABABABABABABABAKABABBBABABABA",
     "EABACABADABABABABABABABABABABEBEBABABABABABABABDBABBBABABABABABABABAYAr5VZlmBnBoEjB8EKBOBGB",
     "Bq3ByB9EV65CfgsVfgCYnqZZaZaZaABBCACBCDBHaZaBBDCHBGbBBDBEBADGbZaZaZaZaZaZeYhBYhBYhBYhBYhBA1p",
     "EhBugCZGZGZ"]⟩,
   ⟨["variationselector", "vs"],
    ["rgGCBAwv5BPw3gavH"]⟩,
   ⟨["whitespace", "wspace", "space"],
    ["JESAkDAaA_uFA_rCKdBFAvBAg9DA"]⟩,
   ⟨["xidcontinue", "xidc"],
    ["wBJHZEABZvBAKABACAFWBeBpOELOEHABAR0DBBDCBAGEBABTByCBqEBEClFBlBCAGoBIsBBABBBBBAIaEDdKFpCElDB",
     "HCJBSCAQ6BCkDO1BEACACtBSbEKFXBGHqCBgECJBSBHCBCVBGBADDCICBCDIAEBBECLKABACCBFEBCVBGBBBBBBCABE",
     "EBCCDAHDBAHPLCBIBCBVBGBBBECJBCBCCAPDCJJGBCBHCBCVBGBBBECICBCCHCEBBECJBAQBBFDCBDDBBABBDBDCDLE",
     "EDCBDCAGAOJQMBCBWBPCIBCBDHBBCBBCDCJQDBHBCBWBJBECIBCBDHBFCBDCJBCMMBCByBBCBEFDHECJKFBCBRDXBIB",
     "ACGDAEFBABHGJCBN5BFOBJnBBBABEBXBABWCEBABGBJCDgBAXBGJLABABAEJBjBETBRBjBJA5BpCGtCClBBAFACqBBs",
     "KBDCGBABDCoBBDCgBBDCGBABDCOB4BBDCiCCCJIOPQ1CCFDrTCQBZFqCDKHVJVLTMMBCBBMzCDAEBCJhBCBKG4CHqBF",
     "lCKeBLELKnBCELrBEZGKlBbE-BBcCKGJNAINBeCLUsCDJRIMzDM3BIJDwBCKFqBCCQCBmBF1QCFClBCFCHBABABABeC",
     "0BBGBADCBGDDCFEMFCBGPBxBBTAcANAQMzBMEADLRAEACJBACFGABABABPCDFEEARoB3zCkHGIMlBBAFAC3BHAPXJGB",
     "GBGBGBGBGBGBGBflQCZOBECEE1CCBCCB-CFqBB9CRfwBPgQ_tGgCs0VjCtBCsIDbUvBEJByDlBICmDCxCU2BEATzBMl",
     "CKJGXDABwBCjBMcDgCOKGeB2BJNCJGWDoCYCCPCEKFCFCFJGBGBqBBNG6DBBCJGj9KMWEwBkoItLCpDmBGMEFLBMBEB",
     "ABBBBBrDhBqEG5GS_BC1BoBJGPQPDBYChBABADABABABAB9DTJHZEABZK5CDFCFCFCCjBLBZBSBBBOCNiB6DlC0BoEA",
     "iEcDwBPAffNdFqBFdCjBEHBEqB9ECJGjBEjBEnBIzBMKBOBGBBBKBOBGBBDzBM2JJVKHYFBpBBIlCFCABrBBBDACWKW",
     "JehCSBBKVKZGZmB3BGBgCDBBFHBCBcCCEAgBcDcjBHBdZ1BKVKSNRuDoC3ByBNyBNnBIJGlBDEBW6HpBBBDBQFyBiBK",
     "AIgBfVqBUbWJmCfPJ7BHANYHJG0BBJEDIjBCAJkCEDBMBAjBRBkBGD-BGBABDBOBJH6BFJGDBHCBCVBGBBBEBJCBCCC",
     "AGAFGCGDELJBACABlBBJBACABDBHNBdqCFJEDelCBAIJmF1BCIXFiBgCDALJmB4BHJGTcaCOEJGG5F6BlDpCVHCACHB",
     "BBdBBCIMJmCHCtBCHBBb-BIAIpCDASoCnDH4CgBPJGIBsBBIPJYdCVBNpCGBBBrBDABBBIIJGFBBBkBBBBFHJGrBEJ2",
     "HWJQBoBDENK1CAvC5cmDuDRjGsyCgDPvhBQVK68DFmS51G5Bm2B4RHeBJGuCBJGdCEL2BJDMJJUFSwNsBDJmG_BgBYC",
     "YsBqCE4BHQgCBBBLGJ1mHpBfhDyD9vIDBGBBBiJPAdCCAODIrMkoCqDFMDIHJDBxiEJmQtBCW-QEDFIHCGeD0EC7N0C",
     "BmCBBCACBCDBLBABGBgCBDCHBGBbBDBEBADGBzKCYBYBeBYBeBYBeBYBeBYBHCxBgQ2BExBIAOAWEBOwiBeGF1GGBQC",
     "GBBBEF9BhBAwDsBDNCJEAhKeR5B2OpB2GqBlGeBVIBgHGBDBBBOBkGLGpBrCEJmlBDBaBBBACABJBDBABAGAEABABAB",
     "CBBBACABABABABABBBACDBGBDBDBABJBQFCBEBQ0pDJmgB_2pBgB9oECt0FCwpHPtTitC9QivBq6EFppImkzVvH"]⟩,
   ⟨["xidstart", "xids"],
    ["hCZGZvBAKAEAFWBeBpOELOEHABAhEEBBDCBAGABCBABTByCBqEIlFBlBCAGoBnCaEDtBqBjBBBiDBAPBHBKCCAQABdd",
     "4CLAYgBJBEAFVEAJADAXYHKFXBGQpB6B1BDASAHJPPEHCBCVBGBADDDAQANBBCOBKAIFEBCVBGBBBBBBfDBATCQIBCB",
     "VBGBBBEDASAPBXALHCBCVBGBBBEDAeBBCPARABFDCBDDBBABBDBDCDLWA0BHBCBWBPDAaCBBCBeAEHBCBWBJBEDAeCB",
     "BPBRIBCBoBCAQAFCICYFFRDXBIBACG6BvBBANG6BBBABEBXBABJBAKACEBAVDgBA_BHBjBbEzDqBUAQFEDDADBHCEMM",
     "ARlBBAFACqBBsKBDCGBABDCoBBDCgBBDCGBABDCOB4BBDCiClBPQ1CCFDrTCQBZFqCDKHRNSOROMBCPzBjBAEAjC4CH",
     "oBBAFlCKexBdCELrBEZ2BWJ0ByCA9CuBRH2BdNBKrBajBpBCKjBCKFqBCCpBDBFBBDAF_FgC1ICFClBCFCHBABABABe",
     "C0BBGBADCBGDDCFEMFCBG0DANAQMlDAEACJBACFGABABABPCDFEEARoB3zCkHGDDBMlBBAFAC3BHAQWJGBGBGBGBGBG",
     "BGBGmRCZIHECEE1CGCB5CBDFqBB9CRfwBPgQ_tGgCs0VjCtBCsIDPKBUuBQeCvCnBICmDCxCUQBCBDBWdzBOxB-BFDA",
     "BBLbKWZcHuBcAQEBJKEBoBXCBHUWDADxBBADBCECABAYCCKHCMFCFCFJGBGBqBBNGyDdj9KMWEwBkoItLCpDmBGMEFA",
     "BJBMBEBABBBBBrDhBqEG5GS_BC1BoBJ3DABADABABABAB9DkBZGZL3BCeDFCFCFCCjBLBZBSBBBOCNiB6DlC0BrIcDw",
     "BvBfNdFlBKdCjBEHBEqB9ESjBEjBEnBIzBMKBOBGBBBKBOBGBBDzBM2JJVKHYFBpBBIlCFCABrBBBDACWKWJehCSBBK",
     "VKZGZmB3BGBgCAPDBCBcqBcDcjBHBbb1BKVKSNRuDoC3ByBNyBNjBmBbJW6HpBGBQF4BcKAIVqBRuBUbWM0B5BBCANs",
     "BgBYajBdACAIiBDAMvBODVABAjBRBYTB_BGBABDBOBJHuBmBHCBCVBGBBBEDASAMEeJBACABlBBAZABAsB0BSDUCevB",
     "UBBA4FuBpBDkBvBUA7BqBNAnCalBG5FrB0D_BfHCACHBBBXPABA-CHCmBQABAcAKnBHAVALtBTASoCnGgBfIBkBRAxB",
     "dwDGBBBlBVAZFBBBfOAXrBkISPABMBhB8DAvC5cmDuDRjGsyCgDPvhBRFZ68DFmS51Gdi3B4RHeRuCRdSvBQDfUFSwN",
     "sBzG_BgBYCYsBqCFAiCMgCBBAOEJ1mHpBfhDyD9vIDBGBBBiJPAdCCAODIrMkoCqDFMDIHJm7F0CBmCBBCACBCDBLBA",
     "BGBgCBDCHBGBbBDBEBADGBzKCYBYBeBYBeBYBeBYBeBYBH05BeGFlI9ByEsBKGQAhKdSrBkPbkHdCAvGeBCBBBGCEJB",
     "gHGBDBBBOBkG7BjCHA0lBDBaBBBACABJBDBABAGAEABABABCBBBACABABABABABBBACDBGBDBDBABJBQFCBEBQkqE_2",
     "pBgB9oECt0FCwpHPtTitC9QivBq6EFppI"]⟩]

end RequestRouter.Unicode
