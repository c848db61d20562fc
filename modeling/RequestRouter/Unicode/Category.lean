/-
  RequestRouter/Unicode/Category.lean
  ===================================
  **General categories.**

  Each assigned character has one general category of two letters; unassigned characters have the
  category cn.
-/
import RequestRouter.Unicode.Table

namespace RequestRouter.Unicode

/-- The characters of each general category. -/
def categoryTables : List NamedTable :=
  [⟨["lu", "uppercaseletter"],
    ["hCZlDWBGhBABABABABABABABABABABABABABABABABABABABABABABABABABABABACABABABABABABABACABABABABA",
     "BABABABABABABABABABABABABABABABABABABBBABADBBABBBCCDBBBCDBBBBABABBBACABBBCBABBDAHACACACABAB",
     "ABABABABABACABABABABABABABABACACABCBABABABABABABABABABABABABABABABABABABABABABABABABABABABA",
     "BAHBBBCABDBABABABAhJABADAIAGABCBABBBQBIjBACCDABABABABABABABABABABABAFACABBCyBwBABABABABABAB",
     "ABABABABABABABABABABAJABABABABABABABABABABABABABABABABABABABABABABABABABABABBBABABABABABACA",
     "BABABABABABABABABABABABABABABABABABABABABABABABABABABABABABABABABABABABABABABABABABABABABAB",
     "ABAClBp6ClBBAFAyW1CzkCAGqBCCgKABABABABABABABABABABABABABABABABABABABABABABABABABABABABABABA",
     "BABABABABABABABABABABABABABABABABABABABABABABABABABABABABABABABABABABABABABABABABABABABAJAB",
     "ABABABABABABABABABABABABABABABABABABABABABABABABABABABABABABABABABABABABABABABABABABABABABA",
     "BABAJHIFKHIHIFLABABABAIHoCDMDMDMELDmIAEADCCCCADEGABABABDCDKBFA9BA8zCvBwBABCCABABABDBACAICBA",
     "BABABABABABABABABABABABABABABABABABABABABABABABABABABABABABABABABABABABABABABABABABABABABAB",
     "ABABAIABAEAtqeABABABABABABABABABABABABABABABABABABABABABABATABABABABABABABABABABABABABAnEAB",
     "ABABABABABADABABABABABABABABABABABABABABABABABABABABABABABABABABABABABABAKABABBBABABABAEABA",
     "CABADABABABABABABABABABABEBEBABABABABABABABDBABBBABABABABABABABAYAr5VZlmBnBoEjB8EKBOBGBBq3B",
     "yB9EV65CfgsVfgCYnqZZaZaZaABBCACBCDBHaZaBBDCHBGbBBDBEBADGbZaZaZaZaZaZeYhBYhBYhBYhBYhBA1pEhB"]⟩,
   ⟨["ll", "lowercaseletter"],
    ["hDZ6BApBXBHBABABABABABABABABABABABABABABABABABABABABABABABABABABABBBABABABABABABABBBABABABA",
     "BABABABABABABABABABABABABABABABABABABACABABCCABACADBEACADCCACABABACABBBACADABACBCCGACACABAB",
     "ABABABABABABBBABABABABABABABABBCABADABABABABABABABABABABABABABABABABABABABABABABABABABABABA",
     "BABGCACBBAEABABABABkCCZhGABADADCSAbiBBBDCBABABABABABABABABABABABEBACACBzBvBBABABABABABABABA",
     "BABABABABABABABABAJABABABABABABABABABABABABABABABABABABABABABABABABABABACABABABABABABBBABAB",
     "ABABABABABABABABABABABABABABABABABABABABABABABABABABABABABABABABABABABABABABABABABABABABABA",
     "wBoBn6CqBCC4XFikCIBA1DrB_BMBhBmDABABABABABABABABABABABABABABABABABABABABABABABABABABABABABA",
     "BABABABABABABABABABABABABABABABABABABABABABABABABABABABABABABABABABABABABABABABABABABABABIB",
     "ABABABABABABABABABABABABABABABABABABABABABABABABABABABABABABABABABABABABABABABABABABABABABA",
     "BABABIIFKHIHIFKHIHINCHIHIHIEBBGADCBBIDCBIHKCBByIADBDAbAEAEACBIDEA1BAr1CvBBADBBABABAEABBBFFA",
     "BABABABABABABABABABABABABABABABABABABABABABABABABABABABABABABABABABABABABABABABABABABABABAB",
     "ABABABBHABAEAMlBBAFAzoeABABABABABABABABABABABABABABABABABABABABABABATABABABABABABABABABABAB",
     "ABABAnEABABABABABABCBABABABABABABABABABABABABABABABABABABABABABABABABABABABABABABABHBABACAB",
     "ABABABAEABACABCBABABABABABABABABABAFAFABABABABABABABAEABACABABABABABABABAaADA1ZqBFIHvCg6TGM",
     "EphBZtmBnBoEjB7EKBOBGBBj4ByB9DV65CfgsVf7BYmqZZaGBRaZaDBABGBKaZaZaZaZaZaZaZaZabcYBFaYBFaYBFa",
     "YBFaYBFBA05BJBTGF3vChB"]⟩,
   ⟨["lt", "titlecaseletter"],
    ["lOACACAmBA1sHHIHIHMAPAvBA"]⟩,
   ⟨["lm", "modifierletter"],
    ["wVRELOEHABAlEAFA-OAmHAkFBtIBEAfAJADAgFAnFA0mBA_DA1RA62BArDAjTAwOFuF-BNAiBkBxVANAQM_-CBxHA_F",
     "A1OArBEFAhDB9CC24bAinBFuIAyDAcB5DIwCAXAoDDDB1OAWApEAsDAVBnDDJAmgVAtBBg_BFBpBBIzsBAgBA1KAz4D",
     "AmrTD8PCoBBmRMgCBBAOB8_PDBGBBxhM9BpGGtdAzQArSA"]⟩,
   ⟨["lo", "otherletter"],
    ["qFAPAgIAEDwGB6ZaEDtBfBJjBBBiDBAYBKCCAQABdd4CLAYgBVVqBYHKFXBGQoB7B1BDASAHJQOEHCBCVBGBADDDAQA",
     "NBBCOBKAIFEBCVBGBBBBBBfDBATCQIBCBVBGBBBEDASAPBXALHCBCVBGBBBEDAeBBCPARABFDCBDDBBABBDBDCDLWA0",
     "BHBCBWBPDAaCBBCBeAEHBCBWBJBEDAeCBBPBRIBCBoBCAQAFCICYFFRDXBIBACG6BvBBBMF7BBBABEBXBABJBBJACEX",
     "DgBA_BHBjBbEzDqBUAQFEDDADBHCEMMAxDoKBDCGBABDCoBBDCgBBDCGBABDCOB4BBDCiClBPxDrTCQBZFqCGHHRNSO",
     "ROMBCPzBoBAjCiBB0BHEChBBAFlCKexBdCELrBEZ2BWJ0BwFuBRH2BdNBKrBajBpBCKdxDDBFBBDA6hBD3_C3BYWJGB",
     "GBGBGBGBGBGBGnRA1BAE1CIAB5CEAFqBB9CRfwBPgQ_tGgC0wUB2jBjCnBIrIEPKBiCAxBlCpFAnDADGBCBDBWdzBOx",
     "B-BFDABBLbKWZcHuBtBECIKEBoBXCBHUPBFDADxBBADBCECABAYBDKHAOFCFCFJGBGxEiBdj9KMWEwBkoItLCpDjCAB",
     "JBMBEBABBBBBrDhBqLS_BC1BoBL0DEBmEpDJBsBCeDFCFCFCCjBLBZBSBBBOCNiB6DlMcDwBvBfNTBHGlBKdCjBEHgE",
     "tCiDnBIzB8CzBM2JJVKH4EFCABrBBBDACWKWJehCSBBKVKZGZmB3BGBgCAPDBCBcqBcDcjBHBbb1BKVKSNRuDoC3FjB",
     "mBDBAwJpBGBQCBB4BcKAIVqBRuBUbWM0B5BBCANsBgBYajBdACAIiBDAMvBODVABAjBRBYTB_BGBABDBOBJHuBmBHCB",
     "CVBGBBBEDASAMEeJBACABlBBAZABAsB0BSDUCevBUBBA4FuBpBDkBvBUA7BqBNAnCalBG5FrBzGHCACHBBBXPABA-CH",
     "CmBQABAcAKnBHAVALtBTASoCnGgBfIBkBRAxBdwDGBBBlBVAZFBBBfOAXoBBBkISPABMBhB8DAvC5cmHjGsyCgDPvhB",
     "RFZ68DFmS51Gdi3B4RHeRuCRdSvBzBUFSzNnB1MqCFAvF1mHpBfhDyDtwIiJPAdCCAODIrMkoCqDFMDIHJwzIA1PsBh",
     "BAhKdSrBkPalHdCAvGeBCBBBGCEJAhHGBDBBBOBkG7pBDBaBBBACABJBDBABAGAEABABABCBBBACABABABABABBBACD",
     "BGBDBDBABJBQFCBEBQkqE_2pBgB9oECt0FCwpHPtTitC9QivBq6EFppI"]⟩,
   ⟨["mn", "nonspacingmark"],
    ["gYvDzIEpIsBBABBBBBAoCKwBUQAlDGCFCBBDjBAea7CK6BIJAYDBIBCBErBC7BIqBXBf3BABAEHEADGKBdA6BAEDIAU",
     "BaACB5BAEBEBCCDAeBDALB5BAEEBBEAUBWFBA6BACABDIAHBLBeA9BAMAyBADA3BABCFCBDHBLBdA6BACAGAFBUBcB5",
     "BBEDIAUBdAoCAHCBA6CACGMHiDACILGpCBbABABA3BNBEBBFKBjBJAmDDBFBBCBZBECQDNACBGAPA_VCydCdBeBeBgC",
     "BBGIACKJAtBCBA1DBiBA2DCEBJAGC7GBCA6BABGBABACHGJCAwBNBeCLUDwBABEBAFAoBIMBgBDCBBC4BABBDABC6BH",
     "CB4ECBMBGEAGADBmG_BwWMEADL-_CCtEAgDfqRDrDB0udAEJgBBwCBwIADAEAZBFA3EBaRNAmBHZKuBCwBACDCBnBAj",
     "CFCBCBMAIAvBAzBABCCBFBBAqBBIAuHACAEAw5TAhXPQPteAiHA1EEm0BCBBFDoBCEAlFB9RDhCE9JBtCFmCKxBD7DA",
     "2BOpBACBKCxBDCBHA9BCkBEBH-BAMB0BIKDCA_CCCABBGACA9EADHVB5BBDAlBGDEmCFNABABAOB1CHCCBAXA0CFBAE",
     "BBBuHDGBBBbB1CHCABBqDABACFBAlDABACDBEjIIBBgIBBAEAwEDCBEAgBJoBFCDIAJFCCuBMBBmGABCBApGGBFBAyC",
     "VCGBBBB6DFDABBBGBAoCBDABA7KBLB0BEFABAXAlnFAGOomLLDCguCE7BG4gBA_BDxCA4lTBhzEtBCWgRCRHCGeD0EC",
     "79B2BExBIAOAWEBOwqBGBQCGBBBEkDAgFG3LA9BD8PD-HBzHACAHBFA6OGtDG19lYvH"]⟩,
   ⟨["mc", "spacingmark"],
    ["joCA3BACCIDBByBB6BCGBCBKArBA6BCiCA6BCIABB1BB6BABAGBCBKAmDBBBDCBCKApBC9BD9BB6BABECBBBJBcAOB6",
     "BCFCBCKAqBBrCCGHSBqKB_BArFBEAGACBZBKCCGVBCFCAKC4zBAeAhEAHHBB6KDCCEBBFgHB6BABAJABBIFxEAwBAFA",
     "BEBB9BAeAEBCA8BACCBADBwBHIBrFAVA25EBz_dBCA4CByBPuEBvBAwBBEBCCuDBCBYAtBABAtDACBFAtHBBBBBBAzg",
     "ZABA_DAtBCEBzDAYB7BAwBCJBNA9CCDBBAqFCfB6BBBDCBCCJAKB0CCHACABDBBBAlDCIBDAqDCGABDCAtHCGDCAxDC",
     "IBBAtDABBGAnDABBEAlICJA3HFBBEACABAuECIDEA0CAdB-BApGADABAnGAOAqDAHACA1GEEBBA-KBMAwBBIBBAovQC",
     "kxD2BoDBzrYBGF"]⟩,
   ⟨["me", "enclosingmark"],
    ["okBB0xFA-wBDBCrshBC"]⟩,
   ⟨["nd", "decimalnumber", "digit"],
    ["wBJmxBJmEJmGJ8MJ2DJ2DJ2DJ2DJ2DJ2DJ2DJ2DJ2DJgDJ2DJmCJ2IJmCJm6BJmBJsJJgEJmFJGJ2FJ2CJmEJGJmuiB",
     "JmVJmBJmGJWJ2CJ2MJ24UJmsBJmkCJGJ8YJgEJ8BJwEJ2IJ2KJ2DJ2LJmDJGTsCJmNJmDJ2UJ2CJ2HJmCJ2BJmLJ2uQ",
     "JmpCJ2CJmEJ2QJ27XJ02CxBgqCJmNJ2PJ3HJ1aJ20EJ"]⟩,
   ⟨["nl", "letternumber"],
    ["u3FCvzCiBCD-zDAZIOCr1dJwyW0BsOAIAmEEqhIuDl8SC"]⟩,
   ⟨["no", "othernumber"],
    ["yFBFACC1pCF4LF4DClEG5GGRIxNJ1hBTzjBJgPA10BADFGJmGPpBA2W7BuCV2TdprBA0kBDqEJeHBOgBJnBOwrdFxmW",
     "sBhCDRB1KakBD0pBHZGnBIrCEWFgFBCPCtBgCI0BBeCrCEoDHYHpBGqKFgLe-EJqBDwDGmET7LTlqBBuNInbSzaUm8S",
     "G-YWphZTMTsDYuqFIhd6BBCBDsCsBBOieM"]⟩,
   ⟨["pc", "connectorpunctuation"],
    ["_CA_-HBTA-u3BBYCvHA"]⟩,
   ⟨["pd", "dashpunctuation"],
    ["tBA8qBAzBAhyDAlgBApgCFhwDACAfBEAcA-NATAvDAwszBBlBAKApFAgzDA-JA"]⟩,
   ⟨["ps", "openpunctuation"],
    ["oBAyBAfA-1DABA-6BA-rCADAmBA3BAPA6TABAeA-hBABABABABABABAwCAgBABABABABA0MABABABABABABABABABAB",
     "AgCABAhBAlhBABABABAZASABABABAsNABABABABADABABABACAhpzBA3GAdABABABABABABABADARABABAqFAyBAfAD",
     "ACA"]⟩,
   ⟨["pe", "closepunctuation"],
    ["pBAzBAfA91DABA-6BAptCA3BAPA6TABAeA-hBABABABABABABAwCAgBABABABABA0MABABABABABABABABABABAgCAB",
     "AhBAlhBABABABAsBABABABAsNABABABABADABABABACB-ozBA5GAdABABABABABABABADARABABAqFAzBAfACACA"]⟩,
   ⟨["pi", "initialpunctuation"],
    ["rFAs7HACBCAZAouDABAEACAPADA"]⟩,
   ⟨["pf", "finalpunctuation"],
    ["7FA96HADAcAouDABAEACAPADA"]⟩,
   ⟨["po", "otherpunctuation"],
    ["hBCBCCABABBKBDBbAkCAFAOBHA-VAIAyOFpBA2BACACAsBBUBBBNABCqCDmDArBNpHC2BOfAlIBKAsEA4DA5DAmMAMA",
     "vLA6CAKBoFOBAwDAqCEEBvDFrFAkTIlYA8DCnCB9ECBClBFBD5JB4GBgEGBFgFBKGcC8DD7BE-BBgCHLAiaBIHIICDC",
     "CDKBABJ6kDDBBwDAvEBECCACIBBBACBKEBJCDBABMCCsNC5BA9FAigdBtICjDAKAzDF8LD2CBoBCBAxBBvBAhDMQB8D",
     "D-DBQB5HAkxUGCAWAUBCDDCBDHCGABB1ECBCCABABBKBDBbAkBACB6MC8UAwBA-MAnXAnGAfAwIImBAwDGiCG5CDzZA",
     "kEEsBD9FGtDBBD-DDwBBvCDEANABC4CFrDAqJBBByDEKBBAoDA6HWpDCcMsCAiEC8HAoIC7EA8CHzCCBE9CJ3GA_CEq",
     "BBlUBqCMvFAwjBE87CB7zOBlEAhCEIAoRCnJDnKA8lTAnvHEz7CA-aB"]⟩,
   ⟨["sm", "mathsymbol"],
    ["rBAQC9BABAtBAEAlBAfA-XAvQC7xGANAnBCNCrEAnBEGAkCEFBEACACAHAfBCABAfrIgBB6CAeYoBF1OAJA2BHvDAwK",
     "ECeKPgIiEW-BEfChIwBUCF8-zBA4ZABCkFAQC9BABAjEAGDhtDBgrwBAw-BAZAfAZAfAZAfAZAfAZAs5FB-uCI"]⟩,
   ⟨["sc", "currencysymbol"],
    ["kBA9DDpnBA7DAyPByPBHA1HAnIAlSA7sCAkmChB27hBAjuVAsDA6EA7GBDB2_HD-4wBAwtCA"]⟩,
   ⟨["sk", "modifiersymbol"],
    ["-CABAnCAGAEADApQDMNFGBABQ1DAOBioBA05FABCLCNCNCNB8kEBjzdWJBnDBweAOBmiUQ7bABAiFA3g9BE"]⟩,
   ⟨["so", "othersymbol"],
    ["mFACAEABAxeAqIB_DBuGAKATB3HAjQA1LAiEFBAkEAvGApBAnMCPABCCFUABABAlEHBFBBFDlGBwXJzWAyWA9EhBhLJ",
     "JIjsBBBDBBKABBGFBABABAEALBOABBBA6BBJECDBBBBBGBeCBBABesIHETCGCwCBdZnBGnCWKxCtCW2FBIB1BIuDB3H",
     "sBrBgC_HgQvBVBGmBCpElHFlLBuBZB4CM1GaPEANBMAVBGBwKBEJgBlBJAQeLdIAPfKmBP_JguG_Bw0V2BhbDKBBA9R",
     "CpqUPtLPgCB2BHtBCkPADAEBNB5JI5BQCCBMDAvBsB6zBBvSAogBHmjCA1kCHEQq6SDFA2qUAj7DvHKCDzNGWPPgDzD",
     "8B1HKmBC7BFCWBHdE8BVhCDA6F2CplB_P3BDyBHBNBBo2BA86CAhEAxWrBEjDMOCOBOBkBXgF4BcNrBEIHBOF6E6HF4",
     "WDQDMD5GGLEAPLE3BIJGnBIdCLEB-B3KINCMDKD4BBAEPCLEJHyEB7CKA"]⟩,
   ⟨["zs", "spaceseparator"],
    ["gBA_DA_uFA_rCKkBAvBAg9DA"]⟩,
   ⟨["zl", "lineseparator"],
    ["ohIA"]⟩,
   ⟨["zp", "paragraphseparator"],
    ["phIA"]⟩,
   ⟨["cc", "control", "cntrl"],
    ["Af_CgB"]⟩,
   ⟨["cf", "format"],
    ["tFAyqBFWAgGAxBAgMBwCAr5DA8_BEaExBEBJv03BA5HChmEAPAi7IPgjiBDvmFHm0rYAe_C"]⟩,
   ⟨["co", "privateuse"],
    ["gg4B_nGg4hc9__BC9__B"]⟩,
   ⟨["cn", "unassigned"],
    ["4bBGDHABAUAtMAmBByBBDA3BHbDGKuIA8BBlDN7BBxBBPAcBBALEiBEtHAIBCBWAHABCEBJBCBEHBDCAFBZBDAGDCBW",
     "AHACACACBBAFDCBDCBGEABGRJDAJADAWAHACAFBKADADBBOEBMGHADAIBCBWAHACAFBJBCBDGDDCAFBSJCAGCDAECCA",
     "BACCCCDCMDFCDAEBBFBNVENADAXAQBJADAEGCADACBEBKGWADAXAKAFBJADAEGCEDAEBKADLNADAzBADAGDQBaADASC",
     "YAJABBHCBDGABAIFKBDL6BDdkBCABAFAYABAXBFABAHAKBEfoCAkBDnBAkBAPANkBmGABEBB5LAEBHABAEBpBAEBhBA",
     "EBHABAEBPA5BAEBjCBgBCaF2CBGB9UC5CGWIYIULNADACL-CBKFKFaF5CGrBEmCJfAMDMDBCqBBFKsBDaFLC-BBhCAd",
     "BLFKFOBuBBMTtCAmFH8BCPC-BErBBLHrBE2QBGBmBBGBIABABABAfB1BAPAOBGATBDAJAlDAMBbANCiBNhBOsED6UVL",
     "U04BB-LEtBABEBB4BGCNYIHAHAHAHAHAHAHAHA-DhBaA5CL2GZwCA2CBnDErBA-CA2CIwBAtzcC3BI8KT4FH9GT8BCK",
     "F4BHmCHMF0DKeCuCALDhBA3BIOBKBnDXcJGBGBGIHAHA8BD-DBKFk9KLXDxBDuzIBqDlBHLFEaAFABACACAqUfqBFzB",
     "ATAEDFAnEBBA-FCGBGBGBDCHAHJFBMAaATACAPBOhB7DEDDtBC4CANCBuBuBhEdCxBOcDkBIeErBEeAlBDOpB-EBKFk",
     "BDkBDoBH0BKMAPAHACALAPAHACC0BL3JIWJIXGAqBAJkCGBBAsBACCBBXAoCHJvBTACEhBCbEblB4BDUByBACEIADAd",
     "BDDKGJGgCfnBDMI2BCdBbEaGELHvCpC2BzBMzBGuBHKFmBCdHCvGfAqBADBCPGHJgBuBHqBValBcTXIuCDkBIkCJBBZ",
     "GKF1BASHnBIgDAUKSAvB9BHABAEAPALF7BEKFEAIBCBWAHACAFAKBCBDBBFBEHBHCFKKABBBAmBAKABBBAEAKACHCc8",
     "CAFdoCHKlF2BBmBhBlCKKFNS6BFKFUbbBPDX4F8BjDzCLIBBBIACAeACBMIKlCIBuBBLaoCHzCMpCGK1CI3CiBNKFJA",
     "tBAOJdCgBBWAOoCHACAsBCBACAJHKFGACAlBACAGGKFsBDK1HZGRApBCd0CBOyBM7clDvDAFKkGryCjDM2iBJ78DEnS",
     "41G6Bl2B5RGfAKDxCAKFeBGJmCJKAHAVETvN6BlG7CEZBZrBrCD5BGR_BFKHI2mHoBgBgDzD8vIEAHACAjJOBcDBBNE",
     "HsMjoCrDENCJGKBI76D9HC0NFXOROuBBXI0D7B2HJnBBiGUmC5DULUL3CIZmE1CAnCACBBBCBEAMABAHAhCAEBIAHAc",
     "AEAFABCHA0KBkJB-VOFAPviBfFG0GHARBHACAFE-BgBBvDtBCOBKDC_JfQ6BEBvOqB1GrBDB_FfAWHC_GHAEACAPAlG",
     "BQoBsCDKDCwYkCrC9BhGEAbACABBBAKAEABABFBDBABABADACABBBABABABABACABBEAHAEAEABAKAREDAFARzBCtIs",
     "BDkDLPBPAPAlBJuF3BdMsBDJGCNG5E5eCRCNC6GFMDBOMD4BHKFoBHeBMDCNJmB4KHOBNCLC5BABDQBMDKGzEAnDkgB",
     "g3pBf-oEBu0FBxpHOuThtC-QhvBr6EEqpIm8yVBdgD_DwHvw_B-__BB-__BB"]⟩]

end RequestRouter.Unicode
