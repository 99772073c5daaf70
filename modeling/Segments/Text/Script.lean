import Segments.Text.CodeSet

namespace Segments.Text

structure Script where
  /-- In the form in which names are compared. -/
  names : List String
  /-- The characters of the script alone, packed. -/
  own : List String
  /-- All characters that the script uses, packed; none when they are its own. -/
  used : Option (List String)

namespace Script

def set (s : Script) : CodeSet :=
  .unpack s.own

/-- The characters that use a script. A character that several scripts share is common or inherited,
and its extensions tell which. -/
def extended (s : Script) : CodeSet :=
  .unpack (s.used.getD s.own)

def all : List Script :=
  [⟨["adlm", "adlam"],
    ["hdeUcXEJEB"],
    some ["ciHAbGAjwOAfhHAglrIcXEJEB"]⟩,
   ⟨["ahom"],
    ["ebrCbACOEW"],
    none⟩,
   ⟨["hluw", "anatolianhieroglyphs"],
    ["essEwK"],
    none⟩,
   ⟨["arab", "arabic"],
    ["chCEBFBNBCBbFBJLZBeDBbHdCbVjGbEBBFcWBbCdntWeKQnYCdBCcBHAbGPeIEBfEfvNbEcPCcDDdglSDBbABBBA",
     "CABJBDBABAGAEABABABCBBBACABABABABABBBACDBGBDBDBABJBQFCBEBQcAB"],
    some ["chCEBiGBbHdCbVjGbEBBFcWBbCivNAfhHAczrAeKQrCCcBHAbGPeIEBfEbmHbBeiEbEcPCcDDdglSDBbABB",
          "BACABJBDBABAGAEABABABCBBBACABABABABABBBACDBGBDBDBABJBQFCBEBQcAB"]⟩,
   ⟨["armn", "armenian"],
    ["bzDbLCbXCCdozJE"],
    some ["bdWAvGbLCbXCCdozJE"]⟩,
   ⟨["avst", "avestan"],
    ["dxcYcBDG"],
    some ["hBArfSBdfqCcBDG"]⟩,
   ⟨["bali", "balinese"],
    ["kfWcYBbX"],
    none⟩,
   ⟨["bamu", "bamum"],
    ["clcQdJcvcQvW"],
    none⟩,
   ⟨["bass", "bassavah"],
    ["fhkIbDCF"],
    none⟩,
   ⟨["batk", "batak"],
    ["knGbZID"],
    none⟩,
   ⟨["beng", "bengali"],
    ["dpODBHCBCVBGBADDCICBCDIAEBBECY"],
    some ["baYAcmUBRBbADBHCBCVBGBADDCICBCDIAEBBECYhdHABACBBAIAIACAEACCcbaFA"]⟩,
   ⟨["bhks", "bhaiksuki"],
    ["edoIIBbSBNKbC"],
    none⟩,
   ⟨["bopo", "bopomofo"],
    ["bcSBrlXbQeIbF"],
    some ["bbJABCNAQBrbXCEJBMKDCAGAhNAJbQeIbFczlTBkWE"]⟩,
   ⟨["brah", "brahmi"],
    ["dzaEcZEbJJA"],
    none⟩,
   ⟨["brai", "braille"],
    ["pdWjV"],
    none⟩,
   ⟨["bugi", "buginese"],
    ["jwAbBCB"],
    some ["jwAbBCBcckTA"]⟩,
   ⟨["buhd", "buhid"],
    ["iuYT"],
    some ["iuNBJT"]⟩,
   ⟨["cans", "canadianaboriginal"],
    ["hoYyPvOcRdtpQP"],
    none⟩,
   ⟨["cari", "carian"],
    ["dtyMbW"],
    some ["hBAlzMACAfgDAdclQbW"]⟩,
   ⟨["aghb", "caucasianalbanian"],
    ["duxSbZLA"],
    some ["bdSAbSAbSAdtqNbZLA"]⟩,
   ⟨["cakm", "chakma"],
    ["dzkAcABR"],
    some ["dtMJckEJdtfQcABR"]⟩,
   ⟨["cham"],
    ["cmjWcCJNCJCD"],
    none⟩,
   ⟨["cher", "cherokee"],
    ["hlGdHCFcfjEdB"],
    some ["bdOCBAGBWBLBgfUdHCFcfjEdB"]⟩,
   ⟨["chrs", "chorasmian"],
    ["dyxCbB"],
    none⟩,
   ⟨["zyyy", "common"],
    ["AcMbAFbAbUBOBEXAbFArHbMFECTeMAJAGABAyNAGAOADAbGAgAAtWAeZBbvTApPDlEAcgLCcTBhVBBAbvHANAHDB",
     "FBCCAbdTLCdIBKDKBORbGcLbLBCCFBbABQbPCEzPWKVbjRjWyDCbFBeAtSdPpMUBABYPHEDdNBDAdMBfRPbGbLJA",
     "bWcLbFdCbVAdKgLjtOcLbhsIbHdYCgJJjKAgEApFAOBbezQBiAJWbIBSBDfRABbFbAFbAKKAbTBcMGBGKEjYCEbS",
     "DIdCMbZbSiUbAcshWDfvGjPGqTgAeLcIjLKbMCcJDQIBHbDEcIiFTMTMdIJYfFdGBcSBBCACBCDBLBABGBcMBDCH",
     "BGBbBBDBEBADGBnBClFCbXhtHcPcYcIbbEbREdVMOCOBOBbKKgRcEZBBNbREIHBOFfYblVEQDMDeOEdQGLEAPLEc",
     "DIJGbNIbDCLEBcKnBMNCMDJFcDHOCKGIHfQBdXbsuxBAbEdR"],
    some ["AcMbAFbAbUBLBBBEXAbFArHCBJBADABIBABFFECTeWAGABAyNAiHAtWAcaUApPDgdBLCbGBbEBJBBBGBKDK",
          "BORbGcLbLBCCFBbABQbPCEzPWKVbjRjWyDCbFBeAtSWBXCJBDBABZqCADANANAVAuJXbFAbXOMDgFJFdRbF",
          "AjtOcLbhsQZdYCblOAOBbfhSJWUCLBSBDfRABbFbAFbAFeXGBGKEpMMbZbScynBjPGqTgAeLcIjLKbMCcJD",
          "QIBHbDEcIiFTMTMdIbBGfFdGBcSBBCACBCDBLBABGBcMBDCHBGBbBBDBEBADGBnBClFCbXhtHcPcYcIbbEb",
          "REdVMOCOBOBbKKgRcEZBBNbREIXFfYblVEQDMDeOEdQGLEAPLEcDIJGbNIbDCLEBcKnBMNCMDJFcDHOCKGI",
          "HfQBdXbsuxBAbEdR"]⟩,
   ⟨["copt", "coptic", "qaac"],
    ["bmGNpjKeLFG"],
    some ["hBAwMADBBAeEBeENpjKeLFGkTAdcpCbB"]⟩,
   ⟨["xsux", "cuneiform"],
    ["efbSbjLdYeGBELhN"],
    none⟩,
   ⟨["cprt", "cypriot"],
    ["dvzKFCABbRBBDACA"],
    some ["dtiMCEbSDIcoMFCABbRBBDACA"]⟩,
   ⟨["cpmn", "cyprominoan"],
    ["ekyYdU"],
    some ["dtiMBrqKdU"]⟩,
   ⟨["cyrl", "cyrillic"],
    ["bnKfCCgMivOKgEAcYAgfNbFbtoAdRbheCBdhpGcJbHA"],
    some ["baYAcPCBABABACAFAjElRivOKgEAcYAeXAgaPbFcPAbtlKdRbheCBdhpGcJbHA"]⟩,
   ⟨["dsrt", "deseret"],
    ["dumAdB"],
    none⟩,
   ⟨["deva", "devanagari"],
    ["dkQdCEOCZcijGbFbreMJ"],
    some ["baYAcjRdECbQhiEbMBBbnAAbzfRJgKbFbreMJ"]⟩,
   ⟨["diak", "divesakuru"],
    ["eckUGCACHBBBbDBBCLJJ"],
    none⟩,
   ⟨["dogr", "dogra"],
    ["ecaYcH"],
    some ["doMLcidCJbqiOcH"]⟩,
   ⟨["dupl", "duployan"],
    ["gmdSeCFMDIHJCD"],
    some ["hBAwTBBAYBqiHAfuqLeCFMDIHJCH"]⟩,
   ⟨["egyp", "egyptianhieroglyphs"],
    ["eldGbqRKfxQ"],
    none⟩,
   ⟨["elba", "elbasan"],
    ["duvWbN"],
    some ["hBAwRAdtsCbN"]⟩,
   ⟨["elym", "elymaic"],
    ["dyyYW"],
    none⟩,
   ⟨["ethi", "ethiopic"],
    ["gvGcUBDCGBABDCbOBDCbGBDCGBABDCOBcEBDCcOCbFDZjvAWJGBGBGBGBGBGBGBGbvkCFCFCFJGBGepyFGBDBBBO"],
    some ["beCAfrDcUBDCGBABDCbOBDCbGBDCGBABDCOBcEBDCcOCbFDZjvAWJGBGBGBGBGBGBGBGbvkCFCFCFJGBGep",
          "yFGBDBBBO"]⟩,
   ⟨["gara", "garay"],
    ["dxzCbLDbCIB"],
    some ["chOAOADAdvqUbLDbCIB"]⟩,
   ⟨["geor", "georgian"],
    ["ghSbLBAFACbQBDejWbQCCgeAbLBAFA"],
    some ["hBAbvLAefEbLBAFACbVejWbQCCbjMAeuNbLBAFAjZA"]⟩,
   ⟨["glag", "glagolitic"],
    ["qrGdRgizGGBQCGBBBE"],
    some ["hBAwPABAoSACAjXAeiRAfvIAekRdRsPAbtnFAeotKGBQCGBBBE"]⟩,
   ⟨["goth", "gothic"],
    ["dueAbA"],
    some ["hBAwQBCAbOAdsyObA"]⟩,
   ⟨["gran", "grantha"],
    ["eadSDBHCBCVBGBBBECICBCCCAGAFGCGDE"],
    some ["dnTBRByQNgkAABBbECDBbnAAdnrJDBHCBCVBGBBBEBJCBCCCAGAFGCGDEerRBBA"]⟩,
   ⟨["grek", "greek"],
    ["bhWDBCCDBAEABABCBABTBcKOPjnQEbYEEEdGAmIVCFCbLCFCHBABABABbECcABOBNCFBSCCBIlJAcajEAbgnIdAR",
     "AdaxRcR"],
    some ["hBAwMBCABABAKAbUACAbQHCDBAEABABCBABTBcKOPjnQEbYEEEdGCmGVCFCbLCFCHBABABABbECcABOBNCF",
          "BSCCBIdQAhSAcajEAbgnIdARAdaxRcR"]⟩,
   ⟨["gujr", "gujarati"],
    ["dzLCBIBCBVBGBBBECJBCBCCAPDCLHG"],
    some ["dnTBRBkXCBIBCBVBGBBBECJBCBCCAPDCLHGchnSJ"]⟩,
   ⟨["gong", "gunjalagondi"],
    ["eebWFBBBbKBBBFHJ"],
    some ["hBAdhKBeanIFBBBbKBBBFHJ"]⟩,
   ⟨["guru", "gurmukhi"],
    ["duNCBFEBCVBGBBBBBBCABEEBCCDAHDBAHQ"],
    some ["dnTBRBfZCBFEBCVBGBBBBBBCABEEBCCDAHDBAHQchsZJ"]⟩,
   ⟨["gukh", "gurungkhema"],
    ["fdrScF"],
    some ["doNAfadEcF"]⟩,
   ⟨["hani", "han"],
    ["rpWZBdKMiFbVABAZIODblCjtNcMbfbJbhsIoBCeBbsiIBMBccoKclfBbGgdTGiNCinPOlbKPxXdqWuVcfYhhYFgf",
     "F"],
    some ["hBAriUZBdKMiFbAPBCBMBMBMCAGIhFAfSPbGbLJAbWbNcEbWPLbZAdKYKEdSbEBjtNcMbfbJcqYHbfbCoBC",
          "eBbhRBkWEbqpOBMBblrARlrYBfeSclfBbGgdTGiNCinPOlbKPxXdqWuVcfYhhYFgfF"]⟩,
   ⟨["hang", "hangul"],
    ["glKjVllEBjXdPeJbEcNbEbtaNbCyTqnRMWEbWpaIbEDFCFCFCC"],
    some ["glKjVljLCEJBMOCGAhNAcBdPeJbEcNbEbtaNbCyTqnRMWEbWomZBkWEcGbEDFCFCFCC"]⟩,
   ⟨["rohg", "hanifirohingya"],
    ["dxwQbNIJ"],
    some ["chOAOADAbGAfRAdvhJbNIJ"]⟩,
   ⟨["hano", "hanunoo"],
    ["itSU"],
    some ["itSW"]⟩,
   ⟨["hatr", "hatran"],
    ["dwiASBBFE"],
    none⟩,
   ⟨["hebr", "hebrew"],
    ["ccVcCIbAEFdovWZBEBABBBBBJ"],
    some ["bdVByYcCIbAEFdovWZBEBABBBBBJ"]⟩,
   ⟨["hira", "hiragana"],
    ["shDdHGCfpeVlASAbDCymVA"],
    some ["seRCEJBMQFBAEBDdHCHdMBcztGBkWEKAbTBcouRlASAbDCymVA"]⟩,
   ⟨["armi", "imperialaramaic"],
    ["dwbWVBI"],
    none⟩,
   ⟨["zinh", "inherited", "qaai"],
    ["bdOeHkRBrKKbAAbcIDgoXbEtTCBMBGEAGADBhQcLuEBhMbGftXDeDBczuJPQNblNAiSAgfAActcUbTCWuYCRHCGb",
     "EDbtlhIjF"],
    some ["beDACABODGCACPBBBRBEBDcgMBgoXbEbdBcBBABEuEBhMbFdfsQPQNblNAczqObTCWuYCRHCGbEDbtlhIjF"]⟩,
   ⟨["phli", "inscriptionalpahlavi"],
    ["dxgQSFH"],
    none⟩,
   ⟨["prti", "inscriptionalparthian"],
    ["dxfKVCH"],
    none⟩,
   ⟨["java", "javanese"],
    ["cmeYcZCJEB"],
    some ["cmeYcZBKEB"]⟩,
   ⟨["kthi", "kaithi"],
    ["dzfCcOKA"],
    some ["doOJnxXAbufEJbnmScOKA"]⟩,
   ⟨["knda", "kannada"],
    ["etCMBCBWBJBECIBCBDHBGBBDCJBC"],
    some ["dnTBRBbeOMBCBWBJBECIBCBDHBGBBDCJBCgaEABBGAXABAcasXF"]⟩,
   ⟨["kana", "katakana"],
    ["skVdLCCjGPiAbUBdJczhEJBbScouCDBGBBBAlBCbYAOD"],
    some ["bdTAbDAqzTCEJBMQFBAEBdNDDdRjGPiAbUBdJcywBBkWcKcouADBGBBBAlBCbYAOD"]⟩,
   ⟨["kawi"],
    ["eerWQBbODbC"],
    none⟩,
   ⟨["kali", "kayahli"],
    ["cmaAbTBA"],
    some ["cmaAbV"]⟩,
   ⟨["khar", "kharoshthi"],
    ["dwtCDBBFHBCBbCCCEJHI"],
    none⟩,
   ⟨["kits", "khitansmallscript"],
    ["fjiIAkgXsBbPA"],
    none⟩,
   ⟨["khmr", "khmer"],
    ["ixKdPCJGJsSbF"],
    none⟩,
   ⟨["khoj", "khojki"],
    ["dztWRBbU"],
    some ["edIJchoIJbobMRBbU"]⟩,
   ⟨["sind", "khudawadi"],
    ["eaaQcGFJ"],
    some ["doMBcidMJboiGcGFJ"]⟩,
   ⟨["krai", "kiratrai"],
    ["fiiIcF"],
    none⟩,
   ⟨["laoo", "lao"],
    ["fmVBBABEBXBABWCEBABGBJCD"],
    none⟩,
   ⟨["lepc", "lepcha"],
    ["kpScDDODC"],
    none⟩,
   ⟨["limb", "limbu"],
    ["jmEbEBLELEADL"],
    some ["doNAfxQbEBLELEADL"]⟩,
   ⟨["lina", "lineara"],
    ["dvfSlYJVKH"],
    some ["dtiTbSbvGlYJVKH"]⟩,
   ⟨["lisu"],
    ["ckkUbVbumAA"],
    some ["baYAQArdKBbsfSbVbumAA"]⟩,
   ⟨["lyci", "lycian"],
    ["dtxGbC"],
    some ["mgOAdhqRbC"]⟩,
   ⟨["lydi", "lydian"],
    ["dwkMZFA"],
    some ["hBArfTAdexQZFA"]⟩,
   ⟨["maka", "makasar"],
    ["eeqQY"],
    none⟩,
   ⟨["mlym", "malayalam"],
    ["eyAMBCBbYBCBFEPCZ"],
    some ["dnTBRBbjMMBCBbYBCBFEPCZfvEAXAcasZC"]⟩,
   ⟨["mand", "mandaic"],
    ["ddGbBCA"],
    some ["cjOAtRbBCA"]⟩,
   ⟨["mani", "manichaean"],
    ["dxaMbMEL"],
    some ["cjOAduqXbMEL"]⟩,
   ⟨["medf", "medefaidrin"],
    ["fisEdM"],
    none⟩,
   ⟨["mtei", "meeteimayek"],
    ["cmsMWhTbTCJ"],
    none⟩,
   ⟨["mend", "mendekikakui"],
    ["hcuYhOCP"],
    none⟩,
   ⟨["merc", "meroiticcursive"],
    ["dwpKXETCbT"],
    none⟩,
   ⟨["mero", "meroitichieroglyphs"],
    ["dwoEbF"],
    some ["mgRAdkhMbF"]⟩,
   ⟨["plrd", "miao"],
    ["fizOcWEcEHQ"],
    none⟩,
   ⟨["modi"],
    ["ebhGcQLJ"],
    some ["clsAJbpoWcQLJ"]⟩,
   ⟨["mong", "mongolian"],
    ["jcIBCABTGdKHbQdscBM"],
    some ["jcIZGdKHbQcwAAfzTBFDdjfWM"]⟩,
   ⟨["mroo", "mro"],
    ["fheUbEBJEB"],
    none⟩,
   ⟨["mult", "multani"],
    ["dzyUGBABDBOBK"],
    some ["dyKJdwaAGBABDBOBK"]⟩,
   ⟨["mymr", "myanmar"],
    ["gbOgDcgaYbEdTbFbpaMT"],
    some ["gbOgDcfuCAgVbEdTbFbpaMT"]⟩,
   ⟨["nbat", "nabataean"],
    ["dweIbEII"],
    none⟩,
   ⟨["nagm", "nagmundari"],
    ["hbpObP"],
    none⟩,
   ⟨["nand", "nandinagari"],
    ["ecqYHCbTCK"],
    some ["dnTASBbiMJgbHAIAHAcasRFbqySHCbTCK"]⟩,
   ⟨["talu", "newtailue"],
    ["jrCbREZGKDB"],
    none⟩,
   ⟨["newa"],
    ["eanOdNBE"],
    some ["dnTBhkCABBJAGABABAdpoSdNBE"]⟩,
   ⟨["nkoo", "nko"],
    ["cyIcGCC"],
    some ["chOAOADAqAcGCCdowSB"]⟩,
   ⟨["nshu", "nushu"],
    ["fjiFAyvMpF"],
    none⟩,
   ⟨["hmnp", "nyiakengpuachuehmong"],
    ["haeAbSDNCJEB"],
    none⟩,
   ⟨["ogam", "ogham"],
    ["inObC"],
    none⟩,
   ⟨["olck", "olchiki"],
    ["ksUbV"],
    none⟩,
   ⟨["onao", "olonal"],
    ["hbzKbQEA"],
    some ["doMBgykWbQEA"]⟩,
   ⟨["ital", "olditalic"],
    ["ducEbJJC"],
    none⟩,
   ⟨["narb", "oldnortharabian"],
    ["dwyAbF"],
    none⟩,
   ⟨["perm", "oldpermic"],
    ["dufGbQ"],
    some ["hBAwMAFCKAoDAdsmUbQ"]⟩,
   ⟨["xpeo", "oldpersian"],
    ["duiIbJEN"],
    none⟩,
   ⟨["sogo", "oldsogdian"],
    ["dyqIbN"],
    none⟩,
   ⟨["sarb", "oldsoutharabian"],
    ["dwwUbF"],
    none⟩,
   ⟨["orkh", "oldturkic"],
    ["dxmUcU"],
    some ["mgOAfgFAdfzZcU"]⟩,
   ⟨["ougr", "olduyghur"],
    ["dyuQZ"],
    some ["cjOAdusVAbsFZ"]⟩,
   ⟨["orya", "oriya"],
    ["eeJCBHCBCVBGBBBECICBCCHCEBBECR"],
    some ["dnTBRBpVCBHCBCVBGBBBECICBCCHCEBBECRgpEAXA"]⟩,
   ⟨["osge", "osage"],
    ["dusUbJEbJ"],
    some ["bdPACAGAcYAdtlVbJEbJ"]⟩,
   ⟨["osma", "osmanya"],
    ["duqYbDCJ"],
    none⟩,
   ⟨["hmng", "pahawhhmong"],
    ["fhmEcRKJBGBUFS"],
    none⟩,
   ⟨["latn", "latin"],
    ["cNZGZbVAPAFWBbEBrGbNEjxBbLGbWFDFMBcRcNjVoFANAQMfLBGAbBARbOecTbFbulMdXDcOCBBABHVNbfKbQBIB",
     "DbedQGboKZGZdcFFBbPBIddnPbEGF"],
    some ["cNZGZbVAMACAFWBbEBrGDAKABCBAJABAGEbBOBBBAPCHBBBbMAFAEMkRBbvEBcxKAeoIbLGbWFDFMBcRcFA",
          "HjVlRAcNANAQMdFAcFBGAbBARbOecTbFpRAbtuMHbAdXDcOCBBABHVNlQAtTbQBIBDbedQGboKZGZdcFFBb",
          "PBIddnPbEGF"]⟩,
   ⟨["linb", "linearb"],
    ["dsyQLBZBSBBBOCNbIeS"],
    some ["dsyQLBZBSBBBOCNbIeSFCEbSDI"]⟩,
   ⟨["mahj", "mahajani"],
    ["dznCbM"],
    some ["hBAdhKLcidCJbnuSbM"]⟩,
   ⟨["marc", "marchen"],
    ["edsQbFCVBN"],
    none⟩,
   ⟨["gonm", "masaramgondi"],
    ["edyEGBBBbRDABBBIIJ"],
    some ["doMBeajQGBBBbRDABBBIIJ"]⟩,
   ⟨["hung", "oldhungarian"],
    ["dxrSbYNbYHF"],
    some ["mgOACAfgDAPAdgeGbYNbYHF"]⟩,
   ⟨["palm", "palmyrene"],
    ["dwdCbF"],
    none⟩,
   ⟨["pauc", "paucinhau"],
    ["edcAcE"],
    none⟩,
   ⟨["phag", "phagspa"],
    ["clsQcD"],
    some ["jcKBBAdcJAfzUAbtnXcD"]⟩,
   ⟨["phnx", "phoenician"],
    ["dwjGbBDA"],
    none⟩,
   ⟨["phlp", "psalterpahlavi"],
    ["dxhWRHDMG"],
    some ["cjOAduyHRHDMG"]⟩,
   ⟨["rjng", "rejang"],
    ["cmbWbJLA"],
    none⟩,
   ⟨["runr", "runic"],
    ["ioUcWDK"],
    some ["ioUdK"]⟩,
   ⟨["samr", "samaritan"],
    ["daUbTCO"],
    some ["daUbTCOojQA"]⟩,
   ⟨["saur", "saurashtra"],
    ["clvCcRIL"],
    none⟩,
   ⟨["shrd", "sharada"],
    ["dzoYdR"],
    some ["dnTAhkFABACBCAJACAcatEFCAbnwPdR"]⟩,
   ⟨["shaw", "shavian"],
    ["dupCbV"],
    some ["hBAduiAbV"]⟩,
   ⟨["sidd", "siddham"],
    ["ebcIcBCbL"],
    none⟩,
   ⟨["sgnw", "signwriting"],
    ["gwtKzBPEBO"],
    none⟩,
   ⟨["sinh", "sinhala"],
    ["fcZCBRDXBIBACGDAEFBABHGJCCdulGT"],
    some ["doMBboLCBRDXBIBACGDAEFBABHGJCCfrPAdotQT"]⟩,
   ⟨["sogd", "sogdian"],
    ["dysEbP"],
    some ["cjOAdwiPbP"]⟩,
   ⟨["sora", "sorasompeng"],
    ["dziEYHJ"],
    none⟩,
   ⟨["soyo", "soyombo"],
    ["ecxSdE"],
    none⟩,
   ⟨["sund", "sundanese"],
    ["kkUcLjWH"],
    none⟩,
   ⟨["sunu", "sunuwar"],
    ["edlWbHOJ"],
    some ["bdOBBAJACAbCADAecgKbHOJ"]⟩,
   ⟨["sylo", "sylotinagri"],
    ["clqEbS"],
    some ["doMBeYJchwIbS"]⟩,
   ⟨["syrc", "syriac"],
    ["cqYNBcHCCkMK"],
    some ["bdRBCBBAYCHBBBbcCAOBCAbGAKKbAAfNNBcHCCkMKieFABA"]⟩,
   ⟨["tglg", "tagalog"],
    ["isMVJA"],
    some ["isMVJAVB"]⟩,
   ⟨["tagb", "tagbanwa"],
    ["iwEMBCBB"],
    some ["iuNBbPMBCBB"]⟩,
   ⟨["tale", "taile"],
    ["jpGbDCE"],
    some ["bdOBFBDAezZJdkWbDCE"]⟩,
   ⟨["lana", "taitham"],
    ["jxGcKBbCCKGJGN"],
    none⟩,
   ⟨["tavt", "taiviet"],
    ["cmoUcOYE"],
    none⟩,
   ⟨["takr", "takri"],
    ["ebmEcFGJ"],
    some ["doMBcidMJbptUcFGJ"]⟩,
   ⟨["taml", "tamil"],
    ["ejIBBFDCBDDBBABBDBDCDLEEDCBDCAGAOUealHbXNA"],
    some ["dnTBRBuUBBFDCBDDBBABBDBDCDLEEDCBDCAGAOUgkDAcbbKAboeFABAcDBetFbXNA"]⟩,
   ⟨["tnsa", "tangsa"],
    ["fhgQdABJ"],
    none⟩,
   ⟨["tang", "tangut"],
    ["fjiEAbFjbZIbdNtSI"],
    some ["seAPtBAeqkMAbFjbZIbdNtSI"]⟩,
   ⟨["telu", "telugu"],
    ["eoEMBCBWBPCIBCBDHBBCCACDCJHI"],
    some ["dnTBRBzQMBCBWBPCIBCBDHBBCCACDCJHIgeVBBABAXA"]⟩,
   ⟨["thaa", "thaana"],
    ["cvWbX"],
    some ["chOAOBCAcMJkSbXdpgQAKA"]⟩,
   ⟨["thai"],
    ["fhXcFFbB"],
    some ["baYAbAAbRAbTAecLcFFbB"]⟩,
   ⟨["tibt", "tibetan"],
    ["frScTBbJEbMBbJBOBGEB"],
    some ["frScTBbJEbMBbJBOBGEBmeVD"]⟩,
   ⟨["tfng", "tifinagh"],
    ["rcYcDHBOA"],
    some ["bdQABABDZApyAcDHBOA"]⟩,
   ⟨["tirh", "tirhuta"],
    ["easMcTIJ"],
    some ["dnTBRBhjJAMAPAcasZJbpaCcTIJ"]⟩,
   ⟨["todr", "todhri"],
    ["dvdGbZ"],
    some ["bdPACACAJABAcWAdtwBbZ"]⟩,
   ⟨["toto"],
    ["hatKbE"],
    some ["baYAgzsLbE"]⟩,
   ⟨["tutg", "tulutigalari"],
    ["eaiQJBACABbLBJBACABDBJBBIB"],
    some ["exAJgbQABAcasXFhFAbojEJBACABbLBJBACABDBJBBIB"]⟩,
   ⟨["ugar", "ugaritic"],
    ["duhCbDBA"],
    none⟩,
   ⟨["vaii", "vai"],
    ["ckmQlN"],
    none⟩,
   ⟨["vith", "vithkuqi"],
    ["dvaEKBOBGBBBKBOBGBB"],
    none⟩,
   ⟨["wcho", "wancho"],
    ["havGcFFA"],
    none⟩,
   ⟨["wara", "warangciti"],
    ["echCdEMA"],
    none⟩,
   ⟨["yezi", "yezidi"],
    ["dylKbPBCCB"],
    some ["chOAOADAcMJdwaGbPBCCB"]⟩,
   ⟨["yiii", "yi"],
    ["cipKbsUDcC"],
    some ["seRBFJCHiPAbqbCbsUDcCbiiCE"]⟩,
   ⟨["zanb", "zanabazarsquare"],
    ["ecuQcT"],
    none⟩]

end Script

end Segments.Text
