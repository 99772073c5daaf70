import Segments.Text.CodeSet

namespace Segments.Text

/-- Orbits from the distance of each first member from that of the last orbit, the number of
members less two, and the distances of the other members. -/
def unpackOrbits : Nat → Nat → List Nat → List (List Nat)
  | fuel + 1, start, gap :: more :: rest =>
    let members := (rest.take (more + 1)).foldl
      (fun done d => match done with
        | last :: _ => (last + d + 1) :: done
        | [] => done)
      [start + gap]
    members.reverse :: unpackOrbits fuel (start + gap) (rest.drop (more + 1))
  | _, _, _ => []

def packedOrbits : List String :=
  ["cNAbFBAbFBAbFBAbFBAbFBAbFBAbFBAbFBAbFBAbFBBbFmkKBAbFBAbFBAbFBAbFBAbFBAbFBAbFBBbFkHBAbFBAbF",
   "BAbFBAbFBAbFBAbFBAbFdNBbcObFLAbFBAbFBAbFBAbFBAbFBBbFmfTBAbFBAbFBAbFBAbFBAbFBAbFBAbFBAbFBAb",
   "FBAbFBAbFBAbFBAbFBAbFBAbFBAbFBAbFCAbFBAbFBAbFBAbFBAbFBAbFBAbFBAlgWbGAeQBAACAACAACAACAACAAC",
   "AACAACAACAACAACAACAACAACAACAACAACAACAACAACAACAACAACAAEAACAACAADAACAACAACAACAACAACAACAADAAC",
   "AACAACAACAACAACAACAACAACAACAACAACAACAACAACAACAACAACAACAACAACAACAADAACAACAADAhMBAiBBAACAACA",
   "hXBAACAhWBAhWBAADAdABAhTBAhUBAACAhWBAhYBAdSBAiCBAiABAACAgGBAckyYBAiCBAiEBAeZBAiFBAACAACAAC",
   "AiJBAACAiJDAACAiJBAACAiIBAiIBAACAACAiKBAAEAADAcDFBAADBAADBAADAACAACAACAACAACAACAACAADAACAA",
   "CAACAACAACAACAACAACAADBAADAAEAACAACAACAACAACAACAACAACAACAACAACAACAACAACAACAACAACAACAACAAEA",
   "ACAACAACAACAACAACAACAACAAIApzEBAADApzBBApzYBApzYBAADAcQBAcSBAACAACAACAACAACApySBApyPBApyRK",
   "AckpQFAckpMDAckqOBAckoDBAckpFEAckpFBApxEBAckpCFApxKMApwOFAckpEFAckoFWAcknKBAcknHgLCdFbFkpW",
   "bRAACAAEAAFAeZBAeZBAeZCAeLHAbLCAbKBAbKBAbKCAcLCAcKBAcKBAksGBAbFBBbFbDBAbFBAbFBBbFcLBAbFBAb",
   "FBCbFYbICBbFcBBAbFCAbFBAbFBAbFBBbFVBBbFbVCBbEABAbFBAbFBBbFOBAbFBAbFBBbFldCBAbFBAbFFAkrQbFA",
   "HJAACAACAACAACAACAACAACAACAACAACAACAAEAGFAADAAGAdBBAdBBAdBBAdBBAdBBAdBBAdBBAdBBAdBBAdBBAdB",
   "BAdBBAdBBAdBBAdBBAdBBAbFBAbFBBbFjfHBAbFBBbFjfGBAbFBAbFBAbFBAbFBAbFBAbFBAbFBAbFBAbFBBbFjeXB",
   "AbFBAbFBBbFjeVBCbFjeVABAbFBAbFBAbFBAbFBAbFBAbFBAbFBBbFjePBAbFBAbFBAbFBAbFBAbFbXAACBAjdRCAA",
   "CAACAACAACAACAACAACAACAACAACAACAACAACAACAAKAACAACAACAACAACAACAACAACAACAACAACAACAACAACAACAA",
   "CAACAACAACAACAACAACAACAACAACAACAACAOBAACAACAACAACAACAACAADAACAACAACAACAACAACAACAACAACAACAA",
   "CAACAACAACAACAACAACAACAACAACAACAACAACAACAACAACAACAACAACAACAACAACAACAACAACAACAACAACAACAACAA",
   "CAACAACAACAACAACAACAADAbVBAbVBAbVBAbVBAbVBAbVBAbVBAbVBAbVBAbVBAbVBAbVBAbVBAbVBAbVBAbVBAbVB",
   "AbVBAbVBAbVBAbVBAbVBAbVBAbVBAbVBAbVBAbVBAbVBAbVBAbVBAbVBAbVBAbVBAbVBAbVBAbVBAbVBAbVehEAktJ",
   "BAktJBAktJBAktJBAktJBAktJBAktJBAktJBAktJBAktJBAktJBAktJBAktJBAktJBAktJBAktJBAktJBAktJBAktJ",
   "BAktJBAktJBAktJBAktJBAktJBAktJBAktJBAktJBAktJBAktJBAktJBAktJBAktJBAktJBAktJBAktJBAktJBAktJ",
   "BAktJCAktJGAktJDAelRBAelRBAelRBAelRBAelRBAelRBAelRBAelRBAelRBAelRBAelRBAelRBAelRBAelRBAelR",
   "BAelRBAelRBAelRBAelRBAelRBAelRBAelRBAelRBAelRBAelRBAelRBAelRBAelRBAelRBAelRBAelRBAelRBAelR",
   "BAelRBAelRBAelRBAelRBAelRBAelRBAelRBAelRBAelRBAelRDAelRBAelRBAelRzXAcfmTBAcfmTBAcfmTBAcfmT",
   "BAcfmTBAcfmTBAcfmTBAcfmTBAcfmTBAcfmTBAcfmTBAcfmTBAcfmTBAcfmTBAcfmTBAcfmTBAcfmTBAcfmTBAcfmT",
   "BAcfmTBAcfmTBAcfmTBAcfmTBAcfmTBAcfmTBAcfmTBAcfmTBAcfmTBAcfmTBAcfmTBAcfmTBAcfmTBAcfmTBAcfmT",
   "BAcfmTBAcfmTBAcfmTBAcfmTBAcfmTBAcfmTBAcfmTBAcfmTBAcfmTBAcfmTBAcfmTBAcfmTBAcfmTBAcfmTBAcfmT",
   "BAcfmTBAcfmTBAcfmTBAcfmTBAcfmTBAcfmTBAcfmTBAcfmTBAcfmTBAcfmTBAcfmTBAcfmTBAcfmTBAcfmTBAcfmT",
   "BAcfmTBAcfmTBAcfmTBAcfmTBAcfmTBAcfmTBAcfmTBAcfmTBAcfmTBAcfmTBAcfmTBAcfmTBAcfmTBAcfmTBAcfmT",
   "BAcfmTBAHBAHBAHBAHBAHBAHdgLBcaeJABAAjGAcagXEAfqRRAcaiXeKAACAACAACAACAACAACAACAACAACAACAACA",
   "ACAACAACAACAACAACAACAACAACAACAACAACAACAACAACAACAACAACAACAACAACAACAACAACAACAACAACAACAACAACA",
   "ACAACAACAACAACAACAACBAcFCAACAACAACAACAACAACAACAACAACAACAACAACAACAACAACAACAACAACAACAACAACAA",
   "CAACAACAACAAMAACAACAACAACAACAACAACAACAACAACAACAACAACAACAACAACAACAACAACAACAACAACAACAACAACAA",
   "CAACAACAACAACAACAACAACAACAACAACAACAACAACAACAACAACAACAACAACAACAACAACAHBAHBAHBAHBAHBAHBAHBAH",
   "JAHBAHBAHBAHBAHBAHLAHBAHBAHBAHBAHBAHBAHBAHJAHBAHBAHBAHBAHBAHBAHBAHJAHBAHBAHBAHBAHBAHMAHCAH",
   "CAHCAHJAHBAHBAHBAHBAHBAHBAHBAHJAcVBAcVBAdHBAdHBAdHBAdHBAdVBAdVBAeXBAeXBAeHBAeHBAeVBAeVDAHB",
   "AHBAHBAHBAHBAHBAHBAHJAHBAHBAHBAHBAHBAHBAHBAHJAHBAHBAHBAHBAHBAHBAHBAHJAHBAHCAIQAINAHBAHPAHB",
   "AHEAGOAImHAbBbUAPBAPBAPBAPBAPBAPBAPBAPBAPBAPBAPBAPBAPBAPBAPBAPUAAbfNAZBAZBAZBAZBAZBAZBAZBA",
   "ZBAZBAZBAZBAZBAZBAZBAZBAZBAZBAZBAZBAZBAZBAZBAZBAZBAZBAZcsVAbVBAbVBAbVBAbVBAbVBAbVBAbVBAbVB",
   "AbVBAbVBAbVBAbVBAbVBAbVBAbVBAbVBAbVBAbVBAbVBAbVBAbVBAbVBAbVBAbVBAbVBAbVBAbVBAbVBAbVBAbVBAb",
   "VBAbVBAbVBAbVBAbVBAbVBAbVBAbVBAbVBAbVBAbVBAbVBAbVBAbVBAbVBAbVBAbVBAbVbXAAHAACAACAAHAADAALA",
   "ACAACAACAACAACAACAACAACAACAACAACAACAACAACAACAACAACAACAACAACAACAACAACAACAACAACAACAACAACAACA",
   "ACAACAACAACAACAACAACAACAACAACAACAACAACAACAACAACAACAACAACAAJAACAAFAAbtyKAACAACAACAACAAEAACA",
   "ACAACAACAACAACAACAACAACAACAACAACAACAACAACAACAAUAACAACAACAACAACAACAACAACAACAACAACAACAACAAfG",
   "AACAACAACAACAACAACAAEAACAACAACAACAACAACAACAACAACAACAACAACAACAACAACAACAACAACAACAACAACAACAAC",
   "AACAACAACAACAACAACAACAALAACAADAACAACAACAACAAFAAFAACAACAbVCAACAACAACAACAACAACAACAACAACAALAb",
   "jRBAACAACAACAACAACAACAACAAFAACAADAAEAAGAACAACAAbBAAbflWAAboMAbFBAbFBAbFBAbFBAbFBAbFBAbFBAb",
   "FBAbFBAbFBAbFBAbFBAbFBAbFBAbFBAbFBAbFBAbFBAbFBAbFBAbFBAbFBAbFBAbFBAbFBAbFbvAAbNBAbNBAbNBAb",
   "NBAbNBAbNBAbNBAbNBAbNBAbNBAbNBAbNBAbNBAbNBAbNBAbNBAbNBAbNBAbNBAbNBAbNBAbNBAbNBAbNBAbNBAbNB",
   "AbNBAbNBAbNBAbNBAbNBAbNBAbNBAbNBAbNBAbNBAbNBAbNBAbNBAbNfHAbNBAbNBAbNBAbNBAbNBAbNBAbNBAbNBA",
   "bNBAbNBAbNBAbNBAbNBAbNBAbNBAbNBAbNBAbNBAbNBAbNBAbNBAbNBAbNBAbNBAbNBAbNBAbNBAbNBAbNBAbNBAbN",
   "BAbNBAbNBAbNBAbNBAbNgBAbMBAbMBAbMBAbMBAbMBAbMBAbMBAbMBAbMBAbMBAbMCAbMBAbMBAbMBAbMBAbMBAbMB",
   "AbMBAbMBAbMBAbMBAbMBAbMBAbMBAbMBAbMCAbMBAbMBAbMBAbMBAbMBAbMBAbMCAbMBAbMcqDAcLBAcLBAcLBAcLB",
   "AcLBAcLBAcLBAcLBAcLBAcLBAcLBAcLBAcLBAcLBAcLBAcLBAcLBAcLBAcLBAcLBAcLBAcLBAcLBAcLBAcLBAcLBAc",
   "LBAcLBAcLBAcLBAcLBAcLBAcLBAcLBAcLBAcLBAcLBAcLBAcLBAcLBAcLBAcLBAcLBAcLBAcLBAcLBAcLBAcLBAcLB",
   "AcLBAcLgCAbFBAbFBAbFBAbFBAbFBAbFBAbFBAbFBAbFBAbFBAbFBAbFBAbFBAbFBAbFBAbFBAbFBAbFBAbFBAbFBA",
   "bFBAbFegPAbFBAbFBAbFBAbFBAbFBAbFBAbFBAbFBAbFBAbFBAbFBAbFBAbFBAbFBAbFBAbFBAbFBAbFBAbFBAbFBA",
   "bFBAbFBAbFBAbFBAbFBAbFBAbFBAbFBAbFBAbFBAbFBAbFbgjXAbFBAbFBAbFBAbFBAbFBAbFBAbFBAbFBAbFBAbFB",
   "AbFBAbFBAbFBAbFBAbFBAbFBAbFBAbFBAbFBAbFBAbFBAbFBAbFBAbFBAbFBAbFBAbFBAbFBAbFBAbFBAbFBAbFbul",
   "LAbHBAbHBAbHBAbHBAbHBAbHBAbHBAbHBAbHBAbHBAbHBAbHBAbHBAbHBAbHBAbHBAbHBAbHBAbHBAbHBAbHBAbHBA",
   "bHBAbHBAbHBAbHBAbHBAbHBAbHBAbHBAbHBAbHBAbHBAbH"]

/-- The orbits of characters that differ by case alone, by ascending first member, from version 16
of the repertoire. A character in no orbit has no other case. -/
def orbits : List (List Nat) :=
  let numbers := unpackNumbers 0 (packedOrbits.flatMap String.toList)
  unpackOrbits numbers.length 0 numbers

/-- The characters that a character stands for when case does not count, itself among them. -/
def orbitOf (c : Char) : List Nat :=
  (orbits.find? fun o => o.contains c.toNat).getD [c.toNat]

def sameFold (c d : Char) : Bool :=
  (orbitOf c).contains d.toNat

def CodeSet.fold (s : CodeSet) : CodeSet :=
  s.union (.ofCodes ((orbits.filter fun o => o.any s.containsCode).flatMap id))

end Segments.Text
