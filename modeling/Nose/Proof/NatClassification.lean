import Nose.Source.NatTest

namespace Nose

open CMemory DottedQuad

/-- These are the outcomes of the four tests. A test that is answered gives a mapped address. -/
structure Probes where
  first : Option InAddr
  second : Option InAddr
  again : Option InAddr
  third : Option InAddr
  deriving DecidableEq, Repr

/-- This is the flowchart above the tests. -/
def flowchart (source : InAddr) (probes : Probes) : Int :=
  match probes.first with
  | none => udpBlocked
  | some mapped =>
      if mapped = source then if probes.second.isSome then openInternet else symUdpFirewall
      else if probes.second.isSome then fullCone
      else match probes.again with
        | none => unexpectedNatType
        | some other =>
            if other ≠ mapped then symNat else if probes.third.isSome then restricted else portRestricted

/-- The test has the outcome, whatever the addresses were before it. -/
def Yields (test : Meeting → NatType → Int × NatType) (meeting : Meeting) : Option InAddr → Prop
  | none => ∀ type, (test meeting type).1 ≠ ok
  | some mapped =>
      ∀ type, (test meeting type).1 = ok ∧ cstr (test meeting type).2.ipv4.toList = inetNtoa mapped

/-- The tests have their outcomes at the times when they run. -/
structure Realised (host : ByteOrder) (transId : CharArray 16) (meetings : Nat → Meeting) (probes : Probes) :
    Prop where
  first : Yields (test1 host transId) (meetings 0) probes.first
  second : Yields (test2 host transId) (meetings 1) probes.second
  again : Yields (test1 host transId) (meetings 2) probes.again
  third : Yields (test3 host transId) (meetings 3) probes.third

section Outcome

variable {test : Meeting → NatType → Int × NatType} {meeting : Meeting}

theorem Yields.unanswered (yields : Yields test meeting none) (type : NatType) : (test meeting type).1 ≠ ok :=
  yields type

theorem Yields.answered {mapped : InAddr} (yields : Yields test meeting (some mapped)) (type : NatType) :
    (test meeting type).1 = ok := (yields type).1

/-- The comparison after an answer is a comparison with the mapped address. -/
theorem Yields.sameAddr_iff {mapped : InAddr} (yields : Yields test meeting (some mapped)) (sourceAddr : List UInt8)
    (type : NatType) : sameAddr sourceAddr (test meeting type).2 ↔ mapped = inetAddr sourceAddr := by
  rw [sameAddr, (yields type).2, inetAddr_inetNtoa, eq_comm]

end Outcome

/-- The first answer moved the address, nothing came from elsewhere, and the test was repeated with an answer. -/
structure Repeated (source : InAddr) (probes : Probes) (mapped other : InAddr) : Prop where
  first : probes.first = some mapped
  moved : mapped ≠ source
  second : probes.second = none
  again : probes.again = some other

theorem flowchart_repeated {source mapped other : InAddr} {probes : Probes}
    (repeated : Repeated source probes mapped other) :
    flowchart source probes =
      if other ≠ mapped then symNat else if probes.third.isSome then restricted else portRestricted := by
  rw [flowchart, repeated.first, repeated.second, repeated.again]
  simp [repeated.moved]

section Run

variable {host : ByteOrder} {sockfd : Int} {transId : CharArray 16} {meetings : Nat → Meeting} {probes : Probes}
  {sourceAddr : List UInt8} (type : NatType) (socket : 0 ≤ sockfd) (realised : Realised host transId meetings probes)

include socket realised

/-- The flowchart is followed as long as the first test is not repeated with an answer. -/
theorem doTest_natType_of_not_repeated
    (regular : ∀ mapped other, ¬ Repeated (inetAddr sourceAddr) probes mapped other) :
    (doTest host sockfd sourceAddr transId meetings type).2.natType = flowchart (inetAddr sourceAddr) probes := by
  obtain ⟨first, second, again, third⟩ := probes
  rw [doTest, if_neg (not_lt.mpr socket)]
  dsimp only
  cases first with
  | none =>
      rw [if_neg (realised.first.unanswered type)]
      rfl
  | some mapped =>
      rw [if_pos (realised.first.answered type)]
      by_cases same : mapped = inetAddr sourceAddr
      · rw [if_pos ((realised.first.sameAddr_iff sourceAddr type).mpr same)]
        cases second with
        | none =>
            rw [if_neg (realised.second.unanswered _)]
            simp [flowchart, same]
        | some elsewhere =>
            rw [if_pos (realised.second.answered _)]
            simp [flowchart, same]
      · rw [if_neg (mt (realised.first.sameAddr_iff sourceAddr type).mp same)]
        cases second with
        | some elsewhere =>
            rw [if_pos (realised.second.answered _)]
            simp [flowchart, same]
        | none =>
            rw [if_neg (realised.second.unanswered _)]
            cases again with
            | none =>
                rw [if_neg (realised.again.unanswered _)]
                simp [flowchart, same]
            | some other => exact absurd ⟨rfl, same, rfl, rfl⟩ (regular mapped other)

/-- The repeated test is compared with the source, and the last test is the first one again. -/
theorem doTest_natType_of_repeated {mapped other : InAddr}
    (repeated : Repeated (inetAddr sourceAddr) probes mapped other) :
    if other = inetAddr sourceAddr then
      (doTest host sockfd sourceAddr transId meetings type).2.natType = restricted ∨
        (doTest host sockfd sourceAddr transId meetings type).2.natType = portRestricted
    else (doTest host sockfd sourceAddr transId meetings type).2.natType = symNat := by
  obtain ⟨first, second, again, third⟩ := probes
  obtain ⟨rfl, moved, rfl, rfl⟩ := repeated
  rw [doTest, if_neg (not_lt.mpr socket)]
  dsimp only
  rw [if_pos (realised.first.answered type), if_neg (mt (realised.first.sameAddr_iff sourceAddr type).mp moved),
    if_neg (realised.second.unanswered _), if_pos (realised.again.answered _)]
  split
  · rename_i same
    rw [if_pos ((realised.again.sameAddr_iff sourceAddr _).mpr same)]
    split
    · exact Or.inl rfl
    · exact Or.inr rfl
  · rename_i different
    rw [if_neg (mt (realised.again.sameAddr_iff sourceAddr _).mp different)]

/-- The tests follow the flowchart exactly when the first test is not repeated with an answer, or its repetition maps
to an address that is neither the first mapped address nor the source. -/
theorem doTest_follows_flowchart_iff :
    (doTest host sockfd sourceAddr transId meetings type).2.natType = flowchart (inetAddr sourceAddr) probes ↔
      ∀ mapped other, Repeated (inetAddr sourceAddr) probes mapped other →
        other ≠ mapped ∧ other ≠ inetAddr sourceAddr := by
  constructor
  · intro follows mapped other repeated
    have decided := doTest_natType_of_repeated type socket realised repeated
    rw [follows, flowchart_repeated repeated] at decided
    by_cases back : other = inetAddr sourceAddr
    · have changed : other ≠ mapped := fun same => repeated.moved (same ▸ back)
      rw [if_pos back, if_pos changed] at decided
      exact absurd decided (by decide)
    · refine ⟨fun same => ?_, back⟩
      rw [if_neg back, if_neg (not_not.mpr same)] at decided
      split at decided
      · exact absurd decided (by decide)
      · exact absurd decided (by decide)
  · intro distinct
    by_cases regular : ∀ mapped other, ¬ Repeated (inetAddr sourceAddr) probes mapped other
    · exact doTest_natType_of_not_repeated type socket realised regular
    · simp only [not_forall, not_not] at regular
      obtain ⟨mapped, other, repeated⟩ := regular
      obtain ⟨changed, foreign⟩ := distinct mapped other repeated
      have decided := doTest_natType_of_repeated type socket realised repeated
      rw [if_neg foreign] at decided
      rw [decided, flowchart_repeated repeated, if_pos changed]

end Run

/-- This response of a server has one attribute, the mapped address. -/
def bindingResponse (mapped : InAddr) : List UInt8 :=
  [1, 1, 0, 12, 0, 0, 0, 0, 0, 0, 0, 0, 0, 0, 0, 0, 0, 0, 0, 0, 0, 1, 0, 8, 0, 1, 212, 48,
    mapped.first, mapped.second, mapped.third, mapped.fourth]

def meetingOf (outcome : Option InAddr) : Meeting := ⟨fun _ => 0, fun _ => 0, fun _ => outcome.map bindingResponse⟩

/-- The mapped address of a response is unpacked. -/
theorem stunRspUnpack_bindingResponse (host : ByteOrder) (mapped : InAddr) (rest : Block)
    (external : CharArray 16 × Int) :
    stunRspUnpack host (block (bindingResponse mapped) rest) 32 external =
      (ok, external.1.setString (inetNtoa mapped), 54320) := by
  have stop : htons host (load16 host (block (bindingResponse mapped) rest) 2) = 12 := htons_load16 _ _ _
  have type : htons host (load16 host (block (bindingResponse mapped) rest) 20) = mappedAddr := htons_load16 _ _ _
  have length : htons host (load16 host (block (bindingResponse mapped) rest) 22) = 8 := htons_load16 _ _ _
  have port : htons host (load16 host (block (bindingResponse mapped) rest) 26) = 54320 := htons_load16 _ _ _
  have address : loadAddr (block (bindingResponse mapped) rest) 28 = mapped := rfl
  rw [stunRspUnpack, stop]
  simp [stunAttributes, type, length, port, address, sizeT]

/-- Every outcome can be met. -/
theorem yields_meetingOf (host : ByteOrder) (request : Block → Block → CharArray 16 → List UInt8)
    (transId : CharArray 16) (outcome : Option InAddr) :
    Yields (runTest host request transId) (meetingOf outcome) outcome := by
  cases outcome with
  | none =>
      intro type
      change error ≠ ok
      decide
  | some mapped =>
      intro type
      have unpacked := stunRspUnpack_bindingResponse host mapped
        (block (request (fun _ => 0) (fun _ => 0) transId) fun _ => 0) (type.ipv4, type.port)
      have ran : runTest host request transId (meetingOf (some mapped)) type =
          (ok, { type with ipv4 := type.ipv4.setString (inetNtoa mapped), port := 54320 }) := by
        rw [runTest, meetingOf]
        exact congrArg (fun result : Int × CharArray 16 × Int =>
          (result.1, { type with ipv4 := result.2.1, port := result.2.2 })) unpacked
      rw [ran]
      exact ⟨rfl, type.ipv4.cstr_setString _ (length_inetNtoa_lt mapped) (zero_notMem_inetNtoa mapped)⟩

theorem realised_meetingOf (host : ByteOrder) (transId : CharArray 16) (probes : Probes) :
    ∃ meetings, Realised host transId meetings probes := by
  refine ⟨fun i => meetingOf ([probes.first, probes.second, probes.again, probes.third].getD i none), ?_⟩
  exact ⟨yields_meetingOf .., yields_meetingOf .., yields_meetingOf .., yields_meetingOf ..⟩

/-- A restricted translator keeps its mapped address and is taken for a symmetric one. -/
theorem restricted_taken_for_symmetric :
    ¬ ∀ (host : ByteOrder) (sockfd : Int) (sourceAddr : List UInt8) (transId : CharArray 16)
      (meetings : Nat → Meeting) (probes : Probes) (type : NatType),
      0 ≤ sockfd → Realised host transId meetings probes →
        (doTest host sockfd sourceAddr transId meetings type).2.natType =
          flowchart (inetAddr sourceAddr) probes := by
  intro claim
  let probes : Probes := ⟨some ⟨1, 2, 3, 4⟩, none, some ⟨1, 2, 3, 4⟩, some ⟨1, 2, 3, 4⟩⟩
  let sourceAddr := inetNtoa ⟨10, 0, 0, 2⟩
  let type : NatType := ⟨0, 0, Vector.replicate 16 0⟩
  have source : inetAddr sourceAddr = ⟨10, 0, 0, 2⟩ := inetAddr_inetNtoa _
  have repeated : Repeated (inetAddr sourceAddr) probes ⟨1, 2, 3, 4⟩ ⟨1, 2, 3, 4⟩ := by
    rw [source]
    exact ⟨rfl, by decide, rfl, rfl⟩
  obtain ⟨meetings, realised⟩ := realised_meetingOf .little (Vector.replicate 16 0) probes
  have symmetric := doTest_natType_of_repeated type (show (0 : Int) ≤ 3 by decide) realised repeated
  rw [source, if_neg (by decide), claim _ _ _ _ _ _ _ (by decide) realised, source] at symmetric
  exact absurd symmetric (by decide)

/-- A symmetric translator that maps the repeated test to a third address is recognised. -/
theorem doTest_follows_flowchart_sample :
    ∃ meetings, (doTest .little 3 (inetNtoa ⟨10, 0, 0, 2⟩) (Vector.replicate 16 0) meetings
      ⟨0, 0, Vector.replicate 16 0⟩).2.natType = symNat := by
  obtain ⟨meetings, realised⟩ := realised_meetingOf .little (Vector.replicate 16 0)
    ⟨some ⟨1, 2, 3, 4⟩, none, some ⟨1, 2, 3, 5⟩, none⟩
  refine ⟨meetings, ?_⟩
  rw [(doTest_follows_flowchart_iff _ (by decide) realised).mpr, inetAddr_inetNtoa]
  · decide
  · rintro _ _ ⟨⟨⟩, _, _, ⟨⟩⟩
    rw [inetAddr_inetNtoa]
    decide

end Nose
