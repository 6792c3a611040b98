import ArmSim.Body
import ArmSim.Continue
import ArmSim.Lib.Agreement
import Mathlib.Tactic.IntervalCases

/-! The local variables that the source reads before it has written them: `data` of the transfer
loop, `value` of `print_string` and `instruction` of `arm_exception`.  A step depends on what they
hold in two situations only. -/
namespace ArmSim
open Lib

section reads
variable (mem : Memory) {a : Word}

/-- A read that begins inside the memory does not leave its variable alone. -/
theorem memoryReadByte_settles (h : a.toNat < mem.size) (v v' : Byte) :
    memoryReadByte mem a v = memoryReadByte mem a v' := by
  unfold memoryReadByte
  rw [if_neg (Nat.not_le.mpr h), if_neg (Nat.not_le.mpr h)]

theorem memoryReadWord_settles (h : a.toNat < mem.size) (v v' : Word) (be : Bool) :
    memoryReadWord mem a v be = memoryReadWord mem a v' be := by
  unfold memoryReadWord
  rw [if_neg (Nat.not_le.mpr h), if_neg (Nat.not_le.mpr h)]

end reads

theorem toNat_sub_two {x : Word} (h : 2 ≤ x.toNat) : (x - 2).toNat = x.toNat - 2 := by
  rw [BitVec.toNat_sub]
  change (4294967296 - 2 + x.toNat) % 4294967296 = _
  omega

/-- A set bit 1 is taken away. -/
theorem clrBit_one {x : Word} (h : getBit x 1 = 1) : clrBit x 1 = x - 2 := by
  have hx : x.toNat / 2 % 2 = 1 := by
    rw [getBit_eq_div] at h
    exact h
  have hz : (x - 2).toNat = x.toNat - 2 := toNat_sub_two (by omega)
  have hclear : getBit (x - 2) 1 = 0 := by
    rw [getBit_eq_div, hz]
    omega
  -- Without a carry the sum is a disjunction, and the mask takes the bit away again.
  have hsum : setBit (x - 2) 1 = x := by
    have hdisjoint : (x - 2 : Word) &&& 1#32 <<< 1 = 0#32 := by
      apply BitVec.eq_of_getLsbD_eq
      intro i _
      have hbit : (x - 2).getLsbD 1 = false := by
        rw [getBit_eq] at hclear
        simpa using hclear
      rw [BitVec.getLsbD_and]
      by_cases hi : i = 1
      · rw [hi, hbit]
        rfl
      · have hother : (1#32 <<< 1).getLsbD i = false := by
          change (BitVec.twoPow 32 1).getLsbD i = false
          rw [BitVec.getLsbD_twoPow]
          simp [Ne.symm hi]
        rw [hother, Bool.and_false]
        simp
    unfold setBit
    rw [← BitVec.add_eq_or_of_and_eq_zero _ _ hdisjoint]
    exact BitVec.sub_add_cancel x 2#32
  have hkeep : clrBit (setBit (x - 2) 1) 1 = clrBit (x - 2) 1 := by
    apply BitVec.eq_of_getLsbD_eq
    intro i _
    rw [getLsbD_clrBit, getLsbD_clrBit, getLsbD_setBit]
    by_cases hi : i = 1 <;> simp [hi]
  rw [hsum] at hkeep
  rw [hkeep, clrBit_eq_self hclear]

/-- The address from which `arm_exception` reads the instruction again is the one from which it
was fetched, or lies two bytes before it. -/
theorem reread_cases (x : Word) : ((x + 4 + 4) &&& 0xFFFFFFFD) - 8 = x ∨
    ((x + 4 + 4) &&& 0xFFFFFFFD) - 8 = x - 2 ∧ 2 ≤ x.toNat := by
  have height : x + 4 + 4 = x + 8 := BitVec.add_assoc x 4 4
  rw [height]
  change clrBit (x + 8) 1 - 8 = x ∨ clrBit (x + 8) 1 - 8 = x - 2 ∧ 2 ≤ x.toNat
  rcases getBit_zero_or_one (x + 8) 1 with h | h
  · rw [clrBit_eq_self h, BitVec.add_sub_cancel]
    exact Or.inl rfl
  · rw [clrBit_one h]
    right
    constructor
    · rw [BitVec.sub_sub, BitVec.add_comm 2 8, ← BitVec.sub_sub, BitVec.add_sub_cancel]
    · rw [getBit_eq_div, BitVec.toNat_add] at h
      change (x.toNat + 8) % 4294967296 / 2 % 2 = 1 at h
      omega

theorem reread_le (x : Word) : (((x + 4 + 4) &&& 0xFFFFFFFD) - 8).toNat ≤ x.toNat := by
  rcases reread_cases x with h | ⟨h, h2⟩
  · rw [h]
  · rw [h, toNat_sub_two h2]
    exact Nat.sub_le x.toNat 2

/-- Where the word was fetched, it can be read again. -/
theorem reread_inRange {mem : Memory} {x : Word} (h : mem.InRange x 4) :
    mem.InRange (((x + 4 + 4) &&& 0xFFFFFFFD) - 8) 4 := by
  rcases reread_cases x with he | ⟨he, h2⟩
  · rwa [he]
  · rw [he]
    intro j hj
    rcases Nat.lt_or_ge j 2 with hlt | hge
    · -- The two bytes before the fetched word.
      have hbefore : (x - 2 + BitVec.ofNat 32 j).toNat = x.toNat - 2 + j := by
        rw [BitVec.toNat_add, toNat_sub_two h2, BitVec.toNat_ofNat]
        omega
      have hstart := h.start (by decide)
      omega
    · have hinside : x - 2 + BitVec.ofNat 32 j = x + BitVec.ofNat 32 (j - 2) := by
        obtain ⟨k, rfl⟩ := Nat.exists_eq_add_of_le hge
        rw [Nat.add_sub_cancel_left, BitVec.ofNat_add, ← BitVec.add_assoc]
        exact congrArg (· + BitVec.ofNat 32 k) (BitVec.sub_add_cancel x 2#32)
      rw [hinside]
      exact h (j - 2) (by omega)

section loops
variable [Platform]

/-- What two runs of the transfer loop have in common: all but the contents of `data`, which may
differ as long as the next load is going to overwrite it. -/
structure SameTransfer (L : ℕ) (registerList : BitVec 16) (s s' : MultipleLoop) : Prop where
  address : s'.address = s.address
  p : s'.p = s.p
  data : L ≠ 0 → registerList ≠ 0 → s'.data = s.data ∨ s.address.toNat < s.p.mem.size

theorem multipleStep_settles (L : ℕ) (registerList : BitVec 16) {s s' : MultipleLoop}
    (h : SameTransfer L registerList s s') (i : ℕ) :
    Agree (SameTransfer L registerList) (multipleStep L registerList s i)
      (multipleStep L registerList s' i) := by
  unfold multipleStep
  rw [h.address, h.p]
  refine agree_ite Iff.rfl (fun hlisted _ => ?_) (fun _ _ => h)
  refine agree_ite Iff.rfl (fun hL _ => ?_) (fun hL _ => ?_)
  · have hlist : registerList ≠ 0 := by
      rintro rfl
      exact hlisted (by simp [getBit])
    have hread : armReadWord s.p s.address s'.data = armReadWord s.p s.address s.data := by
      rcases h.data hL hlist with hdata | hinside
      · rw [hdata]
      · exact memoryReadWord_settles s.p.mem hinside _ _ _
    rw [hread]
    apply agree_bind
    intro r _
    exact agree_bind _ (fun q _ => ⟨rfl, rfl, fun _ _ => Or.inl rfl⟩)
  · apply agree_bind
    intro v _
    exact agree_bind _ (fun r _ => ⟨rfl, rfl, fun hload => absurd hload hL⟩)

omit [Platform] in
theorem printStringLoop_settles (p : ArmCore) {a : Word} (h : a.toNat < p.mem.size) (room : ℕ)
    (v v' : Byte) (c : List Byte) :
    printStringLoop p room a v c = printStringLoop p room a v' c := by
  cases room with
  | zero => rfl
  | succ room =>
    have hread : armReadByte p a v = armReadByte p a v' := memoryReadByte_settles p.mem h v v'
    unfold printStringLoop
    rw [hread]

end loops

section steps
variable [Platform]

/-- A load that names a register, and whose words begin outside the memory. -/
def LoadsOutside (p : ArmCore) (ins : Word) : Prop :=
  getBits ins 27 25 = 4 ∧ getBit ins 20 ≠ 0 ∧ listOf ins ≠ 0 ∧
    ∃ base, armReadRegister p (getBits ins 19 16) = .ok base ∧
      p.mem.size ≤ (firstAddress ins base).toNat

/-- A software interrupt that is read again as the third one, to print a string that begins outside
the memory. -/
def PrintsOutside (p : ArmCore) (ins : Word) : Prop :=
  getBits ins 27 25 = 7 ∧ getBit ins 24 ≠ 0 ∧
    (∃ r word, armReadWord p (((p.pc + 4) &&& 0xFFFFFFFD) - 8) 0 = .ok (r, word) ∧
      word &&& 0xFFFFFF = 0x000003) ∧
    ∃ address, armReadRegister p 0 = .ok address ∧ p.mem.size ≤ address.toNat

/-- The next step uses a variable that nobody has written. -/
def UsesUnwritten (p : ArmCore) : Prop :=
  ∃ inst, Fetches p inst ∧ flagCond (getBits inst 31 28) p.cpsr = true ∧
    (LoadsOutside p.advance inst ∨ PrintsOutside p.advance inst)

variable {env env' : Env} {p : ArmCore} {inst : Word}

theorem armLoadStoreMultiple_settles (hcode : getBits inst 27 25 = 4)
    (h : ¬LoadsOutside p inst) :
    armLoadStoreMultiple env' p inst = armLoadStoreMultiple env p inst := by
  rw [armLoadStoreMultiple_eq, armLoadStoreMultiple_eq]
  apply Agree.eq
  apply agree_bind
  intro base hbase
  have hstart : SameTransfer (getBit inst 20) (listOf inst)
      ⟨firstAddress inst base, env'.data, p⟩ ⟨firstAddress inst base, env.data, p⟩ := by
    refine ⟨rfl, rfl, fun hL hlist => Or.inr ?_⟩
    by_contra hout
    exact h ⟨hcode, hL, hlist, base, hbase, Nat.not_lt.mp hout⟩
  apply (agree_foldlM hstart (fun i _ _ _ hs => multipleStep_settles _ _ hs i)).bind
  intro s s' _ _ hs
  rw [hs.p]
  exact agree_self _ (fun _ _ => rfl)

theorem armFetchCodeInst_settles (cpsr : Word) (h : ¬LoadsOutside p inst) :
    armFetchCodeInst env' p inst cpsr = armFetchCodeInst env p inst cpsr := by
  by_cases hcode : getBits inst 27 25 = 4
  · rw [decode_multiple _ _ _ hcode, decode_multiple _ _ _ hcode,
      armLoadStoreMultiple_settles hcode h]
  · unfold armFetchCodeInst
    dsimp only
    split
    all_goals first | rfl | exact absurd ‹_› hcode

/-- Only a software interrupt has the code of one, and it leaves the state. -/
theorem armFetchCodeInst_software (env : Env) (p : ArmCore) (inst : Word) :
    Ends (armFetchCodeInst env p inst p.cpsr)
      (fun r => toUint8 r.1 = 8 → r.2 = p ∧ getBits inst 27 25 = 7 ∧ getBit inst 24 ≠ 0)
      (fun _ => True) := by
  have hnever {x : Except Crash (ℤ × ArmCore)} {code : ℤ → Prop} {E : Crash → Prop}
      (h : Ends x (Handled p code) E) (hcode : ∀ c, code c → toUint8 c ≠ 8) :
      Ends x (fun r => toUint8 r.1 = 8 → r.2 = p ∧ getBits inst 27 25 = 7 ∧ getBit inst 24 ≠ 0)
        (fun _ => True) :=
    h.mono (fun r hr h8 => absurd h8 (hcode r.1 hr.1)) (fun _ _ => trivial)
  have h0 (c : ℤ) (hc : c = 0) : toUint8 c ≠ 8 := by
    rw [hc]
    decide
  have h07 (c : ℤ) (hc : c = 0 ∨ c = 7) : toUint8 c ≠ 8 := by
    rcases hc with rfl | rfl <;> decide
  have h02 (c : ℤ) (hc : c = 0 ∨ c = 2) : toUint8 c ≠ 8 := by
    rcases hc with rfl | rfl <;> decide
  have htransfer (c : ℤ) (hc : TransferCode p inst c) : toUint8 c ≠ 8 := by
    rcases hc with rfl | rfl | ⟨rfl, -⟩ <;> decide
  have hundefined : Ends (.ok (Exc.UNDEFINED_INSTRUCTION, p) : Except Crash (ℤ × ArmCore))
      (fun r => toUint8 r.1 = 8 → r.2 = p ∧ getBits inst 27 25 = 7 ∧ getBit inst 24 ≠ 0)
      (fun _ => True) := fun h8 => absurd h8 (show toUint8 7 ≠ 8 by decide)
  unfold armFetchCodeInst
  dsimp only
  split
  · rename_i hcode
    refine ends_ite (fun h4 => ends_ite (fun _ => ?_) (fun _ => ?_)) (fun h4 => ?_)
    · exact hnever (armMiscellaneous_ends p inst) h02
    · exact hnever (armDataProcessingImmediateShift_ends p inst rfl) h07
    refine ends_ite (fun _ => ends_ite (fun _ => ?_) (fun _ => ?_))
      (fun h7 => ends_ite (fun _ => ?_) (fun h56 => ?_))
    · exact hnever (armMiscellaneous2_ends p inst) h0
    · exact hnever (armDataProcessingRegisterShift_ends p inst rfl) h07
    · exact hnever (armMultiply_ends p inst rfl) h0
    · exact hnever (armLoadStoreMiscellaneous_ends p inst hcode
        ((getBit_zero_or_one inst 4).resolve_left h4)
        ((getBit_zero_or_one inst 7).resolve_left h7) h56) htransfer
  · exact ends_ite (fun _ => hundefined)
      (fun _ => hnever (armDataProcessingImmediate_ends p inst rfl) h07)
  · rename_i hcode
    exact hnever (armLoadStoreImmediateOffset_ends p inst hcode) htransfer
  · rename_i hcode
    exact ends_ite (fun h4 => hnever (armLoadStoreRegisterOffset_ends p inst hcode h4) htransfer)
      (fun _ => hundefined)
  · exact hnever (armLoadStoreMultiple_ends env p inst) h0
  · exact hnever (armBranch_ends p inst) h0
  · exact hundefined
  · rename_i hcode
    refine ends_ite (fun _ => hundefined) (fun h24 => ?_)
    exact ends_ite (fun _ _ => ⟨rfl, hcode, h24⟩) (fun _ => hundefined)
  · exact hundefined

theorem armException_settles (hscanned : env'.scanned = env.scanned)
    (hswi : getBits inst 27 25 = 7 ∧ getBit inst 24 ≠ 0)
    (hreread : (((p.pc + 4) &&& 0xFFFFFFFD) - 8).toNat < p.mem.size)
    (h : ¬PrintsOutside p inst) :
    armException env' p Exc.SOFTWARE_INTERRUPT = armException env p Exc.SOFTWARE_INTERRUPT := by
  have hpc : armReadRegister p 15 = .ok ((p.pc + 4) &&& 0xFFFFFFFD) := armReadRegister_pc p
  have hword (v : Word) : armReadWord p (((p.pc + 4) &&& 0xFFFFFFFD) - 8) v =
      armReadWord p (((p.pc + 4) &&& 0xFFFFFFFD) - 8) 0 :=
    memoryReadWord_settles p.mem hreread v 0 _
  unfold armException
  simp only [↓reduceIte, hpc, ok_bind, hword]
  apply Agree.eq
  apply agree_bind
  intro r hr
  have hprint (hthree : r.2 &&& 0xFFFFFF = 0x000003) : printString env' p = printString env p := by
    unfold printString
    apply Agree.eq
    apply agree_bind
    intro address haddress
    have hinside : address.toNat < p.mem.size := by
      by_contra hout
      exact h ⟨hswi.1, hswi.2, ⟨r.1, r.2, hr, hthree⟩, address, haddress, Nat.not_lt.mp hout⟩
    rw [printStringLoop_settles p hinside 100 env'.value env.value]
    exact agree_self _ (fun _ _ => rfl)
  rw [hscanned]
  refine agree_ite Iff.rfl (fun _ _ => rfl) (fun _ _ => ?_)
  refine agree_ite Iff.rfl (fun _ _ => agree_self _ (fun _ _ => rfl)) (fun _ _ => ?_)
  refine agree_ite Iff.rfl (fun _ _ => agree_self _ (fun _ _ => rfl)) (fun _ _ => ?_)
  refine agree_ite Iff.rfl (fun hthree _ => ?_) (fun _ _ => agree_self _ (fun _ _ => rfl))
  rw [hprint hthree]
  exact agree_self _ (fun _ _ => rfl)

/-- A step from any other state is settled by the state and what is scanned. -/
theorem armStep_settles (hscanned : env'.scanned = env.scanned) (h : ¬UsesUnwritten p) :
    armStep env' p = armStep env p := by
  rcases fetch_cases p with hout | ⟨hin, hstraddles⟩ | ⟨inst, hfetch⟩
  · rw [armStep_unfetchable hout, armStep_unfetchable hout, armException_reset, armException_reset]
  · rw [armStep_straddling hin hstraddles, armStep_straddling hin hstraddles]
  cases hcond : flagCond (getBits inst 31 28) p.cpsr with
  | false => rw [armStep_skip hfetch env' hcond, armStep_skip hfetch env hcond]
  | true =>
    have hload : ¬LoadsOutside p.advance inst := fun hl => h ⟨inst, hfetch, hcond, Or.inl hl⟩
    have hexecuted : armFetchCodeInst env' p.advance inst p.advance.cpsr =
        armFetchCodeInst env p.advance inst p.advance.cpsr :=
      armFetchCodeInst_settles p.advance.cpsr hload
    have hprint : ¬PrintsOutside p.advance inst := fun hp => h ⟨inst, hfetch, hcond, Or.inr hp⟩
    rw [armStep_run hfetch env' hcond, armStep_run hfetch env hcond]
    unfold runBody
    rw [hexecuted]
    apply Agree.eq
    apply agree_bind
    intro r hr
    refine agree_ite Iff.rfl (fun _ _ => ?_) (fun _ _ => rfl)
    by_cases h8 : toUint8 r.1 = 8
    · obtain ⟨hq, hswi⟩ := (armFetchCodeInst_software env p.advance inst).value hr h8
      have hpc : p.advance.pc = p.pc + 4 := Registers.get_set_self _ _ _
      have hfetched : p.pc.toNat < p.mem.size := by
        by_contra hout
        rw [Fetches, memoryReadWord_outside (Nat.not_lt.mp hout)] at hfetch
        cases hfetch
      have hreread : (((p.advance.pc + 4) &&& 0xFFFFFFFD) - 8).toNat < p.advance.mem.size := by
        rw [hpc]
        exact Nat.lt_of_le_of_lt (reread_le p.pc) hfetched
      rw [h8, hq, armException_settles hscanned hswi hreread hprint]
      exact agree_self _ (fun _ _ => rfl)
    · -- The other exceptions look at the state only.
      have hother : armException env' r.2 (toUint8 r.1) = armException env r.2 (toUint8 r.1) := by
        unfold armException
        rw [if_neg h8, if_neg h8]
      rw [hother]
      exact agree_self _ (fun _ _ => rfl)

/-- What the local variables hold before they are written does not matter: as long as no load
multiple and no string to be printed begins outside the memory, runs that are given the same
integers to scan go through the same states with the same results, or end in the same fault. -/
theorem steps_settled (steps steps' : ℕ → Env) (p : ArmCore) (n : ℕ)
    (hscanned : ∀ i < n, (steps' i).scanned = (steps i).scanned)
    (hwritten : ∀ i < n, ∀ r q, stepsFrom steps p i = .ok (r, q) → ¬UsesUnwritten q) :
    stepsFrom steps' p n = stepsFrom steps p n := by
  induction n with
  | zero => rfl
  | succ n ih =>
    have hbefore := ih (fun i hi => hscanned i (Nat.lt_succ_of_lt hi))
      (fun i hi => hwritten i (Nat.lt_succ_of_lt hi))
    unfold stepsFrom
    rw [hbefore]
    apply Agree.eq
    apply agree_bind
    rintro ⟨r, q⟩ hq
    dsimp only
    rw [armStep_settles (hscanned n (Nat.lt_succ_self n)) (hwritten n (Nat.lt_succ_self n) r q hq)]
    exact agree_self _ (fun _ _ => rfl)

end steps

/-- `LDMIA r0, {r1}` from the word 0, and the third software interrupt. -/
abbrev loadsAndPrints : ArmCore :=
  ArmCore.boot 0x10 [0xE8, 0x90, 0x00, 0x02, 0xEF, 0x00, 0x00, 0x03]

theorem not_usesUnwritten [Platform] {p : ArmCore} {inst : Word} (hfetch : Fetches p inst)
    (hload : getBits inst 27 25 = 4 → ∀ base,
      armReadRegister p.advance (getBits inst 19 16) = .ok base →
        (firstAddress inst base).toNat < p.mem.size)
    (hprint : getBits inst 27 25 = 7 → ∀ address, armReadRegister p.advance 0 = .ok address →
      address.toNat < p.mem.size) : ¬UsesUnwritten p := by
  intro h
  obtain ⟨inst', hfetch', -, h⟩ := h
  obtain rfl := hfetch.unique hfetch'
  rcases h with ⟨hcode, -, -, base, hbase, hout⟩ | ⟨hcode, -, -, address, haddress, hout⟩
  · exact absurd (hload hcode base hbase) (Nat.not_lt.mpr hout)
  · exact absurd (hprint hcode address haddress) (Nat.not_lt.mpr hout)

/-- Both are inside, so it does not matter what the variables held. -/
theorem steps_settled_inside :
    @stepsFrom makefile (fun _ => ⟨0xDEADBEEF, 0, 0x41, 0⟩) loadsAndPrints 2 =
      @stepsFrom makefile (fun _ => ⟨0, 0, 0, 0⟩) loadsAndPrints 2 := by
  refine @steps_settled makefile _ _ _ _ (fun _ _ => rfl) ?_
  intro i hi r q hq
  interval_cases i
  · cases hq
    refine @not_usesUnwritten makefile _ 0xE8900002 rfl ?_ (fun h => absurd h (by decide))
    intro _ base hbase
    cases hbase
    decide
  · cases hq
    refine @not_usesUnwritten makefile _ 0xEF000003 rfl (fun h => absurd h (by decide)) ?_
    intro _ address haddress
    cases haddress
    decide

end ArmSim
