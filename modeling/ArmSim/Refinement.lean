import ArmSim.BlockRefinement
import ArmSim.Branch

/-! The simulator refines the architecture: branches and services, then a step, then runs.  A
program that reads no flag the simulator gets wrong runs as the manual says. -/
namespace ArmSim
open Lib
namespace Arch

section instructions
variable [Platform] {start p : ArmCore} {K : Known} {A B : Machine} {inst input : Word}

theorem setCell_pc (h : p.bank < 6) (v : Word) : p.setCell (bankCell PC 0) v = p.setGp 15 v := by
  unfold ArmCore.setGp
  rw [bankCell_shared (show PC < 16 by decide) (by decide) (by decide) (show 0 < 6 by decide) h]

theorem branch_simulated (env : Env) (h : Represents start K A p)
    (hclass : getBits inst 27 25 = 5)
    (hexec : execBranch A (bit inst 24) (BitVec.ofNat 24 (getBits inst 23 0)) = some B) :
    Simulated start env K p inst B := by
  obtain ⟨C, hlink, htarget⟩ := Option.bind_eq_some_iff.mp hexec
  have hC : Represents start K C (p.advance.setGpIf (getBit inst 24 = 1) LR (A.reg 15 + 4)) := by
    unfold ArmCore.setGpIf
    by_cases hl : bit inst 24 = true
    · rw [if_pos hl] at hlink
      rw [if_pos (bit_eq_true_iff.mp hl)]
      exact h.next.write (r := 14) hlink
    · rw [if_neg hl] at hlink
      cases hlink
      rw [if_neg (fun h1 => hl (bit_eq_true_iff.mpr h1))]
      exact h.next
  have hB : Represents start K B (branched p inst) := by
    unfold branched
    rw [branchTarget, branchWords, h.pc, setCell_pc hC.bank_lt]
    exact hC.write htarget
  refine simulated_of_body ?_ hB
  rw [decode_branch env p.advance p.cpsr hclass]
  exact armBranch_advance h.bank_lt h.aligned

theorem exchange_simulated (env : Env) (h : Represents start K A p)
    (hop : getBits inst 27 4 = 0x12FFF1)
    (hexec : A.next.write 15 (A.value (regField inst 0)) = some B) :
    Simulated start env K p inst B := by
  have hfields : getBits inst 27 25 = 0 ∧ getBit inst 4 = 1 ∧ getBit inst 7 = 0 ∧
      getBits inst 24 23 = 2 ∧ getBit inst 20 = 0 := by
    simp only [getBits_eq, getBit_eq_div] at hop ⊢
    omega
  obtain ⟨hclass, h4, h7, h23, h20⟩ := hfields
  have hread : armReadRegister p.advance (getBits inst 3 0) = .ok (A.value (regField inst 0)) := by
    rw [armReadRegister_eq (getBits_lt_sixteen inst rfl) h.next.bank_lt]
    exact congrArg Except.ok (h.operand (regField inst 0))
  -- The word is aligned, so the mask on bit 0 changes nothing.
  have hmask : A.value (regField inst 0) &&& 0xFFFFFFFE = A.value (regField inst 0) := by
    unfold Machine.write at hexec
    split at hexec
    · rename_i hal
      refine clrBit_eq_self (i := 0) ?_
      have hzero := hal rfl
      rw [getBit_eq_div]
      omega
    · cases hexec
  refine simulated_of_body ?_ (h.next.write hexec)
  rw [decode_miscellaneous2 env p.advance p.cpsr hclass h4 h7 h23 h20]
  unfold armMiscellaneous2
  dsimp only
  rw [hread, ok_bind, hmask, armWriteRegister_pc, setCell_pc h.next.bank_lt]
  rfl

omit [Platform] in
/-- The string that the loop of the service collects. -/
theorem printStringLoop_read (p : ArmCore) {room : ℕ} {a : Word} {s : List Byte}
    (h : readString p.mem room a = some s) (value : Byte) (c : List Byte) :
    printStringLoop p room a value c = .ok (c ++ s ++ [0]) := by
  induction room generalizing a s value c with
  | zero => cases h
  | succ room ih =>
    obtain ⟨hin, hrest⟩ := Option.ite_none_right_eq_some.mp h
    have hread : armReadByte p a value = .ok (0, p.mem.byteAt a.toNat) := by
      unfold armReadByte memoryReadByte
      rw [if_neg (Nat.not_le.mpr hin), Memory.fetch_of_lt hin]
      rfl
    unfold printStringLoop
    rw [hread, ok_bind]
    dsimp only
    by_cases hz : p.mem.byteAt a.toNat = 0
    · rw [if_pos hz] at hrest
      cases hrest
      rw [hz, if_neg (fun hne => hne rfl), List.append_nil]
      rfl
    · rw [if_neg hz] at hrest
      obtain ⟨s', hs', rfl⟩ := Option.map_eq_some_iff.mp hrest
      rw [if_pos hz, ih hs']
      simp

omit [Platform] in
/-- The number of a service, as the source takes it out of the word. -/
theorem service_number (inst : Word) :
    inst &&& 0xFFFFFF = (BitVec.ofNat 24 (getBits inst 23 0)).setWidth 32 := by
  apply BitVec.eq_of_toNat_eq
  rw [BitVec.toNat_and, BitVec.toNat_setWidth, BitVec.toNat_ofNat, getBits_eq]
  change inst.toNat &&& (2^24 - 1) = _
  rw [Nat.and_two_pow_sub_one_eq_mod]
  omega

/-- The software interrupt reads its word again, and finds it. -/
theorem software_body (env : Env) (h : Represents start K A p)
    (hin : A.mem.InRange (A.reg 15) 4) (hclass : getBits A.instruction 27 25 = 7)
    (h24 : bit A.instruction 24 = true) :
    runBody env p.advance A.instruction =
      (let instruction := (BitVec.ofNat 24 (getBits A.instruction 23 0)).setWidth 32
      if instruction = 0x123456 then return (Exc.END_SIMULATION, p.advance)
      else if instruction = 0x000001 then
        return (0, p.advance.print (.char ((A.value 0).setWidth 8)))
      else if instruction = 0x000002 then return (0, p.advance.print (.int (A.value 0)))
      else if instruction = 0x000003 then return (0, ← printString env p.advance)
      else if instruction = 0x000004 then return (0, p.advance.setGp 0 env.scanned)
      else return (8, p.advance.print (.unknownInterrupt instruction))) := by
  have hbank := h.next.bank_lt
  have hbody : armFetchCodeInst env p.advance A.instruction p.advance.cpsr = .ok (8, p.advance) := by
    simp only [armFetchCodeInst, hclass, bit_eq_true_iff.mp h24, armCoprocessorOthersSwi]
    rfl
  have hpc : armReadRegister p.advance 15 = .ok (A.value 15) := by
    rw [armReadRegister_eq (by decide) hbank]
    exact congrArg Except.ok (h.operand 15)
  have hzero : armReadRegister p.advance 0 = .ok (A.value 0) := by
    rw [armReadRegister_eq (by decide) hbank]
    exact congrArg Except.ok (h.operand 0)
  have haddress : A.value 15 - 8 = A.reg 15 := by
    rw [Machine.value, if_pos rfl]
    exact BitVec.add_sub_cancel _ _
  have hword : armReadWord p.advance (A.reg 15) env.instruction = .ok (0, A.instruction) := by
    have hmem : p.advance.mem = A.mem := h.mem
    unfold armReadWord
    rw [hmem, memoryReadWord_inRange hin]
    rfl
  unfold runBody
  rw [hbody, ok_bind]
  change armException env p.advance 8 = _
  unfold armException
  rw [if_pos rfl, hpc, ok_bind]
  dsimp only
  rw [haddress, hword, ok_bind]
  simp only [service_number, hzero, ok_bind, armWriteRegister_eq (show 0 < 16 by decide) hbank]
  rfl

omit [Platform] in
/-- A number of 24 bits stays what it is in a word. -/
theorem service_eq {n k : ℕ} (hk : k < 2^24) :
    (BitVec.ofNat 24 n).setWidth 32 = BitVec.ofNat 32 k ↔ BitVec.ofNat 24 n = BitVec.ofNat 24 k := by
  have hwide : BitVec.ofNat 32 k = (BitVec.ofNat 24 k).setWidth 32 :=
    (setWidth_ofNat (by decide) hk).symm
  rw [hwide]
  constructor
  · intro he
    apply BitVec.eq_of_toNat_eq
    have hnat := congrArg BitVec.toNat he
    rw [BitVec.toNat_setWidth, BitVec.toNat_setWidth] at hnat
    omega
  · intro he
    rw [he]

theorem software_simulated (env : Env) (h : Represents start K A p)
    (hin : A.mem.InRange (A.reg 15) 4) (hclass : getBits A.instruction 27 25 = 7)
    (h24 : bit A.instruction 24 = true)
    (hexec : execSoftware A env.scanned (BitVec.ofNat 24 (getBits A.instruction 23 0)) = some B) :
    Simulated start env K p A.instruction B := by
  have hbody := software_body env h hin hclass h24
  have hnext := h.next
  have hvalue : A.value 0 = A.reg 0 := Machine.value_of_ne (by decide)
  have hother {n k : ℕ} (hk : k < 2^24) (he : ¬BitVec.ofNat 24 n = BitVec.ofNat 24 k) :
      ¬(BitVec.ofNat 24 n).setWidth 32 = BitVec.ofNat 32 k := fun hw => he ((service_eq hk).mp hw)
  dsimp only at hbody
  unfold execSoftware at hexec
  generalize getBits A.instruction 23 0 = n at hbody hexec
  -- The end of the simulation is no step of the machine.
  by_cases h1 : BitVec.ofNat 24 n = 1
  · rw [if_pos h1] at hexec
    cases hexec
    rw [h1, hvalue] at hbody
    exact ⟨_, hbody, hnext.print _⟩
  rw [if_neg h1] at hexec
  by_cases h2 : BitVec.ofNat 24 n = 2
  · rw [if_pos h2] at hexec
    cases hexec
    rw [h2, hvalue] at hbody
    exact ⟨_, hbody, hnext.print _⟩
  rw [if_neg h2] at hexec
  by_cases h3 : BitVec.ofNat 24 n = 3
  · rw [if_pos h3] at hexec
    obtain ⟨s, hs, rfl⟩ := Option.map_eq_some_iff.mp hexec
    have hmem : p.advance.mem = A.mem := h.mem
    have hstring : printString env p.advance = .ok (p.advance.print (.str s)) := by
      have hzero : armReadRegister p.advance 0 = .ok (A.reg 0) := by
        rw [armReadRegister_eq (by decide) hnext.bank_lt, ← hvalue]
        exact congrArg Except.ok (h.operand 0)
      unfold printString
      rw [hzero, ok_bind, printStringLoop_read p.advance (by rw [hmem]; exact hs), ok_bind,
        List.nil_append, List.dropLast_concat]
      rfl
    rw [h3, hstring] at hbody
    exact ⟨_, hbody, hnext.print _⟩
  rw [if_neg h3] at hexec
  obtain ⟨h4, hwrite⟩ := Option.ite_none_right_eq_some.mp hexec
  rw [h4] at hbody
  exact ⟨_, hbody, hnext.write (r := 0) hwrite⟩

end instructions

section steps
variable [Platform] {start p : ArmCore} {K : Known} {A B : Machine}

omit [Platform] in
/-- A condition holds alike of flags that agree where it looks. -/
theorem armCondition_congr {c : ℕ} (hc : c < 15) {flags flags' : Flags}
    (h : ∀ f ∈ conditionReads c, flags f = flags' f) :
    armCondition c (flags .n) (flags .z) (flags .c) (flags .v) =
      armCondition c (flags' .n) (flags' .z) (flags' .c) (flags' .v) := by
  interval_cases c <;> simp_all [conditionReads, armCondition]

/-- The simulator's test of a condition that reads known flags. -/
theorem flagCond_simulated (h : Represents start K A p) (hsup : Supported K A)
    (hc : getBits A.instruction 31 28 < 15) :
    flagCond (getBits A.instruction 31 28) p.cpsr = holds A.flags A.instruction := by
  have hknown : ∀ f ∈ conditionReads (getBits A.instruction 31 28),
      p.cpsr.getLsbD f.position = A.flags f := fun f hf => h.flag f (hsup.condition f hf)
  rw [flagCond_eq hc]
  by_cases hls : getBits A.instruction 31 28 = Cond.LS
  · -- With C set, `LS` asks for Z in both.
    rw [if_pos hls]
    have hset := hsup.lowerOrSame hls
    have hC := hknown .c (by rw [hls]; decide)
    have hZ := hknown .z (by rw [hls]; decide)
    change p.cpsr.getLsbD Flag.C = A.flags .c at hC
    change p.cpsr.getLsbD Flag.Z = A.flags .z at hZ
    unfold holds
    rw [hls, hC, hZ, hset]
    rfl
  · rw [if_neg hls]
    exact @armCondition_congr _ hc (fun f => p.cpsr.getLsbD f.position) A.flags hknown

section data
variable {inst input : Word} {i : Instruction}

omit [Platform] in
theorem dataOf_supported {operand : ShifterOperand} (hdata : dataOf inst operand = some i)
    (hsup : i.supported K = true) : operand.misread = false := by
  unfold dataOf at hdata
  split at hdata
  · cases hdata
  · cases hdata
    simpa using (Bool.and_eq_true_iff.mp hsup).1

theorem immediateShift_simulated (env : Env) (h : Represents start K A p)
    (hclass : getBits inst 27 25 = 0) (h4 : bit inst 4 = false)
    (hdata : dataOf inst (.shifted (shiftKindOf (getBits inst 6 5)) (getBits inst 11 7)
      (regField inst 0)) = some i)
    (hsup : i.supported K = true) (hexec : exec A input i = some B) :
    Simulated start env (i.settles A K) p inst B := by
  have hright := shifted_right h (getBits_lt inst 11 7) (dataOf_supported hdata hsup)
  refine data_simulated env h hdata hsup hexec hright (fun ho => ?_)
  have hread : armReadRegister p.advance (getBits inst 3 0) = .ok (A.value (regField inst 0)) := by
    rw [armReadRegister_eq (getBits_lt_sixteen inst rfl) h.next.bank_lt]
    exact congrArg Except.ok (h.operand (regField inst 0))
  rw [decode_immediateShift env p.advance p.cpsr hclass (bit_eq_false_iff.mp h4)
    (fun hc => ho ⟨hc.1, bit_eq_false_iff.mpr hc.2⟩)]
  unfold armDataProcessingImmediateShift
  dsimp only
  rw [hread, ok_bind, shiftCodeOf_kindOf (getBits_lt inst 6 5)]

theorem registerShift_simulated (env : Env) (h : Represents start K A p)
    (hclass : getBits inst 27 25 = 0) (h4 : bit inst 4 = true) (h7 : bit inst 7 = false)
    (hdata : dataOf inst (.registerShifted (shiftKindOf (getBits inst 6 5)) (regField inst 8)
      (regField inst 0)) = some i)
    (hsup : i.supported K = true) (hexec : exec A input i = some B) :
    Simulated start env (i.settles A K) p inst B := by
  have hright := registerShifted_right h (shiftKindOf (getBits inst 6 5)) (regField inst 8)
    (regField inst 0)
  refine data_simulated env h hdata hsup hexec hright (fun ho => ?_)
  have hread (l : ℕ) : armReadRegister p.advance (getBits inst (l + 3) l) =
      .ok (A.value (regField inst l)) := by
    rw [armReadRegister_eq (getBits_lt_sixteen inst (Nat.add_sub_cancel_left l 3)) h.next.bank_lt]
    exact congrArg Except.ok (h.operand (regField inst l))
  have hclass' : ¬(getBits inst 24 23 = 2 ∧ getBit inst 20 = 0) :=
    fun hc => ho ⟨hc.1, bit_eq_false_iff.mpr hc.2⟩
  calc armFetchCodeInst env p.advance inst p.cpsr
      = armDataProcessingRegisterShift p.advance inst p.cpsr := by
        simp only [armFetchCodeInst, hclass, bit_eq_true_iff.mp h4, bit_eq_false_iff.mp h7, hclass',
          ↓reduceIte, Nat.one_ne_zero]
    _ = _ := by
        unfold armDataProcessingRegisterShift
        dsimp only
        rw [hread 0, ok_bind, hread 8, ok_bind, shiftCodeOf_kindOf (getBits_lt inst 6 5)]

theorem immediate_simulated (env : Env) (h : Represents start K A p)
    (hclass : getBits inst 27 25 = 1)
    (hdata : dataOf inst (.immediate (BitVec.ofNat 8 (getBits inst 7 0)) (getBits inst 11 8)) =
      some i)
    (hsup : i.supported K = true) (hexec : exec A input i = some B) :
    Simulated start env (i.settles A K) p inst B := by
  have hright := immediate_right h (getBits_lt inst 7 0) (getBits_lt inst 11 8)
  refine data_simulated env h hdata hsup hexec hright (fun ho => ?_)
  rw [decode_immediate env p.advance p.cpsr hclass
    (fun hc => ho ⟨hc.1, bit_eq_false_iff.mpr hc.2⟩)]
  rfl

end data

/-- The decoder of the simulator leads every instruction to a handler that does what the
architecture says. -/
theorem body_simulated (env : Env) (h : Represents start K A p)
    (hin : A.mem.InRange (A.reg 15) 4) {i : Instruction} (hi : decode A.instruction = some i)
    (hsup : i.supported K = true) (hexec : exec A env.scanned i = some B) :
    Simulated start env (i.settles A K) p A.instruction B := by
  unfold decode at hi
  -- The cases are those of the decoder, in its order.
  split at hi
  · rename_i hclass
    split at hi
    · rename_i h4
      exact immediateShift_simulated env h hclass h4 hi hsup hexec
    rename_i h4
    have h4 := Bool.eq_true_of_not_eq_false h4
    split at hi
    · rename_i h7
      split at hi
      · rename_i hop
        cases hi
        exact exchange_simulated env h hop hexec
      split at hi
      · cases hi
      · exact registerShift_simulated env h hclass h4 h7 hi hsup hexec
    rename_i h7
    have h7 := Bool.eq_true_of_not_eq_false h7
    split at hi
    · rename_i h56
      exact multiply_simulated env h hi h4 h56.1 h56.2 h7 hexec
    · rename_i h56
      exact half_simulated env h hi hclass h4 h7 h56 hexec
  · rename_i hclass
    exact immediate_simulated env h hclass hi hsup hexec
  · rename_i hclass
    exact immediateTransfer_simulated env h hclass hi hexec
  · rename_i hclass
    split at hi
    · rename_i h4
      exact registerTransfer_simulated env h hclass h4 hi hsup hexec
    · cases hi
  · rename_i hclass
    split at hi
    · rename_i hS
      cases hi
      exact block_simulated env h hclass hS hexec
    · cases hi
  · rename_i hclass
    cases hi
    exact branch_simulated env h hclass hexec
  · rename_i hclass
    split at hi
    · rename_i h24
      cases hi
      exact software_simulated env h hin hclass h24 hexec
    · cases hi
  · cases hi

theorem fetches_instruction (h : Represents start K A p) (hin : A.mem.InRange (A.reg 15) 4) :
    Fetches p A.instruction := by
  unfold Fetches
  rw [h.mem, h.pc, memoryReadWord_inRange hin]
  rfl

omit [Platform] in
/-- A condition other than 1111 is one of fifteen. -/
theorem condition_lt {c : ℕ} {inst : Word} (hc : getBits inst 31 28 = c) (hne : c ≠ 15) : c < 15 := by
  have hlt := getBits_lt_sixteen inst (show 31 - 28 = 3 from rfl)
  omega

/-- A supported instruction of the architecture is one step of the simulator. -/
theorem step_simulated (env : Env) (h : Represents start K A p) (hsup : Supported K A)
    (hstep : step A env.scanned = some B) :
    ∃ q, armStep env p = .ok (0, q) ∧ Represents start (knownAfter K A) B q := by
  obtain ⟨⟨hin, hcond⟩, hrest⟩ := Option.ite_none_right_eq_some.mp hstep
  have hfetch := fetches_instruction h hin
  have htest := flagCond_simulated h hsup (condition_lt rfl hcond)
  unfold knownAfter
  by_cases hholds : holds A.flags A.instruction = true
  · rw [if_pos hholds] at hrest
    obtain ⟨i, hi, hexec⟩ := Option.bind_eq_some_iff.mp hrest
    obtain ⟨q, hq, hB⟩ := body_simulated env h hin hi (hsup.body hholds i hi) hexec
    refine ⟨q, ?_, ?_⟩
    · rw [armStep_run hfetch env (htest.trans hholds)]
      exact hq
    · rw [if_pos hholds, hi]
      exact hB
  · -- A skipped word only moves r15.
    rw [if_neg hholds] at hrest
    cases hrest
    have hskip := armStep_skip hfetch env (htest.trans (Bool.eq_false_of_not_eq_true hholds))
    refine ⟨p.advance, hskip, ?_⟩
    rw [if_neg hholds]
    exact h.next

omit [Platform] in
/-- Only a word of the last class decodes to a software interrupt. -/
theorem decode_software {inst : Word} {number : BitVec 24}
    (hi : decode inst = some (.software number)) :
    getBits inst 27 25 = 7 ∧ bit inst 24 = true ∧
      number = BitVec.ofNat 24 (getBits inst 23 0) := by
  have hdata (operand : ShifterOperand) : dataOf inst operand ≠ some (.software number) := by
    intro hd
    unfold dataOf at hd
    split at hd <;> cases hd
  have htransfer (offset : Offset) : transferOf inst offset ≠ some (.software number) := by
    intro ht
    obtain ⟨m, -, he⟩ := transferOf_eq ht
    cases he
  have hmultiply : multiplyOf inst ≠ some (.software number) := by
    intro hm
    unfold multiplyOf at hm
    split at hm <;> cases hm
  have hhalf : halfOf inst ≠ some (.software number) := by
    intro hh
    obtain ⟨k, -, hrest⟩ := Option.bind_eq_some_iff.mp hh
    obtain ⟨m, -, he⟩ := Option.bind_eq_some_iff.mp hrest
    cases he
  unfold decode at hi
  split at hi
  · split at hi
    · exact absurd hi (hdata _)
    split at hi
    · split at hi
      · cases hi
      · split at hi
        · cases hi
        · exact absurd hi (hdata _)
    · split at hi
      · exact absurd hi hmultiply
      · exact absurd hi hhalf
  · exact absurd hi (hdata _)
  · exact absurd hi (htransfer _)
  · split at hi
    · exact absurd hi (htransfer _)
    · cases hi
  · split at hi <;> cases hi
  · cases hi
  · rename_i hclass
    split at hi
    · rename_i h24
      cases hi
      exact ⟨hclass, h24, rfl⟩
    · cases hi
  · cases hi

/-- The call that ends the simulation does end it. -/
theorem exit_simulated (env : Env) (h : Represents start K A p) (hsup : Supported K A)
    (hexit : Exits A) : armStep env p = .ok (9, p.advance) := by
  obtain ⟨hin, hcond, hholds, hi⟩ := hexit
  obtain ⟨hclass, h24, hnumber⟩ := decode_software hi
  have htest := flagCond_simulated h hsup (condition_lt rfl hcond)
  have hbody := software_body env h hin hclass h24
  rw [← hnumber] at hbody
  rw [armStep_run (fetches_instruction h hin) env (htest.trans hholds)]
  exact hbody

/-! Runs. -/

/-- A step of the simulator that raises no exception, in the surroundings `env`. -/
def SimulatorStep (env : Env) (p q : ArmCore) : Prop := armStep env p = .ok (0, q)

/-- The machine that a state of the simulator shows. -/
def machineOf (p : ArmCore) (hb : p.bank < 6) (hpc : p.pc.toNat % 4 = 0) : Machine where
  reg := fun r => p.gp r
  aligned := by
    change (p.gp 15).toNat % 4 = 0
    rw [gp_pc hb]
    exact hpc
  flags := fun f => p.cpsr.getLsbD f.position
  mem := p.mem
  output := p.output

/-- To begin with, every flag is known. -/
theorem machineOf_represents (hb : p.bank < 6) (hpc : p.pc.toNat % 4 = 0) (K : Known) :
    Represents p K (machineOf p hb hpc) p where
  cells := hb
  reg := fun _ => rfl
  flag := fun _ _ => rfl
  mem := rfl
  output := rfl
  status := rfl
  hidden := fun _ _ _ => rfl

/-- The simulator's steps simulate the supported steps of the architecture. -/
theorem simulator_simulates (start : ArmCore) :
    Simulates SupportedStep SimulatorStep Env.scanned
      (fun s p => Represents start s.2 s.1 p) := by
  intro env s t p h hstep
  obtain ⟨hsup, hnext, hknown⟩ := hstep
  obtain ⟨q, hq, hB⟩ := step_simulated env h hsup hnext
  rw [← hknown] at hB
  exact ⟨q, hq, hB⟩

end steps

/-- `CMP r0, #1`, `MOVLT r1, #7` and `SWI 0x123456` in user mode. -/
abbrev comparesAndMoves : ArmCore :=
  ArmCore.boot 0x10
    [0xE3, 0x50, 0x00, 0x01, 0xB3, 0xA0, 0x10, 0x07, 0xEF, 0x12, 0x34, 0x56]

abbrev firstMachine : Machine := @machineOf makefile comparesAndMoves (by decide) (by decide)

abbrev secondMachine : Machine := (@step makefile firstMachine 0).get (by decide)

abbrev thirdMachine : Machine := (@step makefile secondMachine 0).get (by decide)

theorem first_step : @step makefile firstMachine 0 = some secondMachine :=
  (Option.some_get _).symm

theorem second_step : @step makefile secondMachine 0 = some thirdMachine :=
  (Option.some_get _).symm

theorem supported_of_all [Platform] {K : Known} {A : Machine}
    (hc : ∀ f ∈ conditionReads (getBits A.instruction 31 28), K f = true)
    (hls : getBits A.instruction 31 28 ≠ Cond.LS)
    (hbody : (decode A.instruction).all (fun i => i.supported K) = true) : Supported K A := by
  refine ⟨hc, fun h => absurd h hls, fun _ i hi => ?_⟩
  rw [hi] at hbody
  exact hbody

abbrev secondKnown : Known := @knownAfter makefile (fun _ => true) firstMachine

abbrev thirdKnown : Known := @knownAfter makefile secondKnown secondMachine

/-- An instruction that does not use C, and does not set N, Z and V in a way the simulator gets
wrong. -/
def Instruction.carryFree : Instruction → Bool
  | data op s _ _ operand =>
    !operand.misread && !op.readsCarry && (!s || op.isBitwise || op.overflowsRight)
  | multiply _ _ _ _ => false
  | transfer _ _ _ _ _ offset => !offset.misread
  | _ => true

/-- A word whose condition and instruction do without C. -/
def CarryFree (inst : Word) : Prop :=
  .c ∉ conditionReads (getBits inst 31 28) ∧ ∀ i, decode inst = some i → i.carryFree = true

theorem carryFree_of_all {inst : Word}
    (hc : StatusFlag.c ∉ conditionReads (getBits inst 31 28))
    (hbody : (decode inst).all Instruction.carryFree = true) : CarryFree inst := by
  refine ⟨hc, fun i hi => ?_⟩
  rw [hi] at hbody
  exact hbody

section carryFree
variable [Platform]

/-- A step of the architecture with a word that does without C. -/
def CarryFreeStep (input : Word) (A B : Machine) : Prop :=
  CarryFree A.instruction ∧ step A input = some B

/-- All flags but C. -/
def butCarry : Known := fun f => f ≠ .c

omit [Platform] in
theorem supported_of_carryFree {i : Instruction} (h : i.carryFree = true) :
    i.supported butCarry = true := by
  cases i with
  | data op s rd rn operand =>
    obtain ⟨hoperand, -⟩ := Bool.and_eq_true_iff.mp h
    obtain ⟨hmisread, hread⟩ := Bool.and_eq_true_iff.mp hoperand
    exact Bool.and_eq_true_iff.mpr ⟨hmisread, Bool.or_eq_true_iff.mpr (Or.inl hread)⟩
  | transfer load byte mode rd rn offset => exact h
  | _ => rfl

omit [Platform] in
/-- Such an instruction leaves N, Z and V known. -/
theorem settles_of_carryFree (A : Machine) {i : Instruction} (h : i.carryFree = true)
    {f : StatusFlag} (hf : butCarry f = true) : i.settles A butCarry f = true := by
  cases i with
  | data op s rd rn operand =>
    obtain ⟨-, hflags⟩ := Bool.and_eq_true_iff.mp h
    cases s with
    | false => exact hf
    | true =>
      have hv : op.isBitwise = true ∨ op.overflowsRight = true := Bool.or_eq_true_iff.mp hflags
      cases f with
      | n | z => rfl
      | c => cases hf
      | v =>
        change (if op.isBitwise then true else op.overflowsRight) = true
        rcases hv with hb | ho
        · rw [if_pos hb]
        · rw [ho]
          split <;> rfl
  | multiply s rd rm rs => cases h
  | _ => exact hf

theorem carryFree_simulates (start : ArmCore) :
    Simulates CarryFreeStep SimulatorStep Env.scanned
      (fun A p => Represents start butCarry A p) := by
  intro env A B p h hstep
  obtain ⟨⟨hcondition, hbody⟩, hnext⟩ := hstep
  have hsup : Supported butCarry A := by
    refine ⟨fun f hf => ?_, fun hls => ?_, fun _ i hi => supported_of_carryFree (hbody i hi)⟩
    · exact decide_eq_true fun hc => hcondition (hc ▸ hf)
    · rw [hls] at hcondition
      exact absurd hcondition (by decide)
  obtain ⟨q, hq, hB⟩ := step_simulated env h hsup hnext
  refine ⟨q, hq, hB.forget fun f hf => ?_⟩
  cases hi : decode A.instruction with
  | none => simpa only [knownAfter, hi, ite_self] using hf
  | some i =>
    have hsettles := settles_of_carryFree A (hbody i hi) hf
    rw [knownAfter, hi]
    split <;> assumption

end carryFree

end Arch
end ArmSim
