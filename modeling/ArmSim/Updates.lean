import ArmSim.Body
import ArmSim.Lib.Simulation
import Mathlib.Logic.Relation

/-! Everything that happens to the processor is a sequence of three kinds of updates: of the
registers, of the contents of the memory and of the output.  What these keep, every instruction and
every exception keeps. -/
namespace ArmSim
open Lib

/-- One update; a store does not change the size of the memory. -/
inductive Update (p : ArmCore) : ArmCore → Prop
  | registers (r : Registers) : Update p { p with reg := r }
  | memory (mem : Memory) (hsize : mem.size = p.mem.size) : Update p { p with mem := mem }
  | print (x : Printed) : Update p (p.print x)

/-- Any number of updates. -/
abbrev Updates (p q : ArmCore) : Prop := Relation.ReflTransGen Update p q

/-- The computation, if it returns, has made updates only. -/
abbrev Updating (p : ArmCore) (x : Except Crash (ℤ × ArmCore)) : Prop :=
  Ends x (fun r => Updates p r.2) (fun _ => True)

section primitives
variable {p q : ArmCore}

theorem Updates.registers (h : Updates p q) (r : Registers) : Updates p { q with reg := r } :=
  h.tail (.registers r)

theorem Updates.memory (h : Updates p q) (mem : Memory) (hsize : mem.size = q.mem.size) :
    Updates p { q with mem := mem } := h.tail (.memory mem hsize)

theorem Updates.print (h : Updates p q) (x : Printed) : Updates p (q.print x) := h.tail (.print x)

theorem Updates.cpsr (h : Updates p q) (v : Word) : Updates p (armWriteCpsr q v) :=
  h.registers _

/-- A run of updates keeps what each of them keeps. -/
theorem Updates.related {R : ArmCore → ArmCore → Prop} (h : Updates p q) (refl : ∀ p, R p p)
    (trans : ∀ p q r, R p q → R q r → R p r) (keep : ∀ p q, Update p q → R p q) : R p q := by
  induction h with
  | refl => exact refl p
  | tail _ hlast ih => exact trans _ _ _ ih (keep _ _ hlast)

variable [Platform]

theorem Updates.writeRegisterInternal (h : Updates p q) (reg mode : ℕ) (v : Word) :
    Ends (armWriteRegisterInternal q reg mode v) (Updates p) (fun _ => True) := by
  unfold armWriteRegisterInternal
  rw [registersWrite_eq]
  cases bankPointer reg (getReadWriteMode mode) with
  | error e => trivial
  | ok c => exact h.registers _

theorem Updates.writeRegister (h : Updates p q) (reg : ℕ) (v : Word) :
    Ends (armWriteRegister q reg v) (Updates p) (fun _ => True) :=
  h.writeRegisterInternal reg _ v

theorem Updates.writeSpsr (h : Updates p q) (v : Word) :
    Ends (armWriteSpsr q v) (Updates p) (fun _ => True) := by
  unfold armWriteSpsr registersWriteSpsr
  split
  · rw [registersWrite_eq]
    cases bankPointer SPSR (getReadWriteMode (registersGetMode q.reg)) with
    | error e => trivial
    | ok c => exact h.registers _
  · exact h

omit [Platform] in
theorem Updates.writeByte (h : Updates p q) (a : Word) (v : Byte) :
    Ends (armWriteByte q a v) (fun r => Updates p r.2) (fun _ => True) :=
  ((memoryWriteByte_ends q.mem a v).mono (fun _ h => h) (fun _ _ => trivial)).bind
    (fun r hr => h.memory r.2 hr.2)

theorem Updates.writeHalf (h : Updates p q) (a : Word) (v : Half) :
    Ends (armWriteHalf q a v) (fun r => Updates p r.2) (fun _ => True) :=
  ((memoryWriteHalf_ends q.mem a v ENDIANESS).mono (fun _ h => h) (fun _ _ => trivial)).bind
    (fun r hr => h.memory r.2 hr.2)

theorem Updates.writeWord (h : Updates p q) (a v : Word) :
    Ends (armWriteWord q a v) (fun r => Updates p r.2) (fun _ => True) :=
  ((memoryWriteWord_ends q.mem a v ENDIANESS).mono (fun _ h => h) (fun _ _ => trivial)).bind
    (fun r hr => h.memory r.2 hr.2.1)

end primitives

section handlers
variable [Platform] (p : ArmCore)

theorem applyOperator_updates (ins a : Word) (sc S : ℕ) (cpsr : Word) :
    Updating p (applyOperator p ins a sc S cpsr) := by
  unfold applyOperator
  apply (ends_trivial _).bind
  intro RnValue _
  split
  · exact Relation.ReflTransGen.refl
  · rename_i op _
    apply (ends_trivial _).bind
    intro cpsr _
    have hwrite : Ends (if op.updateRd then
        armWriteRegister p (getBits ins 15 12) (op.RdValue.setWidth 32) else pure p)
        (Updates p) (fun _ => True) :=
      ends_ite (fun _ => Updates.writeRegister .refl _ _) (fun _ => .refl)
    apply hwrite.bind
    intro q hq
    exact ends_ite (fun _ => hq.cpsr _) (fun _ => hq)

theorem armBranch_updates (ins : Word) : Updating p (armBranch p ins) := by
  unfold armBranch
  apply (ends_trivial _).bind
  intro PCvalue _
  have hlink : Ends (if getBit ins 24 ≠ 0 then armWriteRegister p LR (PCvalue - 4) else pure p)
      (Updates p) (fun _ => True) :=
    ends_ite (fun _ => Updates.writeRegister .refl _ _) (fun _ => .refl)
  apply hlink.bind
  intro q hq
  exact (hq.writeRegister PC _).bind (fun _ h => h)

theorem armMiscellaneous_updates (ins : Word) : Updating p (armMiscellaneous p ins) := by
  have hprint : Updates p (p.print .bxReached) := Updates.print .refl _
  unfold armMiscellaneous
  refine ends_ite (fun _ => ends_ite (fun _ => hprint) (fun _ => ?_)) (fun _ => ?_)
  · apply (ends_trivial _).bind
    intro v _
    exact (hprint.writeRegister _ v).bind (fun _ h => h)
  · exact (hprint.writeRegister _ _).bind (fun _ h => h)

theorem armMiscellaneous2_updates (ins : Word) : Updating p (armMiscellaneous2 p ins) := by
  unfold armMiscellaneous2
  apply (ends_trivial _).bind
  intro v _
  exact (Updates.writeRegister .refl PC _).bind (fun _ h => h)

theorem armMultiply_updates (ins cpsr : Word) : Updating p (armMultiply p ins cpsr) := by
  unfold armMultiply
  apply (ends_trivial _).bind
  intro RsV _
  apply (ends_trivial _).bind
  intro RmV _
  apply (Updates.writeRegister .refl _ _).bind
  intro q hq
  exact ends_ite (fun _ => hq.cpsr _) (fun _ => hq)

end handlers

section transfers
variable [Platform] (p : ArmCore)

theorem bBitHandle_updates (l b : ℕ) (addr : Word) (rd : ℕ) :
    Updating p (bBitHandle p l b addr rd) := by
  unfold bBitHandle
  refine ends_ite (fun _ => ends_ite (fun _ => ?_) (fun _ => ?_))
    (fun _ => ends_ite (fun _ => ?_) (fun _ => ?_))
  · apply (ends_trivial _).bind
    intro r _
    exact ends_ite (fun _ => .refl)
      (fun _ => (Updates.writeRegister .refl rd _).bind (fun _ h => h))
  · apply (ends_trivial _).bind
    intro r _
    exact ends_ite (fun _ => .refl)
      (fun _ => (Updates.writeRegister .refl rd _).bind (fun _ h => h))
  · exact (ends_trivial _).bind (fun v _ => Updates.writeByte .refl addr _)
  · exact (ends_trivial _).bind (fun v _ => Updates.writeWord .refl addr v)

/-- The helpers of the two single transfers. -/
abbrev Helping (p : ArmCore) (x : Except Crash (ℤ × ArmCore × Word)) : Prop :=
  Ends x (fun r => Updates p r.2.1) (fun _ => True)

theorem immediateOffset_updates (l u b rd : ℕ) (addr offset : Word) :
    Helping p (immediateOffset p l u b rd addr offset) :=
  (bBitHandle_updates p l b _ rd).bind (fun _ h => h)

theorem immediatePreindexing_updates (l u b rn rd : ℕ) (addr offset : Word) :
    Helping p (immediatePreindexing p l u b rn rd addr offset) := by
  apply (immediateOffset_updates p l u b rd addr offset).bind
  intro r hr
  exact ends_ite (fun _ => hr) (fun _ => (hr.writeRegister rn _).bind (fun _ h => h))

theorem immediatePostindexing_updates (l u b rn rd : ℕ) (addr offset : Word) :
    Helping p (immediatePostindexing p l u b rn rd addr offset) := by
  apply (bBitHandle_updates p l b addr rd).bind
  intro r hr
  exact ends_ite (fun _ => hr) (fun _ => (hr.writeRegister rn _).bind (fun _ h => h))

theorem armLoadStoreImmediateOffset_updates (ins : Word) :
    Updating p (armLoadStoreImmediateOffset p ins) := by
  have hoffset (base : Word) := immediateOffset_updates p (getBit ins L_SHIFT) (getBit ins U_SHIFT)
    (getBit ins B_SHIFT) (getBits ins 15 12) base (BitVec.ofNat 32 (getBits ins 11 0))
  have hpre (base : Word) := immediatePreindexing_updates p (getBit ins L_SHIFT)
    (getBit ins U_SHIFT) (getBit ins B_SHIFT) (getBits ins 19 16) (getBits ins 15 12) base
    (BitVec.ofNat 32 (getBits ins 11 0))
  have hpost (base : Word) := immediatePostindexing_updates p (getBit ins L_SHIFT)
    (getBit ins U_SHIFT) (getBit ins B_SHIFT) (getBits ins 19 16) (getBits ins 15 12) base
    (BitVec.ofNat 32 (getBits ins 11 0))
  unfold armLoadStoreImmediateOffset
  apply (ends_trivial _).bind
  intro base _
  refine ends_ite (fun _ => ends_ite (fun _ => ends_ite (fun _ => ?_) (fun _ => ?_))
      (fun _ => ends_ite (fun _ => .refl) (fun _ => ?_)))
    (fun _ => ends_ite (fun _ => ends_ite (fun _ => ?_) (fun _ => ?_))
      (fun _ => ends_ite (fun _ => .refl) (fun _ => ?_)))
  · exact (hpre base).bind (fun _ h => h)
  · exact (hoffset base).bind (fun _ h => h)
  · exact (hpost base).bind (fun _ h => h)
  · exact (hpre base).bind (fun _ h => h)
  · exact (hoffset base).bind (fun _ h => h)
  · exact (hpost base).bind (fun _ h => h)

theorem armLoadStoreRegisterOffset_updates (ins : Word) :
    Updating p (armLoadStoreRegisterOffset p ins) := by
  unfold armLoadStoreRegisterOffset
  apply (ends_trivial _).bind
  intro offset _
  apply (ends_trivial _).bind
  intro base _
  dsimp only
  split
  · exact (immediatePostindexing_updates ..).bind (fun _ h => h)
  · exact .refl
  · exact (immediateOffset_updates ..).bind (fun _ h => h)
  · exact (immediatePreindexing_updates ..).bind (fun _ h => h)
  · exact (immediatePostindexing_updates ..).bind (fun _ h => h)
  · exact .refl
  · exact (immediateOffset_updates ..).bind (fun _ h => h)
  · exact (immediatePreindexing_updates ..).bind (fun _ h => h)
  · exact .refl

/-- The base may be written back before the access. -/
theorem miscellaneousAddress_updates (ins : Word) :
    Ends (miscellaneousAddress p ins) (fun r => ∀ a q, r = some (a, q) → Updates p q)
      (fun _ => True) := by
  have hkeep (a : Word) : ∀ b q, some (a, p) = some (b, q) → Updates p q := by
    intro b q h
    cases h
    exact .refl
  have hwrite (a v : Word) : Ends (armWriteRegister p (getBits ins 19 16) v >>= fun q =>
      pure (some (a, q))) (fun r => ∀ a q, r = some (a, q) → Updates p q) (fun _ => True) := by
    apply (Updates.writeRegister .refl _ v).bind
    intro q hq a' q' h
    cases h
    exact hq
  unfold miscellaneousAddress
  refine ends_ite (fun _ => ?_) (fun _ => ends_ite (fun _ => ?_) (fun _ => ends_ite (fun _ => ?_)
    (fun _ => ends_ite (fun _ => ?_) (fun _ => ends_ite (fun _ => ?_) (fun _ => ends_ite
      (fun _ => ?_) (fun _ => ?_))))))
  · exact (ends_trivial _).bind (fun _ _ => hkeep _)
  · exact (ends_trivial _).bind (fun _ _ => (ends_trivial _).bind (fun _ _ => hkeep _))
  · exact (ends_trivial _).bind (fun _ _ => hwrite _ _)
  · exact (ends_trivial _).bind (fun _ _ => (ends_trivial _).bind (fun _ _ => hwrite _ _))
  · exact (ends_trivial _).bind (fun _ _ => hwrite _ _)
  · exact (ends_trivial _).bind (fun _ _ => (ends_trivial _).bind (fun _ _ => hwrite _ _))
  · exact fun _ _ h => by cases h

theorem miscellaneousTransfer_updates (lshBits rd : ℕ) (address : Word) :
    Updating p (miscellaneousTransfer p lshBits rd address) := by
  -- The loads write what they have read; the doubleword writes the first register at once.
  have hload {α : Type} (x : Except Crash (ℤ × α)) (f : ℤ × α → Word) :
      Updating p (x >>= fun r => armWriteRegister p rd (f r) >>= fun q => pure (r.1, q)) :=
    (ends_trivial x).bind (fun r _ => (Updates.writeRegister .refl rd (f r)).bind (fun _ h => h))
  unfold miscellaneousTransfer
  split
  · exact (ends_trivial _).bind (fun v _ => Updates.writeHalf .refl address _)
  · refine ends_ite (fun _ => ?_) (fun _ => .refl)
    apply (ends_trivial _).bind
    intro r _
    apply (Updates.writeRegister .refl rd _).bind
    intro q hq
    refine ends_ite (fun _ => hq) (fun _ => ?_)
    exact (ends_trivial _).bind (fun r _ => (hq.writeRegister _ _).bind (fun _ h => h))
  · refine ends_ite (fun _ => ?_) (fun _ => .refl)
    apply (ends_trivial _).bind
    intro v _
    apply (Updates.writeWord .refl address v).bind
    intro r hr
    refine ends_ite (fun _ => hr) (fun _ => ?_)
    exact (ends_trivial _).bind (fun v _ => hr.writeWord _ v)
  · exact hload (armReadHalf p address 0) (fun r => r.2.setWidth 32)
  · exact hload (armReadByte p address 0) _
  · exact hload (armReadHalf p address 0) _
  · exact .refl

theorem armLoadStoreMiscellaneous_updates (ins : Word) :
    Updating p (armLoadStoreMiscellaneous p ins) := by
  unfold armLoadStoreMiscellaneous
  apply (miscellaneousAddress_updates p ins).bind
  intro r hr
  match r, hr with
  | none, _ => exact .refl
  | some (a, q), hr =>
    have hq : Updates p q := hr a q rfl
    exact (miscellaneousTransfer_updates q _ _ a).imp (fun _ h => hq.trans h)

theorem multipleStep_updates (L : ℕ) (registerList : BitVec 16) {s : MultipleLoop} (i : ℕ)
    (h : Updates p s.p) :
    Ends (multipleStep L registerList s i) (fun s' => Updates p s'.p) (fun _ => True) := by
  unfold multipleStep
  refine ends_ite (fun _ => ends_ite (fun _ => ?_) (fun _ => ?_)) (fun _ => h)
  · apply (ends_trivial _).bind
    intro r _
    exact (h.writeRegister i _).bind (fun _ h => h)
  · apply (ends_trivial _).bind
    intro v _
    exact (h.writeWord s.address v).bind (fun _ h => h)

theorem armLoadStoreMultiple_updates (env : Env) (ins : Word) :
    Updating p (armLoadStoreMultiple env p ins) := by
  rw [armLoadStoreMultiple_eq]
  apply (ends_trivial _).bind
  intro base _
  have hloop : Ends ((List.range 16).foldlM (multipleStep (getBit ins 20) (listOf ins))
      ⟨firstAddress ins base, env.data, p⟩) (fun s => Updates p s.p) (fun _ => True) :=
    ends_foldlM_range (fun _ (s : MultipleLoop) => Updates p s.p) _ 16 _ .refl
      (fun i _ s hs => multipleStep_updates p _ _ i hs)
  apply hloop.bind
  intro s hs
  unfold multipleEnd
  have hrestore : Ends (if getBit ins 20 ≠ 0 ∧ getBit ins 22 ≠ 0 ∧ getBit ins 15 ≠ 0 then
      armReadSpsr s.p >>= fun spsr => pure (armWriteCpsr s.p spsr) else pure s.p)
      (Updates p) (fun _ => True) :=
    ends_ite (fun _ => (ends_trivial _).bind (fun v _ => hs.cpsr v)) (fun _ => hs)
  apply hrestore.bind
  intro q hq
  have hback : Ends (if getBit ins 21 = 1 then
      armWriteRegister q (getBits ins 19 16) (lastAddress ins base) else pure q)
      (Updates p) (fun _ => True) := ends_ite (fun _ => hq.writeRegister _ _) (fun _ => hq)
  exact hback.bind (fun _ h => h)

end transfers

section steps
variable [Platform] (env : Env) (p : ArmCore)

/-- Every word the decoder is given. -/
theorem armFetchCodeInst_updates (inst cpsr : Word) :
    Updating p (armFetchCodeInst env p inst cpsr) := by
  unfold armFetchCodeInst
  dsimp only
  split
  · refine ends_ite (fun _ => ends_ite (fun _ => armMiscellaneous_updates p inst) (fun _ => ?_))
      (fun _ => ends_ite (fun _ => ends_ite (fun _ => armMiscellaneous2_updates p inst)
        (fun _ => ?_)) (fun _ => ends_ite (fun _ => armMultiply_updates p inst cpsr)
        (fun _ => armLoadStoreMiscellaneous_updates p inst)))
    · exact (ends_trivial _).bind (fun _ _ => applyOperator_updates p inst _ _ _ cpsr)
    · exact (ends_trivial _).bind (fun _ _ =>
        (ends_trivial _).bind (fun _ _ => applyOperator_updates p inst _ _ _ cpsr))
  · exact ends_ite (fun _ => .refl) (fun _ => applyOperator_updates p inst _ _ _ cpsr)
  · exact armLoadStoreImmediateOffset_updates p inst
  · exact ends_ite (fun _ => armLoadStoreRegisterOffset_updates p inst) (fun _ => .refl)
  · exact armLoadStoreMultiple_updates p env inst
  · exact armBranch_updates p inst
  · exact .refl
  · exact ends_ite (fun _ => .refl) (fun _ => ends_ite (fun _ => .refl) (fun _ => .refl))
  · exact .refl

/-- Every exception. -/
theorem armException_updates (exception : ℕ) : Updating p (armException env p exception) := by
  unfold armException
  refine ends_ite (fun _ => ?_) (fun _ => ends_ite (fun _ => ends_ite (fun _ => ?_)
    (fun _ => .refl)) (fun _ => ends_ite (fun _ => ?_) (fun _ => .refl)))
  · -- The software interrupts the simulator serves.
    apply (ends_trivial _).bind
    intro address _
    apply (ends_trivial _).bind
    intro r _
    refine ends_ite (fun _ => .refl) (fun _ => ends_ite (fun _ => ?_) (fun _ => ends_ite
      (fun _ => ?_) (fun _ => ends_ite (fun _ => ?_) (fun _ => ends_ite (fun _ => ?_)
        (fun _ => Updates.print .refl _)))))
    · exact (ends_trivial _).bind (fun v _ => Updates.print .refl _)
    · exact (ends_trivial _).bind (fun v _ => Updates.print .refl _)
    · have hstring : Ends (printString env p) (Updates p) (fun _ => True) :=
        (ends_trivial _).bind (fun _ _ => (ends_trivial _).bind
          (fun c _ => Updates.print .refl _))
      exact hstring.bind (fun _ h => h)
    · exact (Updates.writeRegister .refl 0 _).bind (fun _ h => h)
  · -- The entry of an interrupt.
    apply (ends_trivial _).bind
    intro sp _
    apply (ends_trivial _).bind
    intro lr _
    apply ((Updates.cpsr .refl _).writeSpsr _).bind
    intro q hq
    apply (hq.writeRegister PC _).bind
    intro q hq
    apply (hq.writeRegister LR lr).bind
    intro q hq
    exact (hq.writeRegister SP sp).bind (fun _ h => h)
  · exact ((Updates.cpsr .refl _).writeRegister 15 0).bind (fun _ h => h)

/-- A step is a fetch, and updates. -/
theorem armStep_updates : Updating p.advance (armStep env p) := by
  have hbody (inst : Word) : Updating p.advance (runBody env p.advance inst) := by
    apply (armFetchCodeInst_updates env p.advance inst _).bind
    intro r hr
    refine ends_ite (fun _ => ?_) (fun _ => hr)
    exact (armException_updates env r.2 _).imp (fun _ h => hr.trans h)
  rcases armStep_cases env p with ⟨-, hs⟩ | hs | ⟨inst, -, ⟨-, hs⟩ | ⟨-, hs⟩⟩
  · rw [hs]
    exact (Updates.cpsr .refl _).registers _
  · rw [hs]
    trivial
  · rw [hs]
    exact .refl
  · rw [hs]
    exact hbody inst

end steps

end ArmSim
