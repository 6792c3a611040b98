import ArmSim.Lib.Agreement
import ArmSim.Trace

/-! The host's byte order.  `registers.c` keeps every register but the CPSR in the byte order of the
target; so a machine that moves to a host of the other order is the same machine with the bytes of
its cells turned round, and `arm_step` does the same on both. -/
namespace ArmSim
open Lib

/-- The cells of a host of byte order `b` as one of byte order `o` holds them. -/
def Registers.onHost (b o : Bool) (r : Registers) : Registers :=
  fun c => if c = cpsrCell ∨ b = o then r c else switchEndian (r c)

def ArmCore.onHost (b o : Bool) (p : ArmCore) : ArmCore := { p with reg := p.reg.onHost b o }

/-- The second result is the first one on the other host. -/
abbrev Moved (b o : Bool) {α : Type} (x y : α × ArmCore) : Prop := y = (x.1, x.2.onHost b o)

section registers
variable {b o e : Bool} (r : Registers)

theorem registersReadCpsr_onHost :
    registersReadCpsr (r.onHost b o) = registersReadCpsr r := by
  unfold registersReadCpsr Registers.onHost
  exact if_pos (Or.inl rfl)

theorem registersGetMode_onHost : registersGetMode (r.onHost b o) = registersGetMode r := by
  unfold registersGetMode
  rw [registersReadCpsr_onHost]

theorem registersWriteCpsr_onHost (v : Word) :
    registersWriteCpsr (r.onHost b o) v = (registersWriteCpsr r v).onHost b o := by
  funext c
  unfold registersWriteCpsr Registers.onHost
  by_cases hc : c = cpsrCell
  · subst hc
    simp
  · simp [hc]

theorem Registers.get_onHost {c : Cell} (hc : c ≠ cpsrCell) :
    @Registers.get ⟨o, e⟩ (r.onHost b o) c = @Registers.get ⟨b, e⟩ r c := by
  unfold Registers.get Registers.onHost
  cases b <;> cases o <;> simp [hc, switchEndian_switchEndian]

theorem Registers.set_onHost {c : Cell} (hc : c ≠ cpsrCell) (v : Word) :
    @Registers.set ⟨o, e⟩ (r.onHost b o) c v = (@Registers.set ⟨b, e⟩ r c v).onHost b o := by
  funext d
  unfold Registers.set Registers.onHost
  by_cases hd : d = c
  · subst hd
    cases b <;> cases o <;> simp [hc, switchEndian_switchEndian]
  · simp [hd]

/-- Only the CPSR is kept in the byte order of the host. -/
theorem bankPointer_ne_cpsr {reg m : ℕ} (hreg : reg ≠ 16) {c : Cell}
    (h : bankPointer reg m = .ok c) : c ≠ cpsrCell := by
  rintro rfl
  exact hreg (bankPointer_reg h).symm

theorem registersRead_onHost {reg : ℕ} (hreg : reg ≠ 16) (mode : ℕ) :
    @registersRead ⟨o, e⟩ (r.onHost b o) reg mode = @registersRead ⟨b, e⟩ r reg mode := by
  rw [@registersRead_eq ⟨o, e⟩, @registersRead_eq ⟨b, e⟩]
  cases hcell : bankPointer reg (getReadWriteMode mode) with
  | error f => rfl
  | ok c => exact congrArg Except.ok (r.get_onHost (bankPointer_ne_cpsr hreg hcell))

theorem registersWrite_onHost {reg : ℕ} (hreg : reg ≠ 16) (mode : ℕ) (v : Word) :
    Agree (fun s s' => s' = s.onHost b o) (@registersWrite ⟨b, e⟩ r reg mode v)
      (@registersWrite ⟨o, e⟩ (r.onHost b o) reg mode v) := by
  rw [@registersWrite_eq ⟨o, e⟩, @registersWrite_eq ⟨b, e⟩]
  apply agree_bind
  intro c hcell
  exact r.set_onHost (bankPointer_ne_cpsr hreg hcell) v

end registers

section core
variable {b o e : Bool} (p : ArmCore)

theorem armReadCpsr_onHost : armReadCpsr (p.onHost b o) = armReadCpsr p :=
  registersReadCpsr_onHost p.reg

theorem armWriteCpsr_onHost (v : Word) :
    armWriteCpsr (p.onHost b o) v = (armWriteCpsr p v).onHost b o := by
  unfold armWriteCpsr ArmCore.onHost
  rw [registersWriteCpsr_onHost]

theorem armCurrentModeHasSpsr_onHost :
    armCurrentModeHasSpsr (p.onHost b o) = armCurrentModeHasSpsr p := by
  unfold armCurrentModeHasSpsr registersCurrentModeHasSpsr ArmCore.onHost
  rw [registersGetMode_onHost]

theorem armReadRegister_onHost {reg : ℕ} (hreg : reg < 16) :
    @armReadRegister ⟨o, e⟩ (p.onHost b o) reg = @armReadRegister ⟨b, e⟩ p reg := by
  unfold armReadRegister armReadRegisterInternal ArmCore.onHost
  rw [registersGetMode_onHost, registersRead_onHost p.reg (Nat.ne_of_lt hreg)]

theorem armReadSpsr_onHost : @armReadSpsr ⟨o, e⟩ (p.onHost b o) = @armReadSpsr ⟨b, e⟩ p := by
  unfold armReadSpsr registersReadSpsr ArmCore.onHost
  rw [registersGetMode_onHost, registersRead_onHost p.reg (by decide)]

theorem armWriteRegister_onHost {reg : ℕ} (hreg : reg < 16) (v : Word) :
    Agree (fun q q' => q' = q.onHost b o) (@armWriteRegister ⟨b, e⟩ p reg v)
      (@armWriteRegister ⟨o, e⟩ (p.onHost b o) reg v) := by
  unfold armWriteRegister armWriteRegisterInternal ArmCore.onHost
  rw [registersGetMode_onHost]
  apply (registersWrite_onHost p.reg (Nat.ne_of_lt hreg) _ v).bind
  rintro s _ _ _ rfl
  rfl

/-- A register written, and a result that the host does not touch. -/
theorem armWriteRegister_returns {reg : ℕ} (hreg : reg < 16) (v : Word) (result : ℤ) :
    Agree (Moved b o) (@armWriteRegister ⟨b, e⟩ p reg v >>= fun q => pure (result, q))
      (@armWriteRegister ⟨o, e⟩ (p.onHost b o) reg v >>= fun q => pure (result, q)) := by
  apply (armWriteRegister_onHost p hreg v).bind
  rintro q _ _ _ rfl
  rfl

theorem armWriteSpsr_onHost (v : Word) :
    Agree (fun q q' => q' = q.onHost b o) (@armWriteSpsr ⟨b, e⟩ p v)
      (@armWriteSpsr ⟨o, e⟩ (p.onHost b o) v) := by
  unfold armWriteSpsr registersWriteSpsr ArmCore.onHost
  rw [registersGetMode_onHost]
  have hwrite : Agree (fun s s' => s' = s.onHost b o)
      (if registersModeHasSpsr (registersGetMode p.reg) then
        @registersWrite ⟨b, e⟩ p.reg SPSR (registersGetMode p.reg) v else .ok p.reg)
      (if registersModeHasSpsr (registersGetMode p.reg) then
        @registersWrite ⟨o, e⟩ (p.reg.onHost b o) SPSR (registersGetMode p.reg) v
        else .ok (p.reg.onHost b o)) :=
    agree_ite Iff.rfl (fun _ _ => registersWrite_onHost p.reg (by decide) _ v) (fun _ _ => rfl)
  apply hwrite.bind
  rintro s _ _ _ rfl
  rfl

theorem armFetch_onHost (value : Word) :
    Agree (fun x y => y = (x.1, x.2.1, x.2.2.onHost b o)) (@armFetch ⟨b, e⟩ p value)
      (@armFetch ⟨o, e⟩ (p.onHost b o) value) := by
  unfold armFetch ArmCore.onHost
  dsimp only
  rw [registersGetMode_onHost, registersRead_onHost p.reg (by decide)]
  apply agree_bind
  intro address _
  apply (registersWrite_onHost p.reg (by decide) _ _).bind
  rintro s _ _ _ rfl
  apply agree_bind
  intro read _
  rfl

-- The memory knows nothing of the host.

theorem armWriteByte_onHost (address : Word) (value : Byte) :
    Agree (Moved b o) (@armWriteByte p address value)
      (@armWriteByte (p.onHost b o) address value) :=
  agree_bind _ (fun _ _ => rfl)

theorem armWriteHalf_onHost (address : Word) (value : Half) :
    Agree (Moved b o) (@armWriteHalf ⟨b, e⟩ p address value)
      (@armWriteHalf ⟨o, e⟩ (p.onHost b o) address value) :=
  agree_bind (memoryWriteHalf p.mem address value e) (fun _ _ => rfl)

theorem armWriteWord_onHost (address : Word) (value : Word) :
    Agree (Moved b o) (@armWriteWord ⟨b, e⟩ p address value)
      (@armWriteWord ⟨o, e⟩ (p.onHost b o) address value) :=
  agree_bind (memoryWriteWord p.mem address value e) (fun _ _ => rfl)

end core

section handlers
variable {b o e : Bool} (p : ArmCore) (ins cpsr : Word)

theorem applyOperator_onHost (shifterOperand : Word) (shifterCarryOut S : ℕ) :
    Agree (Moved b o) (@applyOperator ⟨b, e⟩ p ins shifterOperand shifterCarryOut S cpsr)
      (@applyOperator ⟨o, e⟩ (p.onHost b o) ins shifterOperand shifterCarryOut S cpsr) := by
  have hn : getBits ins 19 16 < 16 := getBits_lt_sixteen ins rfl
  have hd : getBits ins 15 12 < 16 := getBits_lt_sixteen ins rfl
  unfold applyOperator
  dsimp only
  rw [armReadRegister_onHost p hn, armReadSpsr_onHost (b := b),
    armCurrentModeHasSpsr_onHost]
  apply agree_bind
  intro RnValue _
  split
  · rfl
  · rename_i op hop
    apply agree_bind
    intro cpsr _
    have hresult : Agree (fun q q' => q' = q.onHost b o)
        (if op.updateRd then
          @armWriteRegister ⟨b, e⟩ p (getBits ins 15 12) (op.RdValue.setWidth 32) else pure p)
        (if op.updateRd then
          @armWriteRegister ⟨o, e⟩ (p.onHost b o) (getBits ins 15 12) (op.RdValue.setWidth 32)
          else pure (p.onHost b o)) :=
      agree_ite Iff.rfl
        (fun _ _ => armWriteRegister_onHost p hd _) (fun _ _ => rfl)
    apply hresult.bind
    rintro q _ _ _ rfl
    refine agree_ite Iff.rfl (fun _ _ => ?_) (fun _ _ => rfl)
    rw [armWriteCpsr_onHost]
    rfl

theorem armDataProcessingImmediateShift_onHost :
    Agree (Moved b o) (@armDataProcessingImmediateShift ⟨b, e⟩ p ins cpsr)
      (@armDataProcessingImmediateShift ⟨o, e⟩ (p.onHost b o) ins cpsr) := by
  have hm : getBits ins 3 0 < 16 := getBits_lt_sixteen ins rfl
  unfold armDataProcessingImmediateShift
  dsimp only
  rw [armReadRegister_onHost p hm]
  apply agree_bind
  intro RmValue _
  exact applyOperator_onHost p ins cpsr _ _ _

theorem armDataProcessingRegisterShift_onHost :
    Agree (Moved b o) (@armDataProcessingRegisterShift ⟨b, e⟩ p ins cpsr)
      (@armDataProcessingRegisterShift ⟨o, e⟩ (p.onHost b o) ins cpsr) := by
  have hs : getBits ins 11 8 < 16 := getBits_lt_sixteen ins rfl
  have hm : getBits ins 3 0 < 16 := getBits_lt_sixteen ins rfl
  unfold armDataProcessingRegisterShift
  dsimp only
  rw [armReadRegister_onHost p hm,
    armReadRegister_onHost p hs]
  apply agree_bind
  intro RmValue _
  apply agree_bind
  intro RsValue _
  exact applyOperator_onHost p ins cpsr _ _ _

theorem armDataProcessingImmediate_onHost :
    Agree (Moved b o) (@armDataProcessingImmediate ⟨b, e⟩ p ins cpsr)
      (@armDataProcessingImmediate ⟨o, e⟩ (p.onHost b o) ins cpsr) :=
  applyOperator_onHost p ins cpsr _ _ _

theorem armBranch_onHost :
    Agree (Moved b o) (@armBranch ⟨b, e⟩ p ins) (@armBranch ⟨o, e⟩ (p.onHost b o) ins) := by
  unfold armBranch
  dsimp only
  rw [armReadRegister_onHost p (by decide)]
  apply agree_bind
  intro PCvalue _
  have hlink : Agree (fun q q' => q' = q.onHost b o)
      (if getBit ins 24 ≠ 0 then @armWriteRegister ⟨b, e⟩ p LR (PCvalue - 4) else pure p)
      (if getBit ins 24 ≠ 0 then @armWriteRegister ⟨o, e⟩ (p.onHost b o) LR (PCvalue - 4)
        else pure (p.onHost b o)) :=
    agree_ite Iff.rfl (fun _ _ => armWriteRegister_onHost p (by decide) _) (fun _ _ => rfl)
  apply hlink.bind
  rintro q _ _ _ rfl
  exact armWriteRegister_returns q (by decide) _ 0

theorem armMiscellaneous_onHost :
    Agree (Moved b o) (@armMiscellaneous ⟨b, e⟩ p ins)
      (@armMiscellaneous ⟨o, e⟩ (p.onHost b o) ins) := by
  have hd : getBits ins 15 12 < 16 := getBits_lt_sixteen ins rfl
  unfold armMiscellaneous
  change Agree _ _ (if getBit ins 22 ≠ 0 then
    if armCurrentModeHasSpsr ((p.print .bxReached).onHost b o) = false then _ else _ else _)
  rw [armCurrentModeHasSpsr_onHost]
  refine agree_ite Iff.rfl (fun _ _ => ?_) (fun _ _ => ?_)
  · refine agree_ite Iff.rfl (fun _ _ => rfl) (fun _ _ => ?_)
    change Agree _ _ (@armReadSpsr ⟨o, e⟩ ((p.print .bxReached).onHost b o) >>= _)
    rw [armReadSpsr_onHost (b := b)]
    apply agree_bind
    intro SPSRvalue _
    exact armWriteRegister_returns (p.print .bxReached) hd SPSRvalue 0
  · have hcpsr := armReadCpsr_onHost (b := b) (o := o) (p.print .bxReached)
    change Agree _ _ (@armWriteRegister ⟨o, e⟩ ((p.print .bxReached).onHost b o)
      (getBits ins 15 12) (armReadCpsr ((p.print .bxReached).onHost b o)) >>= _)
    rw [hcpsr]
    exact armWriteRegister_returns (p.print .bxReached) hd _ 0

theorem armMiscellaneous2_onHost :
    Agree (Moved b o) (@armMiscellaneous2 ⟨b, e⟩ p ins)
      (@armMiscellaneous2 ⟨o, e⟩ (p.onHost b o) ins) := by
  have hm : getBits ins 3 0 < 16 := getBits_lt_sixteen ins rfl
  unfold armMiscellaneous2
  dsimp only
  rw [armReadRegister_onHost p hm]
  apply agree_bind
  intro RmV _
  exact armWriteRegister_returns p (by decide) _ 0

theorem armMultiply_onHost :
    Agree (Moved b o) (@armMultiply ⟨b, e⟩ p ins cpsr)
      (@armMultiply ⟨o, e⟩ (p.onHost b o) ins cpsr) := by
  have hn : getBits ins 19 16 < 16 := getBits_lt_sixteen ins rfl
  have hs : getBits ins 11 8 < 16 := getBits_lt_sixteen ins rfl
  have hm : getBits ins 3 0 < 16 := getBits_lt_sixteen ins rfl
  unfold armMultiply
  dsimp only
  rw [armReadRegister_onHost p hs,
    armReadRegister_onHost p hm]
  apply agree_bind
  intro RsV _
  apply agree_bind
  intro RmV _
  apply (armWriteRegister_onHost p hn _).bind
  rintro q _ _ _ rfl
  refine agree_ite Iff.rfl (fun _ _ => ?_) (fun _ _ => rfl)
  rw [armWriteCpsr_onHost]
  rfl

end handlers

section transfers
variable {b o e : Bool} (p : ArmCore) (ins : Word)

theorem bBitHandle_onHost (l bit : ℕ) (addr : Word) {rd : ℕ} (hd : rd < 16) :
    Agree (Moved b o) (@bBitHandle ⟨b, e⟩ p l bit addr rd)
      (@bBitHandle ⟨o, e⟩ (p.onHost b o) l bit addr rd) := by
  unfold bBitHandle
  rw [armReadRegister_onHost p hd]
  refine agree_ite Iff.rfl (fun _ _ => ?_) (fun _ _ => ?_)
  · refine agree_ite Iff.rfl (fun _ _ => ?_) (fun _ _ => ?_)
    · apply agree_bind (memoryReadByte p.mem addr 0)
      intro r _
      exact agree_ite Iff.rfl (fun _ _ => rfl) (fun _ _ => armWriteRegister_returns p hd _ _)
    · apply agree_bind (memoryReadWord p.mem addr 0 e)
      intro r _
      exact agree_ite Iff.rfl (fun _ _ => rfl) (fun _ _ => armWriteRegister_returns p hd _ _)
  · refine agree_ite Iff.rfl (fun _ _ => ?_) (fun _ _ => ?_)
    · apply agree_bind
      intro v _
      exact armWriteByte_onHost p addr _
    · apply agree_bind
      intro v _
      exact armWriteWord_onHost p addr v

/-- The helpers of the single transfers also return the address. -/
abbrev MovedAt (b o : Bool) (x y : ℤ × ArmCore × Word) : Prop :=
  y = (x.1, x.2.1.onHost b o, x.2.2)

theorem immediateOffset_onHost (l u bit : ℕ) {rd : ℕ} (hd : rd < 16) (addr offset : Word) :
    Agree (MovedAt b o) (@immediateOffset ⟨b, e⟩ p l u bit rd addr offset)
      (@immediateOffset ⟨o, e⟩ (p.onHost b o) l u bit rd addr offset) := by
  apply (bBitHandle_onHost p l bit _ hd).bind
  rintro ⟨err, q⟩ _ _ _ rfl
  rfl

/-- A base written back. -/
theorem writeBack_onHost (q : ArmCore) (err : ℤ) {rn : ℕ} (hn : rn < 16) (v addr : Word) :
    Agree (MovedAt b o)
      (if err ≠ 0 then pure (err, q, addr)
        else @armWriteRegister ⟨b, e⟩ q rn v >>= fun q => pure (err, q, v))
      (if err ≠ 0 then pure (err, q.onHost b o, addr)
        else @armWriteRegister ⟨o, e⟩ (q.onHost b o) rn v >>= fun q => pure (err, q, v)) := by
  refine agree_ite Iff.rfl (fun _ _ => rfl) (fun _ _ => ?_)
  apply (armWriteRegister_onHost q hn v).bind
  rintro q _ _ _ rfl
  rfl

theorem immediatePreindexing_onHost (l u bit : ℕ) {rn rd : ℕ} (hn : rn < 16) (hd : rd < 16)
    (addr offset : Word) :
    Agree (MovedAt b o) (@immediatePreindexing ⟨b, e⟩ p l u bit rn rd addr offset)
      (@immediatePreindexing ⟨o, e⟩ (p.onHost b o) l u bit rn rd addr offset) := by
  apply (immediateOffset_onHost p l u bit hd addr offset).bind
  rintro ⟨err, q, addr⟩ _ _ _ rfl
  exact writeBack_onHost q err hn addr addr

theorem immediatePostindexing_onHost (l u bit : ℕ) {rn rd : ℕ} (hn : rn < 16) (hd : rd < 16)
    (addr offset : Word) :
    Agree (MovedAt b o) (@immediatePostindexing ⟨b, e⟩ p l u bit rn rd addr offset)
      (@immediatePostindexing ⟨o, e⟩ (p.onHost b o) l u bit rn rd addr offset) := by
  apply (bBitHandle_onHost p l bit addr hd).bind
  rintro ⟨err, q⟩ _ _ _ rfl
  exact writeBack_onHost q err hn _ addr

/-- The handlers drop the address. -/
theorem MovedAt.returns {x y : Except Crash (ℤ × ArmCore × Word)} (h : Agree (MovedAt b o) x y) :
    Agree (Moved b o) (x >>= fun r => pure (r.1, r.2.1)) (y >>= fun r => pure (r.1, r.2.1)) := by
  apply h.bind
  rintro r _ _ _ rfl
  rfl

theorem armLoadStoreImmediateOffset_onHost :
    Agree (Moved b o) (@armLoadStoreImmediateOffset ⟨b, e⟩ p ins)
      (@armLoadStoreImmediateOffset ⟨o, e⟩ (p.onHost b o) ins) := by
  have hn : getBits ins 19 16 < 16 := getBits_lt_sixteen ins rfl
  have hd : getBits ins 15 12 < 16 := getBits_lt_sixteen ins rfl
  unfold armLoadStoreImmediateOffset
  dsimp only
  rw [armReadRegister_onHost p hn]
  apply agree_bind
  intro addressBase _
  have hpre := MovedAt.returns (immediatePreindexing_onHost (b := b) (o := o) (e := e) p
    (getBit ins L_SHIFT) (getBit ins U_SHIFT) (getBit ins B_SHIFT) hn hd addressBase
    (BitVec.ofNat 32 (getBits ins 11 0)))
  have hoff := MovedAt.returns (immediateOffset_onHost (b := b) (o := o) (e := e) p
    (getBit ins L_SHIFT) (getBit ins U_SHIFT) (getBit ins B_SHIFT) hd addressBase
    (BitVec.ofNat 32 (getBits ins 11 0)))
  have hpost := MovedAt.returns (immediatePostindexing_onHost (b := b) (o := o) (e := e) p
    (getBit ins L_SHIFT) (getBit ins U_SHIFT) (getBit ins B_SHIFT) hn hd addressBase
    (BitVec.ofNat 32 (getBits ins 11 0)))
  -- Loads and stores go through the same helpers.
  refine agree_ite Iff.rfl (fun _ _ => ?_) (fun _ _ => ?_)
  all_goals
    refine agree_ite Iff.rfl (fun _ _ => ?_) (fun _ _ => ?_)
    · exact agree_ite Iff.rfl (fun _ _ => hpre) (fun _ _ => hoff)
    · exact agree_ite Iff.rfl (fun _ _ => rfl) (fun _ _ => hpost)

theorem armLoadStoreRegisterOffset_onHost :
    Agree (Moved b o) (@armLoadStoreRegisterOffset ⟨b, e⟩ p ins)
      (@armLoadStoreRegisterOffset ⟨o, e⟩ (p.onHost b o) ins) := by
  have hn : getBits ins 19 16 < 16 := getBits_lt_sixteen ins rfl
  have hd : getBits ins 15 12 < 16 := getBits_lt_sixteen ins rfl
  have hm : getBits ins 3 0 < 16 := getBits_lt_sixteen ins rfl
  unfold armLoadStoreRegisterOffset
  dsimp only
  rw [armReadRegister_onHost p hm, armReadRegister_onHost p hn, armReadCpsr_onHost]
  apply agree_bind
  intro offset _
  apply agree_bind
  intro addressBase _
  generalize scaledOffset _ _ _ offset _ = offset
  generalize getBit ins L_SHIFT = l
  generalize getBit ins U_SHIFT = u
  generalize getBit ins B_SHIFT = bit
  have hpre := MovedAt.returns (immediatePreindexing_onHost (b := b) (o := o) (e := e) p l u bit
    hn hd addressBase offset)
  have hoff := MovedAt.returns (immediateOffset_onHost (b := b) (o := o) (e := e) p l u bit
    hd addressBase offset)
  have hpost := MovedAt.returns (immediatePostindexing_onHost (b := b) (o := o) (e := e) p l u
    bit hn hd addressBase offset)
  split
  · exact hpost
  · rfl
  · exact hoff
  · exact hpre
  · exact hpost
  · rfl
  · exact hoff
  · exact hpre
  · rfl

/-- The address of a miscellaneous transfer, and the state with the base written back. -/
theorem miscellaneousAddress_onHost :
    Agree (fun r r' => r' = r.map fun a => (a.1, a.2.onHost b o))
      (@miscellaneousAddress ⟨b, e⟩ p ins) (@miscellaneousAddress ⟨o, e⟩ (p.onHost b o) ins) := by
  have hn : getBits ins 19 16 < 16 := getBits_lt_sixteen ins rfl
  have hm : getBits ins 3 0 < 16 := getBits_lt_sixteen ins rfl
  have hbase (address v : Word) : Agree (fun r r' => r' = r.map fun a => (a.1, a.2.onHost b o))
      (@armWriteRegister ⟨b, e⟩ p (getBits ins 19 16) v >>= fun q => pure (some (address, q)))
      (@armWriteRegister ⟨o, e⟩ (p.onHost b o) (getBits ins 19 16) v >>= fun q =>
        pure (some (address, q))) := by
    apply (armWriteRegister_onHost p hn v).bind
    rintro q _ _ _ rfl
    rfl
  unfold miscellaneousAddress
  dsimp only
  rw [armReadRegister_onHost p hn, armReadRegister_onHost p hm]
  refine agree_ite Iff.rfl (fun _ _ => agree_bind _ (fun _ _ => rfl)) (fun _ _ => ?_)
  refine agree_ite Iff.rfl (fun _ _ => ?_) (fun _ _ => ?_)
  · exact agree_bind _ (fun _ _ => agree_bind _ (fun _ _ => rfl))
  refine agree_ite Iff.rfl (fun _ _ => agree_bind _ (fun _ _ => hbase _ _)) (fun _ _ => ?_)
  refine agree_ite Iff.rfl (fun _ _ => ?_) (fun _ _ => ?_)
  · exact agree_bind _ (fun _ _ => agree_bind _ (fun _ _ => hbase _ _))
  refine agree_ite Iff.rfl (fun _ _ => agree_bind _ (fun _ _ => hbase _ _)) (fun _ _ => ?_)
  refine agree_ite Iff.rfl (fun _ _ => ?_) (fun _ _ => rfl)
  exact agree_bind _ (fun _ _ => agree_bind _ (fun _ _ => hbase _ _))

theorem miscellaneousTransfer_onHost (lshBits : ℕ) {rd : ℕ} (hd : rd < 16) (address : Word) :
    Agree (Moved b o) (@miscellaneousTransfer ⟨b, e⟩ p lshBits rd address)
      (@miscellaneousTransfer ⟨o, e⟩ (p.onHost b o) lshBits rd address) := by
  unfold miscellaneousTransfer
  rw [armReadRegister_onHost p hd]
  split
  · exact agree_bind _ (fun v _ => armWriteHalf_onHost p address _)
  · refine agree_ite Iff.rfl (fun hdouble _ => ?_) (fun _ _ => rfl)
    apply agree_bind (memoryReadWord p.mem address 0 e)
    rintro ⟨err, v⟩ _
    apply (armWriteRegister_onHost p hd v).bind
    rintro q _ _ _ rfl
    refine agree_ite Iff.rfl (fun _ _ => rfl) (fun _ _ => ?_)
    apply agree_bind (memoryReadWord q.mem (address + 4) v e)
    rintro ⟨err, v⟩ _
    exact armWriteRegister_returns q (hdouble.next hd) v err
  · refine agree_ite Iff.rfl (fun hdouble _ => ?_) (fun _ _ => rfl)
    apply agree_bind
    intro v _
    apply (armWriteWord_onHost p address v).bind
    rintro ⟨err, q⟩ _ _ _ rfl
    refine agree_ite Iff.rfl (fun _ _ => rfl) (fun _ _ => ?_)
    dsimp only
    rw [armReadRegister_onHost q (hdouble.next hd)]
    exact agree_bind _ (fun v _ => armWriteWord_onHost q (address + 4) v)
  · apply agree_bind (memoryReadHalf p.mem address 0 e)
    exact fun r _ => armWriteRegister_returns p hd _ _
  · apply agree_bind (memoryReadByte p.mem address 0)
    exact fun r _ => armWriteRegister_returns p hd _ _
  · apply agree_bind (memoryReadHalf p.mem address 0 e)
    exact fun r _ => armWriteRegister_returns p hd _ _
  · rfl

theorem armLoadStoreMiscellaneous_onHost :
    Agree (Moved b o) (@armLoadStoreMiscellaneous ⟨b, e⟩ p ins)
      (@armLoadStoreMiscellaneous ⟨o, e⟩ (p.onHost b o) ins) := by
  have hd : getBits ins 15 12 < 16 := getBits_lt_sixteen ins rfl
  apply (miscellaneousAddress_onHost p ins).bind
  rintro r _ _ _ rfl
  cases r with
  | none => rfl
  | some a => exact miscellaneousTransfer_onHost a.2 _ hd a.1

/-- The transfer loop at the same address, with the same data. -/
theorem multipleStep_onHost (L : ℕ) (registerList : BitVec 16) (s : MultipleLoop) {i : ℕ}
    (hi : i < 16) :
    Agree (fun s s' => s' = { s with p := s.p.onHost b o })
      (@multipleStep ⟨b, e⟩ L registerList s i)
      (@multipleStep ⟨o, e⟩ L registerList { s with p := s.p.onHost b o } i) := by
  obtain ⟨address, data, q⟩ := s
  unfold multipleStep
  dsimp only
  rw [armReadRegister_onHost q hi]
  refine agree_ite Iff.rfl (fun _ _ => ?_) (fun _ _ => rfl)
  refine agree_ite Iff.rfl (fun _ _ => ?_) (fun _ _ => ?_)
  · apply agree_bind (memoryReadWord q.mem address data e)
    rintro ⟨err, v⟩ _
    apply (armWriteRegister_onHost q hi _).bind
    rintro q _ _ _ rfl
    rfl
  · apply agree_bind
    intro v _
    apply (armWriteWord_onHost q address v).bind
    rintro ⟨err, q⟩ _ _ _ rfl
    rfl

theorem armLoadStoreMultiple_onHost (env : Env) :
    Agree (Moved b o) (@armLoadStoreMultiple ⟨b, e⟩ env p ins)
      (@armLoadStoreMultiple ⟨o, e⟩ env (p.onHost b o) ins) := by
  have hn : getBits ins 19 16 < 16 := getBits_lt_sixteen ins rfl
  unfold armLoadStoreMultiple
  dsimp only
  rw [armReadRegister_onHost p hn]
  apply agree_bind
  intro RnV _
  apply Agree.bind (R := fun s s' : MultipleLoop => s' = { s with p := s.p.onHost b o })
  · refine agree_foldlM rfl ?_
    rintro i hi s _ rfl
    exact multipleStep_onHost _ _ s (List.mem_range.mp hi)
  rintro ⟨address, data, q⟩ _ _ _ rfl
  dsimp only
  have hstatus : Agree (fun q q' => q' = q.onHost b o)
      (if getBit ins 20 ≠ 0 ∧ getBit ins 22 ≠ 0 ∧ getBit ins 15 ≠ 0 then
        @armReadSpsr ⟨b, e⟩ q >>= fun spsr => pure (armWriteCpsr q spsr) else pure q)
      (if getBit ins 20 ≠ 0 ∧ getBit ins 22 ≠ 0 ∧ getBit ins 15 ≠ 0 then
        @armReadSpsr ⟨o, e⟩ (q.onHost b o) >>= fun spsr =>
          pure (armWriteCpsr (q.onHost b o) spsr) else pure (q.onHost b o)) := by
    rw [armReadSpsr_onHost (b := b)]
    refine agree_ite Iff.rfl (fun _ _ => agree_bind _ (fun spsr _ => ?_)) (fun _ _ => rfl)
    rw [armWriteCpsr_onHost]
    rfl
  apply hstatus.bind
  rintro q _ _ _ rfl
  have hbase (W : ℕ) (v : Word) : Agree (fun q q' => q' = q.onHost b o)
      (if W = 1 then @armWriteRegister ⟨b, e⟩ q (getBits ins 19 16) v else pure q)
      (if W = 1 then @armWriteRegister ⟨o, e⟩ (q.onHost b o) (getBits ins 19 16) v
        else pure (q.onHost b o)) :=
    agree_ite Iff.rfl (fun _ _ => armWriteRegister_onHost q hn v) (fun _ _ => rfl)
  apply (hbase _ _).bind
  rintro q _ _ _ rfl
  rfl

end transfers

section step
variable {b o e : Bool} (env : Env) (p : ArmCore)

theorem printStringLoop_onHost (room : ℕ) (address : Word) (value : Byte) (c : List Byte) :
    printStringLoop (p.onHost b o) room address value c =
      printStringLoop p room address value c := by
  induction room generalizing address value c with
  | zero => rfl
  | succ room ih =>
    unfold printStringLoop
    simp only [ih]
    rfl

theorem printString_onHost :
    Agree (fun q q' => q' = q.onHost b o) (@printString ⟨b, e⟩ env p)
      (@printString ⟨o, e⟩ env (p.onHost b o)) := by
  unfold printString
  rw [armReadRegister_onHost p (by decide)]
  apply agree_bind
  intro address _
  rw [printStringLoop_onHost]
  exact agree_bind _ (fun _ _ => rfl)

/-- The entry of an interrupt: the writes behind the new CPSR go to the bank that it selects, on
both hosts. -/
theorem armException_onHost (exception : ℕ) :
    Agree (Moved b o) (@armException ⟨b, e⟩ env p exception)
      (@armException ⟨o, e⟩ env (p.onHost b o) exception) := by
  unfold armException
  dsimp only
  rw [armReadRegister_onHost p (show 15 < 16 by decide),
    armReadRegister_onHost p (show 0 < 16 by decide),
    armReadRegister_onHost p (show SP < 16 by decide), armReadCpsr_onHost]
  refine agree_ite Iff.rfl (fun _ _ => ?_) (fun _ _ => ?_)
  · apply agree_bind
    intro address _
    apply agree_bind (memoryReadWord p.mem (address - 8) env.instruction e)
    intro r _
    refine agree_ite Iff.rfl (fun _ _ => rfl) (fun _ _ => ?_)
    refine agree_ite Iff.rfl (fun _ _ => agree_bind _ (fun _ _ => rfl)) (fun _ _ => ?_)
    refine agree_ite Iff.rfl (fun _ _ => agree_bind _ (fun _ _ => rfl)) (fun _ _ => ?_)
    refine agree_ite Iff.rfl (fun _ _ => ?_) (fun _ _ => ?_)
    · apply (printString_onHost env p).bind
      rintro q _ _ _ rfl
      rfl
    · refine agree_ite Iff.rfl (fun _ _ => ?_) (fun _ _ => rfl)
      exact armWriteRegister_returns p (by decide) _ 0
  refine agree_ite Iff.rfl (fun _ _ => ?_) (fun _ _ => ?_)
  · refine agree_ite Iff.rfl (fun _ _ => ?_) (fun _ _ => rfl)
    apply agree_bind
    intro spAdr _
    apply agree_bind
    intro R14irq _
    rw [armWriteCpsr_onHost]
    apply (armWriteSpsr_onHost _ _).bind
    rintro q _ _ _ rfl
    apply (armWriteRegister_onHost q (by decide) _).bind
    rintro q _ _ _ rfl
    apply (armWriteRegister_onHost q (by decide) _).bind
    rintro q _ _ _ rfl
    exact armWriteRegister_returns q (by decide) _ _
  · refine agree_ite Iff.rfl (fun _ _ => ?_) (fun _ _ => rfl)
    rw [armWriteCpsr_onHost]
    exact armWriteRegister_returns _ (by decide) _ _

theorem armFetchCodeInst_onHost (inst cpsr : Word) :
    Agree (Moved b o) (@armFetchCodeInst ⟨b, e⟩ env p inst cpsr)
      (@armFetchCodeInst ⟨o, e⟩ env (p.onHost b o) inst cpsr) := by
  unfold armFetchCodeInst
  dsimp only
  split
  · refine agree_ite Iff.rfl (fun _ _ => ?_) (fun _ _ => ?_)
    · exact agree_ite Iff.rfl (fun _ _ => armMiscellaneous_onHost p inst)
        (fun _ _ => armDataProcessingImmediateShift_onHost p inst cpsr)
    refine agree_ite Iff.rfl (fun _ _ => ?_) (fun _ _ => ?_)
    · exact agree_ite Iff.rfl (fun _ _ => armMiscellaneous2_onHost p inst)
        (fun _ _ => armDataProcessingRegisterShift_onHost p inst cpsr)
    · exact agree_ite Iff.rfl (fun _ _ => armMultiply_onHost p inst cpsr)
        (fun _ _ => armLoadStoreMiscellaneous_onHost p inst)
  · exact agree_ite Iff.rfl (fun _ _ => rfl)
      (fun _ _ => armDataProcessingImmediate_onHost p inst cpsr)
  · exact armLoadStoreImmediateOffset_onHost p inst
  · exact agree_ite Iff.rfl (fun _ _ => armLoadStoreRegisterOffset_onHost p inst) (fun _ _ => rfl)
  · exact armLoadStoreMultiple_onHost p inst env
  · exact armBranch_onHost p inst
  · rfl
  · refine agree_ite Iff.rfl (fun _ _ => rfl) (fun _ _ => ?_)
    exact agree_ite Iff.rfl (fun _ _ => rfl) (fun _ _ => rfl)
  · rfl

theorem armExecuteInstruction_onHost :
    Agree (Moved b o) (@armExecuteInstruction ⟨b, e⟩ env p)
      (@armExecuteInstruction ⟨o, e⟩ env (p.onHost b o)) := by
  unfold armExecuteInstruction
  apply (armFetch_onHost p 0).bind
  rintro ⟨result, inst, q⟩ _ _ _ rfl
  refine agree_ite Iff.rfl (fun _ _ => ?_) (fun _ _ => rfl)
  dsimp only
  rw [armReadCpsr_onHost]
  exact agree_ite Iff.rfl (fun _ _ => armFetchCodeInst_onHost env q inst _) (fun _ _ => rfl)

/-- A step on one host is the same step on the other. -/
theorem armStep_onHost :
    Agree (Moved b o) (@armStep ⟨b, e⟩ env p) (@armStep ⟨o, e⟩ env (p.onHost b o)) := by
  unfold armStep
  apply (armExecuteInstruction_onHost env p).bind
  rintro ⟨result, q⟩ _ _ _ rfl
  exact agree_ite Iff.rfl (fun _ _ => armException_onHost env q _) (fun _ _ => rfl)

/-- The trace prints the values, and stops at the same missing cells. -/
theorem traceArmState_onHost (t : Trace) (r : Registers) :
    @traceArmState ⟨o, e⟩ t (r.onHost b o) = @traceArmState ⟨b, e⟩ t r := by
  have hmode (mode : ℕ) :
      @traceArmMode ⟨o, e⟩ (r.onHost b o) mode = @traceArmMode ⟨b, e⟩ r mode := by
    have hgeneral : (List.range 16).mapM (fun reg =>
        @registersRead ⟨o, e⟩ (r.onHost b o) reg mode) =
          (List.range 16).mapM (fun reg => @registersRead ⟨b, e⟩ r reg mode) := by
      refine mapM_congr (fun reg hreg => registersRead_onHost r ?_ mode)
      exact Nat.ne_of_lt (List.mem_range.mp hreg)
    unfold traceArmMode registersReadSpsr
    rw [hgeneral, registersRead_onHost r (by decide), registersReadCpsr_onHost]
  unfold traceArmState
  rw [funext hmode]

theorem singleStep_onHost (t : Trace) :
    Agree (Moved b o) (@singleStep ⟨b, e⟩ env t p)
      (@singleStep ⟨o, e⟩ env t (p.onHost b o)) := by
  unfold singleStep
  apply (armStep_onHost env p).bind
  rintro ⟨targetException, q⟩ _ _ _ rfl
  change Agree _ _ (@traceArmState ⟨o, e⟩ t (q.reg.onHost b o) >>= _)
  rw [traceArmState_onHost (b := b)]
  exact agree_bind _ (fun _ _ => rfl)

end step

end ArmSim
